import TenantRag.Mappings.SessionMap
import TenantRag.Foundations.Machine
import Mathlib.Data.Finset.Basic

/-!
# The chat registry

`ChatRegistry` in `backend/services.py`: the sessions of every user with their
titles and transcripts, the answer streams that hold a session and the sessions
whose deletion is reserved.

## The model

Every method runs under one reentrant lock, so a method is one step of the
registry: code over the five tables that returns or raises, and leaves what it
did before it raised. Arguments are raw strings, validated as in the source; the
regular expressions for user ids and for the words of a title are parameters.
-/

namespace TenantRag

/-- The regular expressions the registry validates its arguments with. -/
structure RegistrySettings where
  /-- `USER_ID_PATTERN`. -/
  userIdPattern : UserIdPattern
  /-- `_TITLE_WORD.fullmatch`. -/
  titleWord : Text → Bool

/-- `ConversationTranscript`. -/
structure ConversationTranscript where
  /-- `conversation_id`. -/
  conversationId : Uuid
  /-- `question`. -/
  question : Text
  /-- `answer`. -/
  answer : Text
  deriving DecidableEq

/-- `SessionSnapshot`. -/
structure SessionSnapshot where
  /-- `session_id`. -/
  sessionId : Text
  /-- `user_id`. -/
  userId : Text
  /-- `title`. -/
  title : Text
  /-- `conversations`. -/
  conversations : List ConversationTranscript
  deriving DecidableEq

/-- A user and one of the user's sessions. -/
abbrev SessionKey := Text × Text

/-- `ChatRegistry`. -/
structure ChatRegistry where
  /-- `_session_maps`. -/
  sessionMaps : Dict Text SessionMap
  /-- `_titles`. -/
  titles : Dict SessionKey Text
  /-- `_transcripts`. -/
  transcripts : Dict SessionKey (Dict Uuid ConversationTranscript)
  /-- `_active_streams`. -/
  activeStreams : Dict SessionKey (Finset Uuid)
  /-- `_deleting_sessions`. -/
  deletingSessions : Finset SessionKey

/-- The words of a text: `text.split()`. -/
def words : Text → List Text
  | [] => []
  | c :: cs =>
      if isSpace c then words cs
      else
        match cs with
        | [] => [[c]]
        | d :: ds =>
            if isSpace d then [c] :: words (d :: ds)
            else
              match words (d :: ds) with
              | [] => [[c]]
              | w :: ws => (c :: w) :: ws

/-- `validate_session_title(value)`. -/
def validateSessionTitle (titleWord : Text → Bool) (value : Text) : Except PyError Text :=
  if value.contains 10 || value.contains 13 then .error (valueError "session title must be a single line")
  else
    let ws := words (strip value)
    if ws.length < 3 ∨ 6 < ws.length then .error (valueError "session title must contain 3 to 6 words")
    else if ws.any fun w => !titleWord w then
      .error (valueError "session title contains unsupported punctuation")
    else .ok (join [32] ws)

namespace ChatRegistry

/-- `ChatRegistry()`. -/
def empty : ChatRegistry := ⟨.empty, .empty, .empty, .empty, ∅⟩

variable (S : RegistrySettings)

/-- `user = validated_user_id(user_id)`, then `session = required_uuid(session_id, "session_id")`. -/
def sessionKey (userId sessionId : Text) : Except PyError SessionKey :=
  match validatedUserId S.userIdPattern userId with
  | .error e => .error e
  | .ok user =>
      match requiredUuid sessionId "session_id" with
      | .error e => .error e
      | .ok session => .ok (user, session.str)

/-- What is called on `self._map(user)`, which creates the user's session map where there is none. -/
def onMap {α : Type} (userId : Text) (m : Eff SessionMap PyError α) : Eff ChatRegistry PyError α := do
  let user ← .ofExcept (validatedUserId S.userIdPattern userId)
  .zoom (fun r => (r.sessionMaps.get? user).getD (.new user))
    (fun mapping r => { r with sessionMaps := r.sessionMaps.set user mapping }) m

/-- `_snapshot_locked(user, session)`. -/
def snapshotLocked (key : SessionKey) : Eff ChatRegistry PyError SessionSnapshot := do
  let conversationIds ← onMap S key.1 (SessionMap.getConversations key.2)
  let r ← .read id
  match r.transcripts.get? key with
  | none => .raise (keyError "transcripts")
  | some transcripts =>
      match r.titles.get? key with
      | none => .raise (keyError "titles")
      | some title =>
          match conversationIds.mapM transcripts.get? with
          | none => .raise (keyError "conversation_id")
          | some conversations => pure ⟨key.2, key.1, title, conversations⟩

/-- `"New Chat"`. -/
def newChat : Text := text ['N', 'e', 'w', ' ', 'C', 'h', 'a', 't']

/-- `create_session(user_id, session_id)`. -/
def createSession (userId sessionId : Text) : Eff ChatRegistry PyError SessionSnapshot := do
  let key ← .ofExcept (sessionKey S userId sessionId)
  onMap S key.1 (SessionMap.createSession key.2)
  .update fun r =>
    { r with titles := r.titles.set key newChat, transcripts := r.transcripts.set key .empty }
  snapshotLocked S key

/-- `list_sessions(user_id)`. -/
def listSessions (userId : Text) : Eff ChatRegistry PyError (List SessionSnapshot) := do
  let user ← .ofExcept (validatedUserId S.userIdPattern userId)
  let sessions ← onMap S user (SessionMap.listSessions S.userIdPattern user)
  .collect (fun session => snapshotLocked S (user, session)) sessions

/-- `get_session(user_id, session_id)`. -/
def getSession (userId sessionId : Text) : Eff ChatRegistry PyError SessionSnapshot := do
  let key ← .ofExcept (sessionKey S userId sessionId)
  snapshotLocked S key

/-- `record_conversation(user_id, session_id, conversation_id, question, answer)`. -/
def recordConversation (userId sessionId conversationId question answer : Text) : Eff ChatRegistry PyError Unit := do
  let key ← .ofExcept (sessionKey S userId sessionId)
  let conversation ← .ofExcept (requiredUuid conversationId "conversation_id")
  if isBlank question then .raise (valueError "question must not be empty")
  else if isBlank answer then .raise (valueError "answer must not be empty")
  else do
    let r ← .read id
    if key ∈ r.deletingSessions then .raise ⟨.sessionDeletionInProgressError, "session_id"⟩
    else do
      onMap S key.1 (SessionMap.addConversation key.2 conversation.str)
      let r ← .read id
      match r.transcripts.get? key with
      | none => .raise (keyError "transcripts")
      | some transcripts =>
          .update fun r =>
            { r with
              transcripts := r.transcripts.set key (transcripts.set conversation ⟨conversation, question, answer⟩) }

/-- `update_title(user_id, session_id, title)`. -/
def updateTitle (userId sessionId title : Text) : Eff ChatRegistry PyError Text := do
  let key ← .ofExcept (sessionKey S userId sessionId)
  let validated ← .ofExcept (validateSessionTitle S.titleWord title)
  let _ ← snapshotLocked S key
  .update fun r => { r with titles := r.titles.set key validated }
  pure validated

/-- `conversation_ids(user_id, session_id)`. -/
def conversationIds (userId sessionId : Text) : Eff ChatRegistry PyError (List Uuid) := do
  let key ← .ofExcept (sessionKey S userId sessionId)
  onMap S key.1 (SessionMap.getConversations key.2)

/-- `begin_chat_stream(user_id, session_id, conversation_id)`. -/
def beginChatStream (userId sessionId conversationId : Text) : Eff ChatRegistry PyError Unit := do
  let key ← .ofExcept (sessionKey S userId sessionId)
  let conversation ← .ofExcept (requiredUuid conversationId "conversation_id")
  let _ ← snapshotLocked S key
  let r ← .read id
  if key ∈ r.deletingSessions then .raise ⟨.sessionDeletionInProgressError, "session_id"⟩
  else do
    let active := (r.activeStreams.get? key).getD ∅
    .update fun r => { r with activeStreams := r.activeStreams.set key active }
    if conversation ∈ active then .raise (valueError "conversation already has an active stream")
    else .update fun r => { r with activeStreams := r.activeStreams.set key (insert conversation active) }

/-- `end_chat_stream(user_id, session_id, conversation_id)`. -/
def endChatStream (userId sessionId conversationId : Text) : Eff ChatRegistry PyError Unit := do
  let key ← .ofExcept (sessionKey S userId sessionId)
  let conversation ← .ofExcept (requiredUuid conversationId "conversation_id")
  let r ← .read id
  match r.activeStreams.get? key with
  | none => pure ()
  | some active =>
      if active.erase conversation = ∅ then
        .update fun r => { r with activeStreams := r.activeStreams.erase key }
      else .update fun r => { r with activeStreams := r.activeStreams.set key (active.erase conversation) }

/-- `bool(self._active_streams.get(key))`. -/
def hasActiveStream (r : ChatRegistry) (key : SessionKey) : Bool := (r.activeStreams.get? key).any fun a => a ≠ ∅

/-- `reserve_session_deletion(user_id, session_id)`. -/
def reserveSessionDeletion (userId sessionId : Text) : Eff ChatRegistry PyError (List Uuid) := do
  let key ← .ofExcept (sessionKey S userId sessionId)
  let _ ← snapshotLocked S key
  let r ← .read id
  if r.hasActiveStream key then .raise ⟨.activeChatStreamError, "session_id"⟩
  else if key ∈ r.deletingSessions then .raise ⟨.sessionDeletionInProgressError, "session_id"⟩
  else do
    .update fun r => { r with deletingSessions := insert key r.deletingSessions }
    onMap S key.1 (SessionMap.getConversations key.2)

/-- `abort_session_deletion(user_id, session_id)`. -/
def abortSessionDeletion (userId sessionId : Text) : Eff ChatRegistry PyError Unit := do
  let key ← .ofExcept (sessionKey S userId sessionId)
  .update fun r => { r with deletingSessions := r.deletingSessions.erase key }

/-- `commit_session_deletion(user_id, session_id)`. -/
def commitSessionDeletion (userId sessionId : Text) : Eff ChatRegistry PyError (List Uuid) := do
  let key ← .ofExcept (sessionKey S userId sessionId)
  let r ← .read id
  if key ∉ r.deletingSessions then .raise (runtimeError "session deletion is not reserved")
  else if r.hasActiveStream key then .raise ⟨.activeChatStreamError, "session_id"⟩
  else
    .tryFinally
      (do
        let conversations ← onMap S key.1 (SessionMap.deleteSession key.2)
        .update fun r =>
          { r with
            titles := r.titles.erase key
            transcripts := r.transcripts.erase key
            activeStreams := r.activeStreams.erase key }
        pure conversations)
      (.update fun r => { r with deletingSessions := r.deletingSessions.erase key })

/-- `delete_session(user_id, session_id)`. -/
def deleteSession (userId sessionId : Text) : Eff ChatRegistry PyError (List Uuid) := do
  let _ ← reserveSessionDeletion S userId sessionId
  .tryExcept (commitSessionDeletion S userId sessionId) fun e => do
    if e.kind.isException then abortSessionDeletion S userId sessionId
    .raise e

/-! ### Calls in any order -/

/-- A call of a method, with its arguments. -/
inductive Call where
  /-- `create_session`. -/
  | createSession (userId sessionId : Text)
  /-- `list_sessions`. -/
  | listSessions (userId : Text)
  /-- `get_session`. -/
  | getSession (userId sessionId : Text)
  /-- `record_conversation`. -/
  | recordConversation (userId sessionId conversationId question answer : Text)
  /-- `update_title`. -/
  | updateTitle (userId sessionId title : Text)
  /-- `conversation_ids`. -/
  | conversationIds (userId sessionId : Text)
  /-- `begin_chat_stream`. -/
  | beginChatStream (userId sessionId conversationId : Text)
  /-- `end_chat_stream`. -/
  | endChatStream (userId sessionId conversationId : Text)
  /-- `reserve_session_deletion`. -/
  | reserveSessionDeletion (userId sessionId : Text)
  /-- `abort_session_deletion`. -/
  | abortSessionDeletion (userId sessionId : Text)
  /-- `commit_session_deletion`. -/
  | commitSessionDeletion (userId sessionId : Text)
  /-- `delete_session`. -/
  | deleteSession (userId sessionId : Text)

/-- What a call returns. -/
inductive Reply where
  /-- `None`. -/
  | none
  /-- A snapshot. -/
  | snapshot (s : SessionSnapshot)
  /-- A list of snapshots. -/
  | snapshots (s : List SessionSnapshot)
  /-- A title. -/
  | title (t : Text)
  /-- A list of conversation ids. -/
  | conversations (ids : List Uuid)

/-- The method called. -/
def perform : Call → Eff ChatRegistry PyError Reply
  | .createSession u s => Reply.snapshot <$> createSession S u s
  | .listSessions u => Reply.snapshots <$> listSessions S u
  | .getSession u s => Reply.snapshot <$> getSession S u s
  | .recordConversation u s c q a => (fun _ => Reply.none) <$> recordConversation S u s c q a
  | .updateTitle u s t => Reply.title <$> updateTitle S u s t
  | .conversationIds u s => Reply.conversations <$> conversationIds S u s
  | .beginChatStream u s c => (fun _ => Reply.none) <$> beginChatStream S u s c
  | .endChatStream u s c => (fun _ => Reply.none) <$> endChatStream S u s c
  | .reserveSessionDeletion u s => Reply.conversations <$> reserveSessionDeletion S u s
  | .abortSessionDeletion u s => (fun _ => Reply.none) <$> abortSessionDeletion S u s
  | .commitSessionDeletion u s => Reply.conversations <$> commitSessionDeletion S u s
  | .deleteSession u s => Reply.conversations <$> deleteSession S u s

/-- The registry under the calls of any number of clients: each call with its outcome. -/
def machine : Machine ChatRegistry Call (Call × Except PyError Reply) where
  step r call :=
    match perform S call r with
    | .ok a t => some (t, [(call, .ok a)])
    | .error e t => some (t, [(call, .error e)])

end ChatRegistry

end TenantRag

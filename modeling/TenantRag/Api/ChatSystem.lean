import TenantRag.Api.Chat
import TenantRag.Services.ChatRegistryEffects
import TenantRag.Services.TaskQueuePending

/-!
# One user's chats

The query requests, the deletion requests and the background worker of one user,
interleaved at their suspensions, over the registry, the task queue and the
stored conversation segments.

## The model

An action resumes one of the parties, or starts a request. A query request and a
deletion request are those of `Api.Chat`. The worker receives the next item; while
it works, storage may insert or remove segments of the work's own conversations
one by one, so that a work item which fails leaves any part of its effect behind;
then what the work awaits returns or raises, and its code runs to its end. A
deletion's report is confirmed only where storage found nothing left of the
conversations to delete. Endpoints that manage sessions call the registry's other
methods at any time, and the queue may be closed.
-/

namespace TenantRag

/-- A stored segment of a conversation. -/
structure Segment where
  /-- The property `conversation_id`. -/
  conversationId : Uuid
  /-- Which of the conversation's segments it is. -/
  index : ℕ
  deriving DecidableEq

/-- The parties and what they share. -/
structure ChatSystem (F : Type) where
  /-- The registry and the queue. -/
  world : ChatWorld
  /-- The stored segments. -/
  segments : List Segment
  /-- Whether storage confirmed that nothing is left for the running work to delete. -/
  confirmed : Bool
  /-- The query requests that took a lease, in the order they did. -/
  streams : List (StreamState F)
  /-- The deletion requests that took a reservation, in the order they did. -/
  deletions : List DeleteRequest

namespace ChatSystem

/-- What happens inside a running work item. -/
inductive WorkInput where
  /-- A segment of the conversation to persist is inserted. -/
  | insert (index : ℕ)
  /-- A segment of one of the work's conversations is removed. -/
  | remove (segment : Segment)
  /-- Storage finds nothing left of the conversations to delete. -/
  | confirm
  /-- What the work awaits returns or raises; a title task gets its title. -/
  | finish (outcome : WorkOutcome) (title : Text) (now : ℕ)

/-- A step of one of the parties. -/
inductive Action (F : Type) where
  /-- An endpoint that manages sessions calls the registry. -/
  | manage (call : ChatRegistry.Call)
  /-- A query request starts. -/
  | query (request : ChatRequest)
  /-- A query request goes on. -/
  | stream (i : ℕ) (input : StreamInput F)
  /-- A deletion request starts. -/
  | delete (sessionId : Text)
  /-- A deletion request goes on. -/
  | deletion (i : ℕ) (input : DeleteInput)
  /-- A worker receives the next item. -/
  | workerGet (worker now : ℕ)
  /-- A busy worker goes on. -/
  | work (worker : ℕ) (input : WorkInput)
  /-- The queue is being closed. -/
  | close (a : InMemoryTaskQueue.Action ChatWork)

variable {F : Type} [PyFloat F] (S : RegistrySettings)

/-- Nothing has happened yet. -/
def start (m : ℕ) (hm : 0 < m) : ChatSystem F := ⟨⟨.empty, .fresh m hm⟩, [], false, [], []⟩

/-- The work a worker is busy with. -/
def workAt (s : ChatSystem F) (i : ℕ) : Option ChatWork :=
  match s.world.queue.tasks[i]? with
  | some ⟨_, .busy id⟩ => s.world.queue.workOf id
  | _ => none

/-- A work item ends. -/
def finishWork (s : ChatSystem F) (w : ChatWorld) (i : ℕ) (outcome : WorkOutcome) (now : ℕ) :
    Option (ChatSystem F) :=
  match w.queue.workerFinish i outcome now with
  | none => none
  | some (q, _) => some { s with world := { w with queue := q }, confirmed := false }

/-- The rest of a title work item, once the title is generated. -/
def finishTitle (userId sessionId title : Text) (w : ChatWorld) : ChatWorld × WorkOutcome :=
  match ChatWorld.onRegistry (ChatRegistry.updateTitle S userId sessionId title) w with
  | .ok _ w' => (w', .success)
  | .error _ w' => (w', .exception)

/-- The rest of a deletion work item, once storage reported. -/
def finishDeletion (userId sessionId : Text) (confirmed : Bool) (w : ChatWorld) : ChatWorld × WorkOutcome :=
  if confirmed then
    match ChatWorld.onRegistry (ChatRegistry.commitSessionDeletion S userId sessionId) w with
    | .ok _ w' => (w', .success)
    | .error _ w' => (DeleteRequest.abort S userId sessionId w', .exception)
  else (DeleteRequest.abort S userId sessionId w, .exception)

/-- A busy worker goes on. -/
def stepWork (s : ChatSystem F) (i : ℕ) (input : WorkInput) : Option (ChatSystem F) :=
  match s.workAt i, input with
  | some (.embedConversation _ c _ _), .insert index => some { s with segments := s.segments ++ [⟨c, index⟩] }
  | some (.embedConversation _ c _ _), .remove segment =>
      if segment.conversationId = c then some { s with segments := s.segments.erase segment } else none
  | some (.embedConversation _ _ _ _), .finish outcome _ now => s.finishWork s.world i outcome now
  | some (.generateSessionTitle u sid), .finish .success title now =>
      let r := finishTitle S u sid title s.world
      s.finishWork r.1 i r.2 now
  | some (.generateSessionTitle _ _), .finish outcome _ now => s.finishWork s.world i outcome now
  | some (.deleteSession _ _ ids), .remove segment =>
      if segment.conversationId ∈ ids then some { s with segments := s.segments.erase segment } else none
  | some (.deleteSession _ _ ids), .confirm =>
      if s.segments.all fun g => g.conversationId ∉ ids then some { s with confirmed := true } else none
  | some (.deleteSession u sid _), .finish .success _ now =>
      let r := finishDeletion S u sid s.confirmed s.world
      s.finishWork r.1 i r.2 now
  | some (.deleteSession u sid _), .finish outcome _ now =>
      s.finishWork (DeleteRequest.abort S u sid s.world) i outcome now
  | _, _ => none

/-- The registry after a call, whatever its outcome. -/
def afterCall {α : Type} (w : ChatWorld) (m : Eff ChatRegistry PyError α) : ChatWorld :=
  match ChatWorld.onRegistry m w with
  | .ok _ w' => w'
  | .error _ w' => w'

/-- One step, with the frames it sends and the request it sends them for. -/
def step (user : Text) (s : ChatSystem F) : Action F → Option (ChatSystem F × List (ℕ × SseEvent F))
  | .manage call =>
      if call.isManagement then some ({ s with world := afterCall s.world (ChatRegistry.perform S call) }, [])
      else none
  | .query r =>
      if r.userId ≠ user then none
      else
        match ChatWorld.onRegistry (beginQuery S r) s.world with
        | .ok _ w => some ({ s with world := w, streams := s.streams ++ [.opened r] }, [])
        | .error _ w => some ({ s with world := w }, [])
  | .stream i input =>
      match s.streams[i]? with
      | none => none
      | some st =>
          match st.resume S s.world input with
          | none => none
          | some (st', w, frames) =>
              some ({ s with world := w, streams := s.streams.set i st' }, frames.map fun f => (i, f))
  | .delete sessionId =>
      match ChatWorld.onRegistry (ChatRegistry.reserveSessionDeletion S user sessionId) s.world with
      | .ok ids w => some ({ s with world := w, deletions := s.deletions ++ [⟨user, sessionId, .ensuring ids⟩] }, [])
      | .error _ w => some ({ s with world := w }, [])
  | .deletion i input =>
      match s.deletions[i]? with
      | none => none
      | some d =>
          match d.resume S s.world input with
          | none => none
          | some (d', w) => some ({ s with world := w, deletions := s.deletions.set i d' }, [])
  | .workerGet i now =>
      match s.world.queue.workerGet i now with
      | none => none
      | some (q, _) => some ({ s with world := { s.world with queue := q } }, [])
  | .work i input => (stepWork S s i input).map fun t => (t, [])
  | .close a =>
      match a with
      | .closeBegin => some ({ s with world := { s.world with queue := s.world.queue.closeBegin } }, [])
      | .closeJoined c user =>
          (s.world.queue.closeJoined c user).map fun q => ({ s with world := { s.world with queue := q } }, [])
      | .closeStop c =>
          (s.world.queue.closeStop c).map fun q => ({ s with world := { s.world with queue := q } }, [])
      | .closeEnd c =>
          (s.world.queue.closeEnd c).map fun q => ({ s with world := { s.world with queue := q } }, [])
      | _ => none

/-- The system of one user, step by step. -/
def machine (user : Text) : Machine (ChatSystem F) (Action F) (ℕ × SseEvent F) := ⟨step S user⟩

/-- The conversation ids `services.new_uuid()` gave. -/
def drawnConversations (as : List (Action F)) : List Uuid :=
  as.filterMap fun
    | .query r => some r.conversationId
    | _ => none

/-- The task ids `uuid4()` gave. -/
def drawnTasks (as : List (Action F)) : List Uuid :=
  as.flatMap fun
    | .stream _ (.exhausted c) => [c.persistenceTask, c.titleTask]
    | .deletion _ (.ensured id _) => [id]
    | _ => []

end ChatSystem

end TenantRag

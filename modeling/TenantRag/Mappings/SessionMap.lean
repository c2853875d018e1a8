import TenantRag.Foundations.Dict
import TenantRag.Foundations.Effect
import TenantRag.Mappings.Common

/-!
# The session map

`backend/mappings/session_map.py`: the sessions of one user, the ordered
conversation ids of each and, for each conversation, the session that owns it.
Identifiers of sessions are nonblank strings; identifiers of conversations are
UUIDs in canonical form.

## What is proved

* `Owned` — the owner index is the exact inverse of the lists: `Owned.empty` and a
  lemma for each operation that changes the map.
-/

namespace TenantRag

/-- `SessionMap`. -/
structure SessionMap where
  /-- `user_id`. -/
  userId : Text
  /-- `_sessions`. -/
  sessions : Dict Text (List Uuid)
  /-- `_conversation_owners`. -/
  conversationOwners : Dict Uuid Text

namespace SessionMap

/-- `SessionMap(user_id)`, for a validated user. -/
def new (userId : Text) : SessionMap := ⟨userId, .empty, .empty⟩

/-- `create_session(session_id)`. -/
def createSession (sessionId : Text) : Eff SessionMap PyError Unit := do
  let key ← .ofExcept (requiredIdentifier sessionId "session_id")
  let m ← .read id
  if m.sessions.contains key then .raise (valueError "session already exists")
  else .update fun m => { m with sessions := m.sessions.set key [] }

/-- `add_conversation(session_id, conversation_id)`. -/
def addConversation (sessionId conversationId : Text) : Eff SessionMap PyError Unit := do
  let key ← .ofExcept (requiredIdentifier sessionId "session_id")
  let childId ← .ofExcept (requiredUuid conversationId "conversation_id")
  let m ← .read id
  match m.sessions.get? key with
  | none => .raise (keyError "session_id")
  | some conversations =>
      match m.conversationOwners.get? childId with
      | some owner =>
          if owner ≠ key then .raise (valueError "conversation already belongs to session")
          else pure ()
      | none =>
          .update fun m =>
            { m with
              sessions := m.sessions.set key (conversations ++ [childId])
              conversationOwners := m.conversationOwners.set childId key }

/-- `get_conversations(session_id)`. -/
def getConversations (sessionId : Text) : Eff SessionMap PyError (List Uuid) := do
  let key ← .ofExcept (requiredIdentifier sessionId "session_id")
  let m ← .read id
  match m.sessions.get? key with
  | none => .raise (keyError "session_id")
  | some conversations => pure conversations

/-- `del self._conversation_owners[conversation_id]`. -/
def disown (conversationId : Uuid) : Eff SessionMap PyError Unit := do
  let m ← .read id
  if m.conversationOwners.contains conversationId then
    .update fun m => { m with conversationOwners := m.conversationOwners.erase conversationId }
  else .raise (keyError "conversation_id")

/-- `delete_session(session_id)`. -/
def deleteSession (sessionId : Text) : Eff SessionMap PyError (List Uuid) := do
  let key ← .ofExcept (requiredIdentifier sessionId "session_id")
  let m ← .read id
  match m.sessions.get? key with
  | none => .raise (keyError "session_id")
  | some conversations =>
      .update fun m => { m with sessions := m.sessions.erase key }
      .forEach disown conversations
      pure conversations

/-- `list_sessions(user_id)`. -/
def listSessions (pattern : UserIdPattern) (userId : Text) : Eff SessionMap PyError (List Text) := do
  let requestedUser ← .ofExcept (validatedUserId pattern userId)
  let m ← .read id
  if requestedUser ≠ m.userId then .raise (valueError "user_id does not match this SessionMap")
  else pure m.sessions.keys

/-! ### The owner index -/

/-- The owner index is the exact inverse of the lists, which have no duplicates. -/
structure Owned (m : SessionMap) : Prop where
  /-- A conversation is owned by the session whose list holds it. -/
  owner_iff : ∀ c s, m.conversationOwners.get? c = some s ↔ ∃ cs, m.sessions.get? s = some cs ∧ c ∈ cs
  /-- No list holds a conversation twice. -/
  nodup : ∀ s cs, m.sessions.get? s = some cs → cs.Nodup

theorem Owned.empty (userId : Text) : Owned (new userId) := by
  constructor <;> simp [new]

/-- Without an owner a conversation is in no list. -/
theorem Owned.not_mem {m : SessionMap} (h : Owned m) {c : Uuid} (hc : m.conversationOwners.get? c = none) {s : Text}
    {cs : List Uuid} (hs : m.sessions.get? s = some cs) : c ∉ cs := by
  intro hmem
  have howned := (h.owner_iff c s).mpr ⟨cs, hs, hmem⟩
  rw [hc] at howned
  cases howned

theorem Owned.create {m : SessionMap} (h : Owned m) {s : Text} (hs : m.sessions.get? s = none) :
    Owned { m with sessions := m.sessions.set s [] } := by
  constructor
  · intro c t
    rw [h.owner_iff]
    simp only [Dict.get?_set]
    by_cases hst : s = t
    · subst hst
      simp [hs]
    · simp [hst]
  · intro t cs ht
    simp only [Dict.get?_set] at ht
    split_ifs at ht
    · cases ht
      exact List.nodup_nil
    · exact h.nodup t cs ht

theorem Owned.add {m : SessionMap} (h : Owned m) {s : Text} {cs : List Uuid} {c : Uuid}
    (hs : m.sessions.get? s = some cs) (hc : m.conversationOwners.get? c = none) :
    Owned { m with
      sessions := m.sessions.set s (cs ++ [c])
      conversationOwners := m.conversationOwners.set c s } := by
  constructor
  · intro d t
    simp only [Dict.get?_set]
    by_cases hcd : c = d
    · subst hcd
      rw [if_pos rfl]
      constructor
      · rintro ⟨rfl⟩
        exact ⟨_, if_pos rfl, List.mem_append_right _ (List.mem_singleton_self c)⟩
      · rintro ⟨ds, hds, hmem⟩
        split_ifs at hds with hst
        · rw [hst]
        · exact absurd hmem (h.not_mem hc hds)
    · rw [if_neg hcd, h.owner_iff]
      by_cases hst : s = t
      · subst hst
        simp [hs, Ne.symm hcd]
      · simp [hst]
  · intro t ds ht
    simp only [Dict.get?_set] at ht
    split_ifs at ht
    · cases ht
      exact (h.nodup s cs hs).append (List.nodup_singleton c) (by simpa using h.not_mem hc hs)
    · exact h.nodup t ds ht

/-- The map without a session and the owners of its conversations. -/
def without (m : SessionMap) (s : Text) (cs : List Uuid) : SessionMap :=
  { m with
    sessions := m.sessions.erase s
    conversationOwners := cs.foldl (fun d c => d.erase c) m.conversationOwners }

theorem Owned.delete {m : SessionMap} (h : Owned m) {s : Text} {cs : List Uuid} (hs : m.sessions.get? s = some cs) :
    Owned (m.without s cs) := by
  constructor
  · intro c t
    simp only [without, Dict.get?_foldl_erase, Dict.get?_erase]
    constructor
    · intro hc
      split_ifs at hc with hmem
      obtain ⟨ds, ht, hds⟩ := (h.owner_iff c t).mp hc
      refine ⟨ds, ?_, hds⟩
      rw [if_neg, ht]
      rintro rfl
      rw [hs] at ht
      exact hmem (Option.some.inj ht ▸ hds)
    · rintro ⟨ds, ht, hds⟩
      split_ifs at ht with hst
      have howner := (h.owner_iff c t).mpr ⟨ds, ht, hds⟩
      rw [if_neg, howner]
      intro hmem
      rw [(h.owner_iff c s).mpr ⟨cs, hs, hmem⟩] at howner
      exact hst (Option.some.inj howner)
  · intro t ds ht
    simp only [without, Dict.get?_erase] at ht
    split_ifs at ht
    exact h.nodup t ds ht

/-- Where the index is the inverse of the lists, deleting a session raises nothing. -/
theorem Owned.deleteSession_eq {m : SessionMap} (h : Owned m) {sessionId key : Text} {cs : List Uuid}
    (hk : requiredIdentifier sessionId "session_id" = .ok key) (hs : m.sessions.get? key = some cs) :
    deleteSession sessionId m = .ok cs (m.without key cs) := by
  have hloop : ∀ (ds : List Uuid) (n : SessionMap), ds.Nodup → (∀ c ∈ ds, n.conversationOwners.contains c = true) →
      Eff.forEach disown ds n =
        .ok () { n with conversationOwners := ds.foldl (fun d c => d.erase c) n.conversationOwners } := by
    intro ds
    induction ds with
    | nil => exact fun n _ _ => rfl
    | cons c ds ih =>
      intro n hnd hall
      obtain ⟨hc, hnd⟩ := List.nodup_cons.mp hnd
      have hfirst : disown c n = .ok () { n with conversationOwners := n.conversationOwners.erase c } := by
        simp only [disown, bind, EStateM.bind, Eff.read, id]
        rw [if_pos (hall c (List.mem_cons_self ..))]
        rfl
      simp only [Eff.forEach, bind, EStateM.bind, hfirst]
      rw [ih _ hnd]
      · rfl
      · intro d hd
        rw [Dict.contains_iff, Dict.mem_keys_erase, ← Dict.contains_iff]
        exact ⟨fun hdc => hc (hdc ▸ hd), hall d (List.mem_cons_of_mem _ hd)⟩
  have hall : ∀ c ∈ cs, m.conversationOwners.contains c = true := by
    intro c hc
    rw [Dict.contains_iff, Dict.mem_keys_iff]
    exact ⟨key, (h.owner_iff c key).mpr ⟨cs, hs, hc⟩⟩
  have hrest := hloop cs { m with sessions := m.sessions.erase key } (h.nodup key cs hs) hall
  simp only [deleteSession, hk, Eff.ofExcept, bind, EStateM.bind, pure, EStateM.pure, Eff.read, id, hs, Eff.update,
    hrest]
  rfl

end SessionMap

end TenantRag

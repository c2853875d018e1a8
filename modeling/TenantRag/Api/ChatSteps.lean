import TenantRag.Api.ChatInvariant
import TenantRag.Foundations.Lists

/-!
# The chats of one user: the steps

Each action of the system of `Api.ChatSystem` keeps the invariant of
`Api.ChatInvariant`.

## What is proved

* `Invariant.query`, `Invariant.release` — a lease is taken or given back.
* `Invariant.answer` — an answer is completed.
* `Invariant.reserve`, `Invariant.enqueueDeletion`, `Invariant.endDeletion` — a session is
  reserved, its deletion is enqueued, a reservation ends.
-/

namespace TenantRag

namespace ChatSystem

variable {F : Type} [PyFloat F] {S : RegistrySettings} {user : Text} {s : ChatSystem F} {C T : List Uuid}

section Frames

omit [PyFloat F]

theorem InSession.congr {r t : ChatRegistry} (h : ∀ k, t.conversations k = r.conversations k) {c : Uuid} :
    InSession t c ↔ InSession r c := by
  simp only [InSession, Recorded, h]

theorem Recorded.congr {r t : ChatRegistry} (h : ∀ k, t.conversations k = r.conversations k) {key : SessionKey}
    {c : Uuid} : Recorded t key c ↔ Recorded r key c := by
  simp only [Recorded, h]

/-- More ids were drawn. -/
theorem Invariant.mono (h : Invariant S user s C T) (C' T' : List Uuid) : Invariant S user s (C ++ C') (T ++ T') :=
  { h with
    queue := h.queue.mono fun _ hid => List.mem_append_left _ hid
    drawn := h.drawn.trans (List.sublist_append_left _ _) }

/-- The keys of all holders are under deletion. -/
theorem Invariant.holders_deleting (h : Invariant S user s C T) {key : SessionKey} (hk : key ∈ s.holders S user) :
    key ∈ s.world.registry.deletingSessions := by
  rcases List.mem_append.mp hk with hk | hk
  · obtain ⟨d, hd, hkey⟩ := List.mem_filterMap.mp hk
    unfold ensuresKey at hkey
    split at hkey
    · rename_i ids hp
      obtain ⟨-, key', hk', hdel, -⟩ := h.reserved d hd ids hp
      rw [hk', Except.toOption, Option.some.injEq] at hkey
      exact hkey ▸ hdel
    · cases hkey
  · obtain ⟨w, hw, hkey⟩ := List.mem_filterMap.mp hk
    cases w with
    | deleteSession u sid ids =>
      obtain ⟨before, behind, hsplit⟩ := List.append_of_mem hw
      obtain ⟨key', hk', hdel, -⟩ := h.deleting before u sid ids behind hsplit
      rw [deletesKey, hk', Except.toOption, Option.some.injEq] at hkey
      exact hkey ▸ hdel
    | embedConversation => cases hkey
    | generateSessionTitle => cases hkey

/-- The registry may have gained sessions. -/
theorem Invariant.extend (h : Invariant S user s C T) {r : ChatRegistry} (hr : s.world.registry.Extends r)
    (hc : r.Consistent) : Invariant S user { s with world := { s.world with registry := r } } C T := by
  have hkeep : ∀ {k cs}, s.world.registry.conversations k = some cs → r.conversations k = some cs := by
    intro k cs hcs
    rcases hr.conversations k with heq | ⟨hnone, -⟩
    · rw [heq, hcs]
    · rw [hnone] at hcs
      cases hcs
  have hin : ∀ k c, Recorded r k c ↔ Recorded s.world.registry k c := by
    intro k c
    constructor
    · rintro ⟨cs, hcs, hmem⟩
      rcases hr.conversations k with heq | ⟨-, hnil⟩
      · exact ⟨cs, heq ▸ hcs, hmem⟩
      · rw [hnil] at hcs
        cases hcs
        cases hmem
    · rintro ⟨cs, hcs, hmem⟩
      exact ⟨cs, hkeep hcs, hmem⟩
  have hout : ∀ c, InSession s.world.registry c → InSession r c := fun c ⟨k, hk⟩ => ⟨k, (hin k c).mpr hk⟩
  constructor
  case registry => exact hc
  case queue => exact h.queue
  case workers => exact h.workers
  case drawn => exact h.drawn
  case leased =>
    intro st hst
    obtain ⟨hu, hq, key, hk, hl⟩ := h.leased st hst
    exact ⟨hu, hq, key, hk, fun hp => by rw [hr.streams]; exact hl hp⟩
  case held => exact fun key c hc' => h.held key c (by rw [← hr.streams]; exact hc')
  case origin => exact fun key c hc' => h.origin key c ((hin key c).mp hc')
  case embedded => exact fun c hc' => hout c (h.embedded c hc')
  case stored => exact fun g hg => hout _ (h.stored g hg)
  case reserved =>
    intro d hd ids hp
    obtain ⟨hu, key, hk, hdel, hcs⟩ := h.reserved d hd ids hp
    exact ⟨hu, key, hk, hr.deleting ▸ hdel, hkeep hcs⟩
  case deleting =>
    intro before u sid ids behind hsplit
    obtain ⟨key, hk, hdel, hcs, hno⟩ := h.deleting before u sid ids behind hsplit
    exact ⟨key, hk, hr.deleting ▸ hdel, hkeep hcs, hno⟩
  case holders => exact h.holders
  case confirmed => exact h.confirmed

/-- The queue took a step that leaves pending work and workers alone. -/
theorem Invariant.requeue (h : Invariant S user s C T) {q : InMemoryTaskQueue ChatWork} (hq : q.WellUsed T)
    (hw : ∀ w ∈ q.tasks, w.userId = user) (hp : q.pendingWorks user = s.pending user) :
    Invariant S user { s with world := { s.world with queue := q } } C T := by
  have hpending : pending user { s with world := { s.world with queue := q } } = s.pending user := hp
  constructor
  case registry => exact h.registry
  case queue => exact hq
  case workers => exact hw
  case drawn => exact h.drawn
  case leased => exact h.leased
  case held => exact h.held
  case origin => exact h.origin
  case embedded => exact hpending ▸ h.embedded
  case stored => exact h.stored
  case reserved => exact h.reserved
  case deleting => exact hpending ▸ h.deleting
  case holders =>
    unfold ChatSystem.holders
    rw [hpending]
    exact h.holders
  case confirmed => exact hpending ▸ h.confirmed

/-! ### Query requests -/

/-- Requests with the same conversation id are the same. -/
theorem Invariant.stream_unique (h : Invariant S user s C T) (hC : C.Nodup) {i j : ℕ} {st st' : StreamState F}
    (hi : s.streams[i]? = some st) (hj : s.streams[j]? = some st')
    (hc : st.request.conversationId = st'.request.conversationId) : i = j := by
  have hnd : (s.streams.map fun st => st.request.conversationId).Nodup := hC.sublist h.drawn
  obtain ⟨hilt, hi⟩ := List.getElem?_eq_some_iff.mp hi
  obtain ⟨hjlt, hj⟩ := List.getElem?_eq_some_iff.mp hj
  have hilt' : i < (s.streams.map fun st => st.request.conversationId).length := by simpa using hilt
  have hjlt' : j < (s.streams.map fun st => st.request.conversationId).length := by simpa using hjlt
  apply (@List.Nodup.getElem_inj_iff _ _ hnd i hilt' j hjlt').mp
  simp [hi, hj, hc]

/-- A request that did not answer yet has its lease, and its conversation is in no session. -/
theorem Invariant.unanswered_fresh (h : Invariant S user s C T) (hC : C.Nodup) {st : StreamState F}
    (hst : st ∈ s.streams) (hp : unanswered st.phase = true) :
    ¬ InSession s.world.registry st.request.conversationId := by
  rintro ⟨k, hk⟩
  obtain ⟨st', hst', hc, -, hans⟩ := h.origin k _ hk
  obtain ⟨i, hi⟩ := List.mem_iff_getElem?.mp hst
  obtain ⟨j, hj⟩ := List.mem_iff_getElem?.mp hst'
  obtain rfl := h.stream_unique hC hi hj hc.symm
  rw [hi, Option.some.injEq] at hj
  subst hj
  rw [hp] at hans
  cases hans

theorem Invariant.lease (h : Invariant S user s C T) (hC : C.Nodup) {st : StreamState F} (hst : st ∈ s.streams)
    (hp : unanswered st.phase = true) : isBlank st.request.question = false ∧ ∃ key cs,
      ChatRegistry.sessionKey S st.request.userId st.request.sessionId = .ok key ∧
        key ∉ s.world.registry.deletingSessions ∧ s.world.registry.conversations key = some cs ∧
          ¬ InSession s.world.registry st.request.conversationId := by
  obtain ⟨-, hq, key, hk, hl⟩ := h.leased st hst
  have hmem := hl (closed_of_unanswered hp)
  unfold ChatRegistry.streams at hmem
  cases ha : s.world.registry.activeStreams.get? key with
  | none => simp [ha] at hmem
  | some a =>
    obtain ⟨-, ⟨cs, hcs⟩, hdel⟩ := h.registry.streaming key a ha
    exact ⟨hq, key, cs, hk, hdel, hcs, h.unanswered_fresh hC hst hp⟩

/-- A request that is replaced by a later state of itself is still there. -/
theorem mem_set_request {streams : List (StreamState F)} {i : ℕ} {st st' st₂ : StreamState F}
    (hi : streams[i]? = some st) (hreq : st'.request = st.request)
    (hans : unanswered st.phase = false → unanswered st'.phase = false) (h₂ : st₂ ∈ streams) :
    ∃ st₃ ∈ streams.set i st', st₃.request = st₂.request ∧
      (unanswered st₂.phase = false → unanswered st₃.phase = false) := by
  obtain ⟨j, hj⟩ := List.mem_iff_getElem?.mp h₂
  by_cases hij : j = i
  · subst hij
    rw [hi, Option.some.injEq] at hj
    subst hj
    exact ⟨st', mem_set_self hi, hreq, hans⟩
  · exact ⟨st₂, mem_set_of_ne hij hj, rfl, id⟩

/-- A request went on without touching what is shared. -/
theorem Invariant.keep (h : Invariant S user s C T) {i : ℕ} {st st' : StreamState F} (hi : s.streams[i]? = some st)
    (hreq : st'.request = st.request) (hb : st.phase ≠ .closed)
    (hans : unanswered st.phase = false → unanswered st'.phase = false) :
    Invariant S user { s with streams := s.streams.set i st' } C T := by
  have hmem : st ∈ s.streams := List.mem_of_getElem? hi
  refine { h with drawn := ?_, leased := ?_, held := ?_, origin := ?_ }
  · rw [map_set_eq hi (by rw [hreq])]
    exact h.drawn
  · intro st₂ h₂
    rcases mem_set_cases h₂ with rfl | ⟨j, -, hj⟩
    · obtain ⟨hu, hq, key, hk, hl⟩ := h.leased st hmem
      rw [hreq]
      exact ⟨hu, hq, key, hk, fun _ => hl hb⟩
    · exact h.leased st₂ (List.mem_of_getElem? hj)
  · intro key c hc
    obtain ⟨st₂, h₂, hc₂, hk⟩ := h.held key c hc
    obtain ⟨st₃, h₃, hreq₃, -⟩ := mem_set_request hi hreq hans h₂
    exact ⟨st₃, h₃, by rw [hreq₃, hc₂], by rw [hreq₃, hk]⟩
  · intro key c hc
    obtain ⟨st₂, h₂, hc₂, hk, hp⟩ := h.origin key c hc
    obtain ⟨st₃, h₃, hreq₃, hans₃⟩ := mem_set_request hi hreq hans h₂
    exact ⟨st₃, h₃, by rw [hreq₃, hc₂], by rw [hreq₃, hk], hans₃ hp⟩

/-- The end of a stream gives back the lease of its conversation and changes nothing else. -/
theorem endStream_effect {r : ChatRequest} {key : SessionKey} {w : ChatWorld}
    (hk : ChatRegistry.sessionKey S r.userId r.sessionId = .ok key) (hc : w.registry.Consistent) :
    ∃ t, StreamState.endStream S r w = { w with registry := t } ∧ t.Consistent ∧
      (∀ k, t.conversations k = w.registry.conversations k) ∧
      t.deletingSessions = w.registry.deletingSessions ∧
      ∀ k, t.streams k = if key = k then (w.registry.streams key).erase r.conversationId else w.registry.streams k := by
  obtain ⟨t, hend, hrest⟩ := ChatRegistry.endChatStream_effect (r := w.registry) hk r.conversationId
  refine ⟨t, ?_, (Eff.wp_ok (ChatRegistry.endChatStream_spec hc _ _ _) hend).1, hrest⟩
  simp only [StreamState.endStream, ChatWorld.onRegistry, Eff.zoom, hend]

/-- An abort ends the reservation and changes nothing else. -/
theorem abort_effect {u sid : Text} {key : SessionKey} {w : ChatWorld}
    (hk : ChatRegistry.sessionKey S u sid = .ok key) (hc : w.registry.Consistent) :
    ∃ t, DeleteRequest.abort S u sid w = { w with registry := t } ∧ t.Consistent ∧
      t.deletingSessions = w.registry.deletingSessions.erase key ∧
      (∀ k, t.conversations k = w.registry.conversations k) ∧ ∀ k, t.streams k = w.registry.streams k := by
  have habort := ChatRegistry.abortSessionDeletion_effect (r := w.registry) hk
  refine ⟨_, ?_, (Eff.wp_ok (ChatRegistry.abortSessionDeletion_spec hc u sid) habort).1, rfl, fun _ => rfl,
    fun _ => rfl⟩
  simp only [DeleteRequest.abort, ChatWorld.onRegistry, Eff.zoom, habort]

/-- A request ended and gave its lease back. -/
theorem Invariant.release (h : Invariant S user s C T) (hC : C.Nodup) {i : ℕ} {st st' : StreamState F}
    (hi : s.streams[i]? = some st) (hreq : st'.request = st.request) (hb : st.phase ≠ .closed)
    (hp : st'.phase = .closed) :
    Invariant S user { s with
      world := StreamState.endStream S st.request s.world
      streams := s.streams.set i st' } C T := by
  have hmem : st ∈ s.streams := List.mem_of_getElem? hi
  obtain ⟨hu, hq, key, hk, -⟩ := h.leased st hmem
  obtain ⟨r, hworld, hcons, hconv, hdel, hstr⟩ := endStream_effect (w := s.world) hk h.registry
  have hclosed : unanswered st.phase = false → unanswered st'.phase = false := fun _ => by rw [hp]; rfl
  have hkept := h.keep hi hreq hb hclosed
  rw [hworld]
  constructor
  case registry => exact hcons
  case queue => exact h.queue
  case workers => exact h.workers
  case drawn => exact hkept.drawn
  case leased =>
    intro st₂ h₂
    rcases mem_set_cases h₂ with rfl | ⟨j, hij, hj⟩
    · rw [hreq]
      exact ⟨hu, hq, key, hk, fun hne => absurd hp hne⟩
    · obtain ⟨hu₂, hq₂, key₂, hk₂, hl₂⟩ := h.leased st₂ (List.mem_of_getElem? hj)
      refine ⟨hu₂, hq₂, key₂, hk₂, fun hne => ?_⟩
      have hc : st₂.request.conversationId ≠ st.request.conversationId := fun heq =>
        hij (h.stream_unique hC hj hi heq)
      rw [hstr]
      split_ifs with hkk
      · exact Finset.mem_erase.mpr ⟨hc, hkk ▸ hl₂ hne⟩
      · exact hl₂ hne
  case held =>
    intro key₂ c hc
    refine hkept.held key₂ c ?_
    rw [hstr] at hc
    split_ifs at hc with hkk
    · exact hkk ▸ Finset.mem_of_mem_erase hc
    · exact hc
  case origin => exact fun k c hc => hkept.origin k c ((Recorded.congr hconv).mp hc)
  case embedded => exact fun c hc => (InSession.congr hconv).mpr (h.embedded c hc)
  case stored => exact fun g hg => (InSession.congr hconv).mpr (h.stored g hg)
  case reserved =>
    intro d hd ids hph
    obtain ⟨hu', key', hk', hd', hcs'⟩ := h.reserved d hd ids hph
    exact ⟨hu', key', hk', hdel ▸ hd', by rw [hconv, hcs']⟩
  case deleting =>
    intro before u sid ids behind hsplit
    obtain ⟨key', hk', hd', hcs', hno⟩ := h.deleting before u sid ids behind hsplit
    exact ⟨key', hk', hdel ▸ hd', by rw [hconv, hcs'], hno⟩
  case holders => exact h.holders
  case confirmed => exact h.confirmed

/-- `beginQuery` takes the lease, or changes nothing. -/
theorem beginQuery_effect {w : ChatWorld} (hc : w.registry.Consistent) (r : ChatRequest) :
    Eff.wp (beginQuery S r)
      (fun _ t => isBlank r.question = false ∧ t.Consistent ∧
        (∀ k, t.conversations k = w.registry.conversations k) ∧
        t.deletingSessions = w.registry.deletingSessions ∧
        ∃ key, ChatRegistry.sessionKey S r.userId r.sessionId = .ok key ∧
          ∀ k, t.streams k = if key = k then insert r.conversationId (w.registry.streams key)
            else w.registry.streams k)
      (fun _ t => w.registry.Unchanged t) w.registry := by
  simp only [beginQuery, Eff.wp_bind, Eff.wp_whenever, Eff.wp_raise]
  refine ⟨fun _ => .refl _, fun hq => ?_⟩
  refine ChatRegistry.wp_sessionKey (fun _ => .refl _) fun key hkey => ?_
  refine ChatRegistry.wp_snapshotLocked hc (ChatRegistry.sessionKey_valid hkey) (fun _ _ => ?_) fun _ _ _ ht => ht
  refine Eff.wp_mono (Eff.wp_and (ChatRegistry.beginChatStream_effect hc r.userId r.sessionId r.conversationId)
    (ChatRegistry.beginChatStream_spec hc r.userId r.sessionId r.conversationId.str)) (fun _ t ht => ?_)
      fun _ _ ht => ht.1
  obtain ⟨⟨key', hkey', -, -, -, rfl⟩, hgood⟩ := ht
  refine ⟨hq, hgood.1, fun _ => rfl, rfl, key', hkey', fun k => ?_⟩
  simp only [ChatRegistry.streams, Dict.get?_set]
  split_ifs <;> rfl

/-- A request took its lease. -/
theorem Invariant.query (h : Invariant S user s C T) {st : StreamState F} {t : ChatRegistry} {key : SessionKey}
    (hu : st.request.userId = user) (hq : isBlank st.request.question = false)
    (hk : ChatRegistry.sessionKey S st.request.userId st.request.sessionId = .ok key)
    (hcons : t.Consistent) (hconv : ∀ k, t.conversations k = s.world.registry.conversations k)
    (hdel : t.deletingSessions = s.world.registry.deletingSessions)
    (hstr : ∀ k, t.streams k = if key = k then insert st.request.conversationId (s.world.registry.streams key)
      else s.world.registry.streams k) :
    Invariant S user { s with world := { s.world with registry := t }, streams := s.streams ++ [st] }
      (C ++ [st.request.conversationId]) T := by
  have hsub : ∀ k, s.world.registry.streams k ⊆ t.streams k := by
    intro k
    rw [hstr]
    split_ifs with hkk
    · exact hkk ▸ Finset.subset_insert _ _
    · exact Finset.Subset.refl _
  constructor
  case registry => exact hcons
  case queue => exact h.queue
  case workers => exact h.workers
  case drawn =>
    rw [List.map_append]
    exact h.drawn.append (List.Sublist.refl _)
  case leased =>
    intro st₂ h₂
    rcases List.mem_append.mp h₂ with h₂ | h₂
    · obtain ⟨hu₂, hq₂, key₂, hk₂, hl₂⟩ := h.leased st₂ h₂
      exact ⟨hu₂, hq₂, key₂, hk₂, fun hne => hsub key₂ (hl₂ hne)⟩
    · rw [List.mem_singleton] at h₂
      subst h₂
      refine ⟨hu, hq, key, hk, fun _ => ?_⟩
      rw [hstr, if_pos rfl]
      exact Finset.mem_insert_self ..
  case held =>
    intro key₂ c hc
    rw [hstr] at hc
    have hold : c ∈ s.world.registry.streams key₂ → ∃ st₂ ∈ s.streams ++ [st], st₂.request.conversationId = c ∧
        ChatRegistry.sessionKey S st₂.request.userId st₂.request.sessionId = .ok key₂ := by
      intro hmem
      obtain ⟨st₂, h₂, hrest⟩ := h.held key₂ c hmem
      exact ⟨st₂, List.mem_append_left _ h₂, hrest⟩
    split_ifs at hc with hkk
    · rcases Finset.mem_insert.mp hc with rfl | hmem
      · exact ⟨st, List.mem_append_right _ (List.mem_singleton_self st), rfl, hkk ▸ hk⟩
      · exact hold (hkk ▸ hmem)
    · exact hold hc
  case origin =>
    intro k c hc
    obtain ⟨st₂, h₂, hrest⟩ := h.origin k c ((Recorded.congr hconv).mp hc)
    exact ⟨st₂, List.mem_append_left _ h₂, hrest⟩
  case embedded => exact fun c hc => (InSession.congr hconv).mpr (h.embedded c hc)
  case stored => exact fun g hg => (InSession.congr hconv).mpr (h.stored g hg)
  case reserved =>
    intro d hd ids hp
    obtain ⟨hu', key', hk', hd', hcs'⟩ := h.reserved d hd ids hp
    exact ⟨hu', key', hk', hdel ▸ hd', by rw [hconv, hcs']⟩
  case deleting =>
    intro before u sid ids behind hsplit
    obtain ⟨key', hk', hd', hcs', hno⟩ := h.deleting before u sid ids behind hsplit
    exact ⟨key', hk', hdel ▸ hd', by rw [hconv, hcs'], hno⟩
  case holders => exact h.holders
  case confirmed => exact h.confirmed

/-! ### Completed answers -/

theorem tasks_accept {q : InMemoryTaskQueue ChatWork} {u op : Text} {w : ChatWork} {id : Uuid} {now : ℕ}
    (h : ∀ x ∈ q.tasks, x.userId = u) : ∀ x ∈ (q.accept u op w id now).tasks, x.userId = u := by
  intro x hx
  rcases InMemoryTaskQueue.accept_workers q u op w id now with ⟨-, ht, -⟩ | ⟨-, ht, -⟩
  · exact h x (ht ▸ hx)
  · rw [ht, InMemoryTaskQueue.createWorker, List.mem_append] at hx
    rcases hx with hx | hx
    · exact h x hx
    · rw [List.mem_singleton] at hx
      rw [hx]

/-- The work of an answered request: its conversation is persisted, then its session gets a title. -/
def answerWorks (r : ChatRequest) (answer : Text) : List ChatWork :=
  [.embedConversation r.userId r.conversationId r.question answer, .generateSessionTitle r.userId r.sessionId]

theorem answerWorks_keep (r : ChatRequest) (answer : Text) :
    ∀ y ∈ answerWorks r answer, ¬ ∃ u sid ids, y = ChatWork.deleteSession u sid ids := by
  intro y hy
  simp only [answerWorks, List.mem_cons, List.not_mem_nil, or_false] at hy
  rcases hy with rfl | rfl <;> rintro ⟨_, _, _, hne⟩ <;> simp at hne

@[simp] theorem answerWorks_deletesKey (r : ChatRequest) (answer : Text) :
    (answerWorks r answer).filterMap (deletesKey S) = [] := by
  simp [answerWorks, deletesKey]

@[simp] theorem answerWorks_persists (r : ChatRequest) (answer : Text) :
    (answerWorks r answer).filterMap persists = [r.conversationId] := by
  simp [answerWorks, persists]

/-- What an answer does to the queue: its two works are behind what was pending. -/
structure AnswerQueued (s : ChatSystem F) (user : Text) (r : ChatRequest) (answer : Text) (q : InMemoryTaskQueue ChatWork)
    (T : List Uuid) : Prop where
  /-- The queue is used as the endpoints use it. -/
  used : q.WellUsed T
  /-- Its workers are those of the user. -/
  workers : ∀ x ∈ q.tasks, x.userId = user
  /-- What is pending. -/
  pending : q.pendingWorks user = s.pending user ++ answerWorks r answer

theorem Invariant.answer_queue (h : Invariant S user s C T) {r : ChatRequest} {w' : ChatWorld} {answer : Text}
    {c : Completion F} (hu : r.userId = user) (hans : Answered S r answer c s.world w')
    (hfresh : (T ++ [c.persistenceTask, c.titleTask]).Nodup) :
    AnswerQueued s user r answer w'.queue (T ++ [c.persistenceTask, c.titleTask]) := by
  subst hu
  have hsplit : T ++ [c.persistenceTask, c.titleTask] = (T ++ [c.persistenceTask]) ++ [c.titleTask] := by simp
  -- the ids of the two tasks are fresh
  rw [hsplit] at hfresh ⊢
  obtain ⟨h₁, -, h₂⟩ := List.nodup_append.mp hfresh
  have htitle : c.titleTask ∉ T ++ [c.persistenceTask] := fun hm => h₂ _ hm _ (List.mem_singleton_self _) rfl
  have hpersistence : c.persistenceTask ∉ T := fun hm =>
    (List.nodup_append.mp h₁).2.2 _ hm _ (List.mem_singleton_self _) rfl
  set work : ChatWork := .embedConversation r.userId r.conversationId r.question answer
  set title : ChatWork := .generateSessionTitle r.userId r.sessionId
  have hused : (s.world.queue.accept r.userId (lit "embed_conversation") work c.persistenceTask c.now).WellUsed
      (T ++ [c.persistenceTask]) := h.queue.accept hans.accepting hpersistence
  have hpend₁ := h.queue.accept_pendingWorks r.userId (lit "embed_conversation") work c.now hpersistence r.userId
  have hpend₂ := hused.accept_pendingWorks r.userId (lit "generate_session_title") title c.now htitle r.userId
  constructor
  case used =>
    rw [hans.queue]
    exact hused.accept (by rw [accept_accepting, hans.accepting]) htitle
  case workers =>
    rw [hans.queue]
    exact tasks_accept (tasks_accept h.workers)
  case pending =>
    rw [hans.queue, persistedQueue, hpend₂, hpend₁, if_pos rfl, if_pos rfl, List.append_assoc]
    rfl

/-- A conversation was recorded and its persistence enqueued. -/
theorem Invariant.answer (h : Invariant S user s C T) (hC : C.Nodup) {i : ℕ} {st st' : StreamState F} {w' : ChatWorld}
    {answer : Text} {c : Completion F} (hi : s.streams[i]? = some st) (hreq : st'.request = st.request)
    (hb : unanswered st.phase = true) (hans : Answered S st.request answer c s.world w')
    (ha : unanswered st'.phase = false)
    (hfresh : (T ++ [c.persistenceTask, c.titleTask]).Nodup) :
    Invariant S user { s with world := w', streams := s.streams.set i st' } C
      (T ++ [c.persistenceTask, c.titleTask]) := by
  have hmem : st ∈ s.streams := List.mem_of_getElem? hi
  obtain ⟨hu, hq, key, hk, hl⟩ := h.leased st hmem
  obtain ⟨-, key', cs, hk', hdel, hcs, hnew⟩ := h.lease hC hmem hb
  obtain rfl : key' = key := Except.ok.inj (hk'.symm.trans hk)
  obtain ⟨hused, hworkers, hpending⟩ := h.answer_queue hu hans hfresh
  obtain ⟨r, hr, hconv, hdel', hstr⟩ := ChatRegistry.recordConversation_effect h.registry hk hq hans.notBlank hdel hcs
    fun k ds hds hm => hnew ⟨k, ds, hds, hm⟩
  have hreg : w'.registry = r := by
    have hrec := hans.recorded
    rw [hr] at hrec
    cases hrec
    rfl
  have hcons : r.Consistent :=
    (Eff.wp_ok (ChatRegistry.recordConversation_spec h.registry _ _ _ _ _) hr).1
  have hkept := h.keep hi hreq (closed_of_unanswered hb) fun _ => ha
  have hinto : ∀ c₂, InSession s.world.registry c₂ → InSession r c₂ := by
    rintro c₂ ⟨k, ds, hds, hm⟩
    by_cases hkk : key' = k
    · subst hkk
      rw [hcs, Option.some.injEq] at hds
      exact ⟨key', _, by rw [hconv, if_pos rfl], List.mem_append_left _ (hds ▸ hm)⟩
    · exact ⟨k, ds, by rw [hconv, if_neg hkk, hds], hm⟩
  have hother : ∀ k ds, k ∈ s.world.registry.deletingSessions → s.world.registry.conversations k = some ds →
      r.conversations k = some ds := by
    intro k ds hkd hds
    have hkk : key' ≠ k := fun heq => hdel (heq ▸ hkd)
    rw [hconv, if_neg hkk, hds]
  have hpend : pending user { s with world := w', streams := s.streams.set i st' } =
      s.pending user ++ answerWorks st.request answer := hpending
  constructor
  case registry => exact hreg ▸ hcons
  case queue => exact hused
  case workers => exact hworkers
  case drawn => exact hkept.drawn
  case leased =>
    intro st₂ h₂
    obtain ⟨hu₂, hq₂, key₂, hk₂, hl₂⟩ := hkept.leased st₂ h₂
    exact ⟨hu₂, hq₂, key₂, hk₂, fun hne => by rw [hreg, hstr]; exact hl₂ hne⟩
  case held => exact fun key₂ c₂ hc₂ => hkept.held key₂ c₂ (by rw [hreg, hstr] at hc₂; exact hc₂)
  case origin =>
    rintro k c₂ ⟨ds, hds, hm⟩
    rw [hreg, hconv] at hds
    split_ifs at hds with hkk
    · cases hds
      subst hkk
      rcases List.mem_append.mp hm with hm | hm
      · exact hkept.origin key' c₂ ⟨cs, hcs, hm⟩
      · rw [List.mem_singleton] at hm
        exact ⟨st', mem_set_self hi, by rw [hreq, hm], by rw [hreq, hk], ha⟩
    · exact hkept.origin k c₂ ⟨ds, hds, hm⟩
  case embedded =>
    intro c₂ hc₂
    rw [hreg]
    rw [hpend, List.filterMap_append, answerWorks_persists, List.mem_append] at hc₂
    rcases hc₂ with hc₂ | hc₂
    · exact hinto c₂ (h.embedded c₂ hc₂)
    · obtain rfl := List.mem_singleton.mp hc₂
      exact ⟨key', _, by rw [hconv, if_pos rfl], List.mem_append_right _ (List.mem_singleton_self _)⟩
  case stored => exact fun g hg => hreg ▸ hinto _ (h.stored g hg)
  case reserved =>
    intro d hd ids hp
    obtain ⟨hu₂, key₂, hk₂, hd₂, hcs₂⟩ := h.reserved d hd ids hp
    rw [hreg, hdel']
    exact ⟨hu₂, key₂, hk₂, hd₂, hother key₂ ids hd₂ hcs₂⟩
  case deleting =>
    intro before u sid ids behind hsplit
    obtain ⟨behind', hsplit', rfl⟩ := split_append (p := fun y => ∃ u sid ids, y = ChatWork.deleteSession u sid ids)
      ⟨u, sid, ids, rfl⟩ (answerWorks_keep st.request answer) (hpend.symm.trans hsplit)
    obtain ⟨key₂, hk₂, hd₂, hcs₂, hno⟩ := h.deleting before u sid ids behind' hsplit'
    rw [hreg, hdel']
    refine ⟨key₂, hk₂, hd₂, hother key₂ ids hd₂ hcs₂, fun c₂ hc₂ hmem₂ => ?_⟩
    rw [List.filterMap_append, answerWorks_persists, List.mem_append] at hmem₂
    rcases hmem₂ with hmem₂ | hmem₂
    · exact hno c₂ hc₂ hmem₂
    · obtain rfl := List.mem_singleton.mp hmem₂
      exact hnew ⟨key₂, ids, hcs₂, hc₂⟩
  case holders =>
    have hsame : ChatSystem.holders S user { s with world := w', streams := s.streams.set i st' } =
        s.holders S user := by
      unfold ChatSystem.holders
      rw [hpend, List.filterMap_append, answerWorks_deletesKey, List.append_nil]
    rw [hsame]
    exact h.holders
  case confirmed =>
    intro hconf
    obtain ⟨u, sid, ids, behind, hhead, hnone⟩ := h.confirmed hconf
    exact ⟨u, sid, ids, behind ++ answerWorks st.request answer, hpend.trans (by rw [hhead, List.cons_append]), hnone⟩

/-! ### Deletions -/

/-- A session was reserved. -/
theorem Invariant.reserve (h : Invariant S user s C T) {sid : Text} {ids : List Uuid} {key : SessionKey}
    {t : ChatRegistry} (hk : ChatRegistry.sessionKey S user sid = .ok key) (hnew : key ∉ s.world.registry.deletingSessions)
    (hcs : s.world.registry.conversations key = some ids) (hcons : t.Consistent)
    (ht : t = { s.world.registry with deletingSessions := insert key s.world.registry.deletingSessions }) :
    Invariant S user { s with
      world := { s.world with registry := t }
      deletions := s.deletions ++ [⟨user, sid, .ensuring ids⟩] } C T := by
  subst ht
  constructor
  case registry => exact hcons
  case queue => exact h.queue
  case workers => exact h.workers
  case drawn => exact h.drawn
  case leased => exact h.leased
  case held => exact h.held
  case origin => exact h.origin
  case embedded => exact h.embedded
  case stored => exact h.stored
  case reserved =>
    intro d hd ids' hp
    rcases List.mem_append.mp hd with hd | hd
    · obtain ⟨hu, key', hk', hd', hcs'⟩ := h.reserved d hd ids' hp
      exact ⟨hu, key', hk', Finset.mem_insert_of_mem hd', hcs'⟩
    · rw [List.mem_singleton] at hd
      subst hd
      cases hp
      exact ⟨rfl, key, hk, Finset.mem_insert_self .., hcs⟩
  case deleting =>
    intro before u sid' ids' behind hsplit
    obtain ⟨key', hk', hd', hcs', hno⟩ := h.deleting before u sid' ids' behind hsplit
    exact ⟨key', hk', Finset.mem_insert_of_mem hd', hcs', hno⟩
  case holders =>
    have hone : List.filterMap (ensuresKey S) [(⟨user, sid, .ensuring ids⟩ : DeleteRequest)] = [key] := by
      simp [ensuresKey, hk, Except.toOption]
    have hperm : (ChatSystem.holders S user { s with
        world := { s.world with
          registry := { s.world.registry with deletingSessions := insert key s.world.registry.deletingSessions } }
        deletions := s.deletions ++ [⟨user, sid, .ensuring ids⟩] }).Perm (key :: s.holders S user) := by
      unfold ChatSystem.holders
      rw [List.filterMap_append, hone, List.append_assoc, List.singleton_append]
      exact List.perm_middle
    exact hperm.nodup_iff.mpr (List.nodup_cons.mpr ⟨fun hmem => hnew (h.holders_deleting hmem), h.holders⟩)
  case confirmed => exact h.confirmed

/-- Some pending work or some reservation is settled: what is still held is as before, and
nothing of a session that is gone is stored or pending. -/
theorem Invariant.settle (h : Invariant S user s C T) {s' : ChatSystem F}
    (hcons : s'.world.registry.Consistent) (hused : s'.world.queue.WellUsed T)
    (hworkers : ∀ w ∈ s'.world.queue.tasks, w.userId = user) (hstreams : s'.streams = s.streams)
    (hsegments : s'.segments = s.segments)
    (hback : ∀ k c, Recorded s'.world.registry k c → Recorded s.world.registry k c)
    (hleases : ∀ k, s'.world.registry.streams k = s.world.registry.streams k)
    (hpending : ∃ gone, s.pending user = gone ++ s'.pending user)
    (hdeletions : ∀ d ∈ s'.deletions, d.phase ≠ .ended → d ∈ s.deletions)
    (hholders : (s'.holders S user).Nodup)
    (hheld : ∀ k ∈ s'.holders S user,
      (k ∈ s.world.registry.deletingSessions → k ∈ s'.world.registry.deletingSessions) ∧
        s'.world.registry.conversations k = s.world.registry.conversations k)
    (hembedded : ∀ c ∈ (s'.pending user).filterMap persists, InSession s'.world.registry c)
    (hstored : ∀ g ∈ s'.segments, InSession s'.world.registry g.conversationId)
    (hconf : s'.confirmed = true → s'.pending user = s.pending user ∧ s.confirmed = true) :
    Invariant S user s' C T := by
  obtain ⟨gone, hgone⟩ := hpending
  constructor
  case registry => exact hcons
  case queue => exact hused
  case workers => exact hworkers
  case drawn => exact hstreams ▸ h.drawn
  case leased =>
    intro st hst
    obtain ⟨hu, hq, key', hk', hl⟩ := h.leased st (hstreams ▸ hst)
    exact ⟨hu, hq, key', hk', fun hne => by rw [hleases]; exact hl hne⟩
  case held => exact fun key' c hc => hstreams ▸ h.held key' c (by rw [← hleases]; exact hc)
  case origin => exact fun k c hc => hstreams ▸ h.origin k c (hback k c hc)
  case embedded => exact hembedded
  case stored => exact hstored
  case reserved =>
    intro d hd ids hp
    obtain ⟨hu, key, hk, hd', hcs⟩ := h.reserved d (hdeletions d hd (by simp [hp])) ids hp
    have hmem : key ∈ s'.holders S user := by
      refine List.mem_append_left _ (List.mem_filterMap.mpr ⟨d, hd, ?_⟩)
      simp [ensuresKey, hp, hk, Except.toOption]
    obtain ⟨hdel, hconv⟩ := hheld key hmem
    exact ⟨hu, key, hk, hdel hd', by rw [hconv, hcs]⟩
  case deleting =>
    intro before u sid ids behind hsplit
    obtain ⟨key, hk, hd', hcs, hno⟩ := h.deleting (gone ++ before) u sid ids behind
      (by rw [hgone, hsplit, List.append_assoc])
    have hmem : key ∈ s'.holders S user := by
      refine List.mem_append_right _ (List.mem_filterMap.mpr ⟨.deleteSession u sid ids, ?_, ?_⟩)
      · rw [hsplit]
        simp
      · simp [deletesKey, hk, Except.toOption]
    obtain ⟨hdel, hconv⟩ := hheld key hmem
    exact ⟨key, hk, hdel hd', by rw [hconv, hcs], hno⟩
  case holders => exact hholders
  case confirmed =>
    intro hc
    obtain ⟨hsame, hc'⟩ := hconf hc
    rw [hsegments, hsame]
    exact h.confirmed hc'

/-- The deletion requests without the one at a place, which ended. -/
theorem deletions_set {ds : List DeleteRequest} {i : ℕ} {d : DeleteRequest} (hi : ds[i]? = some d) :
    ∃ before behind, ds = before ++ d :: behind ∧
      ds.set i { d with phase := .ended } = before ++ { d with phase := .ended } :: behind := by
  obtain ⟨hlt, hd⟩ := List.getElem?_eq_some_iff.mp hi
  obtain ⟨before, behind, hds, -, hset⟩ := List.exists_of_set hlt
  rw [hd] at hds
  exact ⟨before, behind, hds, hset⟩

theorem mem_deletions_set {ds : List DeleteRequest} {i : ℕ} {d e : DeleteRequest}
    (he : e ∈ ds.set i { d with phase := .ended }) (hp : e.phase ≠ .ended) : e ∈ ds := by
  rcases mem_set_cases he with rfl | ⟨j, -, hj⟩
  · exact absurd rfl hp
  · exact List.mem_of_getElem? hj

/-- When a deletion request ends, it stops holding its reservation. -/
theorem holders_set {i : ℕ} {d : DeleteRequest} {ids : List Uuid} {key : SessionKey} (hi : s.deletions[i]? = some d)
    (hp : d.phase = .ensuring ids) (hk : ChatRegistry.sessionKey S d.userId d.sessionId = .ok key) {w : ChatWorld}
    (hpend : w.queue.pendingWorks user = s.pending user) :
    (s.holders S user).Perm (key :: ChatSystem.holders S user { s with
      world := w
      deletions := s.deletions.set i { d with phase := .ended } }) := by
  obtain ⟨before, behind, hds, hset⟩ := deletions_set hi
  have hended : ensuresKey S { d with phase := .ended } = none := rfl
  have hkey : ensuresKey S d = some key := by simp [ensuresKey, hp, hk, Except.toOption]
  unfold ChatSystem.holders
  rw [show pending user { s with world := w, deletions := s.deletions.set i { d with phase := .ended } } =
    s.pending user from hpend]
  rw [hset, hds]
  simp only [List.filterMap_append, List.filterMap_cons_none hended, List.filterMap_cons_some hkey,
    List.append_assoc, List.cons_append]
  exact List.perm_middle

/-- A deletion request ended, and its reservation with it or not. -/
theorem Invariant.endDeletion (h : Invariant S user s C T) {i : ℕ} {d : DeleteRequest} {ids : List Uuid}
    (hi : s.deletions[i]? = some d) (hp : d.phase = .ensuring ids) {w : ChatWorld}
    (hw : w = s.world ∨ w = DeleteRequest.abort S d.userId d.sessionId s.world) :
    Invariant S user { s with world := w, deletions := s.deletions.set i { d with phase := .ended } } C T := by
  obtain ⟨hu, key, hk, hdel, hcs⟩ := h.reserved d (List.mem_of_getElem? hi) ids hp
  -- either way the registry is as before, but for the reservation
  obtain ⟨r, rfl, hcons, hconv, hleases, hdel'⟩ : ∃ r, w = { s.world with registry := r } ∧ r.Consistent ∧
      (∀ k, r.conversations k = s.world.registry.conversations k) ∧
      (∀ k, r.streams k = s.world.registry.streams k) ∧
      ∀ k, k ≠ key → k ∈ s.world.registry.deletingSessions → k ∈ r.deletingSessions := by
    rcases hw with rfl | rfl
    · exact ⟨s.world.registry, rfl, h.registry, fun _ => rfl, fun _ => rfl, fun _ _ hk => hk⟩
    · obtain ⟨r, hr, hcons, hdel', hconv, hleases⟩ := abort_effect (w := s.world) hk h.registry
      exact ⟨r, hr, hcons, hconv, hleases, fun k hne hkd => hdel' ▸ Finset.mem_erase.mpr ⟨hne, hkd⟩⟩
  have hperm : (s.holders S user).Perm (key :: ChatSystem.holders S user { s with
      world := { s.world with registry := r }
      deletions := s.deletions.set i { d with phase := .ended } }) := holders_set hi hp hk rfl
  have hnd := List.nodup_cons.mp (hperm.nodup_iff.mp h.holders)
  refine h.settle hcons h.queue h.workers rfl rfl (fun k c hc => (Recorded.congr hconv).mp hc) hleases ⟨[], rfl⟩
    (fun e he => mem_deletions_set he) hnd.2 (fun k hkmem => ⟨hdel' k ?_, hconv k⟩) ?_ ?_ fun hc => ⟨rfl, hc⟩
  · rintro rfl
    exact hnd.1 hkmem
  · exact fun c hc => (InSession.congr hconv).mpr (h.embedded c hc)
  · exact fun g hg => (InSession.congr hconv).mpr (h.stored g hg)

/-- A deletion request enqueued its work, which holds the reservation from then on. -/
theorem Invariant.enqueueDeletion (h : Invariant S user s C T) {i : ℕ} {d : DeleteRequest} {ids : List Uuid}
    (hi : s.deletions[i]? = some d) (hp : d.phase = .ensuring ids) {op : Text} {id : Uuid} {now : ℕ}
    (hacc : s.world.queue.accepting = true) (hfresh : id ∉ T) :
    Invariant S user { s with
      world := { s.world with
        queue := s.world.queue.accept d.userId op (.deleteSession d.userId d.sessionId ids) id now }
      deletions := s.deletions.set i { d with phase := .ended } } C (T ++ [id]) := by
  obtain ⟨hu, key, hk, hdel, hcs⟩ := h.reserved d (List.mem_of_getElem? hi) ids hp
  set work : ChatWork := .deleteSession d.userId d.sessionId ids with hwork
  have hpending : (s.world.queue.accept d.userId op work id now).pendingWorks user = s.pending user ++ [work] := by
    rw [h.queue.accept_pendingWorks d.userId op work now hfresh user, if_pos hu]
    rfl
  have hdeletes : deletesKey S work = some key := by simp [hwork, deletesKey, hk, Except.toOption]
  constructor
  case registry => exact h.registry
  case queue => exact h.queue.accept hacc hfresh
  case workers => exact hu ▸ tasks_accept (hu ▸ h.workers)
  case drawn => exact h.drawn
  case leased => exact h.leased
  case held => exact h.held
  case origin => exact h.origin
  case embedded =>
    intro c hc
    refine h.embedded c ?_
    rw [show pending user { s with
      world := { s.world with queue := s.world.queue.accept d.userId op work id now }
      deletions := s.deletions.set i { d with phase := .ended } } = s.pending user ++ [work] from hpending] at hc
    simpa [hwork, persists] using hc
  case stored => exact h.stored
  case reserved => exact fun e he ids' hp' => h.reserved e (mem_deletions_set he (by simp [hp'])) ids' hp'
  case deleting =>
    intro before u sid ids' behind hsplit
    have hsplit' : s.pending user ++ [work] = before ++ .deleteSession u sid ids' :: behind := hpending.symm.trans hsplit
    rcases List.append_eq_append_iff.mp hsplit' with ⟨cs, hbefore, hrest⟩ | ⟨cs, hxs, hrest⟩
    · -- the work just enqueued
      cases cs with
      | nil =>
        simp only [List.nil_append, List.cons.injEq] at hrest
        obtain ⟨heq, rfl⟩ := hrest
        rw [hwork, ChatWork.deleteSession.injEq] at heq
        obtain ⟨rfl, rfl, rfl⟩ := heq
        exact ⟨key, hk, hdel, hcs, fun c _ hc => by cases hc⟩
      | cons x xs => simp at hrest
    · cases cs with
      | nil =>
        simp only [List.nil_append, List.cons.injEq] at hrest
        obtain ⟨heq, rfl⟩ := hrest
        rw [hwork, ChatWork.deleteSession.injEq] at heq
        obtain ⟨rfl, rfl, rfl⟩ := heq
        exact ⟨key, hk, hdel, hcs, fun c _ hc => by cases hc⟩
      | cons x xs =>
        simp only [List.cons_append, List.cons.injEq] at hrest
        obtain ⟨rfl, rfl⟩ := hrest
        obtain ⟨key', hk', hd', hcs', hno⟩ := h.deleting before u sid ids' xs hxs
        refine ⟨key', hk', hd', hcs', fun c hc hmem => hno c hc ?_⟩
        simpa [hwork, persists] using hmem
  case holders =>
    have hperm : (s.holders S user).Perm (key :: ChatSystem.holders S user { s with
        deletions := s.deletions.set i { d with phase := .ended } }) := holders_set hi hp hk rfl
    have hsame : (ChatSystem.holders S user { s with
        world := { s.world with queue := s.world.queue.accept d.userId op work id now }
        deletions := s.deletions.set i { d with phase := .ended } }).Perm (s.holders S user) := by
      refine List.Perm.trans ?_ hperm.symm
      unfold ChatSystem.holders
      rw [show pending user { s with
        world := { s.world with queue := s.world.queue.accept d.userId op work id now }
        deletions := s.deletions.set i { d with phase := .ended } } = s.pending user ++ [work] from hpending]
      rw [List.filterMap_append, List.filterMap_cons_some hdeletes, List.filterMap_nil, ← List.append_assoc]
      exact List.perm_append_singleton _ _
    exact hsame.nodup_iff.mpr h.holders
  case confirmed =>
    intro hconf
    obtain ⟨u, sid, ids', behind, hhead, hnone⟩ := h.confirmed hconf
    exact ⟨u, sid, ids', behind ++ [work], hpending.trans (by rw [hhead, List.cons_append]), hnone⟩

end Frames

end ChatSystem

end TenantRag

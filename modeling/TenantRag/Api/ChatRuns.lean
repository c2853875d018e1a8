import TenantRag.Api.ChatSteps

/-!
# The chats of one user: runs

Every step of the system of `Api.ChatSystem` keeps the invariant of
`Api.ChatInvariant`, and changes conversations, requests, leases and accepted
tasks only in a few ways.

## What is proved

* `Evolves` — what a step may change, with one lemma for the steps that neither
  answer nor take a lease.
* `Invariant.step` — every step keeps the invariant and evolves the system so,
  where the drawn ids are fresh.
* `Invariant.run` — the invariant holds after every run in which no id was drawn
  twice.
-/

namespace TenantRag

namespace ChatSystem

variable {F : Type} [PyFloat F] {S : RegistrySettings} {user : Text} {s s' : ChatSystem F} {C T : List Uuid}

/-! ### What a step may change -/

/-- What a step may do to the conversations, the requests, the leases and the accepted tasks. -/
structure Evolves (S : RegistrySettings) (s s' : ChatSystem F) : Prop where
  /-- A conversation comes into a session only with the answer of its request. -/
  recorded : ∀ key c, Recorded s'.world.registry key c → Recorded s.world.registry key c ∨
    ∃ st ∈ s.streams, st.request.conversationId = c ∧ unanswered st.phase = true
  /-- A session keeps its conversations, unless a commit removes it. -/
  removed : ∀ key cs, s.world.registry.conversations key = some cs →
    (∃ more, s'.world.registry.conversations key = some (cs ++ more)) ∨
      s'.world.registry.conversations key = none ∧ ∃ u sid, ChatRegistry.sessionKey S u sid = .ok key ∧
        ChatRegistry.commitSessionDeletion S u sid s.world.registry = .ok cs s'.world.registry
  /-- A request stays known, and one that answered has answered. -/
  requests : ∀ st ∈ s.streams, ∃ st' ∈ s'.streams, st'.request = st.request ∧
    (unanswered st.phase = false → unanswered st'.phase = false)
  /-- A lease is taken only for a new request. -/
  leases : ∀ key c, c ∈ s'.world.registry.streams key → c ∈ s.world.registry.streams key ∨
    ∀ st ∈ s.streams, st.request.conversationId ≠ c
  /-- A conversation whose persistence is accepted is recorded in the session of its request. -/
  accepted : ∀ id r c, s.world.queue.records.get? id = none → s'.world.queue.records.get? id = some r →
    persists r.workFactory = some c → ∃ st ∈ s'.streams, st.request.conversationId = c ∧
      ∃ key, ChatRegistry.sessionKey S st.request.userId st.request.sessionId = .ok key ∧
        Recorded s'.world.registry key c

section Frames

omit [PyFloat F]

/-- A step that leaves the requests alone, takes no lease, records nothing, removes no
session and accepts no persistence. -/
theorem Evolves.still (hstreams : s'.streams = s.streams)
    (hconv : ∀ k, s'.world.registry.conversations k = s.world.registry.conversations k)
    (hleases : ∀ k, s'.world.registry.streams k = s.world.registry.streams k)
    (haccepted : ∀ id r, s.world.queue.records.get? id = none → s'.world.queue.records.get? id = some r →
      persists r.workFactory = none) : Evolves S s s' where
  recorded key c hc := .inl ((Recorded.congr hconv).mp hc)
  removed key cs hcs := .inl ⟨[], by rw [hconv, hcs, List.append_nil]⟩
  requests st hst := ⟨st, hstreams ▸ hst, rfl, fun h => h⟩
  leases key c hc := .inl (hleases key ▸ hc)
  accepted id r c hnone hr hp := by
    rw [haccepted id r hnone hr] at hp
    cases hp

/-- Two such steps, where the second one is not a commit. -/
theorem Evolves.of_registry {t : ChatSystem F} (h : Evolves S s t) (hstreams : s'.streams = t.streams)
    (hreg : s'.world.registry = t.world.registry)
    (haccepted : ∀ id r, s.world.queue.records.get? id = none → s'.world.queue.records.get? id = some r →
      persists r.workFactory = none) : Evolves S s s' where
  recorded key c hc := h.recorded key c (hreg ▸ hc)
  removed key cs hcs := hreg ▸ h.removed key cs hcs
  requests st hst := hstreams ▸ h.requests st hst
  leases key c hc := h.leases key c (hreg ▸ hc)
  accepted id r c hnone hr hp := by
    rw [haccepted id r hnone hr] at hp
    cases hp

theorem no_record {q : InMemoryTaskQueue ChatWork} (id : Uuid) (r : TaskRecord ChatWork)
    (hnone : q.records.get? id = none) (hr : q.records.get? id = some r) : persists r.workFactory = none := by
  rw [hnone] at hr
  cases hr

/-- The registry may have gained sessions. -/
theorem Evolves.extend {r : ChatRegistry} (hr : s.world.registry.Extends r) :
    Evolves S s { s with world := { s.world with registry := r } } where
  recorded key c := by
    rintro ⟨cs, hcs, hmem⟩
    rcases hr.conversations key with heq | ⟨-, hnil⟩
    · exact .inl ⟨cs, heq ▸ hcs, hmem⟩
    · rw [hnil] at hcs
      cases hcs
      cases hmem
  removed key cs hcs := by
    rcases hr.conversations key with heq | ⟨hnone, -⟩
    · exact .inl ⟨[], by rw [heq, hcs, List.append_nil]⟩
    · rw [hnone] at hcs
      cases hcs
  requests st hst := ⟨st, hst, rfl, fun h => h⟩
  leases key c hc := .inl (hr.streams key ▸ hc)
  accepted id r' c hnone hr' hp := by
    rw [no_record id r' hnone hr'] at hp
    cases hp

/-! ### The worker -/

/-- A step of the queue that accepts nothing and leaves pending work alone. -/
theorem Invariant.queue_step (h : Invariant S user s C T) {a : InMemoryTaskQueue.Action ChatWork}
    {q : InMemoryTaskQueue ChatWork} {ev : List TaskEvent} {pattern : UserIdPattern}
    (hs : (InMemoryTaskQueue.machine ChatWork pattern).step s.world.queue a = some (q, ev))
    (hev : InMemoryTaskQueue.acceptedIds ev = []) (hp : q.pendingWorks user = s.pending user) :
    Invariant S user { s with world := { s.world with queue := q } } C T ∧
      Evolves S s { s with world := { s.world with queue := q } } := by
  refine ⟨h.requeue (h.queue.step hs hev) (h.queue.workers_step hs hev h.workers) hp, ?_⟩
  refine Evolves.still rfl (fun _ => rfl) (fun _ => rfl) fun id r hnone hr => ?_
  rw [h.queue.records_step hs hev hnone] at hr
  cases hr

/-- The work a worker is busy with is the first pending one. -/
theorem Invariant.working (h : Invariant S user s C T) {i : ℕ} {w : ChatWork} (hw : s.workAt i = some w) :
    ∃ rest, s.pending user = w :: rest := by
  unfold workAt at hw
  split at hw
  · rename_i u id hi
    obtain rfl := h.workers _ (List.mem_of_getElem? hi)
    exact h.queue.busy_pendingWorks hi hw
  · cases hw

/-- A segment of a conversation that is being persisted is inserted. -/
theorem Invariant.insert (h : Invariant S user s C T) {i : ℕ} {u question answer : Text} {c : Uuid}
    (hw : s.workAt i = some (.embedConversation u c question answer)) (index : ℕ) :
    Invariant S user { s with segments := s.segments ++ [⟨c, index⟩] } C T := by
  obtain ⟨rest, hrest⟩ := h.working hw
  refine { h with stored := ?_, confirmed := ?_ }
  · intro g hg
    rcases List.mem_append.mp hg with hg | hg
    · exact h.stored g hg
    · obtain rfl := List.mem_singleton.mp hg
      exact h.embedded c (by rw [hrest]; exact List.mem_cons_self ..)
  · intro hconf
    obtain ⟨u', sid, ids, behind, hhead, -⟩ := h.confirmed hconf
    rw [hrest] at hhead
    cases hhead

/-- A segment is removed. -/
theorem Invariant.remove (h : Invariant S user s C T) (segment : Segment) :
    Invariant S user { s with segments := s.segments.erase segment } C T := by
  refine { h with stored := ?_, confirmed := ?_ }
  · exact fun g hg => h.stored g (List.mem_of_mem_erase hg)
  · intro hconf
    obtain ⟨u, sid, ids, behind, hhead, hnone⟩ := h.confirmed hconf
    exact ⟨u, sid, ids, behind, hhead, fun g hg => hnone g (List.mem_of_mem_erase hg)⟩

/-- Storage found nothing left to delete. -/
theorem Invariant.confirm (h : Invariant S user s C T) {i : ℕ} {u sid : Text} {ids : List Uuid}
    (hw : s.workAt i = some (.deleteSession u sid ids)) (hnone : ∀ g ∈ s.segments, g.conversationId ∉ ids) :
    Invariant S user { s with confirmed := true } C T := by
  obtain ⟨rest, hrest⟩ := h.working hw
  exact { h with confirmed := fun _ => ⟨u, sid, ids, rest, hrest, hnone⟩ }

/-- What the end of a work item does to the queue. -/
theorem Invariant.finished (h : Invariant S user s C T) {i now : ℕ} {w : ChatWork} {outcome : WorkOutcome}
    {q : InMemoryTaskQueue ChatWork} {ev : List TaskEvent} (hw : s.workAt i = some w)
    (hs : s.world.queue.workerFinish i outcome now = some (q, ev)) :
    q.WellUsed T ∧ (∀ x ∈ q.tasks, x.userId = user) ∧ s.pending user = w :: q.pendingWorks user ∧
      ∀ id, s.world.queue.records.get? id = none → q.records.get? id = none := by
  have hstep : (InMemoryTaskQueue.machine ChatWork .any).step s.world.queue (.workerFinish i outcome now) =
      some (q, ev) := hs
  have hev : InMemoryTaskQueue.acceptedIds ev = [] := by
    obtain ⟨evs, hi, -, -⟩ := h.queue
    obtain ⟨u, id, r, a, -, -, -, -, -, rfl, -⟩ := hi.workerFinish_cases hs
    rfl
  refine ⟨h.queue.step hstep hev, h.queue.workers_step hstep hev h.workers, ?_,
    fun id hid => h.queue.records_step hstep hev hid⟩
  obtain ⟨u, id, w', hi, hwork, hpend, -⟩ := h.queue.workerFinish_pendingWorks hs
  obtain rfl : u = user := h.workers _ (List.mem_of_getElem? hi)
  rw [workAt, hi] at hw
  obtain rfl : w' = w := Option.some.inj (hwork.symm.trans hw)
  exact hpend

/-- A work item that deletes nothing ended. -/
theorem Invariant.finish (h : Invariant S user s C T) {i now : ℕ} {w : ChatWork} {outcome : WorkOutcome}
    {q : InMemoryTaskQueue ChatWork} {ev : List TaskEvent} (hw : s.workAt i = some w) (hkey : deletesKey S w = none)
    (hs : s.world.queue.workerFinish i outcome now = some (q, ev)) :
    Invariant S user { s with world := { s.world with queue := q }, confirmed := false } C T ∧
      Evolves S s { s with world := { s.world with queue := q }, confirmed := false } := by
  obtain ⟨hused, hworkers, hpend, hrec⟩ := h.finished hw hs
  have hholders : ChatSystem.holders S user { s with world := { s.world with queue := q }, confirmed := false } =
      s.holders S user := by
    unfold ChatSystem.holders
    rw [hpend, List.filterMap_cons_none hkey]
    rfl
  refine ⟨h.settle h.registry hused hworkers rfl rfl (fun _ _ hc => hc) (fun _ => rfl) ⟨[w], hpend⟩
    (fun _ hd _ => hd) (hholders ▸ h.holders) (fun _ _ => ⟨fun hd => hd, rfl⟩) (fun c hc => ?_) h.stored
    (fun hf => by cases hf), Evolves.still rfl (fun _ => rfl) (fun _ => rfl) fun id r hnone hr => ?_⟩
  · refine h.embedded c ?_
    rw [hpend]
    obtain ⟨x, hx, hxc⟩ := List.mem_filterMap.mp hc
    exact List.mem_filterMap.mpr ⟨x, List.mem_cons_of_mem _ hx, hxc⟩
  · rw [hrec id hnone] at hr
    cases hr

/-- A deletion ended: its reservation is gone, and with a commit its session, of which
nothing is stored or pending any more. -/
theorem Invariant.endReservation (h : Invariant S user s C T) {i now : ℕ} {u sid : Text} {ids : List Uuid}
    {key : SessionKey} {outcome : WorkOutcome} {q : InMemoryTaskQueue ChatWork} {ev : List TaskEvent}
    {r : ChatRegistry} (hw : s.workAt i = some (.deleteSession u sid ids))
    (hk : ChatRegistry.sessionKey S u sid = .ok key)
    (hs : s.world.queue.workerFinish i outcome now = some (q, ev)) (hcons : r.Consistent)
    (hdel : r.deletingSessions = s.world.registry.deletingSessions.erase key)
    (hleases : ∀ k, r.streams k = s.world.registry.streams k)
    (hconv : (∀ k, r.conversations k = s.world.registry.conversations k) ∨
      (∀ k, r.conversations k = if key = k then none else s.world.registry.conversations k) ∧
        ∀ g ∈ s.segments, g.conversationId ∉ ids) :
    Invariant S user { s with world := ⟨r, q⟩, confirmed := false } C T := by
  obtain ⟨hused, hworkers, hpend, -⟩ := h.finished hw hs
  obtain ⟨key', hk', -, hcs, hno⟩ := h.deleting [] u sid ids _ hpend
  obtain rfl : key' = key := Except.ok.inj (hk'.symm.trans hk)
  have hdeletes : deletesKey S (.deleteSession u sid ids) = some key' := by simp [deletesKey, hk, Except.toOption]
  have hperm : (s.holders S user).Perm
      (key' :: ChatSystem.holders S user { s with world := ⟨r, q⟩, confirmed := false }) := by
    unfold ChatSystem.holders
    rw [hpend, List.filterMap_cons_some hdeletes]
    exact List.perm_middle
  have hnd := List.nodup_cons.mp (hperm.nodup_iff.mp h.holders)
  have hkeep : ∀ k, key' ≠ k → r.conversations k = s.world.registry.conversations k := by
    intro k hne
    rcases hconv with hsame | ⟨hconv, -⟩
    · exact hsame k
    · rw [hconv, if_neg hne]
  -- what is not one of the session's conversations stays in its session
  have hstay : ∀ c, InSession s.world.registry c → ((∀ k, r.conversations k = s.world.registry.conversations k) ∨ c ∉ ids) →
      InSession r c := by
    rintro c ⟨k, ds, hds, hmem⟩ hor
    rcases hor with hsame | hnot
    · exact ⟨k, ds, by rw [hsame, hds], hmem⟩
    · have hne : key' ≠ k := by
        rintro rfl
        rw [hcs, Option.some.injEq] at hds
        exact hnot (hds ▸ hmem)
      exact ⟨k, ds, by rw [hkeep k hne, hds], hmem⟩
  refine h.settle hcons hused hworkers rfl rfl (fun k c hc => ?_) hleases ⟨[_], hpend⟩ (fun _ hd _ => hd) hnd.2
    (fun k hkmem => ?_) (fun c hc => ?_) (fun g hg => ?_) (fun hf => by cases hf)
  · obtain ⟨ds, hds, hmem⟩ := hc
    rcases hconv with hsame | ⟨hconv, -⟩
    · exact ⟨ds, hsame k ▸ hds, hmem⟩
    · change r.conversations k = some ds at hds
      rw [hconv] at hds
      split_ifs at hds
      exact ⟨ds, hds, hmem⟩
  · have hne : key' ≠ k := by
      rintro rfl
      exact hnd.1 hkmem
    exact ⟨fun hd => hdel ▸ Finset.mem_erase.mpr ⟨hne.symm, hd⟩, hkeep k hne⟩
  · have hc' : c ∈ (q.pendingWorks user).filterMap persists := hc
    refine hstay c (h.embedded c ?_) ?_
    · rw [hpend]
      obtain ⟨x, hx, hxc⟩ := List.mem_filterMap.mp hc'
      exact List.mem_filterMap.mpr ⟨x, List.mem_cons_of_mem _ hx, hxc⟩
    · exact hconv.imp id fun _ hmem => hno c hmem hc'
  · exact hstay _ (h.stored g hg) (hconv.imp id fun hrest => hrest.2 g hg)

theorem finishWork_cases {w : ChatWorld} {i now : ℕ} {outcome : WorkOutcome}
    (hs : s.finishWork w i outcome now = some s') : ∃ q ev, w.queue.workerFinish i outcome now = some (q, ev) ∧
      s' = { s with world := { w with queue := q }, confirmed := false } := by
  unfold finishWork at hs
  split at hs
  · cases hs
  · rename_i q ev hq
    cases hs
    exact ⟨q, ev, hq, rfl⟩

/-- A call of an endpoint that manages sessions only creates sessions. -/
theorem Invariant.manage (h : Invariant S user s C T) {call : ChatRegistry.Call} (hm : call.isManagement = true) :
    Eff.wp (ChatRegistry.perform S call)
      (fun _ r => Invariant S user { s with world := { s.world with registry := r } } C T ∧
        Evolves S s { s with world := { s.world with registry := r } })
      (fun _ r => Invariant S user { s with world := { s.world with registry := r } } C T ∧
        Evolves S s { s with world := { s.world with registry := r } }) s.world.registry := by
  refine Eff.wp_mono (Eff.wp_and (ChatRegistry.management_extends h.registry hm)
    (ChatRegistry.perform_spec h.registry call)) (fun _ r hr => ?_) fun _ r hr => ?_
  · exact ⟨h.extend hr.1 hr.2.1, Evolves.extend hr.1⟩
  · exact ⟨h.extend hr.1 (hr.2.consistent h.registry), Evolves.extend hr.1⟩

/-- The title of a session is set, or not. -/
theorem Invariant.title (h : Invariant S user s C T) (u sid title : Text) :
    ∃ r, (finishTitle S u sid title s.world).1 = { s.world with registry := r } ∧
      Invariant S user { s with world := { s.world with registry := r } } C T ∧
        Evolves S s { s with world := { s.world with registry := r } } := by
  have hmanage := h.manage (S := S) (show (ChatRegistry.Call.updateTitle u sid title).isManagement = true from rfl)
  have hspec := (Eff.wp_map _ _).mp hmanage
  unfold finishTitle ChatWorld.onRegistry Eff.zoom
  cases hrun : ChatRegistry.updateTitle S u sid title s.world.registry with
  | ok a r => exact ⟨r, rfl, Eff.wp_ok hspec hrun⟩
  | error e r => exact ⟨r, rfl, Eff.wp_error hspec hrun⟩

/-- The rest of a deletion gives the reservation back, and removes the session exactly where
storage confirmed. -/
theorem Invariant.deletion_outcome (h : Invariant S user s C T) {u sid : Text} {ids : List Uuid} {key : SessionKey}
    (hk : ChatRegistry.sessionKey S u sid = .ok key) (hd : key ∈ s.world.registry.deletingSessions)
    (hcs : s.world.registry.conversations key = some ids) (confirmed : Bool) :
    ∃ r, (finishDeletion S u sid confirmed s.world).1 = { s.world with registry := r } ∧ r.Consistent ∧
      r.deletingSessions = s.world.registry.deletingSessions.erase key ∧
      (∀ k, r.streams k = s.world.registry.streams k) ∧
      ((∀ k, r.conversations k = s.world.registry.conversations k) ∨ confirmed = true ∧
        ChatRegistry.commitSessionDeletion S u sid s.world.registry = .ok ids r ∧
        ∀ k, r.conversations k = if key = k then none else s.world.registry.conversations k) := by
  unfold finishDeletion
  cases confirmed with
  | true =>
    obtain ⟨r, hcommit, hconv, hdel, hstr⟩ := ChatRegistry.commitSessionDeletion_effect h.registry hk hd hcs
    have hcons : r.Consistent :=
      (Eff.wp_ok (ChatRegistry.commitSessionDeletion_spec h.registry u sid) hcommit).1.1
    refine ⟨r, ?_, hcons, hdel, hstr, .inr ⟨rfl, hcommit, hconv⟩⟩
    simp only [if_true, ChatWorld.onRegistry, Eff.zoom, hcommit]
  | false =>
    obtain ⟨r, hr, hcons, hdel, hconv, hleases⟩ := abort_effect (w := s.world) hk h.registry
    exact ⟨r, hr, hcons, hdel, hleases, .inl hconv⟩

/-- A deletion work item ends with what `finishDeletion` leaves behind. -/
theorem Invariant.deleted (h : Invariant S user s C T) {i now : ℕ} {u sid : Text} {ids : List Uuid}
    {confirmed : Bool} {outcome : WorkOutcome} (hw : s.workAt i = some (.deleteSession u sid ids))
    (hconf : confirmed = true → s.confirmed = true)
    (hs : s.finishWork (finishDeletion S u sid confirmed s.world).1 i outcome now = some s') :
    Invariant S user s' C T ∧ Evolves S s s' := by
  obtain ⟨rest, hrest⟩ := h.working hw
  obtain ⟨key, hk, hd, hcs, -⟩ := h.deleting [] u sid ids rest hrest
  obtain ⟨r, hr, hcons, hdel, hleases, hconv⟩ := h.deletion_outcome hk hd hcs confirmed
  rw [hr] at hs
  obtain ⟨q, ev, hq, rfl⟩ := finishWork_cases hs
  obtain ⟨-, -, -, hrec⟩ := h.finished hw hq
  have haccepted : ∀ id r', s.world.queue.records.get? id = none → q.records.get? id = some r' →
      persists r'.workFactory = none := by
    intro id r' hnone hr'
    rw [hrec id hnone] at hr'
    cases hr'
  constructor
  · refine h.endReservation hw hk hq hcons hdel hleases (hconv.imp id fun ⟨hc, _, hcv⟩ => ⟨hcv, ?_⟩)
    obtain ⟨u', sid', ids', behind, hhead, hnone⟩ := h.confirmed (hconf hc)
    rw [hrest, List.cons.injEq, ChatWork.deleteSession.injEq] at hhead
    obtain ⟨⟨-, -, rfl⟩, -⟩ := hhead
    exact hnone
  · rcases hconv with hsame | ⟨-, hcommit, hcv⟩
    · exact Evolves.still rfl hsame hleases haccepted
    · refine ⟨fun k c hc => .inl ?_, fun k cs hk' => ?_, fun st hst => ⟨st, hst, rfl, fun h => h⟩,
        fun k c hc => .inl (hleases k ▸ hc), fun id r' c hnone hr' hp => ?_⟩
      · obtain ⟨cs, hc₁, hmem⟩ := hc
        change r.conversations k = some cs at hc₁
        rw [hcv] at hc₁
        split_ifs at hc₁
        exact ⟨cs, hc₁, hmem⟩
      · by_cases hkk : key = k
        · subst hkk
          obtain rfl : ids = cs := Option.some.inj (hcs.symm.trans hk')
          exact .inr ⟨by rw [hcv, if_pos rfl], u, sid, hk, hcommit⟩
        · exact .inl ⟨[], by rw [hcv, if_neg hkk, hk', List.append_nil]⟩
      · rw [haccepted id r' hnone hr'] at hp
        cases hp

/-- A busy worker went on. -/
theorem Invariant.workStep (h : Invariant S user s C T) {i : ℕ} {input : WorkInput}
    (hs : stepWork S s i input = some s') : Invariant S user s' C T ∧ Evolves S s s' := by
  have hsame : ∀ {t : ChatSystem F}, t.world = s.world → t.streams = s.streams → Evolves S s t := by
    intro t hw hst
    exact Evolves.still hst (fun _ => by rw [hw]) (fun _ => by rw [hw]) fun id r hnone hr =>
      no_record id r hnone (hw ▸ hr)
  unfold stepWork at hs
  split at hs
  case h_1 u c question answer index hw =>
    cases hs
    exact ⟨h.insert hw index, hsame rfl rfl⟩
  case h_2 u c question answer segment hw =>
    split_ifs at hs
    cases hs
    exact ⟨h.remove segment, hsame rfl rfl⟩
  case h_3 u c question answer outcome title now hw =>
    obtain ⟨q, ev, hq, rfl⟩ := finishWork_cases hs
    exact h.finish hw rfl hq
  case h_4 u sid title now hw =>
    obtain ⟨r, hr, hinv, hev⟩ := h.title u sid title
    dsimp only at hs
    rw [hr] at hs
    obtain ⟨q, ev, hq, rfl⟩ := finishWork_cases hs
    have hfin := hinv.finish (i := i) (w := .generateSessionTitle u sid) hw rfl hq
    refine ⟨hfin.1, hev.of_registry rfl rfl fun id r' hnone hr' => ?_⟩
    rw [(hinv.finished (i := i) (w := .generateSessionTitle u sid) hw hq).2.2.2 id hnone] at hr'
    cases hr'
  case h_5 u sid outcome title now _ hw =>
    obtain ⟨q, ev, hq, rfl⟩ := finishWork_cases hs
    exact h.finish hw rfl hq
  case h_6 u sid ids segment hw =>
    split_ifs at hs
    cases hs
    exact ⟨h.remove segment, hsame rfl rfl⟩
  case h_7 u sid ids hw =>
    split_ifs at hs with hall
    cases hs
    exact ⟨h.confirm hw fun g hg => by simpa using List.all_eq_true.mp hall g hg, hsame rfl rfl⟩
  case h_8 u sid ids title now hw => exact h.deleted hw id hs
  case h_9 u sid ids outcome title now _ hw => exact h.deleted hw (fun hf : false = true => by cases hf) hs
  case h_10 => cases hs

/-! ### Query requests -/

/-- A request went on without recording anything or accepting a task. -/
theorem Evolves.replace {i : ℕ} {st st' : StreamState F} {w : ChatWorld} (hi : s.streams[i]? = some st)
    (hreq : st'.request = st.request) (hans : unanswered st.phase = false → unanswered st'.phase = false)
    (hconv : ∀ k, w.registry.conversations k = s.world.registry.conversations k)
    (hleases : ∀ k, w.registry.streams k ⊆ s.world.registry.streams k) (hqueue : w.queue = s.world.queue) :
    Evolves S s { s with world := w, streams := s.streams.set i st' } where
  recorded key c hc := .inl ((Recorded.congr hconv).mp hc)
  removed key cs hcs := .inl ⟨[], by rw [hconv, hcs, List.append_nil]⟩
  requests st₂ h₂ := mem_set_request hi hreq hans h₂
  leases key c hc := .inl (hleases key hc)
  accepted id r c hnone hr hp := by
    rw [no_record id r hnone (hqueue ▸ hr)] at hp
    cases hp

/-- Where an answer is complete, its conversation is the only one recorded and the only one
whose persistence is accepted. -/
theorem Evolves.answer {i : ℕ} {st st' : StreamState F} {w : ChatWorld} {answer : Text} {c : Completion F}
    (h : Invariant S user s C T) (hC : C.Nodup) (hi : s.streams[i]? = some st) (hreq : st'.request = st.request)
    (hb : unanswered st.phase = true) (hans : Answered S st.request answer c s.world w)
    (ha : unanswered st'.phase = false) : Evolves S s { s with world := w, streams := s.streams.set i st' } := by
  have hmem : st ∈ s.streams := List.mem_of_getElem? hi
  obtain ⟨hq, key, cs, hk, hdel, hcs, hnew⟩ := h.lease hC hmem hb
  obtain ⟨hblank, -, hqueue, hrec⟩ := hans
  obtain ⟨r, hr, hconv, -, hstr⟩ := ChatRegistry.recordConversation_effect h.registry hk hq hblank hdel hcs
    fun k ds hds hm => hnew ⟨k, ds, hds, hm⟩
  have hreg : w.registry = r := by
    rw [hr] at hrec
    cases hrec
    rfl
  constructor
  case recorded =>
    rintro k c₂ ⟨ds, hds, hm⟩
    rw [hreg, hconv] at hds
    split_ifs at hds with hkk
    · cases hds
      subst hkk
      rcases List.mem_append.mp hm with hm | hm
      · exact .inl ⟨cs, hcs, hm⟩
      · exact .inr ⟨st, hmem, (List.mem_singleton.mp hm).symm, hb⟩
    · exact .inl ⟨ds, hds, hm⟩
  case removed =>
    intro k ds hds
    rw [hreg]
    by_cases hkk : key = k
    · subst hkk
      obtain rfl : cs = ds := Option.some.inj (hcs.symm.trans hds)
      exact .inl ⟨_, by rw [hconv, if_pos rfl]⟩
    · exact .inl ⟨[], by rw [hconv, if_neg hkk, hds, List.append_nil]⟩
  case requests => exact fun st₂ h₂ => mem_set_request hi hreq (fun _ => ha) h₂
  case leases => exact fun k c₂ hc₂ => .inl (by rw [hreg, hstr] at hc₂; exact hc₂)
  case accepted =>
    intro id r' c₂ hnone hr' hp
    have hrecord : Recorded w.registry key st.request.conversationId :=
      ⟨_, by rw [hreg, hconv, if_pos rfl], List.mem_append_right _ (List.mem_singleton_self _)⟩
    have hrecords := (InMemoryTaskQueue.accept_fields (persistedQueue st.request answer c s.world.queue)
      st.request.userId (lit "generate_session_title") (.generateSessionTitle st.request.userId st.request.sessionId)
      c.titleTask c.now).1
    have hfirst := (InMemoryTaskQueue.accept_fields s.world.queue st.request.userId (lit "embed_conversation")
      (.embedConversation st.request.userId st.request.conversationId st.request.question answer)
      c.persistenceTask c.now).1
    change w.queue.records.get? id = some r' at hr'
    rw [hqueue, hrecords, Dict.get?_set] at hr'
    split_ifs at hr'
    · cases hr'
      cases hp
    · rw [persistedQueue, hfirst, Dict.get?_set] at hr'
      split_ifs at hr'
      · cases hr'
        cases hp
        exact ⟨st', mem_set_self hi, by rw [hreq], key, by rw [hreq, hk], hrecord⟩
      · rw [hnone] at hr'
        cases hr'

/-- A query request went on. -/
theorem Invariant.streamStep (h : Invariant S user s C T) (hC : C.Nodup) {i : ℕ} {st st' : StreamState F}
    {w : ChatWorld} {input : StreamInput F} (hi : s.streams[i]? = some st)
    (hres : Resumption S st s.world input st' w) (hT : (T ++ drawnTasks [.stream i input]).Nodup) :
    Invariant S user { s with world := w, streams := s.streams.set i st' } C (T ++ drawnTasks [.stream i input]) ∧
      Evolves S s { s with world := w, streams := s.streams.set i st' } := by
  have hmono : ∀ {t : ChatSystem F}, Invariant S user t C T →
      Invariant S user t C (T ++ drawnTasks [.stream i input]) := by
    intro t ht
    have ht' := ht.mono [] (drawnTasks [.stream i input])
    rwa [List.append_nil] at ht'
  cases hres with
  | kept hreq hb ha hans hd =>
    exact ⟨hmono (h.keep hi hreq hb hans),
      Evolves.replace hi hreq hans (fun _ => rfl) (fun _ => Finset.Subset.refl _) rfl⟩
  | released hreq hb ha hd =>
    have hmem : st ∈ s.streams := List.mem_of_getElem? hi
    obtain ⟨-, -, key, hk, -⟩ := h.leased st hmem
    obtain ⟨r, hworld, -, hconv, -, hstr⟩ := endStream_effect (w := s.world) hk h.registry
    refine ⟨hmono (h.release hC hi hreq hb ha), Evolves.replace hi hreq (fun _ => by rw [ha]; rfl) ?_ ?_ ?_⟩
    · rw [hworld]
      exact hconv
    · intro k
      rw [hworld, hstr]
      split_ifs with hkk
      · exact hkk ▸ Finset.erase_subset _ _
      · exact Finset.Subset.refl _
    · rw [hworld]
  | dropped hreq hb ha hd =>
    have hans : unanswered st.phase = false → unanswered st'.phase = false := fun _ => by rw [ha]; rfl
    exact ⟨hmono (h.keep hi hreq hb hans),
      Evolves.replace hi hreq hans (fun _ => rfl) (fun _ => Finset.Subset.refl _) rfl⟩
  | answered _ c hreq hb hin hans ha hnc =>
    subst hin
    exact ⟨h.answer hC hi hreq hb hans ha hT, Evolves.answer h hC hi hreq hb hans ha⟩

end Frames

/-- A query request started. -/
theorem Invariant.queryStep (h : Invariant S user s C T) {r : ChatRequest} (hu : r.userId = user)
    (hC : (C ++ [r.conversationId]).Nodup) :
    Eff.wp (beginQuery S r)
      (fun _ t => Invariant S user { s with
          world := { s.world with registry := t }
          streams := s.streams ++ [.opened r] } (C ++ [r.conversationId]) T ∧
        Evolves S s { s with world := { s.world with registry := t }, streams := s.streams ++ [.opened r] })
      (fun _ t => Invariant S user { s with world := { s.world with registry := t } } (C ++ [r.conversationId]) T ∧
        Evolves S s { s with world := { s.world with registry := t } }) s.world.registry := by
  refine Eff.wp_mono (beginQuery_effect h.registry r) (fun _ t ht => ?_) fun _ t ht => ?_
  · obtain ⟨hq, hcons, hconv, hdel, key, hk, hstr⟩ := ht
    have hopened : Invariant S user { s with
        world := { s.world with registry := t }
        streams := s.streams ++ [.opened r] } (C ++ [r.conversationId]) T := h.query hu hq hk hcons hconv hdel hstr
    refine ⟨hopened, ?_⟩
    -- the conversation id is new
    have hnew : ∀ st ∈ s.streams, st.request.conversationId ≠ r.conversationId := by
      intro st hst heq
      have hmem : r.conversationId ∈ C := h.drawn.subset (List.mem_map.mpr ⟨st, hst, heq⟩)
      exact (List.nodup_append.mp hC).2.2 _ hmem _ (List.mem_singleton_self _) rfl
    refine ⟨fun k c hc => .inl ((Recorded.congr hconv).mp hc),
      fun k cs hcs => .inl ⟨[], by rw [hconv, hcs, List.append_nil]⟩,
      fun st hst => ⟨st, List.mem_append_left _ hst, rfl, fun h => h⟩, fun k c hc => ?_,
      fun id r' c hnone hr' hp => ?_⟩
    · change c ∈ t.streams k at hc
      rw [hstr] at hc
      split_ifs at hc with hkk
      · rcases Finset.mem_insert.mp hc with rfl | hmem
        · exact .inr hnew
        · exact .inl (hkk ▸ hmem)
      · exact .inl hc
    · rw [no_record id r' hnone hr'] at hp
      cases hp
  · have hext := ht.extends
    have hinv := (h.extend hext (ht.consistent h.registry)).mono [r.conversationId] []
    rw [List.append_nil] at hinv
    exact ⟨hinv, Evolves.extend hext⟩

/-! ### Deletion requests -/

omit [PyFloat F] in
/-- A deletion request started. -/
theorem Invariant.deleteStep (h : Invariant S user s C T) (sid : Text) :
    Eff.wp (ChatRegistry.reserveSessionDeletion S user sid)
      (fun ids t => Invariant S user { s with
          world := { s.world with registry := t }
          deletions := s.deletions ++ [⟨user, sid, .ensuring ids⟩] } C T ∧
        Evolves S s { s with
          world := { s.world with registry := t }
          deletions := s.deletions ++ [⟨user, sid, .ensuring ids⟩] })
      (fun _ t => Invariant S user { s with world := { s.world with registry := t } } C T ∧
        Evolves S s { s with world := { s.world with registry := t } }) s.world.registry := by
  refine Eff.wp_mono (Eff.wp_and (ChatRegistry.reserveSessionDeletion_spec h.registry user sid)
    (ChatRegistry.reserve_validates user sid)) (fun ids t ht => ?_) fun _ t ht => ?_
  · obtain ⟨⟨hgood, hkey⟩, key, hk⟩ := ht
    obtain ⟨-, -, hcs, hnew, rfl⟩ := hkey key hk
    exact ⟨h.reserve hk hnew hcs hgood.1 rfl, Evolves.still rfl (fun _ => rfl) (fun _ => rfl) no_record⟩
  · have hext := ht.1.extends
    exact ⟨h.extend hext (ht.1.consistent h.registry), Evolves.extend hext⟩

omit [PyFloat F] in
/-- A deletion request went on. -/
theorem Invariant.deletionStep (h : Invariant S user s C T) {i : ℕ} {d d' : DeleteRequest} {w : ChatWorld}
    {input : DeleteInput} (hi : s.deletions[i]? = some d) (hs : d.resume S s.world input = some (d', w))
    (hT : (T ++ drawnTasks (F := F) [.deletion i input]).Nodup) :
    Invariant S user { s with world := w, deletions := s.deletions.set i d' } C
        (T ++ drawnTasks (F := F) [.deletion i input]) ∧
      Evolves S s { s with world := w, deletions := s.deletions.set i d' } := by
  have hmono : ∀ {t : ChatSystem F}, Invariant S user t C T →
      Invariant S user t C (T ++ drawnTasks (F := F) [.deletion i input]) := by
    intro t ht
    have ht' := ht.mono [] (drawnTasks (F := F) [.deletion i input])
    rwa [List.append_nil] at ht'
  -- the request ends without its task
  have hended : ∀ {ids w'}, d.phase = .ensuring ids →
      (w' = s.world ∨ w' = DeleteRequest.abort S d.userId d.sessionId s.world) →
      Invariant S user { s with world := w', deletions := s.deletions.set i { d with phase := .ended } } C
          (T ++ drawnTasks (F := F) [.deletion i input]) ∧
        Evolves S s { s with world := w', deletions := s.deletions.set i { d with phase := .ended } } := by
    intro ids w' hp hw'
    refine ⟨hmono (h.endDeletion hi hp hw'), ?_⟩
    obtain ⟨-, key, hk, -, -⟩ := h.reserved d (List.mem_of_getElem? hi) ids hp
    rcases hw' with rfl | rfl
    · exact Evolves.still rfl (fun _ => rfl) (fun _ => rfl) no_record
    · obtain ⟨r, hr, -, -, hconv, hleases⟩ := abort_effect (w := s.world) hk h.registry
      rw [hr]
      exact Evolves.still rfl hconv hleases no_record
  unfold DeleteRequest.resume at hs
  split at hs
  case h_1 ids taskId now hp =>
    obtain ⟨-, key, hk, -, -⟩ := h.reserved d (List.mem_of_getElem? hi) ids hp
    have hspec : Eff.wp (ChatWorld.enqueue S d.userId (lit "delete_session")
        (.deleteSession d.userId d.sessionId ids) taskId now)
        (fun _ w' => s.world.queue.accepting = true ∧ w' = { s.world with
          queue := s.world.queue.accept d.userId (lit "delete_session") (.deleteSession d.userId d.sessionId ids)
            taskId now })
        (fun _ w' => w' = s.world) s.world :=
      wp_enqueue (validUser_of_sessionKey hk) (by decide) (fun hacc => ⟨hacc, rfl⟩) fun _ => rfl
    split at hs
    case h_1 w' hrun =>
      obtain ⟨hacc, rfl⟩ := Eff.wp_ok hspec hrun
      cases hs
      have hfresh : taskId ∉ T := by
        intro hmem
        exact (List.nodup_append.mp hT).2.2 _ hmem taskId (by simp [drawnTasks]) rfl
      refine ⟨h.enqueueDeletion hi hp hacc hfresh, Evolves.still rfl (fun _ => rfl) (fun _ => rfl) ?_⟩
      intro id r hnone hr
      change (s.world.queue.accept _ _ _ _ _).records.get? id = some r at hr
      rw [(InMemoryTaskQueue.accept_fields _ _ _ _ _ _).1, Dict.get?_set] at hr
      split_ifs at hr
      · cases hr
        rfl
      · exact no_record id r hnone hr
    case h_2 e w' hrun =>
      obtain rfl := Eff.wp_error hspec hrun
      cases hs
      exact hended hp (.inr rfl)
  case h_2 ids e hp =>
    split_ifs at hs
    · cases hs
      exact hended hp (.inr rfl)
    · cases hs
      exact hended hp (.inl rfl)
  case h_3 => cases hs

/-! ### All steps -/

/-- A stage of a call of `close` is one of the queue. -/
theorem close_cases {a : InMemoryTaskQueue.Action ChatWork} {frames : List (ℕ × SseEvent F)}
    (hs : ChatSystem.step S user s (.close a) = some (s', frames)) :
    a.isClose = true ∧ ∃ q, (InMemoryTaskQueue.machine ChatWork .any).step s.world.queue a = some (q, []) ∧
      s' = { s with world := { s.world with queue := q } } ∧ frames = [] := by
  cases a with
  | closeBegin =>
    cases hs
    exact ⟨rfl, _, rfl, rfl, rfl⟩
  | closeJoined c u =>
    obtain ⟨q, hq, heq⟩ := Option.map_eq_some_iff.mp hs
    cases heq
    exact ⟨rfl, q, Option.map_eq_some_iff.mpr ⟨q, hq, rfl⟩, rfl, rfl⟩
  | closeStop c =>
    obtain ⟨q, hq, heq⟩ := Option.map_eq_some_iff.mp hs
    cases heq
    exact ⟨rfl, q, Option.map_eq_some_iff.mpr ⟨q, hq, rfl⟩, rfl, rfl⟩
  | closeEnd c =>
    obtain ⟨q, hq, heq⟩ := Option.map_eq_some_iff.mp hs
    cases heq
    exact ⟨rfl, q, Option.map_eq_some_iff.mpr ⟨q, hq, rfl⟩, rfl, rfl⟩
  | enqueue => cases hs
  | workerGet => cases hs
  | workerFinish => cases hs

/-- Every step keeps the invariant, where the drawn ids are fresh. -/
theorem Invariant.step (h : Invariant S user s C T) {a : Action F} {frames : List (ℕ × SseEvent F)}
    (hs : (machine S user).step s a = some (s', frames)) (hC : (C ++ drawnConversations [a]).Nodup)
    (hT : (T ++ drawnTasks [a]).Nodup) :
    Invariant S user s' (C ++ drawnConversations [a]) (T ++ drawnTasks [a]) ∧ Evolves S s s' := by
  have hC₀ : C.Nodup := (List.nodup_append.mp hC).1
  change ChatSystem.step S user s a = some (s', frames) at hs
  have hquiet : drawnConversations [a] = [] → drawnTasks [a] = [] → Invariant S user s' C T ∧ Evolves S s s' →
      Invariant S user s' (C ++ drawnConversations [a]) (T ++ drawnTasks [a]) ∧ Evolves S s s' := by
    intro hc ht hboth
    rwa [hc, ht, List.append_nil, List.append_nil]
  cases a with
  | manage call =>
    simp only [ChatSystem.step] at hs
    split_ifs at hs with hm
    cases hs
    have hspec := h.manage (S := S) hm
    refine hquiet rfl rfl ?_
    unfold afterCall ChatWorld.onRegistry Eff.zoom
    cases hrun : ChatRegistry.perform S call s.world.registry with
    | ok a r => exact Eff.wp_ok hspec hrun
    | error e r => exact Eff.wp_error hspec hrun
  | query r =>
    simp only [ChatSystem.step] at hs
    split_ifs at hs with hu
    have hspec := h.queryStep (r := r) (not_not.mp hu) hC
    rw [show drawnTasks [Action.query r] = [] from rfl, List.append_nil]
    unfold ChatWorld.onRegistry Eff.zoom at hs
    cases hrun : beginQuery S r s.world.registry with
    | ok a t =>
      rw [hrun] at hs
      cases hs
      exact Eff.wp_ok hspec hrun
    | error e t =>
      rw [hrun] at hs
      cases hs
      exact Eff.wp_error hspec hrun
  | stream i input =>
    simp only [ChatSystem.step] at hs
    split at hs
    · cases hs
    · rename_i st hi
      split at hs
      · cases hs
      · rename_i st' w fs hres
        cases hs
        have hmem : st ∈ s.streams := List.mem_of_getElem? hi
        have hcases := resume_cases h.registry (fun hp => h.lease hC₀ hmem hp) hres
        rw [show drawnConversations [Action.stream i input] = [] from rfl, List.append_nil]
        exact h.streamStep hC₀ hi hcases hT
  | delete sid =>
    simp only [ChatSystem.step] at hs
    have hspec := h.deleteStep (S := S) sid
    refine hquiet rfl rfl ?_
    unfold ChatWorld.onRegistry Eff.zoom at hs
    cases hrun : ChatRegistry.reserveSessionDeletion S user sid s.world.registry with
    | ok ids t =>
      rw [hrun] at hs
      cases hs
      exact Eff.wp_ok hspec hrun
    | error e t =>
      rw [hrun] at hs
      cases hs
      exact Eff.wp_error hspec hrun
  | deletion i input =>
    simp only [ChatSystem.step] at hs
    split at hs
    · cases hs
    · rename_i d hi
      split at hs
      · cases hs
      · rename_i d' w hres
        cases hs
        rw [show drawnConversations [Action.deletion (F := F) i input] = [] from rfl, List.append_nil]
        exact h.deletionStep hi hres hT
  | workerGet i now =>
    simp only [ChatSystem.step] at hs
    split at hs
    · cases hs
    · rename_i q ev hq
      cases hs
      refine hquiet rfl rfl ?_
      have hstep : (InMemoryTaskQueue.machine ChatWork .any).step s.world.queue (.workerGet i now) =
          some (q, ev) := hq
      refine h.queue_step hstep ?_ (h.queue.workerGet_pendingWorks hq _)
      obtain ⟨u, item, items, n, -, -, ⟨-, rfl, -⟩ | ⟨id, -, -, rfl, -⟩ | ⟨id, r, -, -, rfl, -⟩⟩ :=
        InMemoryTaskQueue.workerGet_cases hq
      · rfl
      · rfl
      · rfl
  | work i input =>
    simp only [ChatSystem.step] at hs
    obtain ⟨t, ht, heq⟩ := Option.map_eq_some_iff.mp hs
    cases heq
    refine hquiet rfl rfl ?_
    exact h.workStep ht
  | close a =>
    obtain ⟨hclose, q, hstep, rfl, -⟩ := close_cases hs
    exact hquiet rfl rfl (h.queue_step hstep rfl (h.queue.close_pendingWorks hclose hstep _))

/-! ### Runs -/

omit [PyFloat F] in
theorem Invariant.start (m : ℕ) (hm : 0 < m) : Invariant S user (start m hm : ChatSystem F) [] [] := by
  have hpend : pending user (ChatSystem.start m hm : ChatSystem F) = [] := rfl
  constructor
  case registry => exact .empty
  case queue => exact .fresh m hm []
  case drawn => exact List.Sublist.refl _
  case workers => exact fun w hw => by cases hw
  case leased => exact fun st hst => by cases hst
  case held => exact fun key c hc => by simp [ChatSystem.start, ChatRegistry.streams, ChatRegistry.empty] at hc
  case origin =>
    rintro key c ⟨cs, hcs, -⟩
    simp [ChatSystem.start, ChatRegistry.empty, ChatRegistry.conversations, ChatRegistry.mapOf, SessionMap.new] at hcs
  case embedded => exact fun c hc => by rw [hpend] at hc; cases hc
  case stored => exact fun g hg => by cases hg
  case reserved => exact fun d hd => by cases hd
  case deleting => exact fun before u sid ids behind h => by rw [hpend] at h; simp at h
  case holders => exact List.nodup_nil
  case confirmed => exact fun h => by cases h

omit [PyFloat F] in
theorem drawnConversations_append (as bs : List (Action F)) :
    drawnConversations (as ++ bs) = drawnConversations as ++ drawnConversations bs := List.filterMap_append

omit [PyFloat F] in
theorem drawnTasks_append (as bs : List (Action F)) : drawnTasks (as ++ bs) = drawnTasks as ++ drawnTasks bs :=
  List.flatMap_append

/-- The invariant holds after every run in which no id is drawn twice. -/
theorem Invariant.run (h : Invariant S user s C T) {as : List (Action F)} {frames : List (ℕ × SseEvent F)}
    (hrun : (machine S user).run s as = some (s', frames)) (hC : (C ++ drawnConversations as).Nodup)
    (hT : (T ++ drawnTasks as).Nodup) : Invariant S user s' (C ++ drawnConversations as) (T ++ drawnTasks as) := by
  refine (machine S user).run_induction (I := fun as _ t => (C ++ drawnConversations as).Nodup →
    (T ++ drawnTasks as).Nodup → Invariant S user t (C ++ drawnConversations as) (T ++ drawnTasks as))
      (fun _ _ => h.mono [] []) ?_ hrun hC hT
  intro as frames t a u fs _ ih hs hC hT
  rw [drawnConversations_append, ← List.append_assoc] at hC ⊢
  rw [drawnTasks_append, ← List.append_assoc] at hT ⊢
  exact ((ih (List.nodup_append.mp hC).1 (List.nodup_append.mp hT).1).step hs hC hT).1

end ChatSystem

end TenantRag

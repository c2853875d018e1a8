import TenantRag.Api.ChatRuns

/-!
# The chats of one user: leases

A query request takes its lease in the endpoint and gives it back in the `finally`
of its response generator, or in the handlers around the preparation of the
collections. A generator that is closed before its first step runs neither, and
its lease stays: the session can then no longer be deleted.

## What is proved

* `reserve_not_refused` — a session without leases is not refused for an active stream.
* `released_iff_undropped` — all along a run the leases of all ended requests are
  released exactly when no generator is closed before its first step and no
  preparation ends with an exception outside `Exception` and `CancelledError`.
* `lease_kept_after_close` — such a close leaves a session that refuses its deletion.
-/

namespace TenantRag

namespace ChatRegistry

variable {S : RegistrySettings} {r : ChatRegistry} {key : SessionKey}

/-- What a snapshot raises is a `KeyError`. -/
theorem snapshotLocked_keyError (hv : ValidKey S key) :
    Eff.wp (snapshotLocked S key) (fun _ t => t.activeStreams = r.activeStreams) (fun e _ => e.kind = .keyError) r := by
  rw [snapshotLocked, Eff.wp_bind, wp_onMap hv.1]
  simp only [SessionMap.getConversations, hv.identifier, Eff.wp_bind, Eff.wp_ofExcept_ok, Eff.wp_read, id]
  split
  · exact rfl
  · simp only [Eff.wp_pure]
    split
    · exact rfl
    · split
      · exact rfl
      · split
        · exact rfl
        · exact rfl

/-- A reservation is refused for an active stream only where there is one. -/
theorem reserve_not_refused {u sid : Text} (hk : sessionKey S u sid = .ok key) (hnone : r.streams key = ∅) :
    Eff.wp (reserveSessionDeletion S u sid) (fun _ _ => True) (fun e _ => e.kind ≠ .activeChatStreamError) r := by
  have hv := sessionKey_valid hk
  rw [reserveSessionDeletion, hk, Eff.wp_bind, Eff.wp_ofExcept_ok, Eff.wp_bind]
  refine Eff.wp_mono (snapshotLocked_keyError hv) (fun _ t ht => ?_) fun e _ he => ?_
  · have hidle : t.hasActiveStream key = false := by
      unfold hasActiveStream
      unfold streams at hnone
      rw [ht]
      cases ha : r.activeStreams.get? key with
      | none => rfl
      | some a =>
        rw [ha, Option.getD_some] at hnone
        simp [hnone]
    simp only [Eff.wp_bind, Eff.wp_read, id, hidle, Bool.false_eq_true, if_false, Eff.wp_ite, Eff.wp_raise,
      Eff.wp_update]
    refine ⟨fun _ => by simp, fun _ => ?_⟩
    rw [wp_onMap hv.1]
    simp only [SessionMap.getConversations, hv.identifier, Eff.wp_bind, Eff.wp_ofExcept_ok, Eff.wp_read, id]
    split
    · simp [keyError]
    · trivial
  · simp [he]

end ChatRegistry

namespace ChatSystem

variable {F : Type} [PyFloat F] {S : RegistrySettings} {user : Text} {s s' : ChatSystem F} {C T : List Uuid}
  {key : SessionKey}

/-- The leases of ended requests are released, and no session all of whose requests ended
refuses its deletion for an active stream. -/
structure Released (S : RegistrySettings) (s : ChatSystem F) : Prop where
  /-- An ended request has no lease. -/
  leases : ∀ st ∈ s.streams, st.phase = .closed → ∀ key, st.request.conversationId ∉ s.world.registry.streams key
  /-- Nor is its session kept from being deleted. -/
  deletable : ∀ u sid key, ChatRegistry.sessionKey S u sid = .ok key →
    (∀ st ∈ s.streams, ChatRegistry.sessionKey S st.request.userId st.request.sessionId = .ok key →
      st.phase = .closed) →
    Eff.wp (ChatRegistry.reserveSessionDeletion S u sid) (fun _ _ => True)
      (fun e _ => e.kind ≠ .activeChatStreamError) s.world.registry

/-- The step neither closes a generator before its first step nor ends a preparation with an
exception outside `Exception` and `CancelledError`. -/
def Undropped (s : ChatSystem F) : Action F → Prop
  | .stream i input => ∀ st, s.streams[i]? = some st → ¬ drops st.phase input
  | _ => True

section Frames

omit [PyFloat F]

/-- Where no ended request has a lease, sessions with only such requests can be deleted. -/
theorem released_of_leases (h : Invariant S user s C T)
    (hl : ∀ st ∈ s.streams, st.phase = .closed → ∀ key, st.request.conversationId ∉ s.world.registry.streams key) :
    Released S s := by
  refine ⟨hl, fun u sid key hk hended => ChatRegistry.reserve_not_refused hk ?_⟩
  refine Finset.eq_empty_of_forall_notMem fun c hc => ?_
  obtain ⟨st, hst, rfl, hk'⟩ := h.held key c hc
  exact hl st hst (hended st hst hk') key hc

/-- A step that takes no lease, but for new requests, and ends no request. -/
theorem Released.of_evolves (h' : Invariant S user s' C T) (he : Evolves S s s') (hr : Released S s)
    (hended : ∀ st ∈ s'.streams, st.phase = .closed → st ∈ s.streams) : Released S s' := by
  refine released_of_leases h' fun st hst hp key hc => ?_
  have hold := hended st hst hp
  rcases he.leases key _ hc with hc | hc
  · exact hr.leases st hold hp key hc
  · exact hc st hold rfl

/-- After a resumption the leases of ended requests are released exactly when it dropped none. -/
theorem released_iff_of_resumption (h : Invariant S user s C T) (hC : C.Nodup) {i : ℕ} {st st' : StreamState F}
    {w : ChatWorld} {input : StreamInput F} {T' : List Uuid} (hi : s.streams[i]? = some st)
    (hres : Resumption S st s.world input st' w)
    (h' : Invariant S user { s with world := w, streams := s.streams.set i st' } C T')
    (he : Evolves S s { s with world := w, streams := s.streams.set i st' }) (hr : Released S s) :
    Released S { s with world := w, streams := s.streams.set i st' } ↔ ¬ drops st.phase input := by
  have hmem : st ∈ s.streams := List.mem_of_getElem? hi
  -- a request that goes on is not among the ended ones
  have hgoes : st'.phase ≠ .closed → Released S { s with world := w, streams := s.streams.set i st' } := by
    intro hne
    refine hr.of_evolves h' he fun st₂ h₂ hp => ?_
    rcases mem_set_cases h₂ with rfl | ⟨j, -, hj⟩
    · exact absurd hp hne
    · exact List.mem_of_getElem? hj
  cases hres with
  | kept hreq hb ha hans hd => exact ⟨fun _ => hd, fun _ => hgoes ha⟩
  | answered _ c hreq hb hin hans ha hne =>
    subst hin
    exact ⟨fun _ => by simp [drops], fun _ => hgoes hne⟩
  | dropped hreq hb ha hd =>
    refine ⟨fun hrel => ?_, fun hnd => absurd hd hnd⟩
    obtain ⟨-, -, key, -, hl⟩ := h.leased st hmem
    have hfree := hrel.leases st' (mem_set_self hi) ha key
    rw [hreq] at hfree
    exact absurd (hl hb) hfree
  | released hreq hb ha hd =>
    refine ⟨fun _ => hd, fun _ => released_of_leases h' fun st₂ h₂ hp key hc => ?_⟩
    rcases mem_set_cases h₂ with rfl | ⟨j, -, hj⟩
    · -- the request that ended: its lease is on its own session, and given back
      obtain ⟨-, -, key', hk', -⟩ := h.leased st hmem
      obtain ⟨r, hworld, -, -, -, hstr⟩ := endStream_effect (w := s.world) hk' h.registry
      rw [hreq] at hc
      change st.request.conversationId ∈ (StreamState.endStream S st.request s.world).registry.streams key at hc
      rw [hworld, hstr] at hc
      split_ifs at hc with hkk
      · exact absurd rfl (Finset.mem_erase.mp hc).1
      · obtain ⟨st₃, h₃, hc₃, hk₃⟩ := h.held key _ hc
        obtain ⟨j, hj⟩ := List.mem_iff_getElem?.mp h₃
        obtain rfl := h.stream_unique hC hi hj hc₃.symm
        obtain rfl : st = st₃ := Option.some.inj (hi.symm.trans hj)
        exact hkk (Except.ok.inj (hk'.symm.trans hk₃))
    · have hold : st₂ ∈ s.streams := List.mem_of_getElem? hj
      rcases he.leases key _ hc with hc | hc
      · exact hr.leases st₂ hold hp key hc
      · exact hc st₂ hold rfl

theorem stepWork_streams {i : ℕ} {input : WorkInput} (hs : stepWork S s i input = some s') : s'.streams = s.streams := by
  have hfinish : ∀ {w : ChatWorld} {outcome : WorkOutcome} {now : ℕ}, s.finishWork w i outcome now = some s' →
      s'.streams = s.streams := by
    intro w outcome now h
    obtain ⟨q, ev, -, rfl⟩ := finishWork_cases h
    rfl
  unfold stepWork at hs
  split at hs
  case h_1 =>
    cases hs
    rfl
  case h_2 =>
    split_ifs at hs
    cases hs
    rfl
  case h_3 => exact hfinish hs
  case h_4 => exact hfinish hs
  case h_5 => exact hfinish hs
  case h_6 =>
    split_ifs at hs
    cases hs
    rfl
  case h_7 =>
    split_ifs at hs
    cases hs
    rfl
  case h_8 => exact hfinish hs
  case h_9 => exact hfinish hs
  case h_10 => cases hs

end Frames

/-! ### What a step does to the requests -/

/-- What a request is resumed with by an action. -/
def inputFor (i : ℕ) : Action F → Option (StreamInput F)
  | .stream j input => if j = i then some input else none
  | _ => none

/-- What a step does to the requests, and the frames it sends. -/
inductive Heard (S : RegistrySettings) (s s' : ChatSystem F) : Action F → List (ℕ × SseEvent F) → Prop where
  /-- Nothing. -/
  | still {a : Action F} (other : ∀ i, inputFor i a = none) (streams : s'.streams = s.streams) : Heard S s s' a []
  /-- A request takes its lease. -/
  | opened {a : Action F} (other : ∀ i, inputFor i a = none) (r : ChatRequest)
      (streams : s'.streams = s.streams ++ [.opened r]) : Heard S s s' a []
  /-- A request goes on. -/
  | resumed {i : ℕ} {input : StreamInput F} {st st' : StreamState F} {w : ChatWorld} {fs : List (SseEvent F)}
      (found : s.streams[i]? = some st) (resumption : st.resume S s.world input = some (st', w, fs))
      (state : s' = { s with world := w, streams := s.streams.set i st' }) :
      Heard S s s' (.stream i input) (fs.map fun f => (i, f))

theorem step_heard {a : Action F} {frames : List (ℕ × SseEvent F)} (hs : (machine S user).step s a = some (s', frames)) :
    Heard S s s' a frames := by
  change step S user s a = some (s', frames) at hs
  cases a with
  | manage call =>
    simp only [step] at hs
    split_ifs at hs
    cases hs
    exact .still (fun _ => rfl) rfl
  | query r =>
    simp only [step] at hs
    split_ifs at hs
    split at hs
    · cases hs
      exact .opened (fun _ => rfl) r rfl
    · cases hs
      exact .still (fun _ => rfl) rfl
  | stream i input =>
    simp only [step] at hs
    split at hs
    case h_1 => cases hs
    case h_2 st hst =>
      split at hs
      case h_1 => cases hs
      case h_2 st' w fs hres =>
        cases hs
        exact .resumed hst hres rfl
  | delete sid =>
    simp only [step] at hs
    split at hs <;> cases hs <;> exact .still (fun _ => rfl) rfl
  | deletion i input =>
    simp only [step] at hs
    split at hs
    · cases hs
    · split at hs
      · cases hs
      · cases hs
        exact .still (fun _ => rfl) rfl
  | workerGet i now =>
    simp only [step] at hs
    split at hs
    · cases hs
    · cases hs
      exact .still (fun _ => rfl) rfl
  | work i input =>
    obtain ⟨t, ht, heq⟩ := Option.map_eq_some_iff.mp hs
    cases heq
    exact .still (fun _ => rfl) (stepWork_streams ht)
  | close a =>
    obtain ⟨-, q, -, rfl, rfl⟩ := close_cases hs
    exact .still (fun _ => rfl) rfl

/-- Only its own resumption ends a request. -/
theorem step_ended {a : Action F} {frames : List (ℕ × SseEvent F)} (hs : (machine S user).step s a = some (s', frames))
    (ha : ∀ i input, a ≠ .stream i input) : ∀ st ∈ s'.streams, st.phase = .closed → st ∈ s.streams := by
  intro st hst hp
  cases step_heard hs with
  | still other streams => exact streams ▸ hst
  | opened other r streams =>
    rw [streams, List.mem_append] at hst
    rcases hst with hst | hst
    · exact hst
    · obtain rfl := List.mem_singleton.mp hst
      cases hp
  | resumed found resumption state => exact absurd rfl (ha _ _)

/-- One step keeps the leases released exactly where it is undropped. -/
theorem released_step (h : Invariant S user s C T) (hr : Released S s) {a : Action F}
    {frames : List (ℕ × SseEvent F)} (hs : (machine S user).step s a = some (s', frames))
    (hC : (C ++ drawnConversations [a]).Nodup) (hT : (T ++ drawnTasks [a]).Nodup) : Released S s' ↔ Undropped s a := by
  obtain ⟨h', he⟩ := h.step hs hC hT
  by_cases ha : ∃ i input, a = .stream i input
  · obtain ⟨i, input, rfl⟩ := ha
    change step S user s (.stream i input) = some (s', frames) at hs
    have hC₀ : C.Nodup := (List.nodup_append.mp hC).1
    rw [show drawnConversations [Action.stream i input] = [] from rfl, List.append_nil] at h'
    simp only [step] at hs
    split at hs
    · cases hs
    · rename_i st hi
      split at hs
      · cases hs
      · rename_i st' w fs hres
        cases hs
        have hcases := resume_cases h.registry (fun hp => h.lease hC₀ (List.mem_of_getElem? hi) hp) hres
        rw [released_iff_of_resumption h hC₀ hi hcases h' he hr]
        exact ⟨fun hd st₂ h₂ => Option.some.inj (hi.symm.trans h₂) ▸ hd, fun hu => hu st hi⟩
  · have hne : ∀ i input, a ≠ .stream i input := fun i input heq => ha ⟨i, input, heq⟩
    have hundropped : Undropped s a := by
      cases a with
      | stream i input => exact absurd rfl (hne i input)
      | _ => trivial
    exact ⟨fun _ => hundropped, fun _ => hr.of_evolves h' he (step_ended hs hne)⟩

/-- **Released leases**: all along a run the leases of all ended requests are released, and
their sessions can be deleted, exactly when no step drops a lease. -/
theorem released_iff_undropped {m : ℕ} {hm : 0 < m} {as : List (Action F)} {frames : List (ℕ × SseEvent F)}
    (hC : (drawnConversations as).Nodup) (hT : (drawnTasks as).Nodup)
    (hrun : (machine S user).run (start m hm) as = some (s, frames)) :
    (machine S user).StatesAlong (Released S) (start m hm) as ↔ (machine S user).StepsAlong Undropped (start m hm) as := by
  refine Machine.statesAlong_iff_stepsAlong _ ?_ ?_ hrun
  · have hinv : Invariant S user (start m hm : ChatSystem F) [] [] := Invariant.start m hm
    exact released_of_leases hinv fun st hst => by cases hst
  · rintro bs a t evs u ev ⟨rest, rfl⟩ hbs hr hs
    rw [drawnConversations_append, drawnConversations_append] at hC
    rw [drawnTasks_append, drawnTasks_append] at hT
    have hC₁ := (List.nodup_append.mp hC).1
    have hT₁ := (List.nodup_append.mp hT).1
    have hinv : Invariant S user t (drawnConversations bs) (drawnTasks bs) :=
      (Invariant.start m hm).run hbs (List.nodup_append.mp hC₁).1 (List.nodup_append.mp hT₁).1
    exact released_step hinv hr hs hC₁ hT₁

/-- A session gets a question; the response generator is closed before its first step. -/
def closedBeforeStart : List (Action WholeFloat) :=
  let u := text ['a']
  let sid := (Uuid.ofNat 1).str
  [.manage (.createSession u sid), .query ⟨u, sid, text ['q'], text ['r'], Uuid.ofNat 2⟩, .stream 0 .prepared,
    .stream 0 .close]

theorem released_iff_undropped_closed :
    ∃ (s : ChatSystem WholeFloat) (frames : List (ℕ × SseEvent WholeFloat)),
      (machine ⟨.any, fun _ => true⟩ (text ['a'])).run (start 1 (by decide)) closedBeforeStart = some (s, frames) ∧
        ((machine ⟨.any, fun _ => true⟩ (text ['a'])).StatesAlong (Released ⟨.any, fun _ => true⟩)
            (start 1 (by decide)) closedBeforeStart ↔
          (machine ⟨.any, fun _ => true⟩ (text ['a'])).StepsAlong Undropped (start 1 (by decide))
            closedBeforeStart) := by
  obtain ⟨⟨s, frames⟩, hrun⟩ := Option.isSome_iff_exists.mp
    (show ((machine ⟨.any, fun _ => true⟩ (text ['a'])).run (start 1 (by decide))
      closedBeforeStart).isSome = true by decide +kernel)
  exact ⟨s, frames, hrun, released_iff_undropped (by decide +kernel) (by decide +kernel) hrun⟩

/-- Whether all requests ended and the deletion of the session is refused for an active stream. -/
def refused (s : ChatSystem WholeFloat) (u sid : Text) : Bool :=
  s.streams.all (fun st => st.phase = .closed) &&
    match ChatRegistry.reserveSessionDeletion ⟨.any, fun _ => true⟩ u sid s.world.registry with
    | .ok _ _ => false
    | .error e _ => e.kind = .activeChatStreamError

theorem lease_kept_after_close :
    ∃ (s : ChatSystem WholeFloat) (frames : List (ℕ × SseEvent WholeFloat)),
      (machine ⟨.any, fun _ => true⟩ (text ['a'])).run (start 1 (by decide)) closedBeforeStart = some (s, frames) ∧
        (∀ st ∈ s.streams, st.phase = .closed) ∧ ∃ e t,
          ChatRegistry.reserveSessionDeletion ⟨.any, fun _ => true⟩ (text ['a']) (Uuid.ofNat 1).str
            s.world.registry = .error e t ∧ e.kind = .activeChatStreamError := by
  obtain ⟨⟨s, frames⟩, hrun⟩ := Option.isSome_iff_exists.mp
    (show ((machine ⟨.any, fun _ => true⟩ (text ['a'])).run (start 1 (by decide))
      closedBeforeStart).isSome = true by decide +kernel)
  have hrefused : ((machine ⟨.any, fun _ => true⟩ (text ['a'])).run (start 1 (by decide))
      closedBeforeStart).any (fun p => refused p.1 (text ['a']) (Uuid.ofNat 1).str) = true := by decide +kernel
  rw [hrun, Option.any_some, refused, Bool.and_eq_true, List.all_eq_true] at hrefused
  obtain ⟨hclosed, hres⟩ := hrefused
  refine ⟨s, frames, hrun, fun st hst => by simpa using hclosed st hst, ?_⟩
  split at hres
  · cases hres
  · rename_i e t hrun'
    exact ⟨e, t, hrun', by simpa using hres⟩

end ChatSystem

end TenantRag

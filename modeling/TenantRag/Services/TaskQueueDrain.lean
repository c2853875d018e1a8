import TenantRag.Services.TaskQueueOrder

/-!
# The task queue: stranded work

`InMemoryTaskQueue.close` promises to drain all accepted work, which needs a live
worker for every accepted task. A worker survives an `Exception` of its work but
not `asyncio.CancelledError`, and only the next call of `enqueue` by the same user
replaces it.

## What is proved

* `LiveConsumer.takes_next` — a live worker of a user with queued work takes the first
  queued task when it is next scheduled, or is busy with an earlier one.
* `stranded_after_cancellation` — a run after which a task is queued for a user whose
  only worker is finished, and `close` waits for ever.
* `live_iff_cancelled_last` — along a run every accepted task has a live worker exactly
  when a work item is only ever cancelled while its user has nothing else queued.
-/

namespace TenantRag

namespace InMemoryTaskQueue

variable {W : Type}

/-- The user's current worker is not finished. -/
def HasLiveWorker (q : InMemoryTaskQueue W) (u : Text) : Prop :=
  ∃ i s, q.workers.get? u = some i ∧ q.tasks[i]? = some ⟨u, s⟩ ∧ (⟨u, s⟩ : Worker).isDone = false

/-- Every id a user's queue was given and not yet told done, which is what `close` joins
on, has a live worker. -/
def LiveConsumer (q : InMemoryTaskQueue W) : Prop :=
  ∀ u id, id ∈ q.queuedIds u ∨ id ∈ q.runningIds u → q.HasLiveWorker u

/-- The step cancels no work of a user with more work queued. -/
def CancelsLast (q : InMemoryTaskQueue W) : Action W → Prop
  | .workerFinish i .cancelled _ => ∀ u id, q.tasks[i]? = some ⟨u, .busy id⟩ → q.queuedIds u = []
  | _ => True

/-- A running task has a live worker, the one that runs it. -/
theorem Invariant.running_live {q : InMemoryTaskQueue W} {evs : List TaskEvent} (h : Invariant q evs) {u : Text}
    {id : Uuid} (hid : id ∈ q.runningIds u) : q.HasLiveWorker u := by
  unfold runningIds at hid
  cases hw : q.workers.get? u with
  | none => simp [hw] at hid
  | some i =>
    obtain ⟨⟨v, s⟩, hi, rfl⟩ := h.owner u i hw
    cases s with
    | busy id' => exact ⟨i, _, hw, hi, rfl⟩
    | waiting => simp [hw, hi, busyId] at hid
    | done e => simp [hw, hi, busyId] at hid

theorem Invariant.live_iff {q : InMemoryTaskQueue W} {evs : List TaskEvent} (h : Invariant q evs) :
    q.LiveConsumer ↔ ∀ u, q.queuedIds u ≠ [] → q.HasLiveWorker u := by
  constructor
  · intro hl u hu
    obtain ⟨id, hid⟩ := List.exists_mem_of_ne_nil _ hu
    exact hl u id (.inl hid)
  · rintro hl u id (hid | hid)
    · exact hl u (List.ne_nil_of_mem hid)
    · exact h.running_live hid

/-- A live worker of a user with queued work is busy with an earlier task, or starts the
first queued one when it is next scheduled. -/
theorem LiveConsumer.takes_next {pattern : UserIdPattern} {q : InMemoryTaskQueue W} {evs : List TaskEvent}
    (hl : q.LiveConsumer) (h : Invariant q evs) {u : Text} {id : Uuid} {ids : List Uuid}
    (hq : q.queuedIds u = id :: ids) (now : ℕ) :
    ∃ i, (∃ id', q.tasks[i]? = some ⟨u, .busy id'⟩) ∨
      ∃ q', (machine W pattern).step q (.workerGet i now) = some (q', [.started u id]) := by
  obtain ⟨i, s, hw, hi, hd⟩ := hl u id (.inl (by rw [hq]; exact List.mem_cons_self ..))
  cases s with
  | done e => cases hd
  | busy id' => exact ⟨i, .inl ⟨id', hi⟩⟩
  | waiting =>
    refine ⟨i, .inr ?_⟩
    obtain ⟨⟨items, n⟩, ha⟩ := h.served u i hw
    rw [queuedIds_eq ha] at hq
    cases items with
    | nil => cases hq
    | cons item items =>
      cases item with
      | stop =>
        -- a stop marker is only put where nothing is queued
        have hnil := ((h.drained (.inr ⟨u, _, ha, List.mem_cons_self ..⟩)).2 u).1
        rw [queuedIds_eq ha] at hnil
        rw [hnil] at hq
        cases hq
      | task id' =>
        obtain ⟨rfl, -⟩ : id' = id ∧ items.filterMap QueueItem.taskId? = ids := by
          simpa [QueueItem.taskId?] using hq
        obtain ⟨r, hr, -⟩ := h.queuedRecord u id' (by simp [queuedIds_eq ha, QueueItem.taskId?])
        simp [machine, workerGet, hi, ha, hr]

/-! ### What each step does to the live workers -/

theorem needsWorker_eq_false {q : InMemoryTaskQueue W} {evs : List TaskEvent} (h : Invariant q evs) {u : Text}
    (hn : q.needsWorker u = false) : q.HasLiveWorker u := by
  unfold needsWorker at hn
  cases hw : q.workers.get? u with
  | none => simp [hw] at hn
  | some i =>
    obtain ⟨⟨v, s⟩, hi, rfl⟩ := h.owner u i hw
    exact ⟨i, s, hw, hi, by simpa [hw, hi] using hn⟩

/-- After `enqueue` its user has a live worker, and no other user lost one. -/
theorem Invariant.accept_live {q : InMemoryTaskQueue W} {evs : List TaskEvent} (h : Invariant q evs) (u op : Text)
    (w : W) (id : Uuid) (now : ℕ) {v : Text} (hv : u = v ∨ q.HasLiveWorker v) :
    (q.accept u op w id now).HasLiveWorker v := by
  rcases accept_workers q u op w id now with ⟨hw, ht, hn⟩ | ⟨hw, ht, hn⟩
  · have hlive : q.HasLiveWorker v := by
      rcases hv with rfl | hlive
      · exact needsWorker_eq_false h hn
      · exact hlive
    simpa only [HasLiveWorker, hw, ht] using hlive
  · unfold HasLiveWorker
    rw [hw, ht]
    rcases eq_or_ne u v with rfl | huv
    · exact ⟨q.tasks.length, .waiting, by simp [createWorker], by simp [createWorker], rfl⟩
    · obtain ⟨i, s, hvi, hi, hd⟩ := hv.resolve_left huv
      refine ⟨i, s, ?_, ?_, hd⟩
      · rw [createWorker, Dict.get?_set_ne _ _ huv, hvi]
      · rw [createWorker, List.getElem?_append_left (List.getElem?_eq_some_iff.mp hi).1, hi]

/-- When a live worker goes to another state, its user keeps a live worker exactly when that
state is not a final one; the other users keep theirs. -/
theorem Invariant.setWorker_live {q : InMemoryTaskQueue W} {evs : List TaskEvent} (h : Invariant q evs)
    (q' : InMemoryTaskQueue W) (s' : WorkerState) {i : ℕ} {u : Text} {s : WorkerState}
    (hi : q.tasks[i]? = some ⟨u, s⟩) (hd : (⟨u, s⟩ : Worker).isDone = false) (hw : q'.workers = q.workers)
    (ht : q'.tasks = q.tasks.set i ⟨u, s'⟩) (v : Text) :
    q'.HasLiveWorker v ↔ if u = v then (⟨u, s'⟩ : Worker).isDone = false else q.HasLiveWorker v := by
  have hlt : i < q.tasks.length := (List.getElem?_eq_some_iff.mp hi).1
  have hreg : q.workers.get? u = some i := h.registered i _ hi hd
  unfold HasLiveWorker
  rw [hw, ht]
  split_ifs with huv
  · subst huv
    constructor
    · rintro ⟨j, s₁, hj, hs₁, hd₁⟩
      rw [hreg, Option.some.injEq] at hj
      subst hj
      rw [List.getElem?_set_self hlt, Option.some.injEq] at hs₁
      exact hs₁ ▸ hd₁
    · exact fun hd' => ⟨i, s', hreg, List.getElem?_set_self hlt, hd'⟩
  · have hne : ∀ j, q.workers.get? v = some j → i ≠ j := by
      rintro j hv rfl
      obtain ⟨w, hj, hwv⟩ := h.owner v i hv
      rw [hi, Option.some.injEq] at hj
      subst hj
      exact huv hwv
    constructor
    · rintro ⟨j, s₁, hj, hs₁, hd₁⟩
      exact ⟨j, s₁, hj, by rwa [List.getElem?_set_ne (hne j hj)] at hs₁, hd₁⟩
    · rintro ⟨j, s₁, hj, hs₁, hd₁⟩
      exact ⟨j, s₁, hj, by rwa [List.getElem?_set_ne (hne j hj)], hd₁⟩

/-- Where every accepted task has a live worker, it still has one after a step exactly when
the step cancels no work of a user with more work queued. -/
theorem LiveConsumer.step_iff {pattern : UserIdPattern} {q q' : InMemoryTaskQueue W} {evs ev : List TaskEvent}
    {a : Action W} (hl : q.LiveConsumer) (h : Invariant q evs)
    (hs : (machine W pattern).step q a = some (q', ev)) (hn : (acceptedIds (evs ++ ev)).Nodup) :
    q'.LiveConsumer ↔ q.CancelsLast a := by
  have h' : Invariant q' (evs ++ ev) := h.step hs hn
  rw [h'.live_iff]
  rw [h.live_iff] at hl
  cases a with
  | enqueue userId operation work taskId now =>
    refine iff_of_true ?_ trivial
    simp only [machine] at hs
    split at hs
    case h_1 =>
      cases hs
      exact hl
    case h_2 he =>
      cases hs
      unfold InMemoryTaskQueue.enqueue at he
      split at he
      case h_1 => cases he
      case h_2 user hu =>
        split at he
        case h_1 => cases he
        case h_2 operationName _ =>
          split_ifs at he
          cases he
          intro v hv
          refine h.accept_live user operationName work taskId now ?_
          rw [accept_queuedIds] at hv
          split_ifs at hv with huv
          · exact .inl huv
          · exact .inr (hl v hv)
  | workerGet i now =>
    refine iff_of_true ?_ trivial
    obtain ⟨u, item, items, n, hi, hq, ⟨rfl, -, rfl⟩ | ⟨id, rfl, hr, -, rfl⟩ | ⟨id, r, rfl, -, -, rfl⟩⟩ :=
      workerGet_cases hs
    · -- nothing is queued behind a stop marker
      have hnil := (h.drained (.inr ⟨u, _, hq, List.mem_cons_self ..⟩)).2
      intro v hv
      rw [stoppedQueue_queuedIds hq] at hv
      exact absurd (hnil v).1 hv
    · obtain ⟨r, hr', -⟩ := h.queuedRecord u id (by simp [queuedIds_eq hq, QueueItem.taskId?])
      rw [hr] at hr'
      cases hr'
    · intro v hv
      refine (h.setWorker_live (q.startedQueue i u id r items n now) (.busy id) hi rfl rfl rfl v).mpr ?_
      split_ifs with huv
      · rfl
      · rw [startedQueue_queuedIds, if_neg huv] at hv
        exact hl v hv
  | workerFinish i outcome now =>
    obtain ⟨u, id, r, a, hi, -, -, -, ha, -, rfl⟩ := h.workerFinish_cases hs
    have hqueued : ∀ v, (q.finishedQueue i u id r a outcome now).queuedIds v = q.queuedIds v :=
      finishedQueue_queuedIds ha
    have hlive := h.setWorker_live (q.finishedQueue i u id r a outcome now) (afterWork outcome) hi rfl rfl rfl
    simp only [hqueued, hlive]
    cases outcome with
    | cancelled =>
      constructor
      · intro hall u' id' hi'
        rw [hi, Option.some.injEq] at hi'
        cases hi'
        by_contra hne
        simpa [afterWork, Worker.isDone] using hall u hne
      · intro hlast v hv
        split_ifs with huv
        · exact absurd (hlast u id hi) (huv ▸ hv)
        · exact hl v hv
    | success =>
      refine iff_of_true (fun v hv => ?_) trivial
      split_ifs
      · rfl
      · exact hl v hv
    | exception =>
      refine iff_of_true (fun v hv => ?_) trivial
      split_ifs
      · rfl
      · exact hl v hv
  | closeBegin =>
    refine iff_of_true ?_ trivial
    cases hs
    unfold InMemoryTaskQueue.closeBegin
    split_ifs <;> exact hl
  | closeJoined c user =>
    refine iff_of_true ?_ trivial
    obtain ⟨q₁, hq₁, heq⟩ := Option.map_eq_some_iff.mp hs
    cases heq
    obtain ⟨-, -, -, -, -, rfl⟩ := closeJoined_eq_some hq₁
    exact hl
  | closeStop c =>
    refine iff_of_true (fun v hv => ?_) trivial
    obtain ⟨q₁, hq₁, heq⟩ := Option.map_eq_some_iff.mp hs
    cases heq
    -- a stop marker is only put where nothing is queued
    exact absurd ((h'.drained (h.closeStop hq₁).2).2 v).1 hv
  | closeEnd c =>
    refine iff_of_true ?_ trivial
    obtain ⟨q₁, hq₁, heq⟩ := Option.map_eq_some_iff.mp hs
    cases heq
    unfold InMemoryTaskQueue.closeEnd at hq₁
    dsimp only at hq₁
    split_ifs at hq₁
    · cases hq₁
      exact hl
    · cases hq₁
      exact fun v hv => absurd rfl hv

/-! ### Runs -/

/-- **Stranded work**: along every run, every accepted task has a live worker in every state
exactly when no work is cancelled while its user has more work queued. -/
theorem live_iff_cancelled_last {pattern : UserIdPattern} {m : ℤ} {q q' : InMemoryTaskQueue W} {as : List (Action W)}
    {evs : List TaskEvent} (hnew : InMemoryTaskQueue.new m = .ok q)
    (hrun : (machine W pattern).run q as = some (q', evs)) (hfresh : (acceptedIds evs).Nodup) :
    (machine W pattern).StatesAlong LiveConsumer q as ↔ (machine W pattern).StepsAlong CancelsLast q as := by
  refine (machine W pattern).statesAlong_iff_stepsAlong ?_ ?_ hrun
  · refine (Invariant.new hnew).live_iff.mpr fun u hu => absurd ?_ hu
    unfold InMemoryTaskQueue.new at hnew
    split_ifs at hnew
    cases hnew
    rfl
  · intro bs a t evs' u ev hp hb hl hs
    have hb' : (machine W pattern).run q (bs ++ [a]) = some (u, evs' ++ ev) :=
      ((machine W pattern).run_concat).mpr ⟨t, evs', ev, hb, hs, rfl⟩
    have hn : (acceptedIds (evs' ++ ev)).Nodup := by
      obtain ⟨rest, rfl⟩ := (machine W pattern).observed_mono hp hb' hrun
      rw [acceptedIds_append] at hfresh
      exact (List.nodup_append.mp hfresh).1
    have hn' : (acceptedIds evs').Nodup := by
      rw [acceptedIds_append] at hn
      exact (List.nodup_append.mp hn).1
    exact hl.step_iff (invariant_of_run hnew hb hn') hs hn

/-- Work is cancelled while more of the same user is queued, and then `close` is called. -/
def strandedRun : List (Action Unit) :=
  [.enqueue (text ['a']) (text ['x']) () (.ofNat 1) 0, .enqueue (text ['a']) (text ['x']) () (.ofNat 2) 1,
    .workerGet 0 2, .workerFinish 0 .cancelled 3, .closeBegin]

/-- A cancelled work item leaves the next one queued with no live worker, and `close` joins a
queue that nothing drains: no worker can take a step, the join does not return and no stop
marker is ever put. -/
theorem stranded_after_cancellation :
    ∃ q evs, (machine Unit .any).run (fresh 1 Nat.one_pos) strandedRun = some (q, evs) ∧
      (acceptedIds evs).Nodup ∧ q.queuedIds (text ['a']) = [.ofNat 2] ∧ q.closers = [.joining [text ['a']]] ∧
      q.closeJoined 0 (text ['a']) = none ∧ q.closeStop 0 = none ∧ ¬ q.HasLiveWorker (text ['a']) := by
  obtain ⟨⟨q, evs⟩, hrun⟩ := Option.isSome_iff_exists.mp
    (show ((machine Unit .any).run (fresh 1 Nat.one_pos) strandedRun).isSome = true by decide +kernel)
  have hfacts : ((machine Unit .any).run (fresh 1 Nat.one_pos) strandedRun).all (fun r =>
      (acceptedIds r.2).Nodup ∧ r.1.queuedIds (text ['a']) = [.ofNat 2] ∧
        r.1.closers = [.joining [text ['a']]] ∧ (r.1.closeJoined 0 (text ['a'])).isNone ∧
        (r.1.closeStop 0).isNone ∧ r.1.tasks.all Worker.isDone) = true := by decide +kernel
  rw [hrun, Option.all_some] at hfacts
  obtain ⟨hn, hqueued, hclosers, hjoin, hstop, hdone⟩ := by simpa using hfacts
  refine ⟨q, evs, hrun, hn, hqueued, hclosers, hjoin, hstop, ?_⟩
  rintro ⟨i, s, -, hi, hd⟩
  have hdone' := hdone _ (List.mem_of_getElem? hi)
  rw [hd] at hdone'
  cases hdone'

/-- Cancelling the last work of a user strands nothing. -/
theorem live_iff_cancelled_last_one_task :
    (machine Unit .any).StatesAlong LiveConsumer (fresh 1 Nat.one_pos)
        [.enqueue (text ['a']) (text ['x']) () (.ofNat 1) 0, .workerGet 0 2, .workerFinish 0 .cancelled 3] ↔
      (machine Unit .any).StepsAlong CancelsLast (fresh 1 Nat.one_pos)
        [.enqueue (text ['a']) (text ['x']) () (.ofNat 1) 0, .workerGet 0 2, .workerFinish 0 .cancelled 3] := by
  obtain ⟨⟨q, evs⟩, hrun⟩ := Option.isSome_iff_exists.mp
    (show ((machine Unit .any).run (fresh 1 Nat.one_pos)
      [.enqueue (text ['a']) (text ['x']) () (.ofNat 1) 0, .workerGet 0 2, .workerFinish 0 .cancelled 3]).isSome =
        true by decide +kernel)
  have hfresh : ((machine Unit .any).run (fresh 1 Nat.one_pos)
      [.enqueue (text ['a']) (text ['x']) () (.ofNat 1) 0, .workerGet 0 2, .workerFinish 0 .cancelled 3]).all
      (fun r => (acceptedIds r.2).Nodup) = true := by decide +kernel
  rw [hrun] at hfresh
  exact live_iff_cancelled_last (m := 1) rfl hrun (by simpa using hfresh)

end InMemoryTaskQueue

end TenantRag

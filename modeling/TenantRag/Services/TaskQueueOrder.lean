import TenantRag.Services.TaskQueueClose
import TenantRag.Services.TaskQueueSteps

/-!
# The task queue: order, exclusivity and retention

What holds of `InMemoryTaskQueue` after any steps of any users, workers and
callers of `close`, provided `uuid4` never gives an id twice.

## What is proved

* `Invariant.step` — one step keeps the invariant `Invariant`.
* `fifo_exclusive_retained` — for each user the accepted tasks are, in the order
  `enqueue` returned, first those whose work ended, then at most one that is
  running, then those still queued; the record of a queued or running task is
  there, so no worker looks one up in vain; the finished records kept are the
  most recently finished ones; and `get` gives a user only records of the
  user's own calls of `enqueue`.
-/

namespace TenantRag

namespace InMemoryTaskQueue

variable {W : Type}

/-! ### Runs -/

theorem Invariant.step {pattern : UserIdPattern} {q q' : InMemoryTaskQueue W} {evs ev : List TaskEvent} {a : Action W}
    (h : Invariant q evs) (hs : (machine W pattern).step q a = some (q', ev))
    (hn : (acceptedIds (evs ++ ev)).Nodup) : Invariant q' (evs ++ ev) := by
  have hn' : (acceptedIds evs).Nodup := by
    rw [acceptedIds_append] at hn
    exact (List.nodup_append.mp hn).1
  cases a with
  | enqueue userId operation work taskId now =>
    simp only [machine] at hs
    split at hs
    case h_1 e he =>
      cases hs
      obtain ⟨hacc, hst, hfin⟩ := pairs_rejected evs e
      refine { h with order := ?_, active := ?_, finishedOnce := ?_, retained := ?_, placed := ?_, noMissing := ?_ }
      · simpa only [hacc, hst] using h.order
      · simpa only [hst, hfin] using h.active
      · simpa only [finishedIds, hfin] using h.finishedOnce
      · simpa only [finishedIds, hfin] using h.retained
      · exact fun id => (h.placed id).frame rfl (fun _ => Iff.rfl) (fun _ => Iff.rfl) Iff.rfl fun _ hv => hacc ▸ hv
      · simpa using h.noMissing
    case h_2 q₁ he =>
      cases hs
      unfold InMemoryTaskQueue.enqueue at he
      cases hu : validatedUserId pattern userId with
      | error e => simp [hu] at he
      | ok user =>
        cases ho : requiredIdentifier operation "operation" with
        | error e => simp [hu, ho] at he
        | ok operationName =>
          simp only [hu, ho] at he
          split_ifs at he with hacc
          cases he
          obtain ⟨-, rfl⟩ := validatedUserId_eq hu
          refine h.accept hacc ?_
          rw [acceptedIds_append] at hn
          intro hmem
          exact (List.nodup_append.mp hn).2.2 taskId hmem taskId (by simp [acceptedIds, acceptedPairs]) rfl
  | workerGet i now =>
    obtain ⟨u, item, items, n, hi, hq, ⟨rfl, rfl, rfl⟩ | ⟨id, rfl, hr, rfl, rfl⟩ | ⟨id, r, rfl, hr, rfl, rfl⟩⟩ :=
      workerGet_cases hs
    · rw [List.append_nil]
      exact h.stopped hi hq
    · -- the record of a queued task is there
      obtain ⟨r, hr', -⟩ := h.queuedRecord u id (by simp [queuedIds_eq hq, QueueItem.taskId?])
      rw [hr] at hr'
      cases hr'
    · exact h.start hn' hi hq hr
  | workerFinish i outcome now =>
    obtain ⟨u, id, r, a, hi, hr, -, -, ha, rfl, rfl⟩ := h.workerFinish_cases hs
    exact h.finish hn' hi hr ha outcome
  | closeBegin => exact h.close rfl hs
  | closeJoined => exact h.close rfl hs
  | closeStop => exact h.close rfl hs
  | closeEnd => exact h.close rfl hs

/-- The invariant holds after every run in which no id is given twice. -/
theorem invariant_of_run {pattern : UserIdPattern} {m : ℤ} {q q' : InMemoryTaskQueue W} {as : List (Action W)}
    {evs : List TaskEvent} (hnew : InMemoryTaskQueue.new m = .ok q)
    (hrun : (machine W pattern).run q as = some (q', evs)) (hn : (acceptedIds evs).Nodup) : Invariant q' evs := by
  refine (machine W pattern).run_induction
    (I := fun _ evs q => (acceptedIds evs).Nodup → Invariant q evs) (fun _ => Invariant.new hnew) ?_ hrun hn
  intro as evs t a u ev _ ih hs hn
  refine Invariant.step (ih ?_) hs hn
  rw [acceptedIds_append] at hn
  exact (List.nodup_append.mp hn).1

theorem step_maxCompletedRecords {pattern : UserIdPattern} {q q' : InMemoryTaskQueue W} {ev : List TaskEvent}
    {a : Action W} (hs : (machine W pattern).step q a = some (q', ev)) :
    q'.maxCompletedRecords = q.maxCompletedRecords := by
  cases a with
  | enqueue userId operation work taskId now =>
    simp only [machine] at hs
    split at hs
    case h_1 => cases hs; rfl
    case h_2 he =>
      cases hs
      unfold InMemoryTaskQueue.enqueue at he
      split at he
      case h_1 => cases he
      case h_2 user _ =>
        split at he
        case h_1 => cases he
        case h_2 operationName _ =>
          split_ifs at he
          cases he
          exact (accept_fields q user operationName work taskId now).2.2.2.1
  | workerGet i now =>
    obtain ⟨u, item, items, n, -, -, ⟨-, -, rfl⟩ | ⟨id, -, -, -, rfl⟩ | ⟨id, r, -, -, -, rfl⟩⟩ :=
      workerGet_cases hs <;> rfl
  | workerFinish i outcome now =>
    simp only [machine, workerFinish] at hs
    split at hs
    case h_2 => cases hs
    case h_1 u id _ =>
      cases hs
      simp only [setWorker, taskDone]
      split <;> split <;> rfl
  | closeBegin => exact (close_frame rfl hs).2.2.2.2
  | closeJoined => exact (close_frame rfl hs).2.2.2.2
  | closeStop => exact (close_frame rfl hs).2.2.2.2
  | closeEnd => exact (close_frame rfl hs).2.2.2.2

/-- What a queue that keeps `m` outcomes owes its callers after the observations `evs`. -/
structure OrderedHistory (pattern : UserIdPattern) (m : ℕ) (q : InMemoryTaskQueue W) (evs : List TaskEvent) : Prop where
  /-- A user's tasks start in the order in which `enqueue` returned. -/
  startOrder : ∀ u, ofUser u (startedPairs evs) <+: ofUser u (acceptedPairs evs)
  /-- A started task ended, in order, or is the last one and runs. -/
  startedEnded : ∀ u, ofUser u (startedPairs evs) = ofUser u (finishedPairs evs) ∨
    ∃ id, ofUser u (startedPairs evs) = ofUser u (finishedPairs evs) ++ [id]
  /-- At most one task of a user runs, whichever workers the user ever had. -/
  exclusive : ∀ (i j : ℕ) (u : Text) (id id' : Uuid), q.tasks[i]? = some ⟨u, .busy id⟩ →
    q.tasks[j]? = some ⟨u, .busy id'⟩ → i = j ∧ id = id'
  /-- The record of a queued task is there. -/
  queuedKept : ∀ u id, id ∈ q.queuedIds u →
    ∃ r, q.records.get? id = some r ∧ r.status = .queued ∧ r.userId = u
  /-- The record of a running task is there. -/
  runningKept : ∀ (i : ℕ) (u : Text) (id : Uuid), q.tasks[i]? = some ⟨u, .busy id⟩ →
    ∃ r, q.records.get? id = some r ∧ r.status = .running ∧ r.userId = u
  /-- No worker's lookup of a dequeued id raised `KeyError`. -/
  noKeyError : ∀ id, .recordMissing id ∉ evs
  /-- The finished records are those of the `m` tasks that finished last. -/
  mostRecent : ∀ id, (∃ r, q.records.get? id = some r ∧ r.status.isFinished = true) ↔
    id ∈ (finishedIds evs).drop ((finishedIds evs).length - m)
  /-- The most recent ones, the oldest first, are what `_completed_order` holds. -/
  completedOrder : q.completedOrder = (finishedIds evs).drop ((finishedIds evs).length - m)
  /-- `get` returns snapshots only of tasks the same user enqueued. -/
  ownOnly : ∀ taskId userId snapshot, q.get pattern taskId userId = .ok snapshot →
    .accepted userId snapshot.taskId ∈ evs ∧ snapshot.userId = userId ∧ strip taskId = snapshot.taskId.str

/-- What `get` returns is the record of the id and of the user it was asked for. -/
theorem get_ok {pattern : UserIdPattern} {q : InMemoryTaskQueue W} {taskId userId : Text} {snapshot : TaskSnapshot}
    (h : q.get pattern taskId userId = .ok snapshot) :
    ∃ id r, q.records.get? id = some r ∧ snapshot = r.snapshot ∧ r.userId = userId ∧ id.str = strip taskId := by
  unfold InMemoryTaskQueue.get at h
  cases hk : requiredIdentifier taskId "task_id" with
  | error e => simp [hk] at h
  | ok key =>
    cases hu : validatedUserId pattern userId with
    | error e => simp [hk, hu] at h
    | ok user =>
      obtain rfl := validatedUserId_eq hu
      simp only [hk, hu] at h
      split at h
      case h_1 => cases h
      case h_2 id r hfind =>
        split_ifs at h with hr
        cases h
        refine ⟨id, r, Dict.mem_entries_iff.mp (List.mem_of_find?_eq_some hfind), rfl, hr, ?_⟩
        have hkey : id.str = key := by simpa using List.find?_some hfind
        rw [hkey, requiredIdentifier_eq hk]

/-- **Order, exclusivity and retention**: whatever users, workers and callers of `close` do,
in whatever order, and however the work ends, the queue keeps its `OrderedHistory`. -/
theorem fifo_exclusive_retained {pattern : UserIdPattern} {m : ℤ} {q q' : InMemoryTaskQueue W} {as : List (Action W)}
    {evs : List TaskEvent} (hnew : InMemoryTaskQueue.new m = .ok q)
    (hrun : (machine W pattern).run q as = some (q', evs)) (hfresh : (acceptedIds evs).Nodup) :
    OrderedHistory pattern m.toNat q' evs := by
  have h := invariant_of_run hnew hrun hfresh
  have hm : q'.maxCompletedRecords = m.toNat := by
    refine (machine W pattern).invariant (I := fun t => t.maxCompletedRecords = m.toNat) ?_ ?_ hrun
    · unfold InMemoryTaskQueue.new at hnew
      split_ifs at hnew
      cases hnew
      rfl
    · intro t a u ev ht hs
      rw [step_maxCompletedRecords hs, ht]
  have hbusy : ∀ (i : ℕ) (u : Text) (id : Uuid), q'.tasks[i]? = some ⟨u, .busy id⟩ → q'.runningIds u = [id] :=
    fun i u id hi => h.current hi rfl
  have hkept := h.retained
  rw [hm] at hkept
  constructor
  case startOrder => exact fun u => h.order u ▸ List.prefix_append _ _
  case startedEnded =>
    intro u
    rw [h.active]
    unfold runningIds
    cases hw : q'.workers.get? u with
    | none => exact .inl (List.append_nil _)
    | some i =>
      obtain ⟨⟨v, s⟩, hi, -⟩ := h.owner u i hw
      cases s with
      | busy id => exact .inr ⟨id, by simp [hi, busyId]⟩
      | waiting => exact .inl (by simp [hi, busyId])
      | done e => exact .inl (by simp [hi, busyId])
  case exclusive =>
    intro i j u id id' hi hj
    have hcur := h.registered i _ hi rfl
    have hcur' := h.registered j _ hj rfl
    obtain rfl : i = j := Option.some.inj (hcur.symm.trans hcur')
    rw [hi] at hj
    simpa using hj
  case queuedKept => exact h.queuedRecord
  case runningKept => exact fun i u id hi => h.runningRecord u id (by simp [hbusy i u id hi])
  case noKeyError => exact h.noMissing
  case mostRecent =>
    intro id
    rw [← hkept]
    exact (h.placed id).kept.symm
  case completedOrder => exact hkept
  case ownOnly =>
    intro taskId userId snapshot hget
    obtain ⟨id, r, hr, rfl, hu, hid⟩ := get_ok hget
    obtain ⟨htask, hacc⟩ := (h.placed id).recorded r hr
    refine ⟨?_, hu, ?_⟩
    · rw [← mem_acceptedPairs, ← mem_ofUser, ← hu]
      exact htask ▸ hacc
    · rw [← hid, ← htask]
      rfl

/-- A user whose running task is cancelled enqueues again and gets a second worker, which
takes the task the first one left behind. -/
def replacedWorkerRun : List (Action Unit) :=
  [.enqueue (text ['a']) (text ['x']) () (.ofNat 1) 0, .enqueue (text ['b']) (text ['x']) () (.ofNat 2) 1,
    .workerGet 0 2, .enqueue (text ['a']) (text ['x']) () (.ofNat 3) 3, .workerGet 1 4,
    .workerFinish 0 .cancelled 5, .enqueue (text ['a']) (text ['y']) () (.ofNat 4) 6, .workerGet 2 7,
    .workerFinish 1 .success 8]

theorem fifo_exclusive_retained_replaced_worker :
    ∃ q evs, (machine Unit .any).run (fresh 1 Nat.one_pos) replacedWorkerRun = some (q, evs) ∧
      OrderedHistory .any 1 q evs := by
  obtain ⟨⟨q, evs⟩, hrun⟩ := Option.isSome_iff_exists.mp
    (show ((machine Unit .any).run (fresh 1 Nat.one_pos) replacedWorkerRun).isSome = true by decide +kernel)
  have hfresh : ((machine Unit .any).run (fresh 1 Nat.one_pos) replacedWorkerRun).all
      (fun r => (acceptedIds r.2).Nodup) = true := by decide +kernel
  rw [hrun] at hfresh
  exact ⟨q, evs, hrun, fifo_exclusive_retained (m := 1) rfl hrun (by simpa using hfresh)⟩

end InMemoryTaskQueue

end TenantRag

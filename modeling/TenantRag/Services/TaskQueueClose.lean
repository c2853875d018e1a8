import TenantRag.Services.TaskQueueInvariant

/-!
# The task queue: `close`

The stages of any number of calls of `close`, in any order and between any other
steps: none of them touches a record, a worker task or what is queued or running.

## What is proved

* `close_frame` — what every stage of `close` leaves as it is.
* `Invariant.close_stage` — every stage keeps the workers, what the callers of
  `close` have seen, and the queued and running ids.
* `Invariant.close` — so it keeps the invariant.
-/

namespace TenantRag

namespace InMemoryTaskQueue

variable {W : Type}

/-- A stage of a call of `close`. -/
def Action.isClose : Action W → Bool
  | .closeBegin | .closeJoined .. | .closeStop _ | .closeEnd _ => true
  | _ => false

theorem closeJoined_eq_some {q q' : InMemoryTaskQueue W} {c : ℕ} {user : Text} (h : q.closeJoined c user = some q') :
    ∃ users a, q.closers[c]? = some (.joining users) ∧ q.queues.get? user = some a ∧ a.unfinished = 0 ∧
      q' = { q with closers := q.closers.set c (.joining (users.filter fun v => v ≠ user)) } := by
  unfold closeJoined at h
  split at h
  case h_2 => cases h
  case h_1 users a hc ha =>
    split_ifs at h with hjoin
    cases h
    exact ⟨users, a, hc, ha, hjoin.2, rfl⟩

theorem close_frame {pattern : UserIdPattern} {q q' : InMemoryTaskQueue W} {a : Action W} {ev : List TaskEvent}
    (ha : a.isClose = true) (hs : (machine W pattern).step q a = some (q', ev)) :
    ev = [] ∧ q'.records = q.records ∧ q'.tasks = q.tasks ∧ q'.completedOrder = q.completedOrder ∧
      q'.maxCompletedRecords = q.maxCompletedRecords := by
  cases a with
  | enqueue => cases ha
  | workerGet => cases ha
  | workerFinish => cases ha
  | closeBegin =>
    cases hs
    unfold closeBegin
    split_ifs <;> exact ⟨rfl, rfl, rfl, rfl, rfl⟩
  | closeJoined c user =>
    obtain ⟨q₁, hq₁, heq⟩ := Option.map_eq_some_iff.mp hs
    cases heq
    obtain ⟨-, -, -, -, -, rfl⟩ := closeJoined_eq_some hq₁
    exact ⟨rfl, rfl, rfl, rfl, rfl⟩
  | closeStop c =>
    obtain ⟨q₁, hq₁, heq⟩ := Option.map_eq_some_iff.mp hs
    cases heq
    unfold closeStop at hq₁
    split_ifs at hq₁
    cases hq₁
    exact ⟨rfl, rfl, rfl, rfl, rfl⟩
  | closeEnd c =>
    obtain ⟨q₁, hq₁, heq⟩ := Option.map_eq_some_iff.mp hs
    cases heq
    unfold closeEnd at hq₁
    dsimp only at hq₁
    split_ifs at hq₁ <;> cases hq₁ <;> exact ⟨rfl, rfl, rfl, rfl, rfl⟩

/-! ### What a stage keeps -/

/-- What a stage of `close` keeps beside the records. -/
structure CloseStage (q q' : InMemoryTaskQueue W) : Prop extends WorkersServe q', CloseDrains q' where
  /-- What is queued stays queued. -/
  queuedIds : ∀ v, q'.queuedIds v = q.queuedIds v
  /-- What runs goes on. -/
  runningIds : ∀ v, q'.runningIds v = q.runningIds v

/-- A stage that changes only where the callers of `close` are. -/
theorem CloseStage.of_closers {q : InMemoryTaskQueue W} {closers : List ClosePhase} {accepting : Bool}
    (h : WorkersServe q) (hd : CloseDrains { q with closers := closers, accepting := accepting }) :
    CloseStage q { q with closers := closers, accepting := accepting } :=
  { hd with
    registered := h.registered
    owner := h.owner
    served := h.served
    counted := h.counted
    queuedIds := fun _ => rfl
    runningIds := fun _ => rfl }

theorem mem_set_closers {cs : List ClosePhase} {c : ℕ} {p p' : ClosePhase} (h : p ∈ cs.set c p') (hne : p ≠ p') :
    p ∈ cs :=
  (List.mem_or_eq_of_mem_set h).resolve_right hne

theorem Invariant.closeBegin {q : InMemoryTaskQueue W} {evs : List TaskEvent} (h : Invariant q evs) :
    CloseStage q q.closeBegin := by
  unfold InMemoryTaskQueue.closeBegin
  split_ifs with hc
  · have hold : ∀ p ∈ q.closers ++ [.closed], p ≠ .closed → p ∈ q.closers := by
      intro p hp hne
      exact (List.mem_append.mp hp).resolve_right (by simpa using hne)
    refine .of_closers h.toWorkersServe ⟨fun _ _ _ => by simpa using hc.1, fun users hj => ?_, ?_⟩
    · exact h.joined users (hold _ hj (by simp))
    · rintro (hg | hs)
      · exact h.drained (.inl (hold _ hg (by simp)))
      · exact h.drained (.inr hs)
  · refine .of_closers h.toWorkersServe ⟨fun _ _ _ => rfl, fun users hj v hv => ?_, ?_⟩
    · rcases List.mem_append.mp hj with hj | hj
      · exact h.joined users hj v hv
      · -- a user without a queue is idle
        obtain rfl : users = q.queues.keys := by simpa using hj
        have hnone := Dict.get?_eq_none_iff.mpr hv
        exact h.idle_of_unfinished fun a ha => by rw [hnone] at ha; cases ha
    · rintro (hg | hs)
      · exact ⟨rfl, (h.drained (.inl (by simpa using hg))).2⟩
      · exact ⟨rfl, (h.drained (.inr hs)).2⟩

theorem Invariant.closeJoined {q q' : InMemoryTaskQueue W} {evs : List TaskEvent} (h : Invariant q evs) {c : ℕ}
    {user : Text} (hs : q.closeJoined c user = some q') : CloseStage q q' := by
  obtain ⟨users, a, hc, ha, hzero, rfl⟩ := closeJoined_eq_some hs
  have hmem : .joining users ∈ q.closers := List.mem_of_getElem? hc
  have haccepting : q.accepting = false := h.closing _ hmem (by simp)
  have hidle : q.Idle user := by
    refine h.idle_of_unfinished fun b hb => ?_
    rw [ha, Option.some.injEq] at hb
    exact hb ▸ hzero
  refine .of_closers h.toWorkersServe ⟨fun _ _ _ => haccepting, fun users' hj v hv => ?_, ?_⟩
  · rcases List.mem_or_eq_of_mem_set hj with hj | heq
    · exact h.joined users' hj v hv
    · cases heq
      by_cases hvu : v = user
      · exact hvu ▸ hidle
      · exact h.joined users hmem v fun hin => hv (List.mem_filter.mpr ⟨hin, by simpa using hvu⟩)
  · rintro (hg | hs)
    · exact h.drained (.inl (mem_set_closers hg (by simp)))
    · exact h.drained (.inr hs)

theorem get?_foldl_set {κ ν : Type} [DecidableEq κ] (f : Option ν → ν) (ks : List κ) (hks : ks.Nodup)
    (d : Dict κ ν) (k : κ) :
    (ks.foldl (fun d j => d.set j (f (d.get? j))) d).get? k =
      if k ∈ ks then some (f (d.get? k)) else d.get? k := by
  induction ks generalizing d with
  | nil => simp
  | cons j ks ih =>
    obtain ⟨hj, hks⟩ := List.nodup_cons.mp hks
    rw [List.foldl_cons, ih hks, Dict.get?_set]
    by_cases hjk : j = k
    · subst hjk
      simp [hj]
    · simp [hjk, Ne.symm hjk]

/-- Once every queue was joined all users are idle, and a stop marker is no task. -/
theorem Invariant.closeStop {q q' : InMemoryTaskQueue W} {evs : List TaskEvent} (h : Invariant q evs) {c : ℕ}
    (hs : q.closeStop c = some q') : CloseStage q q' ∧ q'.Stopping := by
  unfold InMemoryTaskQueue.closeStop at hs
  split_ifs at hs with hjoin
  cases hs
  have hmem : .joining [] ∈ q.closers := List.mem_of_getElem? hjoin
  have haccepting : q.accepting = false := h.closing _ hmem (by simp)
  have hidle : ∀ v, q.Idle v := fun v => h.joined [] hmem v List.not_mem_nil
  have hget : ∀ v, (q.queues.keys.foldl (fun d user => d.set user (((d.get? user).getD .new).put .stop))
      q.queues).get? v = (q.queues.get? v).map fun a => a.put .stop := by
    intro v
    rw [get?_foldl_set (fun o => (o.getD AsyncQueue.new).put .stop) _ (Dict.nodup_keys _)]
    split_ifs with hv
    · obtain ⟨a, ha⟩ := Dict.mem_keys_iff.mp hv
      simp [ha]
    · simp [Dict.get?_eq_none_iff.mpr hv]
  have hqueued : ∀ v, InMemoryTaskQueue.queuedIds { q with
      queues := q.queues.keys.foldl (fun d user => d.set user (((d.get? user).getD .new).put .stop)) q.queues
      closers := q.closers.set c .gathering } v = q.queuedIds v := by
    intro v
    simp only [InMemoryTaskQueue.queuedIds, hget]
    cases q.queues.get? v with
    | none => rfl
    | some a => simp [AsyncQueue.put, QueueItem.taskId?]
  refine ⟨?_, .inl (List.mem_set (List.getElem?_eq_some_iff.mp hjoin).1 _)⟩
  refine {
    registered := h.registered
    owner := h.owner
    served := fun v i hv => ?_
    counted := fun v a ha => ?_
    closing := fun _ _ _ => haccepting
    joined := fun _ _ v _ => ⟨(hqueued v).trans (hidle v).1, (hidle v).2⟩
    drained := fun _ => ⟨haccepting, fun v => ⟨(hqueued v).trans (hidle v).1, (hidle v).2⟩⟩
    queuedIds := hqueued
    runningIds := fun _ => rfl }
  · obtain ⟨a, ha⟩ := h.served v i hv
    exact ⟨_, by rw [hget, ha]; rfl⟩
  · rw [hget, Option.map_eq_some_iff] at ha
    obtain ⟨b, hb, rfl⟩ := ha
    have hcount := h.counted v b hb
    change b.unfinished + 1 = (b.items ++ [QueueItem.stop]).length + (q.runningIds v).length
    rw [List.length_append, List.length_singleton]
    omega

/-- Where every registered worker is done, every worker is. -/
theorem Invariant.all_done {q : InMemoryTaskQueue W} {evs : List TaskEvent} (h : Invariant q evs)
    (hall : (q.workers.values.filterMap fun i => q.tasks[i]?).all Worker.isDone = true) {i : ℕ} {w : Worker}
    (hi : q.tasks[i]? = some w) : w.isDone = true := by
  by_contra hd
  have hreg := h.registered i w hi (by simpa using hd)
  have hmem : w ∈ q.workers.values.filterMap fun i => q.tasks[i]? :=
    List.mem_filterMap.mpr ⟨i, List.mem_map.mpr ⟨_, Dict.mem_entries_iff.mpr hreg, rfl⟩, hi⟩
  exact hd (List.all_eq_true.mp hall w hmem)

theorem Invariant.closeEnd {q q' : InMemoryTaskQueue W} {evs : List TaskEvent} (h : Invariant q evs) {c : ℕ}
    (hs : q.closeEnd c = some q') : CloseStage q q' := by
  unfold InMemoryTaskQueue.closeEnd at hs
  dsimp only at hs
  split_ifs at hs with hg hany hall
  · -- a worker was cancelled
    cases hs
    refine .of_closers h.toWorkersServe ⟨fun p hp hne => ?_, fun users hj => ?_, ?_⟩
    · exact h.closing p (mem_set_closers hp hne) hne
    · exact h.joined users (mem_set_closers hj (by simp))
    · rintro (hj | hj)
      · exact h.drained (.inl (mem_set_closers hj (by simp)))
      · exact h.drained (.inr hj)
  · cases hs
    push Not at hg
    obtain ⟨haccepting, hidle⟩ := h.drained (.inl (List.mem_of_getElem? hg))
    refine {
      registered := fun i w hi hd => ?_
      owner := fun u i hu => by simp at hu
      served := fun u i hu => by simp at hu
      counted := fun u a hu => by simp at hu
      closing := fun _ _ _ => haccepting
      joined := fun _ _ _ _ => ⟨rfl, rfl⟩
      drained := fun _ => ⟨haccepting, fun _ => ⟨rfl, rfl⟩⟩
      queuedIds := fun v => (hidle v).1.symm
      runningIds := fun v => (hidle v).2.symm }
    rw [h.all_done hall hi] at hd
    cases hd

/-- **Closing**: every stage of every call of `close` keeps the workers and what its callers
have seen, and what is queued or runs. -/
theorem Invariant.close_stage {pattern : UserIdPattern} {q q' : InMemoryTaskQueue W} {evs ev : List TaskEvent}
    {a : Action W} (h : Invariant q evs) (ha : a.isClose = true)
    (hs : (machine W pattern).step q a = some (q', ev)) : CloseStage q q' := by
  cases a with
  | enqueue => cases ha
  | workerGet => cases ha
  | workerFinish => cases ha
  | closeBegin =>
    cases hs
    exact h.closeBegin
  | closeJoined c user =>
    obtain ⟨q₁, hq₁, heq⟩ := Option.map_eq_some_iff.mp hs
    cases heq
    exact h.closeJoined hq₁
  | closeStop c =>
    obtain ⟨q₁, hq₁, heq⟩ := Option.map_eq_some_iff.mp hs
    cases heq
    exact (h.closeStop hq₁).1
  | closeEnd c =>
    obtain ⟨q₁, hq₁, heq⟩ := Option.map_eq_some_iff.mp hs
    cases heq
    exact h.closeEnd hq₁

theorem Invariant.close {pattern : UserIdPattern} {q q' : InMemoryTaskQueue W} {evs ev : List TaskEvent} {a : Action W}
    (h : Invariant q evs) (ha : a.isClose = true) (hs : (machine W pattern).step q a = some (q', ev)) :
    Invariant q' (evs ++ ev) := by
  obtain ⟨rfl, hrec, -, hord, hmax⟩ := close_frame ha hs
  have hstage := h.close_stage ha hs
  rw [List.append_nil]
  refine {
    toWorkersServe := hstage.toWorkersServe
    toTasksOrdered := ⟨fun v => ?_, fun v => ?_, h.finishedOnce, ?_⟩
    toCloseDrains := hstage.toCloseDrains
    placed := fun id => ?_
    noMissing := h.noMissing }
  · rw [hstage.queuedIds, h.order]
  · rw [hstage.runningIds, h.active]
  · rw [hord, hmax, h.retained]
  · exact (h.placed id).frame (by rw [hrec]) (fun v => by rw [hstage.queuedIds]) (fun v => by rw [hstage.runningIds])
      (by rw [hord]) fun v hv => hv

end InMemoryTaskQueue

end TenantRag

import TenantRag.Services.TaskQueue

/-!
# The task queue: the invariant

What holds of `InMemoryTaskQueue` after any steps of any users, workers and
callers of `close`, provided `uuid4` never gives an id twice: the workers and
their queues, the order of a user's tasks, the place of every id, and what the
callers of `close` have seen.

## What is proved

* `WorkersServe.setWorker`, `WorkersServe.runningIds_setWorker` — a worker that
  changes its state changes what runs for its user only.
* `Placed.frame`, `Placed.of_record`, `Placed.of_none` — the place of an id is kept
  by what does not move it, and follows from its record.
* `CloseDrains.step` — what the callers of `close` have seen stays true while no
  user without work gets any.
-/

namespace TenantRag

namespace InMemoryTaskQueue

variable {W : Type}

/-! ### What is queued, running and observed -/

/-- The ids waiting in a user's queue, the next first. -/
def queuedIds (q : InMemoryTaskQueue W) (user : Text) : List Uuid :=
  match q.queues.get? user with
  | none => []
  | some a => a.items.filterMap QueueItem.taskId?

/-- The id a worker task is busy with. -/
def busyId : Option Worker → List Uuid
  | some ⟨_, .busy id⟩ => [id]
  | _ => []

/-- The id the user's current worker is busy with. -/
def runningIds (q : InMemoryTaskQueue W) (user : Text) : List Uuid :=
  match q.workers.get? user with
  | none => []
  | some i => busyId q.tasks[i]?

/-- The accepted tasks, with their users, in the order `enqueue` returned. -/
def acceptedPairs (evs : List TaskEvent) : List (Text × Uuid) :=
  evs.filterMap fun
    | .accepted user id => some (user, id)
    | _ => none

/-- The started tasks in order. -/
def startedPairs (evs : List TaskEvent) : List (Text × Uuid) :=
  evs.filterMap fun
    | .started user id => some (user, id)
    | _ => none

/-- The finished tasks in order. -/
def finishedPairs (evs : List TaskEvent) : List (Text × Uuid) :=
  evs.filterMap fun
    | .finished user id _ => some (user, id)
    | _ => none

/-- The ids of one user among pairs of users and ids. -/
def ofUser (user : Text) (ps : List (Text × Uuid)) : List Uuid :=
  (ps.filter fun p => p.1 = user).map Prod.snd

/-- The ids `enqueue` returned. -/
def acceptedIds (evs : List TaskEvent) : List Uuid := (acceptedPairs evs).map Prod.snd

/-- The ids of the tasks whose work ended. -/
def finishedIds (evs : List TaskEvent) : List Uuid := (finishedPairs evs).map Prod.snd

@[simp] theorem acceptedPairs_append (evs evs' : List TaskEvent) :
    acceptedPairs (evs ++ evs') = acceptedPairs evs ++ acceptedPairs evs' := List.filterMap_append ..

@[simp] theorem startedPairs_append (evs evs' : List TaskEvent) :
    startedPairs (evs ++ evs') = startedPairs evs ++ startedPairs evs' := List.filterMap_append ..

@[simp] theorem finishedPairs_append (evs evs' : List TaskEvent) :
    finishedPairs (evs ++ evs') = finishedPairs evs ++ finishedPairs evs' := List.filterMap_append ..

@[simp] theorem acceptedIds_append (evs evs' : List TaskEvent) :
    acceptedIds (evs ++ evs') = acceptedIds evs ++ acceptedIds evs' := by simp [acceptedIds]

@[simp] theorem finishedIds_append (evs evs' : List TaskEvent) :
    finishedIds (evs ++ evs') = finishedIds evs ++ finishedIds evs' := by simp [finishedIds]

@[simp] theorem ofUser_append (user : Text) (ps ps' : List (Text × Uuid)) :
    ofUser user (ps ++ ps') = ofUser user ps ++ ofUser user ps' := by simp [ofUser]

theorem ofUser_singleton (user v : Text) (id : Uuid) : ofUser user [(v, id)] = if v = user then [id] else [] := by
  by_cases h : v = user <;> simp [ofUser, h]

theorem mem_ofUser {user : Text} {id : Uuid} {ps : List (Text × Uuid)} : id ∈ ofUser user ps ↔ (user, id) ∈ ps := by
  simp [ofUser]

theorem mem_acceptedPairs {user : Text} {id : Uuid} {evs : List TaskEvent} :
    (user, id) ∈ acceptedPairs evs ↔ .accepted user id ∈ evs := by
  simp only [acceptedPairs, List.mem_filterMap]
  constructor
  · rintro ⟨e, he, h⟩
    cases e <;> simp_all
  · exact fun h => ⟨_, h, rfl⟩

theorem mem_finishedIds {id : Uuid} {evs : List TaskEvent} :
    id ∈ finishedIds evs ↔ ∃ user, id ∈ ofUser user (finishedPairs evs) := by
  simp [finishedIds, mem_ofUser]

/-- Where no id is accepted twice, an id has one user. -/
theorem user_unique {evs : List TaskEvent} (h : (acceptedIds evs).Nodup) {u v : Text} {id : Uuid}
    (hu : id ∈ ofUser u (acceptedPairs evs)) (hv : id ∈ ofUser v (acceptedPairs evs)) : u = v := by
  rw [mem_ofUser] at hu hv
  exact congrArg Prod.fst (List.inj_on_of_nodup_map h hu hv rfl)

theorem nodup_ofUser {evs : List TaskEvent} (h : (acceptedIds evs).Nodup) (u : Text) :
    (ofUser u (acceptedPairs evs)).Nodup :=
  h.sublist (List.Sublist.map _ List.filter_sublist)

theorem mem_acceptedIds {u : Text} {id : Uuid} {evs : List TaskEvent} (h : id ∈ ofUser u (acceptedPairs evs)) :
    id ∈ acceptedIds evs :=
  List.mem_map.mpr ⟨_, mem_ofUser.mp h, rfl⟩

/-! ### The invariant -/

/-- Nothing of the user is queued or runs. -/
def Idle (q : InMemoryTaskQueue W) (u : Text) : Prop := q.queuedIds u = [] ∧ q.runningIds u = []

/-- `close` has put the stop markers, and waits for the workers or left a marker behind. -/
def Stopping (q : InMemoryTaskQueue W) : Prop :=
  .gathering ∈ q.closers ∨ ∃ u a, q.queues.get? u = some a ∧ .stop ∈ a.items

/-- The workers and the queues they drain. -/
structure WorkersServe (q : InMemoryTaskQueue W) : Prop where
  /-- A worker that is not done is its user's current worker. -/
  registered : ∀ i w, q.tasks[i]? = some w → w.isDone = false → q.workers.get? w.userId = some i
  /-- A user's current worker is one of the user's. -/
  owner : ∀ u i, q.workers.get? u = some i → ∃ w, q.tasks[i]? = some w ∧ w.userId = u
  /-- Every user with a worker has a queue. -/
  served : ∀ u i, q.workers.get? u = some i → ∃ a, q.queues.get? u = some a
  /-- The unfinished items of a queue are those it holds and the one its worker is busy with. -/
  counted : ∀ u a, q.queues.get? u = some a → a.unfinished = a.items.length + (q.runningIds u).length

/-- The order of every user's tasks. -/
structure TasksOrdered (q : InMemoryTaskQueue W) (evs : List TaskEvent) : Prop where
  /-- Accepted tasks have started, in order, or are still queued, in order. -/
  order : ∀ u, ofUser u (acceptedPairs evs) = ofUser u (startedPairs evs) ++ q.queuedIds u
  /-- Started tasks have finished, in order, or run. -/
  active : ∀ u, ofUser u (startedPairs evs) = ofUser u (finishedPairs evs) ++ q.runningIds u
  /-- No task finishes twice. -/
  finishedOnce : (finishedIds evs).Nodup
  /-- The ids kept are the last finished ones. -/
  retained : q.completedOrder = (finishedIds evs).drop ((finishedIds evs).length - q.maxCompletedRecords)

/-- An id is where its record says. -/
structure Placed (q : InMemoryTaskQueue W) (evs : List TaskEvent) (id : Uuid) : Prop where
  /-- It is queued for the user of its record where the record says `"queued"`. -/
  queued : ∀ u, id ∈ q.queuedIds u ↔ ∃ r, q.records.get? id = some r ∧ r.status = .queued ∧ r.userId = u
  /-- It runs for the user of its record where the record says `"running"`. -/
  running : ∀ u, id ∈ q.runningIds u ↔ ∃ r, q.records.get? id = some r ∧ r.status = .running ∧ r.userId = u
  /-- It is kept where its record says that its work ended. -/
  kept : id ∈ q.completedOrder ↔ ∃ r, q.records.get? id = some r ∧ r.status.isFinished = true
  /-- Its record is under its own id and of an accepted task. -/
  recorded : ∀ r, q.records.get? id = some r → r.taskId = id ∧ id ∈ ofUser r.userId (acceptedPairs evs)

/-- What the callers of `close` have seen. -/
structure CloseDrains (q : InMemoryTaskQueue W) : Prop where
  /-- Once `close` was called nothing is accepted. -/
  closing : ∀ p ∈ q.closers, p ≠ .closed → q.accepting = false
  /-- A user whose queue was joined is idle. -/
  joined : ∀ users, .joining users ∈ q.closers → ∀ u, u ∉ users → q.Idle u
  /-- Once stop markers were put nothing is accepted, queued or running. -/
  drained : q.Stopping → q.accepting = false ∧ ∀ u, q.Idle u

/-- What holds of the queue after the observations `evs`. -/
structure Invariant (q : InMemoryTaskQueue W) (evs : List TaskEvent) : Prop extends
    WorkersServe q, TasksOrdered q evs, CloseDrains q where
  /-- Every id is where its record says. -/
  placed : ∀ id, Placed q evs id
  /-- No worker looked a record up in vain. -/
  noMissing : ∀ id, .recordMissing id ∉ evs

theorem Invariant.new {m : ℤ} {q : InMemoryTaskQueue W} (h : InMemoryTaskQueue.new m = .ok q) :
    Invariant q [] := by
  unfold InMemoryTaskQueue.new at h
  split_ifs at h
  cases h
  refine ⟨⟨?_, ?_, ?_, ?_⟩, ⟨?_, ?_, ?_, ?_⟩, ⟨?_, ?_, ?_⟩, fun id => ⟨?_, ?_, ?_, ?_⟩, ?_⟩ <;>
    simp [fresh, queuedIds, runningIds, ofUser, acceptedPairs, startedPairs, finishedPairs, finishedIds, Stopping]

namespace Invariant

variable {q : InMemoryTaskQueue W} {evs : List TaskEvent}

theorem queuedRecord (h : Invariant q evs) (u : Text) (id : Uuid) (hid : id ∈ q.queuedIds u) :
    ∃ r, q.records.get? id = some r ∧ r.status = .queued ∧ r.userId = u :=
  ((h.placed id).queued u).mp hid

theorem runningRecord (h : Invariant q evs) (u : Text) (id : Uuid) (hid : id ∈ q.runningIds u) :
    ∃ r, q.records.get? id = some r ∧ r.status = .running ∧ r.userId = u :=
  ((h.placed id).running u).mp hid

theorem queued_accepted (h : Invariant q evs) {u : Text} {id : Uuid} (hid : id ∈ q.queuedIds u) :
    id ∈ ofUser u (acceptedPairs evs) := by
  rw [h.order]
  exact List.mem_append_right _ hid

theorem running_accepted (h : Invariant q evs) {u : Text} {id : Uuid} (hid : id ∈ q.runningIds u) :
    id ∈ ofUser u (acceptedPairs evs) := by
  rw [h.order, h.active]
  exact List.mem_append_left _ (List.mem_append_right _ hid)

theorem finished_accepted (h : Invariant q evs) {u : Text} {id : Uuid}
    (hid : id ∈ ofUser u (finishedPairs evs)) : id ∈ ofUser u (acceptedPairs evs) := by
  rw [h.order, h.active]
  exact List.mem_append_left _ (List.mem_append_left _ hid)

/-- Where no id is accepted twice, queued and running ids have not finished. -/
theorem pending_not_finished (h : Invariant q evs) (hn : (acceptedIds evs).Nodup) {u : Text} {id : Uuid}
    (hid : id ∈ q.runningIds u ∨ id ∈ q.queuedIds u) : id ∉ finishedIds evs := by
  intro hfin
  obtain ⟨v, hv⟩ := mem_finishedIds.mp hfin
  have hacc : id ∈ ofUser u (acceptedPairs evs) := hid.elim h.running_accepted h.queued_accepted
  obtain rfl := user_unique hn hacc (h.finished_accepted hv)
  have hnd := nodup_ofUser hn u
  rw [h.order, h.active, List.append_assoc] at hnd
  refine (List.nodup_append.mp hnd).2.2 id hv id ?_ rfl
  exact List.mem_append.mpr hid

theorem kept_finished (h : Invariant q evs) {id : Uuid} (hid : id ∈ q.completedOrder) : id ∈ finishedIds evs := by
  rw [h.retained] at hid
  exact (List.drop_sublist _ _).subset hid

/-- An id no call of `enqueue` returned is nowhere. -/
theorem unknown (h : Invariant q evs) {id : Uuid} (hid : id ∉ acceptedIds evs) :
    q.records.get? id = none ∧ (∀ u, id ∉ q.queuedIds u) ∧ (∀ u, id ∉ q.runningIds u) ∧ id ∉ q.completedOrder := by
  have hnone : q.records.get? id = none := by
    cases hr : q.records.get? id with
    | none => rfl
    | some r => exact absurd (mem_acceptedIds ((h.placed id).recorded r hr).2) hid
  refine ⟨hnone, fun u hu => ?_, fun u hu => ?_, fun hk => ?_⟩
  · exact hid (mem_acceptedIds (h.queued_accepted hu))
  · exact hid (mem_acceptedIds (h.running_accepted hu))
  · obtain ⟨r, hr, -⟩ := (h.placed id).kept.mp hk
    rw [hnone] at hr
    cases hr

/-- The pending ids of a user are of that user alone. -/
theorem pending_user (h : Invariant q evs) (hn : (acceptedIds evs).Nodup) {u v : Text} {id : Uuid}
    (hu : id ∈ q.runningIds u ∨ id ∈ q.queuedIds u) (hv : id ∈ q.runningIds v ∨ id ∈ q.queuedIds v) : u = v :=
  user_unique hn (hu.elim h.running_accepted h.queued_accepted) (hv.elim h.running_accepted h.queued_accepted)

end Invariant

/-! ### The queued and the running ids -/

theorem queuedIds_set {q q' : InMemoryTaskQueue W} {u : Text} {a : AsyncQueue} (h : q'.queues = q.queues.set u a)
    (v : Text) : q'.queuedIds v = if u = v then a.items.filterMap QueueItem.taskId? else q.queuedIds v := by
  simp only [queuedIds, h, Dict.get?_set]
  split_ifs <;> rfl

theorem queuedIds_eq {q : InMemoryTaskQueue W} {u : Text} {a : AsyncQueue} (h : q.queues.get? u = some a) :
    q.queuedIds u = a.items.filterMap QueueItem.taskId? := by
  simp only [queuedIds, h]

theorem runningIds_of_workers {q q' : InMemoryTaskQueue W} (hw : q'.workers = q.workers) (ht : q'.tasks = q.tasks)
    (v : Text) : q'.runningIds v = q.runningIds v := by
  simp only [runningIds, hw, ht]

theorem busyId_eq_nil_of_isDone {w : Worker} (h : w.isDone = true) : busyId (some w) = [] := by
  obtain ⟨u, s⟩ := w
  cases s <;> simp_all [busyId, Worker.isDone]


namespace WorkersServe

variable {q : InMemoryTaskQueue W}

/-- The current worker of the user of a worker that waits or is busy is that worker. -/
theorem current (h : WorkersServe q) {i : ℕ} {w : Worker} (hw : q.tasks[i]? = some w) (hd : w.isDone = false) :
    q.runningIds w.userId = busyId (some w) := by
  simp [runningIds, h.registered i w hw hd, hw]

/-- Nothing runs for a user without a queue. -/
theorem runningIds_of_no_queue (h : WorkersServe q) {u : Text} (hu : q.queues.get? u = none) : q.runningIds u = [] := by
  unfold runningIds
  cases hw : q.workers.get? u with
  | none => rfl
  | some i =>
    obtain ⟨a, ha⟩ := h.served u i hw
    rw [hu] at ha
    cases ha

/-- A user is idle where the queue has nothing unfinished. -/
theorem idle_of_unfinished (h : WorkersServe q) {u : Text} (hu : ∀ a, q.queues.get? u = some a → a.unfinished = 0) :
    q.Idle u := by
  cases ha : q.queues.get? u with
  | none => exact ⟨by simp [queuedIds, ha], h.runningIds_of_no_queue ha⟩
  | some a =>
    have hcount := h.counted u a ha
    rw [hu a ha] at hcount
    have hitems : a.items = [] := List.length_eq_zero_iff.mp (by omega)
    exact ⟨by rw [queuedIds_eq ha, hitems]; rfl, List.length_eq_zero_iff.mp (by omega)⟩

/-- When a worker that is not done changes its state, only its user's running ids change. -/
theorem runningIds_setWorker (h : WorkersServe q) (q' : InMemoryTaskQueue W) (s' : WorkerState) {i : ℕ} {u : Text}
    {s : WorkerState} (hi : q.tasks[i]? = some ⟨u, s⟩) (hd : (⟨u, s⟩ : Worker).isDone = false)
    (hw : q'.workers = q.workers) (ht : q'.tasks = q.tasks.set i ⟨u, s'⟩) (v : Text) :
    q'.runningIds v = if u = v then busyId (some ⟨u, s'⟩) else q.runningIds v := by
  have hlt : i < q.tasks.length := (List.getElem?_eq_some_iff.mp hi).1
  simp only [runningIds, hw, ht]
  split_ifs with huv
  · subst huv
    rw [h.registered i _ hi hd]
    simp [hlt]
  · cases hv : q.workers.get? v with
    | none => rfl
    | some j =>
      obtain ⟨w, hj, hwv⟩ := h.owner v j hv
      have hij : i ≠ j := by
        rintro rfl
        rw [hi, Option.some.injEq] at hj
        subst hj
        exact huv hwv
      simp [List.getElem?_set_ne hij]

/-- The workers stay registered and owned when one that is not done changes its state. -/
theorem registered_setWorker (h : WorkersServe q) (q' : InMemoryTaskQueue W) (s' : WorkerState) {i : ℕ} {u : Text}
    {s : WorkerState} (hi : q.tasks[i]? = some ⟨u, s⟩) (hd : (⟨u, s⟩ : Worker).isDone = false)
    (hw : q'.workers = q.workers) (ht : q'.tasks = q.tasks.set i ⟨u, s'⟩) :
    (∀ j w, q'.tasks[j]? = some w → w.isDone = false → q'.workers.get? w.userId = some j) ∧
      ∀ v j, q'.workers.get? v = some j → ∃ w, q'.tasks[j]? = some w ∧ w.userId = v := by
  have hlt : i < q.tasks.length := (List.getElem?_eq_some_iff.mp hi).1
  rw [hw, ht]
  constructor
  · intro j w hj hdw
    rcases eq_or_ne i j with rfl | hij
    · rw [List.getElem?_set_self hlt, Option.some.injEq] at hj
      subst hj
      have hreg := h.registered i _ hi hd
      exact hreg
    · rw [List.getElem?_set_ne hij] at hj
      exact h.registered j w hj hdw
  · intro v j hv
    obtain ⟨w, hj, hwv⟩ := h.owner v j hv
    rcases eq_or_ne i j with rfl | hij
    · rw [hi, Option.some.injEq] at hj
      exact ⟨_, List.getElem?_set_self hlt, by rw [← hwv, ← hj]⟩
    · exact ⟨w, by rw [List.getElem?_set_ne hij, hj], hwv⟩

/-- A step of a worker that is not done keeps the workers and their queues where the queue of
its user still counts what it holds and what the worker is busy with. -/
theorem setWorker (h : WorkersServe q) (q' : InMemoryTaskQueue W) (s' : WorkerState) {i : ℕ} {u : Text}
    {s : WorkerState} (hi : q.tasks[i]? = some ⟨u, s⟩) (hd : (⟨u, s⟩ : Worker).isDone = false)
    (hw : q'.workers = q.workers) (ht : q'.tasks = q.tasks.set i ⟨u, s'⟩) {b : AsyncQueue}
    (hq : q'.queues = q.queues.set u b) (hb : b.unfinished = b.items.length + (busyId (some ⟨u, s'⟩)).length) :
    WorkersServe q' where
  registered := (h.registered_setWorker q' s' hi hd hw ht).1
  owner := (h.registered_setWorker q' s' hi hd hw ht).2
  served v j hv := by
    obtain ⟨a, ha⟩ := h.served v j (hw ▸ hv)
    rw [hq, Dict.get?_set]
    split_ifs
    · exact ⟨b, rfl⟩
    · exact ⟨a, ha⟩
  counted v a ha := by
    rw [h.runningIds_setWorker q' s' hi hd hw ht]
    rw [hq, Dict.get?_set] at ha
    split_ifs at ha ⊢ with huv
    · cases ha
      exact hb
    · exact h.counted v a ha

end WorkersServe

/-! ### The place of an id -/

namespace Placed

variable {q q' : InMemoryTaskQueue W} {evs evs' : List TaskEvent} {id : Uuid}

/-- A step that leaves an id and its record where they are keeps its place. -/
theorem frame (h : Placed q evs id) (hrec : q'.records.get? id = q.records.get? id)
    (hqueued : ∀ u, id ∈ q'.queuedIds u ↔ id ∈ q.queuedIds u)
    (hrunning : ∀ u, id ∈ q'.runningIds u ↔ id ∈ q.runningIds u)
    (hkept : id ∈ q'.completedOrder ↔ id ∈ q.completedOrder)
    (hacc : ∀ u, id ∈ ofUser u (acceptedPairs evs) → id ∈ ofUser u (acceptedPairs evs')) : Placed q' evs' id where
  queued u := by rw [hqueued, hrec, h.queued]
  running u := by rw [hrunning, hrec, h.running]
  kept := by rw [hkept, hrec, h.kept]
  recorded r hr := ⟨(h.recorded r (hrec ▸ hr)).1, hacc _ (h.recorded r (hrec ▸ hr)).2⟩

/-- An id with a record is placed where it is found exactly where the record says. -/
theorem of_record {r : TaskRecord W} (hr : q.records.get? id = some r) (hid : r.taskId = id)
    (hacc : id ∈ ofUser r.userId (acceptedPairs evs))
    (hqueued : ∀ u, id ∈ q.queuedIds u ↔ r.status = .queued ∧ r.userId = u)
    (hrunning : ∀ u, id ∈ q.runningIds u ↔ r.status = .running ∧ r.userId = u)
    (hkept : id ∈ q.completedOrder ↔ r.status.isFinished = true) : Placed q evs id where
  queued u := by simp [hqueued, hr]
  running u := by simp [hrunning, hr]
  kept := by simp [hkept, hr]
  recorded r' hr' := by
    rw [hr, Option.some.injEq] at hr'
    exact hr' ▸ ⟨hid, hacc⟩

/-- An id without a record is placed where it is nowhere. -/
theorem of_none (hr : q.records.get? id = none) (hqueued : ∀ u, id ∉ q.queuedIds u)
    (hrunning : ∀ u, id ∉ q.runningIds u) (hkept : id ∉ q.completedOrder) : Placed q evs id where
  queued u := by simp [hqueued, hr]
  running u := by simp [hrunning, hr]
  kept := by simp [hkept, hr]
  recorded r' hr' := by
    rw [hr] at hr'
    cases hr'

end Placed

/-! ### The callers of `close` -/

/-- A step that puts no stop marker leaves no new one behind. -/
theorem stopping_of_set {q q' : InMemoryTaskQueue W} {u : Text} {a b : AsyncQueue} (hc : q'.closers = q.closers)
    (ha : q.queues.get? u = some a) (hq : q'.queues = q.queues.set u b) (hb : ∀ x ∈ b.items, x ∈ a.items) :
    q'.Stopping → q.Stopping := by
  rintro (hg | ⟨v, a', ha', hs⟩)
  · exact .inl (hc ▸ hg)
  · rw [hq, Dict.get?_set] at ha'
    split_ifs at ha' with huv
    · cases ha'
      exact .inr ⟨u, a, ha, hb _ hs⟩
    · exact .inr ⟨v, a', ha', hs⟩

/-- What the callers of `close` have seen stays true while no idle user gets work. -/
theorem CloseDrains.step {q q' : InMemoryTaskQueue W} (h : CloseDrains q) (hc : q'.closers = q.closers)
    (ha : q'.accepting = q.accepting) (hs : q'.Stopping → q.Stopping) (hidle : ∀ u, q.Idle u → q'.Idle u) :
    CloseDrains q' where
  closing p hp := ha ▸ h.closing p (hc ▸ hp)
  joined users hj u hu := hidle u (h.joined users (hc ▸ hj) u hu)
  drained hq := ⟨ha ▸ (h.drained (hs hq)).1, fun u => hidle u ((h.drained (hs hq)).2 u)⟩

end InMemoryTaskQueue

end TenantRag

import TenantRag.Services.TaskQueueInvariant

/-!
# The task queue: the steps of `enqueue` and of the workers

Each step is described once, by what it can do to the queue, and then keeps each
part of the invariant in turn.

## What is proved

* `Invariant.accept` — accepting a task under a fresh id keeps the invariant.
* `workerGet_cases`, `Invariant.stopped`, `Invariant.start` — what receiving an item
  can do, and that it keeps the invariant.
* `Invariant.workerFinish_cases`, `Invariant.finish` — the same for the end of a
  work item.
-/

namespace TenantRag

namespace InMemoryTaskQueue

variable {W : Type}

/-! ### What an observation adds -/

theorem pairs_accepted (evs : List TaskEvent) (u : Text) (id : Uuid) :
    acceptedPairs (evs ++ [.accepted u id]) = acceptedPairs evs ++ [(u, id)] ∧
      startedPairs (evs ++ [.accepted u id]) = startedPairs evs ∧
      finishedPairs (evs ++ [.accepted u id]) = finishedPairs evs := by
  simp [acceptedPairs, startedPairs, finishedPairs]

theorem pairs_rejected (evs : List TaskEvent) (e : PyError) :
    acceptedPairs (evs ++ [.rejected e]) = acceptedPairs evs ∧ startedPairs (evs ++ [.rejected e]) = startedPairs evs ∧
      finishedPairs (evs ++ [.rejected e]) = finishedPairs evs := by
  simp [acceptedPairs, startedPairs, finishedPairs]

theorem pairs_started (evs : List TaskEvent) (u : Text) (id : Uuid) :
    acceptedPairs (evs ++ [.started u id]) = acceptedPairs evs ∧
      startedPairs (evs ++ [.started u id]) = startedPairs evs ++ [(u, id)] ∧
      finishedPairs (evs ++ [.started u id]) = finishedPairs evs := by
  simp [acceptedPairs, startedPairs, finishedPairs]

theorem pairs_finished (evs : List TaskEvent) (u : Text) (id : Uuid) (outcome : WorkOutcome) :
    acceptedPairs (evs ++ [.finished u id outcome]) = acceptedPairs evs ∧
      startedPairs (evs ++ [.finished u id outcome]) = startedPairs evs ∧
      finishedPairs (evs ++ [.finished u id outcome]) = finishedPairs evs ++ [(u, id)] := by
  simp [acceptedPairs, startedPairs, finishedPairs]

/-! ### Accepting a task -/

/-- A user gets a new worker only where no worker of the user runs a task. -/
theorem runningIds_eq_nil_of_needsWorker {q : InMemoryTaskQueue W} {u : Text} (h : q.needsWorker u = true) :
    q.runningIds u = [] := by
  unfold needsWorker at h
  unfold runningIds
  cases hu : q.workers.get? u with
  | none => rfl
  | some i =>
    simp only [hu] at h
    cases hi : q.tasks[i]? with
    | none => simp [hi, busyId]
    | some w =>
      rw [hi, Option.all_some] at h
      simpa [hi] using busyId_eq_nil_of_isDone h

theorem WorkersServe.createWorker_runningIds {q : InMemoryTaskQueue W} (h : WorkersServe q) {u : Text}
    (hn : q.needsWorker u = true) (v : Text) : (q.createWorker u).runningIds v = q.runningIds v := by
  rcases eq_or_ne u v with rfl | huv
  · rw [runningIds_eq_nil_of_needsWorker hn]
    simp [runningIds, createWorker, busyId]
  · simp only [runningIds, createWorker, Dict.get?_set_ne _ _ huv]
    cases hv : q.workers.get? v with
    | none => rfl
    | some j =>
      obtain ⟨w, hj, -⟩ := h.owner v j hv
      simp [List.getElem?_append_left (List.getElem?_eq_some_iff.mp hj).1]

/-- `accept` on the worker tables: either they stay or the user gets a new worker. -/
theorem accept_workers (q : InMemoryTaskQueue W) (u op : Text) (w : W) (id : Uuid) (now : ℕ) :
    ((q.accept u op w id now).workers = q.workers ∧ (q.accept u op w id now).tasks = q.tasks ∧
        q.needsWorker u = false) ∨
      ((q.accept u op w id now).workers = (q.createWorker u).workers ∧
        (q.accept u op w id now).tasks = (q.createWorker u).tasks ∧ q.needsWorker u = true) := by
  have hsame : InMemoryTaskQueue.needsWorker
      { q with records := q.records.set id (newRecord u op w id now) } u = q.needsWorker u := rfl
  unfold accept
  simp only [hsame]
  cases hn : q.needsWorker u with
  | false => exact .inl ⟨rfl, rfl, rfl⟩
  | true => exact .inr ⟨rfl, rfl, rfl⟩

theorem accept_fields (q : InMemoryTaskQueue W) (u op : Text) (w : W) (id : Uuid) (now : ℕ) :
    let q' := q.accept u op w id now
    q'.records = q.records.set id (newRecord u op w id now) ∧
      q'.queues = q.queues.set u (((q.queues.get? u).getD .new).put (.task id)) ∧
      q'.completedOrder = q.completedOrder ∧ q'.maxCompletedRecords = q.maxCompletedRecords ∧
      q'.accepting = q.accepting ∧ q'.closers = q.closers := by
  unfold accept
  dsimp only
  split_ifs <;> exact ⟨rfl, rfl, rfl, rfl, rfl, rfl⟩

theorem accept_queuedIds (q : InMemoryTaskQueue W) (u op : Text) (w : W) (id : Uuid) (now : ℕ) (v : Text) :
    (q.accept u op w id now).queuedIds v = if u = v then q.queuedIds u ++ [id] else q.queuedIds v := by
  rw [queuedIds_set (accept_fields q u op w id now).2.1]
  split_ifs
  · cases hu : q.queues.get? u <;> simp [queuedIds, hu, AsyncQueue.put, AsyncQueue.new, QueueItem.taskId?]
  · rfl

theorem WorkersServe.accept_runningIds {q : InMemoryTaskQueue W} (h : WorkersServe q)
    (u op : Text) (w : W) (id : Uuid) (now : ℕ) (v : Text) :
    (q.accept u op w id now).runningIds v = q.runningIds v := by
  rcases accept_workers q u op w id now with ⟨hw, ht, -⟩ | ⟨hw, ht, hn⟩
  · exact runningIds_of_workers hw ht v
  · rw [runningIds_of_workers hw ht v, h.createWorker_runningIds hn]

/-- The workers stay registered and owned when a user gets a new one. -/
theorem WorkersServe.createWorker_registered {q : InMemoryTaskQueue W} (h : WorkersServe q) {u : Text}
    (hn : q.needsWorker u = true) :
    (∀ j w, (q.createWorker u).tasks[j]? = some w → w.isDone = false →
        (q.createWorker u).workers.get? w.userId = some j) ∧
      ∀ v j, (q.createWorker u).workers.get? v = some j →
        ∃ w, (q.createWorker u).tasks[j]? = some w ∧ w.userId = v := by
  have hold : ∀ (j : ℕ) (w : Worker), q.tasks[j]? = some w → w.isDone = false → w.userId ≠ u := by
    rintro j w hj hd rfl
    unfold needsWorker at hn
    simp [h.registered j w hj hd, hj, hd] at hn
  refine ⟨fun j w hj hd => ?_, fun v j hv => ?_⟩
  · simp only [createWorker] at hj ⊢
    rcases lt_trichotomy j q.tasks.length with hlt | rfl | hgt
    · rw [List.getElem?_append_left hlt] at hj
      rw [Dict.get?_set_ne _ _ (hold j w hj hd).symm]
      exact h.registered j w hj hd
    · simp only [List.getElem?_concat_length, Option.some.injEq] at hj
      subst hj
      exact Dict.get?_set_self ..
    · rw [List.getElem?_eq_none (by simp; omega)] at hj
      cases hj
  · simp only [createWorker, Dict.get?_set] at hv ⊢
    split_ifs at hv with huv
    · cases hv
      exact ⟨⟨u, .waiting⟩, by simp, huv⟩
    · obtain ⟨w, hj, hwv⟩ := h.owner v j hv
      exact ⟨w, by rw [List.getElem?_append_left (List.getElem?_eq_some_iff.mp hj).1, hj], hwv⟩

theorem WorkersServe.accept {q : InMemoryTaskQueue W} (h : WorkersServe q) (u op : Text) (w : W) (id : Uuid) (now : ℕ) :
    WorkersServe (q.accept u op w id now) := by
  have hque := (accept_fields q u op w id now).2.1
  have hreg : (∀ j w', (q.accept u op w id now).tasks[j]? = some w' → w'.isDone = false →
        (q.accept u op w id now).workers.get? w'.userId = some j) ∧
      ∀ v j, (q.accept u op w id now).workers.get? v = some j →
        ∃ w', (q.accept u op w id now).tasks[j]? = some w' ∧ w'.userId = v := by
    rcases accept_workers q u op w id now with ⟨hw, ht, -⟩ | ⟨hw, ht, hn⟩
    · rw [hw, ht]
      exact ⟨h.registered, h.owner⟩
    · rw [hw, ht]
      exact h.createWorker_registered hn
  refine ⟨hreg.1, hreg.2, fun v j hv => ?_, fun v a ha => ?_⟩
  · rw [hque]
    rcases eq_or_ne u v with rfl | huv
    · exact ⟨_, Dict.get?_set_self ..⟩
    · rw [Dict.get?_set_ne _ _ huv]
      rcases accept_workers q u op w id now with ⟨hw, -, -⟩ | ⟨hw, -, -⟩
      · exact h.served v j (hw ▸ hv)
      · rw [hw] at hv
        simp only [createWorker, Dict.get?_set_ne _ _ huv] at hv
        exact h.served v j hv
  · rw [h.accept_runningIds]
    rw [hque, Dict.get?_set] at ha
    split_ifs at ha with huv
    · subst huv
      cases ha
      cases hq : q.queues.get? u with
      | none => simp [AsyncQueue.put, AsyncQueue.new, h.runningIds_of_no_queue hq]
      | some a =>
        have hcount := h.counted u a hq
        simp only [Option.getD_some, AsyncQueue.put, List.length_append, List.length_singleton]
        omega
    · exact h.counted v a ha

theorem Invariant.accept_ordered {q : InMemoryTaskQueue W} {evs : List TaskEvent} (h : Invariant q evs) (u op : Text)
    (w : W) (id : Uuid) (now : ℕ) : TasksOrdered (q.accept u op w id now) (evs ++ [.accepted u id]) := by
  obtain ⟨-, -, hord, hmax, -, -⟩ := accept_fields q u op w id now
  obtain ⟨hacc, hst, hfin⟩ := pairs_accepted evs u id
  refine ⟨fun v => ?_, fun v => ?_, ?_, ?_⟩
  · rw [hacc, hst, accept_queuedIds, ofUser_append, ofUser_singleton, h.order]
    split_ifs with huv
    · rw [huv, List.append_assoc]
    · rw [List.append_nil]
  · rw [hst, hfin, h.accept_runningIds, h.active]
  · rw [finishedIds, hfin]
    exact h.finishedOnce
  · rw [finishedIds, hfin, hord, hmax, h.retained, finishedIds]

/-- While a task is accepted no call of `close` is on its way. -/
theorem Invariant.accept_drains {q : InMemoryTaskQueue W} {evs : List TaskEvent} (h : Invariant q evs) (u op : Text)
    (w : W) (id : Uuid) (now : ℕ) (hacc : q.accepting = true) : CloseDrains (q.accept u op w id now) := by
  obtain ⟨-, hque, -, -, hac, hclo⟩ := accept_fields q u op w id now
  have hclosed : ∀ p ∈ q.closers, p = .closed := by
    intro p hp
    by_contra hne
    simp [h.closing p hp hne] at hacc
  have hnotStopping : ¬ (q.accept u op w id now).Stopping := by
    rintro (hg | ⟨v, a, ha, hs⟩)
    · rw [hclo] at hg
      cases hclosed _ hg
    · have hstop : q.Stopping := by
        rw [hque, Dict.get?_set] at ha
        split_ifs at ha with huv
        · subst huv
          cases ha
          cases hq : q.queues.get? u with
          | none => simp [hq, AsyncQueue.put, AsyncQueue.new] at hs
          | some a => exact .inr ⟨u, a, hq, by simpa [hq, AsyncQueue.put] using hs⟩
        · exact .inr ⟨v, a, ha, hs⟩
      simp [(h.drained hstop).1] at hacc
  refine ⟨?_, fun users hj => ?_, fun hs => absurd hs hnotStopping⟩
  · rw [hclo, hac]
    exact h.closing
  · rw [hclo] at hj
    cases hclosed _ hj

theorem Invariant.accept_placed {q : InMemoryTaskQueue W} {evs : List TaskEvent} (h : Invariant q evs) (u op : Text)
    (w : W) {id : Uuid} (now : ℕ) (hid : id ∉ acceptedIds evs) (id' : Uuid) :
    Placed (q.accept u op w id now) (evs ++ [.accepted u id]) id' := by
  obtain ⟨hrec, -, hord, -, -, -⟩ := accept_fields q u op w id now
  obtain ⟨hpairs, -, -⟩ := pairs_accepted evs u id
  have hqueued := accept_queuedIds q u op w id now
  have hrunning := h.accept_runningIds u op w id now
  by_cases hnew : id = id'
  · subst hnew
    obtain ⟨-, hnq, hnr, hnk⟩ := h.unknown hid
    refine .of_record (r := newRecord u op w id now) (by rw [hrec, Dict.get?_set_self]) rfl ?_ (fun v => ?_)
      (fun v => ?_) ?_
    · simp [hpairs, newRecord, ofUser_singleton]
    · rw [hqueued]
      split_ifs with huv
      · simp [newRecord, huv]
      · simp [newRecord, huv, hnq]
    · simp [hrunning, hnr, newRecord]
    · simp [hord, hnk, newRecord, TaskStatus.isFinished]
  · refine (h.placed id').frame (by rw [hrec, Dict.get?_set_ne _ _ hnew]) (fun v => ?_) (fun v => by rw [hrunning])
      (by rw [hord]) fun v hv => ?_
    · rw [hqueued]
      split_ifs with huv
      · simp [huv, Ne.symm hnew]
      · rfl
    · rw [hpairs, ofUser_append]
      exact List.mem_append_left _ hv

/-- Accepting a task under a fresh id keeps the invariant. -/
theorem Invariant.accept {q : InMemoryTaskQueue W} {evs : List TaskEvent} (h : Invariant q evs) {u op : Text} {w : W}
    {id : Uuid} {now : ℕ} (hacc : q.accepting = true) (hid : id ∉ acceptedIds evs) :
    Invariant (q.accept u op w id now) (evs ++ [.accepted u id]) where
  toWorkersServe := h.toWorkersServe.accept u op w id now
  toTasksOrdered := h.accept_ordered u op w id now
  toCloseDrains := h.accept_drains u op w id now hacc
  placed := h.accept_placed u op w now hid
  noMissing id' := by simpa using h.noMissing id'

/-! ### A worker receives an item -/

/-- The queue after waiting worker `i` received a stop marker. -/
def stoppedQueue (q : InMemoryTaskQueue W) (i : ℕ) (u : Text) (items : List QueueItem) (n : ℕ) : InMemoryTaskQueue W :=
  { q with
    queues := q.queues.set u ⟨items, n - 1⟩
    tasks := q.tasks.set i ⟨u, .done .stopped⟩ }

/-- The queue after waiting worker `i` received a task and started its work. -/
def startedQueue (q : InMemoryTaskQueue W) (i : ℕ) (u : Text) (id : Uuid) (r : TaskRecord W) (items : List QueueItem)
    (n now : ℕ) : InMemoryTaskQueue W :=
  { q with
    queues := q.queues.set u ⟨items, n⟩
    records := q.records.set id (startRecord r now)
    tasks := q.tasks.set i ⟨u, .busy id⟩ }

/-- All that receiving an item can do. -/
theorem workerGet_cases {q q' : InMemoryTaskQueue W} {i now : ℕ} {ev : List TaskEvent}
    (h : q.workerGet i now = some (q', ev)) :
    ∃ u item items n, q.tasks[i]? = some ⟨u, .waiting⟩ ∧ q.queues.get? u = some ⟨item :: items, n⟩ ∧
      ((item = .stop ∧ ev = [] ∧ q' = q.stoppedQueue i u items n) ∨
        (∃ id, item = .task id ∧ q.records.get? id = none ∧ ev = [.recordMissing id] ∧
          q' = { q with
            queues := q.queues.set u ⟨items, n - 1⟩
            tasks := q.tasks.set i ⟨u, .done .keyError⟩ }) ∨
        ∃ id r, item = .task id ∧ q.records.get? id = some r ∧ ev = [.started u id] ∧
          q' = q.startedQueue i u id r items n now) := by
  unfold workerGet at h
  split at h
  case h_2 => cases h
  case h_1 u hi =>
    split at h
    case h_3 => cases h
    case h_1 items n hq =>
      cases h
      refine ⟨u, .stop, items, n, hi, hq, .inl ⟨rfl, rfl, ?_⟩⟩
      simp [taskDone, setWorker, AsyncQueue.taskDone, stoppedQueue]
    case h_2 id items n hq =>
      split at h
      case h_1 hr =>
        cases h
        refine ⟨u, .task id, items, n, hi, hq, .inr (.inl ⟨id, rfl, hr, rfl, ?_⟩)⟩
        simp [taskDone, setWorker, AsyncQueue.taskDone]
      case h_2 r hr =>
        cases h
        exact ⟨u, .task id, items, n, hi, hq, .inr (.inr ⟨id, r, rfl, hr, rfl, rfl⟩)⟩

theorem stoppedQueue_queuedIds {q : InMemoryTaskQueue W} {i n : ℕ} {u : Text} {items : List QueueItem}
    (hq : q.queues.get? u = some ⟨.stop :: items, n⟩) (v : Text) :
    (q.stoppedQueue i u items n).queuedIds v = q.queuedIds v := by
  rw [queuedIds_set (q := q) rfl]
  split_ifs with huv
  · rw [← huv, queuedIds_eq hq]
    rfl
  · rfl

theorem WorkersServe.stoppedQueue_runningIds {q : InMemoryTaskQueue W} (h : WorkersServe q) {i n : ℕ} {u : Text}
    {items : List QueueItem} (hi : q.tasks[i]? = some ⟨u, .waiting⟩) (v : Text) :
    (q.stoppedQueue i u items n).runningIds v = q.runningIds v := by
  rw [h.runningIds_setWorker (q.stoppedQueue i u items n) (.done .stopped) hi rfl rfl rfl]
  split_ifs with huv
  · rw [← huv, h.current hi rfl]
    rfl
  · rfl

/-- Receiving a stop marker keeps the invariant. -/
theorem Invariant.stopped {q : InMemoryTaskQueue W} {evs : List TaskEvent} (h : Invariant q evs) {i n : ℕ} {u : Text}
    {items : List QueueItem} (hi : q.tasks[i]? = some ⟨u, .waiting⟩)
    (hq : q.queues.get? u = some ⟨.stop :: items, n⟩) : Invariant (q.stoppedQueue i u items n) evs := by
  have hqueued := stoppedQueue_queuedIds (i := i) hq
  have hrunning : ∀ v, (q.stoppedQueue i u items n).runningIds v = q.runningIds v := h.stoppedQueue_runningIds hi
  have hcount := h.counted u _ hq
  rw [h.current hi rfl] at hcount
  refine { toWorkersServe := ?_, toTasksOrdered := ?_, toCloseDrains := ?_, placed := ?_, noMissing := h.noMissing }
  · refine h.setWorker _ (.done .stopped) hi rfl rfl rfl (b := ⟨items, n - 1⟩) rfl ?_
    simp only [List.length_cons, busyId, List.length_nil] at hcount ⊢
    omega
  · exact ⟨fun v => by rw [hqueued, h.order], fun v => by rw [hrunning, h.active], h.finishedOnce, h.retained⟩
  · refine h.toCloseDrains.step rfl rfl ?_ fun v hv => ⟨(hqueued v).trans hv.1, (hrunning v).trans hv.2⟩
    exact stopping_of_set (b := ⟨items, n - 1⟩) rfl hq rfl fun x hx => List.mem_cons_of_mem _ hx
  · exact fun id => (h.placed id).frame rfl (fun v => by rw [hqueued]) (fun v => by rw [hrunning]) Iff.rfl fun v hv => hv

section start

variable {q : InMemoryTaskQueue W} {evs : List TaskEvent} {i n now : ℕ} {u : Text} {id : Uuid} {items : List QueueItem}
  {r : TaskRecord W}

theorem queuedIds_of_head (hq : q.queues.get? u = some ⟨.task id :: items, n⟩) :
    q.queuedIds u = id :: items.filterMap QueueItem.taskId? := by
  rw [queuedIds_eq hq]
  rfl

theorem startedQueue_queuedIds (v : Text) : (q.startedQueue i u id r items n now).queuedIds v =
    if u = v then items.filterMap QueueItem.taskId? else q.queuedIds v :=
  queuedIds_set (q := q) (a := ⟨items, n⟩) rfl v

theorem WorkersServe.startedQueue_runningIds (h : WorkersServe q) (hi : q.tasks[i]? = some ⟨u, .waiting⟩) (v : Text) :
    (q.startedQueue i u id r items n now).runningIds v = if u = v then [id] else q.runningIds v :=
  h.runningIds_setWorker (q.startedQueue i u id r items n now) (.busy id) hi rfl rfl rfl v

theorem Invariant.start_ordered (h : Invariant q evs) (hi : q.tasks[i]? = some ⟨u, .waiting⟩)
    (hq : q.queues.get? u = some ⟨.task id :: items, n⟩) :
    TasksOrdered (q.startedQueue i u id r items n now) (evs ++ [.started u id]) := by
  obtain ⟨hacc, hst, hfin⟩ := pairs_started evs u id
  have hidle : q.runningIds u = [] := h.current hi rfl
  refine ⟨fun v => ?_, fun v => ?_, ?_, ?_⟩
  · rw [hacc, hst, startedQueue_queuedIds, ofUser_append, ofUser_singleton, h.order]
    split_ifs with huv
    · rw [← huv, queuedIds_of_head hq, List.append_assoc, List.singleton_append]
    · rw [List.append_nil]
  · rw [hst, hfin, h.startedQueue_runningIds hi, ofUser_append, ofUser_singleton, h.active]
    split_ifs with huv
    · rw [← huv, hidle, List.append_nil]
    · rw [List.append_nil]
  · rw [finishedIds, hfin]
    exact h.finishedOnce
  · rw [finishedIds, hfin]
    exact h.retained

theorem Invariant.start_placed (h : Invariant q evs) (hn : (acceptedIds evs).Nodup)
    (hi : q.tasks[i]? = some ⟨u, .waiting⟩) (hq : q.queues.get? u = some ⟨.task id :: items, n⟩)
    (hr : q.records.get? id = some r) (id' : Uuid) :
    Placed (q.startedQueue i u id r items n now) (evs ++ [.started u id]) id' := by
  obtain ⟨hpairs, -, -⟩ := pairs_started evs u id
  have hhead := queuedIds_of_head hq
  have hidle : q.runningIds u = [] := h.current hi rfl
  have hmem : id ∈ q.queuedIds u := by
    rw [hhead]
    exact List.mem_cons_self ..
  by_cases hid' : id = id'
  · -- the id leaves the queue, where it was once, and runs
    subst hid'
    obtain ⟨r', hr', -, hru⟩ := h.queuedRecord u id hmem
    obtain rfl : r = r' := Option.some.inj (hr.symm.trans hr')
    obtain ⟨htask, hacc⟩ := (h.placed id).recorded r hr
    have htail : id ∉ items.filterMap QueueItem.taskId? := by
      have hnd := nodup_ofUser hn u
      rw [h.order, hhead] at hnd
      exact (List.nodup_cons.mp (List.nodup_append.mp hnd).2.1).1
    have hunkept : id ∉ q.completedOrder := fun hk => h.pending_not_finished hn (.inr hmem) (h.kept_finished hk)
    refine .of_record (r := startRecord r now) (Dict.get?_set_self ..) htask (hpairs ▸ hacc) (fun v => ?_)
      (fun v => ?_) (by simpa [startedQueue, startRecord, TaskStatus.isFinished] using hunkept)
    · rw [startedQueue_queuedIds]
      have hnot : id ∉ if u = v then items.filterMap QueueItem.taskId? else q.queuedIds v := by
        split_ifs with huv
        · exact htail
        · exact fun hv => huv (h.pending_user hn (.inr hmem) (.inr hv))
      simp [hnot, startRecord]
    · rw [h.startedQueue_runningIds hi]
      split_ifs with huv
      · simp [startRecord, hru, huv]
      · have hnot : id ∉ q.runningIds v := fun hv => huv (h.pending_user hn (.inr hmem) (.inl hv))
        simp [hnot, startRecord, hru, huv]
  · refine (h.placed id').frame (Dict.get?_set_ne _ _ hid') (fun v => ?_) (fun v => ?_) Iff.rfl fun v hv => hpairs ▸ hv
    · rw [startedQueue_queuedIds]
      split_ifs with huv
      · rw [← huv, hhead, List.mem_cons, or_iff_right (Ne.symm hid')]
      · rfl
    · rw [h.startedQueue_runningIds hi]
      split_ifs with huv
      · simp [← huv, hidle, Ne.symm hid']
      · rfl

/-- Receiving a task keeps the invariant. -/
theorem Invariant.start (h : Invariant q evs) (hn : (acceptedIds evs).Nodup) (hi : q.tasks[i]? = some ⟨u, .waiting⟩)
    (hq : q.queues.get? u = some ⟨.task id :: items, n⟩) (hr : q.records.get? id = some r) :
    Invariant (q.startedQueue i u id r items n now) (evs ++ [.started u id]) := by
  have hcount := h.counted u _ hq
  rw [h.current hi rfl] at hcount
  refine {
    toWorkersServe := ?_
    toTasksOrdered := h.start_ordered hi hq
    toCloseDrains := ?_
    placed := h.start_placed hn hi hq hr
    noMissing := fun id' => by simpa using h.noMissing id' }
  · refine h.setWorker _ (.busy id) hi rfl rfl rfl (b := ⟨items, n⟩) rfl ?_
    simp only [List.length_cons, busyId, List.length_nil] at hcount ⊢
    omega
  · refine h.toCloseDrains.step rfl rfl ?_ fun v hv => ?_
    · exact stopping_of_set (b := ⟨items, n⟩) rfl hq rfl fun x hx => List.mem_cons_of_mem _ hx
    · -- the user of the task was not idle
      have huv : u ≠ v := by
        rintro rfl
        rw [Idle, queuedIds_of_head hq] at hv
        cases hv.1
      refine ⟨?_, ?_⟩
      · rw [startedQueue_queuedIds, if_neg huv, hv.1]
      · rw [h.startedQueue_runningIds hi, if_neg huv, hv.2]

end start

/-! ### Retaining outcomes -/

theorem evict_fst (limit : ℕ) (order : List Uuid) (records : Dict Uuid (TaskRecord W)) :
    (evict limit order records).1 = order.drop (order.length - limit) := by
  induction order generalizing records with
  | nil => simp [evict]
  | cons id order ih =>
    simp only [evict]
    split_ifs with h
    · rw [ih, List.length_cons] at *
      rw [show order.length + 1 - limit = (order.length - limit) + 1 by omega, List.drop_succ_cons]
    · rw [show (id :: order).length - limit = 0 by omega, List.drop_zero]

theorem evict_get? (limit : ℕ) (order : List Uuid) (records : Dict Uuid (TaskRecord W)) (id : Uuid) :
    (evict limit order records).2.get? id =
      if id ∈ order.take (order.length - limit) then none else records.get? id := by
  induction order generalizing records with
  | nil => simp [evict]
  | cons id' order ih =>
    simp only [evict]
    split_ifs with h h' h'
    · rw [ih]
      rw [List.length_cons, show order.length + 1 - limit = (order.length - limit) + 1 by
        rw [List.length_cons] at h; omega, List.take_succ_cons, List.mem_cons] at h'
      split_ifs with h''
      · rfl
      · rw [Dict.get?_erase, if_pos (h'.resolve_right h'').symm]
    · rw [ih]
      rw [List.length_cons, show order.length + 1 - limit = (order.length - limit) + 1 by
        rw [List.length_cons] at h; omega, List.take_succ_cons, List.mem_cons, not_or] at h'
      rw [if_neg h'.2, Dict.get?_erase, if_neg (Ne.symm h'.1)]
    · rw [show (id' :: order).length - limit = 0 by omega] at h'
      simp at h'
    · rfl


/-- The last `m` of a list that grows at its end. -/
theorem drop_concat_drop {α : Type} (m : ℕ) (xs : List α) (x : α) :
    (xs.drop (xs.length - m) ++ [x]).drop ((xs.drop (xs.length - m) ++ [x]).length - m) =
      (xs ++ [x]).drop ((xs ++ [x]).length - m) := by
  have hle : xs.length - m ≤ xs.length := Nat.sub_le ..
  rw [← List.drop_append_of_le_length hle, List.drop_drop]
  congr 1
  simp only [List.length_drop, List.length_append, List.length_singleton]
  omega

theorem finishRecord_fields (r : TaskRecord W) (outcome : WorkOutcome) (now : ℕ) :
    (finishRecord r outcome now).status.isFinished = true ∧ (finishRecord r outcome now).taskId = r.taskId ∧
      (finishRecord r outcome now).userId = r.userId := by
  cases outcome <;> exact ⟨rfl, rfl, rfl⟩

/-! ### The work of a worker ends -/

/-- Where a worker goes when its work ends. -/
def afterWork (outcome : WorkOutcome) : WorkerState :=
  if outcome = .cancelled then .done .cancelled else .waiting

theorem busyId_afterWork (u : Text) (outcome : WorkOutcome) : busyId (some ⟨u, afterWork outcome⟩) = [] := by
  cases outcome <;> rfl

/-- The queue after the work of busy worker `i` ended. -/
def finishedQueue (q : InMemoryTaskQueue W) (i : ℕ) (u : Text) (id : Uuid) (r : TaskRecord W) (a : AsyncQueue)
    (outcome : WorkOutcome) (now : ℕ) : InMemoryTaskQueue W :=
  { q with
    records := (evict q.maxCompletedRecords (q.completedOrder ++ [id])
      (q.records.set id (finishRecord r outcome now))).2
    completedOrder := (q.completedOrder ++ [id]).drop
      ((q.completedOrder ++ [id]).length - q.maxCompletedRecords)
    queues := q.queues.set u a.taskDone
    tasks := q.tasks.set i ⟨u, afterWork outcome⟩ }

/-- All that the end of a work item can do. -/
theorem Invariant.workerFinish_cases {q q' : InMemoryTaskQueue W} {evs ev : List TaskEvent} (h : Invariant q evs)
    {i now : ℕ} {outcome : WorkOutcome} (hs : q.workerFinish i outcome now = some (q', ev)) :
    ∃ u id r a, q.tasks[i]? = some ⟨u, .busy id⟩ ∧ q.records.get? id = some r ∧ r.status = .running ∧
      r.userId = u ∧ q.queues.get? u = some a ∧ ev = [.finished u id outcome] ∧
      q' = q.finishedQueue i u id r a outcome now := by
  unfold workerFinish at hs
  split at hs
  case h_2 => cases hs
  case h_1 u id hi =>
    have hrun : q.runningIds u = [id] := h.current hi rfl
    obtain ⟨r, hr, hrs, hru⟩ := h.runningRecord u id (by simp [hrun])
    obtain ⟨a, ha⟩ := h.served u i (h.registered i _ hi rfl)
    refine ⟨u, id, r, a, hi, hr, hrs, hru, ha, ?_⟩
    simp only [hr, taskDone, retainCompleted, ha, setWorker, Option.some.injEq, Prod.mk.injEq] at hs
    obtain ⟨rfl, rfl⟩ := hs
    refine ⟨rfl, ?_⟩
    simp only [finishedQueue, evict_fst, afterWork]

section finish

variable {q : InMemoryTaskQueue W} {evs : List TaskEvent} {i now : ℕ} {u : Text} {id : Uuid} {r : TaskRecord W}
  {a : AsyncQueue} {outcome : WorkOutcome}

theorem finishedQueue_queuedIds (ha : q.queues.get? u = some a) (v : Text) :
    (q.finishedQueue i u id r a outcome now).queuedIds v = q.queuedIds v := by
  rw [queuedIds_set (q := q) (u := u) (a := a.taskDone) rfl]
  split_ifs with huv
  · rw [← huv, queuedIds_eq ha]
    rfl
  · rfl

theorem WorkersServe.finishedQueue_runningIds (h : WorkersServe q) (hi : q.tasks[i]? = some ⟨u, .busy id⟩) (v : Text) :
    (q.finishedQueue i u id r a outcome now).runningIds v = if u = v then [] else q.runningIds v := by
  rw [h.runningIds_setWorker (q.finishedQueue i u id r a outcome now) (afterWork outcome) hi rfl rfl rfl,
    busyId_afterWork]

theorem Invariant.finish_ordered (h : Invariant q evs) (hn : (acceptedIds evs).Nodup)
    (hi : q.tasks[i]? = some ⟨u, .busy id⟩) (ha : q.queues.get? u = some a) :
    TasksOrdered (q.finishedQueue i u id r a outcome now) (evs ++ [.finished u id outcome]) := by
  obtain ⟨hacc, hst, hfin⟩ := pairs_finished evs u id outcome
  have hbusy : q.runningIds u = [id] := h.current hi rfl
  have hnew : id ∉ finishedIds evs := h.pending_not_finished hn (.inl (by rw [hbusy]; exact List.mem_cons_self ..))
  have hfinIds : finishedIds (evs ++ [.finished u id outcome]) = finishedIds evs ++ [id] := by
    simp [finishedIds, hfin]
  refine ⟨fun v => ?_, fun v => ?_, ?_, ?_⟩
  · rw [hacc, hst, finishedQueue_queuedIds ha, h.order]
  · rw [hst, hfin, h.finishedQueue_runningIds hi, ofUser_append, ofUser_singleton, h.active]
    split_ifs with huv
    · rw [← huv, hbusy, List.append_nil]
    · rw [List.append_nil]
  · rw [hfinIds]
    exact List.Nodup.append h.finishedOnce (List.nodup_singleton id) (by simpa using hnew)
  · rw [hfinIds, finishedQueue]
    dsimp only
    rw [h.retained, drop_concat_drop]

/-- What `_retain_completed` forgets of the kept ids and the one that ended. -/
def forgotten (q : InMemoryTaskQueue W) (id : Uuid) : List Uuid :=
  (q.completedOrder ++ [id]).take ((q.completedOrder ++ [id]).length - q.maxCompletedRecords)

theorem forgotten_append_kept (q : InMemoryTaskQueue W) (i : ℕ) (u : Text) (id : Uuid) (r : TaskRecord W)
    (a : AsyncQueue) (outcome : WorkOutcome) (now : ℕ) :
    q.forgotten id ++ (q.finishedQueue i u id r a outcome now).completedOrder = q.completedOrder ++ [id] :=
  List.take_append_drop ..

theorem finishedQueue_get? (id' : Uuid) : (q.finishedQueue i u id r a outcome now).records.get? id' =
    if id' ∈ q.forgotten id then none
    else if id = id' then some (finishRecord r outcome now) else q.records.get? id' := by
  rw [finishedQueue, evict_get?, Dict.get?_set, forgotten]

/-- The task that ended is not forgotten, and an id is kept or forgotten but not both. -/
theorem Invariant.forgotten_disjoint (h : Invariant q evs) (hnew : id ∉ finishedIds evs) :
    id ∉ q.forgotten id ∧
      ∀ id' ∈ (q.finishedQueue i u id r a outcome now).completedOrder, id' ∉ q.forgotten id := by
  have hnodup : (q.completedOrder ++ [id]).Nodup := by
    refine List.Nodup.append ?_ (List.nodup_singleton id) ?_
    · rw [h.retained]
      exact h.finishedOnce.sublist (List.drop_sublist ..)
    · simpa using fun hk => hnew (h.kept_finished hk)
  have hdisjoint : ∀ id' ∈ (q.finishedQueue i u id r a outcome now).completedOrder, id' ∉ q.forgotten id := by
    intro id' hkept hforgotten
    rw [← forgotten_append_kept q i u id r a outcome now] at hnodup
    exact (List.nodup_append.mp hnodup).2.2 id' hforgotten id' hkept rfl
  refine ⟨hdisjoint id ?_, hdisjoint⟩
  have hpos := q.maxCompletedRecords_pos
  rw [finishedQueue]
  dsimp only
  rw [List.drop_append_of_le_length (by simp; omega)]
  exact List.mem_append_right _ (List.mem_singleton_self id)

theorem Invariant.finish_placed (h : Invariant q evs) (hn : (acceptedIds evs).Nodup)
    (hi : q.tasks[i]? = some ⟨u, .busy id⟩) (hr : q.records.get? id = some r) (ha : q.queues.get? u = some a)
    (id' : Uuid) : Placed (q.finishedQueue i u id r a outcome now) (evs ++ [.finished u id outcome]) id' := by
  obtain ⟨hpairs, -, -⟩ := pairs_finished evs u id outcome
  have hqueued : ∀ v, (q.finishedQueue i u id r a outcome now).queuedIds v = q.queuedIds v :=
    finishedQueue_queuedIds ha
  have hrunning : ∀ v, (q.finishedQueue i u id r a outcome now).runningIds v = if u = v then [] else q.runningIds v :=
    h.finishedQueue_runningIds hi
  have hbusy : q.runningIds u = [id] := h.current hi rfl
  have hmem : id ∈ q.runningIds u := by simp [hbusy]
  have hnew : id ∉ finishedIds evs := h.pending_not_finished hn (.inl hmem)
  obtain ⟨hkeepsIt, hdisjoint⟩ : id ∉ q.forgotten id ∧
      ∀ id' ∈ (q.finishedQueue i u id r a outcome now).completedOrder, id' ∉ q.forgotten id :=
    h.forgotten_disjoint hnew
  have hkept : ∀ id', id' ∉ q.forgotten id →
      (id' ∈ (q.finishedQueue i u id r a outcome now).completedOrder ↔ id' ∈ q.completedOrder ∨ id' = id) := by
    intro id' hnot
    rw [← List.mem_singleton (a := id') (b := id), ← List.mem_append, ← forgotten_append_kept q i u id r a outcome now,
      List.mem_append, or_iff_right hnot]
  by_cases hid' : id = id'
  · -- the id no longer runs and is the last one kept
    subst hid'
    obtain ⟨hfinished, htask, huser⟩ := finishRecord_fields r outcome now
    obtain ⟨htask₀, hacc⟩ := (h.placed id).recorded r hr
    obtain ⟨r', hr', hrs, -⟩ := h.runningRecord u id hmem
    obtain rfl : r = r' := Option.some.inj (hr.symm.trans hr')
    have hunqueued : ∀ v, id ∉ q.queuedIds v := by
      intro v hv
      obtain ⟨r', hr', hs, -⟩ := h.queuedRecord v id hv
      obtain rfl : r = r' := Option.some.inj (hr.symm.trans hr')
      rw [hrs] at hs
      cases hs
    have hended : (finishRecord r outcome now).status ≠ .queued ∧ (finishRecord r outcome now).status ≠ .running := by
      constructor <;> intro hs <;> simp [hs, TaskStatus.isFinished] at hfinished
    refine .of_record (r := finishRecord r outcome now) ?_ (htask.trans htask₀) (by rw [hpairs, huser]; exact hacc)
      (fun v => ?_) (fun v => ?_) ?_
    · rw [finishedQueue_get?, if_neg hkeepsIt, if_pos rfl]
    · simp [hqueued, hunqueued, hended.1]
    · rw [hrunning]
      have hnot : id ∉ if u = v then [] else q.runningIds v := by
        split_ifs with huv
        · exact List.not_mem_nil
        · exact fun hv => huv (h.pending_user hn (.inl hmem) (.inl hv))
      simp [hnot, hended.2]
    · simp [hkept id hkeepsIt, hfinished]
  · by_cases hforgotten : id' ∈ q.forgotten id
    · -- a kept task is forgotten, record and all
      have hold : id' ∈ q.completedOrder := by
        have hin := List.mem_append.mp (List.mem_of_mem_take hforgotten)
        exact hin.resolve_right fun hmem => hid' (List.mem_singleton.mp hmem).symm
      have hfinished := h.kept_finished hold
      refine .of_none ?_ (fun v hv => ?_) (fun v hv => ?_) fun hk => hdisjoint id' hk hforgotten
      · rw [finishedQueue_get?, if_pos hforgotten]
      · exact h.pending_not_finished hn (.inr (hqueued v ▸ hv)) hfinished
      · rw [hrunning] at hv
        split_ifs at hv
        · cases hv
        · exact h.pending_not_finished hn (.inl hv) hfinished
    · refine (h.placed id').frame ?_ (fun v => by rw [hqueued]) (fun v => ?_) ?_ fun v hv => hpairs ▸ hv
      · rw [finishedQueue_get?, if_neg hforgotten, if_neg hid']
      · rw [hrunning]
        split_ifs with huv
        · simp [← huv, hbusy, Ne.symm hid']
        · rfl
      · rw [hkept id' hforgotten, or_iff_left (Ne.symm hid')]

/-- The end of a work item keeps the invariant. -/
theorem Invariant.finish (h : Invariant q evs) (hn : (acceptedIds evs).Nodup) (hi : q.tasks[i]? = some ⟨u, .busy id⟩)
    (hr : q.records.get? id = some r) (ha : q.queues.get? u = some a) (outcome : WorkOutcome) :
    Invariant (q.finishedQueue i u id r a outcome now) (evs ++ [.finished u id outcome]) := by
  have hbusy : q.runningIds u = [id] := h.current hi rfl
  have hcount := h.counted u a ha
  rw [hbusy, List.length_singleton] at hcount
  refine {
    toWorkersServe := ?_
    toTasksOrdered := h.finish_ordered hn hi ha
    toCloseDrains := ?_
    placed := h.finish_placed hn hi hr ha
    noMissing := fun id' => by simpa using h.noMissing id' }
  · refine h.setWorker _ (afterWork outcome) hi rfl rfl rfl (b := a.taskDone) rfl ?_
    simp only [AsyncQueue.taskDone, busyId_afterWork, List.length_nil]
    omega
  · refine h.toCloseDrains.step rfl rfl (stopping_of_set (b := a.taskDone) rfl ha rfl fun x hx => hx) fun v hv => ?_
    refine ⟨(finishedQueue_queuedIds ha v).trans hv.1, ?_⟩
    rw [h.finishedQueue_runningIds hi]
    split_ifs
    · rfl
    · exact hv.2

end finish

end InMemoryTaskQueue

end TenantRag

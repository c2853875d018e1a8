import TenantRag.Services.TaskQueueOrder

/-!
# The task queue: pending work

The work a user's queue still owes, the running item first: what `enqueue` adds at
the end and the end of a work item takes from the front.

## What is proved

* `WellUsed` — the queue after some run in which every accepted task had one of the
  given ids, with a lemma for each step.
* `accept_pendingWorks`, `workerGet_pendingWorks`, `workerFinish_pendingWorks` — the
  pending work is a first-in first-out list.
* `record_cases` — where the record of a task behind a step comes from.
-/

namespace TenantRag

namespace InMemoryTaskQueue

variable {W : Type}

/-- The ids of a user's running and queued tasks, the running one first. -/
def pendingIds (q : InMemoryTaskQueue W) (u : Text) : List Uuid := q.runningIds u ++ q.queuedIds u

/-- The work of a task that has a record. -/
def workOf (q : InMemoryTaskQueue W) (id : Uuid) : Option W := (q.records.get? id).map TaskRecord.workFactory

/-- The work of a user's running and queued tasks, the running one first. -/
def pendingWorks (q : InMemoryTaskQueue W) (u : Text) : List W := (q.pendingIds u).filterMap q.workOf

/-- The queue after some run whose tasks were accepted under different ids, all of them drawn. -/
def WellUsed (q : InMemoryTaskQueue W) (drawn : List Uuid) : Prop :=
  ∃ evs, Invariant q evs ∧ (acceptedIds evs).Nodup ∧ ∀ id ∈ acceptedIds evs, id ∈ drawn

theorem WellUsed.fresh (m : ℕ) (hm : 0 < m) (drawn : List Uuid) :
    WellUsed (InMemoryTaskQueue.fresh m hm : InMemoryTaskQueue W) drawn := by
  refine ⟨[], Invariant.new (m := (m : ℤ)) ?_, List.nodup_nil, by simp [acceptedIds, acceptedPairs]⟩
  have hpos : m ≠ 0 := by omega
  simp [InMemoryTaskQueue.new, hpos]

theorem WellUsed.mono {q : InMemoryTaskQueue W} {drawn drawn' : List Uuid} (h : WellUsed q drawn)
    (hsub : ∀ id ∈ drawn, id ∈ drawn') : WellUsed q drawn' := by
  obtain ⟨evs, hi, hn, hall⟩ := h
  exact ⟨evs, hi, hn, fun id hid => hsub id (hall id hid)⟩

theorem WellUsed.accept {q : InMemoryTaskQueue W} {drawn : List Uuid} (h : WellUsed q drawn) {u op : Text} {w : W}
    {id : Uuid} {now : ℕ} (hacc : q.accepting = true) (hid : id ∉ drawn) :
    WellUsed (q.accept u op w id now) (drawn ++ [id]) := by
  obtain ⟨evs, hi, hn, hall⟩ := h
  have hnew : id ∉ acceptedIds evs := fun hmem => hid (hall id hmem)
  have hone : acceptedIds [TaskEvent.accepted u id] = [id] := rfl
  refine ⟨evs ++ [.accepted u id], hi.accept hacc hnew, ?_, fun id' hid' => ?_⟩
  · rw [acceptedIds_append, hone]
    exact hn.append (List.nodup_singleton id) (by simpa using hnew)
  · rw [acceptedIds_append, hone, List.mem_append] at hid'
    rw [List.mem_append]
    exact hid'.imp_left (hall id')

theorem WellUsed.step {pattern : UserIdPattern} {q q' : InMemoryTaskQueue W} {drawn : List Uuid} (h : WellUsed q drawn)
    {a : Action W} {ev : List TaskEvent} (hs : (machine W pattern).step q a = some (q', ev))
    (hev : acceptedIds ev = []) : WellUsed q' drawn := by
  obtain ⟨evs, hi, hn, hall⟩ := h
  have hsame : acceptedIds (evs ++ ev) = acceptedIds evs := by rw [acceptedIds_append, hev, List.append_nil]
  exact ⟨evs ++ ev, hi.step hs (hsame ▸ hn), hsame ▸ hn, fun id hid => hall id (hsame ▸ hid)⟩

/-- A step that accepts nothing creates no worker. -/
theorem WellUsed.workers_step {pattern : UserIdPattern} {q q' : InMemoryTaskQueue W} {drawn : List Uuid}
    (h : WellUsed q drawn) {a : Action W} {ev : List TaskEvent} (hs : (machine W pattern).step q a = some (q', ev))
    (hev : acceptedIds ev = []) {u : Text} (hu : ∀ x ∈ q.tasks, x.userId = u) : ∀ x ∈ q'.tasks, x.userId = u := by
  obtain ⟨evs, hi, -, -⟩ := h
  have hset : ∀ {i : ℕ} {v : Text} {st st' : WorkerState}, q.tasks[i]? = some ⟨v, st⟩ →
      ∀ x ∈ q.tasks.set i ⟨v, st'⟩, x.userId = u := by
    intro i v st st' hw x hx
    rcases List.mem_or_eq_of_mem_set hx with hx | rfl
    · exact hu x hx
    · exact (hu ⟨v, st⟩ (List.mem_of_getElem? hw) : v = u)
  cases a with
  | enqueue v op w id now =>
    simp only [machine] at hs
    split at hs
    · cases hs
      exact hu
    · cases hs
      cases hev
  | workerGet i now =>
    obtain ⟨v, item, items, n, hw, -, ⟨-, -, rfl⟩ | ⟨id, -, -, -, rfl⟩ | ⟨id, r, -, -, -, rfl⟩⟩ := workerGet_cases hs
    · exact hset hw
    · exact hset hw
    · exact hset hw
  | workerFinish i outcome now =>
    obtain ⟨v, id, r, a, hw, -, -, -, -, -, rfl⟩ := hi.workerFinish_cases hs
    exact hset hw
  | closeBegin => exact (close_frame rfl hs).2.2.1 ▸ hu
  | closeJoined => exact (close_frame rfl hs).2.2.1 ▸ hu
  | closeStop => exact (close_frame rfl hs).2.2.1 ▸ hu
  | closeEnd => exact (close_frame rfl hs).2.2.1 ▸ hu

/-- A step that accepts nothing creates no record. -/
theorem WellUsed.records_step {pattern : UserIdPattern} {q q' : InMemoryTaskQueue W} {drawn : List Uuid}
    (h : WellUsed q drawn) {a : Action W} {ev : List TaskEvent} (hs : (machine W pattern).step q a = some (q', ev))
    (hev : acceptedIds ev = []) {id : Uuid} (hid : q.records.get? id = none) : q'.records.get? id = none := by
  obtain ⟨evs, hi, -, -⟩ := h
  have hset : ∀ {id' : Uuid} {r r' : TaskRecord W}, q.records.get? id' = some r →
      (q.records.set id' r').get? id = none := by
    intro id' r r' hr
    rw [Dict.get?_set, if_neg, hid]
    rintro rfl
    rw [hid] at hr
    cases hr
  cases a with
  | enqueue v op w id now =>
    simp only [machine] at hs
    split at hs
    · cases hs
      exact hid
    · cases hs
      cases hev
  | workerGet i now =>
    obtain ⟨v, item, items, n, -, -, ⟨-, -, rfl⟩ | ⟨id, -, -, -, rfl⟩ | ⟨id, r, -, hr, -, rfl⟩⟩ := workerGet_cases hs
    · exact hid
    · exact hid
    · exact hset hr
  | workerFinish i outcome now =>
    obtain ⟨v, id, r, a, -, hr, -, -, -, -, rfl⟩ := hi.workerFinish_cases hs
    rw [finishedQueue, evict_get?]
    split_ifs
    · rfl
    · exact hset hr
  | closeBegin => exact (close_frame rfl hs).2.1 ▸ hid
  | closeJoined => exact (close_frame rfl hs).2.1 ▸ hid
  | closeStop => exact (close_frame rfl hs).2.1 ▸ hid
  | closeEnd => exact (close_frame rfl hs).2.1 ▸ hid

/-! ### First in, first out -/

/-- The item a busy worker works on is the first pending one of its user. -/
theorem WellUsed.busy_pendingWorks {q : InMemoryTaskQueue W} {drawn : List Uuid} (h : WellUsed q drawn) {i : ℕ}
    {u : Text} {id : Uuid} {w : W} (hi : q.tasks[i]? = some ⟨u, .busy id⟩) (hw : q.workOf id = some w) :
    ∃ rest, q.pendingWorks u = w :: rest := by
  obtain ⟨evs, hinv, -, -⟩ := h
  have hrun : q.runningIds u = [id] := hinv.current hi rfl
  exact ⟨_, by rw [pendingWorks, pendingIds, hrun, List.singleton_append, List.filterMap_cons_some hw]⟩

theorem filterMap_workOf {q q' : InMemoryTaskQueue W} {ids : List Uuid}
    (h : ∀ id ∈ ids, q'.workOf id = q.workOf id) : ids.filterMap q'.workOf = ids.filterMap q.workOf :=
  List.filterMap_congr h

theorem Invariant.pending_accepted {q : InMemoryTaskQueue W} {evs : List TaskEvent} (h : Invariant q evs) {v : Text}
    {id : Uuid} (hid : id ∈ q.pendingIds v) : id ∈ ofUser v (acceptedPairs evs) := by
  rcases List.mem_append.mp hid with hr | hq
  · exact h.running_accepted hr
  · exact h.queued_accepted hq

theorem WellUsed.accept_pendingWorks {q : InMemoryTaskQueue W} {drawn : List Uuid} (h : WellUsed q drawn)
    (u op : Text) (w : W) {id : Uuid} (now : ℕ) (hid : id ∉ drawn) (v : Text) :
    (q.accept u op w id now).pendingWorks v = if u = v then q.pendingWorks v ++ [w] else q.pendingWorks v := by
  obtain ⟨evs, hi, -, hall⟩ := h
  have hrec := (accept_fields q u op w id now).1
  have hsame : ∀ id' ∈ q.pendingIds v, (q.accept u op w id now).workOf id' = q.workOf id' := by
    intro id' hid'
    have hne : id ≠ id' := by
      rintro rfl
      exact hid (hall id (mem_acceptedIds (hi.pending_accepted hid')))
    rw [workOf, workOf, hrec, Dict.get?_set_ne _ _ hne]
  have hnew : (q.accept u op w id now).workOf id = some w := by
    rw [workOf, hrec, Dict.get?_set_self]
    rfl
  unfold pendingWorks
  rw [← filterMap_workOf hsame]
  simp only [pendingIds, hi.accept_runningIds u op w id now, accept_queuedIds]
  split_ifs with huv
  · subst huv
    rw [← List.append_assoc, List.filterMap_append, List.filterMap_cons_some hnew, List.filterMap_nil]
  · rfl

theorem WellUsed.workerGet_pendingWorks {q q' : InMemoryTaskQueue W} {drawn : List Uuid} (h : WellUsed q drawn)
    {i now : ℕ} {ev : List TaskEvent} (hs : q.workerGet i now = some (q', ev)) (v : Text) :
    q'.pendingWorks v = q.pendingWorks v := by
  obtain ⟨evs, hi, hn, hall⟩ := h
  obtain ⟨u, item, items, n, hw, hq, ⟨rfl, -, rfl⟩ | ⟨id, rfl, hr, -, rfl⟩ | ⟨id, r, rfl, hr, -, rfl⟩⟩ :=
    workerGet_cases hs
  · unfold pendingWorks pendingIds
    rw [stoppedQueue_queuedIds hq, hi.stoppedQueue_runningIds hw]
    rfl
  · obtain ⟨r, hr', -⟩ := hi.queuedRecord u id (by simp [queuedIds_eq hq, QueueItem.taskId?])
    rw [hr] at hr'
    cases hr'
  · set q' := q.startedQueue i u id r items n now with hq'
    have hrun : q'.runningIds v = if u = v then [id] else q.runningIds v := hi.startedQueue_runningIds hw v
    have hque : q'.queuedIds v = if u = v then items.filterMap QueueItem.taskId? else q.queuedIds v :=
      startedQueue_queuedIds v
    have hidle : q.runningIds u = [] := hi.current hw rfl
    have hids : q'.pendingIds v = q.pendingIds v := by
      unfold pendingIds
      rw [hrun, hque]
      split_ifs with huv
      · subst huv
        rw [hidle, queuedIds_eq hq]
        rfl
      · rfl
    have hwork : ∀ id', q'.workOf id' = q.workOf id' := by
      intro id'
      simp only [workOf, hq', startedQueue, Dict.get?_set]
      split_ifs with hid'
      · rw [← hid', hr]
        rfl
      · rfl
    unfold pendingWorks
    rw [hids]
    exact filterMap_workOf fun id' _ => hwork id'

/-- The running work, which a busy worker works on, is the first pending one. -/
theorem WellUsed.workerFinish_pendingWorks {q q' : InMemoryTaskQueue W} {drawn : List Uuid} (h : WellUsed q drawn)
    {i now : ℕ} {outcome : WorkOutcome} {ev : List TaskEvent} (hs : q.workerFinish i outcome now = some (q', ev)) :
    ∃ u id w, q.tasks[i]? = some ⟨u, .busy id⟩ ∧ q.workOf id = some w ∧ q.pendingWorks u = w :: q'.pendingWorks u ∧
      ∀ v, u ≠ v → q'.pendingWorks v = q.pendingWorks v := by
  obtain ⟨evs, hi, hn, hall⟩ := h
  obtain ⟨u, id, r, a, hw, hr, hrs, hru, ha, -, rfl⟩ := hi.workerFinish_cases hs
  have hbusy : q.runningIds u = [id] := hi.current hw rfl
  have hmem : id ∈ q.runningIds u := by simp [hbusy]
  have hrun : ∀ v, (q.finishedQueue i u id r a outcome now).runningIds v = if u = v then [] else q.runningIds v :=
    hi.finishedQueue_runningIds hw
  have hque : ∀ v, (q.finishedQueue i u id r a outcome now).queuedIds v = q.queuedIds v := finishedQueue_queuedIds ha
  -- the records of the other pending tasks are not evicted
  have hkeep : ∀ v id', id' ∈ q.pendingIds v → id ≠ id' →
      (q.finishedQueue i u id r a outcome now).workOf id' = q.workOf id' := by
    intro v id' hid' hne
    have hnot : id' ∉ finishedIds evs := hi.pending_not_finished hn (List.mem_append.mp hid')
    rw [workOf, workOf, finishedQueue, evict_get?, if_neg, Dict.get?_set_ne _ _ hne]
    intro hmem'
    rcases List.mem_append.mp (List.mem_of_mem_take hmem') with hk | hk
    · exact hnot (hi.kept_finished hk)
    · exact hne (List.mem_singleton.mp hk).symm
  have hqueuedNe : ∀ v id', id' ∈ q.queuedIds v → id ≠ id' := by
    rintro v id' hid' rfl
    obtain ⟨r₁, hr₁, hs₁, -⟩ := hi.runningRecord u id hmem
    obtain ⟨r₂, hr₂, hs₂, -⟩ := hi.queuedRecord v id hid'
    rw [hr₁, Option.some.injEq] at hr₂
    rw [hr₂, hs₂] at hs₁
    cases hs₁
  refine ⟨u, id, r.workFactory, hw, by rw [workOf, hr]; rfl, ?_, fun v huv => ?_⟩
  · unfold pendingWorks pendingIds
    rw [hrun, hque, if_pos rfl, hbusy, List.singleton_append, List.nil_append,
      List.filterMap_cons_some (show q.workOf id = some r.workFactory by rw [workOf, hr]; rfl)]
    congr 1
    refine (filterMap_workOf fun id' hid' => hkeep u id' (List.mem_append_right _ hid') (hqueuedNe u id' hid')).symm
  · unfold pendingWorks
    have hids : (q.finishedQueue i u id r a outcome now).pendingIds v = q.pendingIds v := by
      unfold pendingIds
      rw [hrun, hque, if_neg huv]
    rw [hids]
    refine filterMap_workOf fun id' hid' => hkeep v id' hid' ?_
    rintro rfl
    exact huv (user_unique hn (hi.running_accepted hmem) (hi.pending_accepted hid'))

/-- The stages of `close` leave pending work alone. -/
theorem WellUsed.close_pendingWorks {pattern : UserIdPattern} {q q' : InMemoryTaskQueue W} {drawn : List Uuid}
    (h : WellUsed q drawn) {a : Action W} {ev : List TaskEvent} (ha : a.isClose = true)
    (hs : (machine W pattern).step q a = some (q', ev)) (v : Text) : q'.pendingWorks v = q.pendingWorks v := by
  obtain ⟨evs, hi, -, -⟩ := h
  have hstage := hi.close_stage ha hs
  have hids : q'.pendingIds v = q.pendingIds v := by rw [pendingIds, pendingIds, hstage.queuedIds, hstage.runningIds]
  rw [pendingWorks, pendingWorks, hids]
  exact filterMap_workOf fun id _ => by rw [workOf, workOf, (close_frame ha hs).2.1]

/-! ### Records -/

/-- Where a record behind a step comes from. -/
inductive RecordFrom (q : InMemoryTaskQueue W) (a : Action W) (ev : List TaskEvent) (id : Uuid) (r : TaskRecord W) : Prop where
  /-- It was accepted. -/
  | accepted (user operation : Text) (now : ℕ) (enqueued : a = .enqueue user operation r.workFactory id now)
      (userId : r.userId = user) (status : r.status = .queued)
  /-- It was there, and may have started. -/
  | kept (before : TaskRecord W) (found : q.records.get? id = some before) (work : r.workFactory = before.workFactory)
      (userId : r.userId = before.userId) (status : r.status = before.status ∨ r.status = .running)
  /-- It was there, and its work ended. -/
  | finished (before : TaskRecord W) (user : Text) (outcome : WorkOutcome) (found : q.records.get? id = some before)
      (work : r.workFactory = before.workFactory) (userId : r.userId = before.userId) (ended : .finished user id outcome ∈ ev)
      (success : r.status = .succeeded ↔ outcome = .success)

theorem finishRecord_succeeded (r : TaskRecord W) (outcome : WorkOutcome) (now : ℕ) :
    (finishRecord r outcome now).status = .succeeded ↔ outcome = .success := by
  cases outcome <;> simp [finishRecord]

theorem finishRecord_work (r : TaskRecord W) (outcome : WorkOutcome) (now : ℕ) :
    (finishRecord r outcome now).workFactory = r.workFactory := by
  cases outcome <;> rfl

theorem Invariant.record_cases {pattern : UserIdPattern} {q q' : InMemoryTaskQueue W} {evs ev : List TaskEvent} {a : Action W}
    (h : Invariant q evs) (hs : (machine W pattern).step q a = some (q', ev)) {id : Uuid} {r : TaskRecord W}
    (hr : q'.records.get? id = some r) : RecordFrom q a ev id r := by
  have hsame : q'.records = q.records → RecordFrom q a ev id r := fun heq => .kept r (heq ▸ hr) rfl rfl (.inl rfl)
  cases a with
  | enqueue user op w id' now =>
    simp only [machine] at hs
    split at hs
    · cases hs
      exact hsame rfl
    case h_2 q₁ he =>
      cases hs
      unfold InMemoryTaskQueue.enqueue at he
      split at he
      · cases he
      case h_2 user' huser =>
        obtain rfl := validatedUserId_eq huser
        split at he
        · cases he
        case h_2 op' hop =>
          split_ifs at he
          cases he
          rw [(accept_fields q user' op' w id' now).1, Dict.get?_set] at hr
          split_ifs at hr with hid
          · subst hid
            cases hr
            exact .accepted user' op now rfl rfl rfl
          · exact .kept r hr rfl rfl (.inl rfl)
  | workerGet i now =>
    obtain ⟨v, item, items, n, -, -, ⟨-, -, rfl⟩ | ⟨id', -, -, -, rfl⟩ | ⟨id', r₀, -, hr₀, -, rfl⟩⟩ := workerGet_cases hs
    · exact hsame rfl
    · exact hsame rfl
    · rw [startedQueue, Dict.get?_set] at hr
      split_ifs at hr with hid
      · subst hid
        cases hr
        exact .kept r₀ hr₀ rfl rfl (.inr rfl)
      · exact .kept r hr rfl rfl (.inl rfl)
  | workerFinish i outcome now =>
    obtain ⟨v, id', r₀, b, -, hr₀, -, -, -, rfl, rfl⟩ := h.workerFinish_cases hs
    rw [finishedQueue, evict_get?] at hr
    split_ifs at hr
    rw [Dict.get?_set] at hr
    split_ifs at hr with hid
    · subst hid
      cases hr
      exact .finished r₀ v outcome hr₀ (finishRecord_work r₀ outcome now) (finishRecord_fields r₀ outcome now).2.2
        List.mem_cons_self (finishRecord_succeeded r₀ outcome now)
    · exact .kept r hr rfl rfl (.inl rfl)
  | closeBegin => exact hsame (close_frame rfl hs).2.1
  | closeJoined => exact hsame (close_frame rfl hs).2.1
  | closeStop => exact hsame (close_frame rfl hs).2.1
  | closeEnd => exact hsame (close_frame rfl hs).2.1

end InMemoryTaskQueue

end TenantRag

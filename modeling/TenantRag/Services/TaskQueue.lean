import TenantRag.Foundations.Dict
import TenantRag.Foundations.Machine
import TenantRag.Mappings.Common

/-!
# The background task queue

`backend/task_queue.py`: one FIFO queue of work per user, drained by one worker
task per user, with the outcome of every work item kept until newer outcomes
push it out.

## The model

The state is the `InMemoryTaskQueue` object together with the asyncio objects it
holds: its queues, each with its count of unfinished items, and every worker
task it ever created, the finished ones included, so that a worker that died and
the one that replaced it are both there. A step is what runs between two
suspensions: a call of `enqueue` (whose `await queue.put(...)` on an unbounded
queue does not suspend), a worker receiving an item, the work of a busy worker
ending, and the stages of `close`: its start, the return of each `queue.join()`,
the stop markers and its end. Any number of calls of `close` may be on their way
together. The environment chooses the order of the steps, the outcome of every
work item, the identifiers `uuid4` gives and the time. A work item is opaque: its
type is a parameter.

A work item ends normally, with an `Exception` or with `asyncio.CancelledError`.
A fatal `BaseException`, which ends the process, is left out, and so are log
records and `wait`, which only reads.
-/

namespace TenantRag

/-- `_TaskRecord.status`. -/
inductive TaskStatus where
  /-- `"queued"`. -/
  | queued
  /-- `"running"`. -/
  | running
  /-- `"succeeded"`. -/
  | succeeded
  /-- `"failed"`. -/
  | failed
  deriving DecidableEq

/-- `status in {"succeeded", "failed"}`. -/
def TaskStatus.isFinished : TaskStatus → Bool
  | .succeeded | .failed => true
  | _ => false

/-- How a work item ends. -/
inductive WorkOutcome where
  /-- Its awaitable returns. -/
  | success
  /-- It raises an `Exception`, or the factory does not return an awaitable. -/
  | exception
  /-- It ends with `asyncio.CancelledError`. -/
  | cancelled
  deriving DecidableEq

/-- `TaskSnapshot`. -/
structure TaskSnapshot where
  /-- `task_id`. -/
  taskId : Uuid
  /-- `user_id`. -/
  userId : Text
  /-- `operation`. -/
  operation : Text
  /-- `status`. -/
  status : TaskStatus
  /-- `error_code`. -/
  errorCode : Option String
  /-- `error`. -/
  error : Option String
  /-- `created_at`. -/
  createdAt : ℕ
  /-- `started_at`. -/
  startedAt : Option ℕ
  /-- `finished_at`. -/
  finishedAt : Option ℕ
  deriving DecidableEq

/-- `_TaskRecord`: a snapshot, the work and the event that is set when the work ends. -/
structure TaskRecord (W : Type) extends TaskSnapshot where
  /-- `work_factory`. -/
  workFactory : W
  /-- Whether the event `completed` is set. -/
  completed : Bool

/-- `_TaskRecord.snapshot()`. -/
def TaskRecord.snapshot {W : Type} (r : TaskRecord W) : TaskSnapshot := r.toTaskSnapshot

/-- What a queue holds. -/
inductive QueueItem where
  /-- The id of an accepted task. -/
  | task (taskId : Uuid)
  /-- The marker `_STOP`. -/
  | stop
  deriving DecidableEq

/-- The task id an item carries. -/
def QueueItem.taskId? : QueueItem → Option Uuid
  | .task id => some id
  | .stop => none

/-- `asyncio.Queue`: its items and its count of unfinished ones. -/
structure AsyncQueue where
  /-- The items, the next first. -/
  items : List QueueItem
  /-- How many items were put and not yet reported by `task_done`. -/
  unfinished : ℕ
  deriving DecidableEq

/-- `asyncio.Queue()`. -/
def AsyncQueue.new : AsyncQueue := ⟨[], 0⟩

/-- `queue.put(item)`, on a queue without a bound. -/
def AsyncQueue.put (a : AsyncQueue) (item : QueueItem) : AsyncQueue :=
  ⟨a.items ++ [item], a.unfinished + 1⟩

/-- `queue.task_done()`. -/
def AsyncQueue.taskDone (a : AsyncQueue) : AsyncQueue := { a with unfinished := a.unfinished - 1 }

/-- Why a worker task finished. -/
inductive WorkerExit where
  /-- It received the stop marker. -/
  | stopped
  /-- Its work ended with `asyncio.CancelledError`. -/
  | cancelled
  /-- The task id it received had no record. -/
  | keyError
  deriving DecidableEq

/-- Where a worker task is. -/
inductive WorkerState where
  /-- Before or at `await queue.get()`. -/
  | waiting
  /-- At `await work` for the given task. -/
  | busy (taskId : Uuid)
  /-- Finished. -/
  | done (exit : WorkerExit)
  deriving DecidableEq

/-- One worker task. -/
structure Worker where
  /-- The user whose queue it drains. -/
  userId : Text
  /-- Where it is. -/
  state : WorkerState
  deriving DecidableEq

/-- `worker.done()`. -/
def Worker.isDone (w : Worker) : Bool :=
  match w.state with
  | .done _ => true
  | _ => false

/-- Where a call of `close` is. -/
inductive ClosePhase where
  /-- Awaiting `queue.join()` of the queues it found: those of the given users have not
  returned. -/
  | joining (users : List Text)
  /-- Awaiting the worker tasks. -/
  | gathering
  /-- Returned or raised. -/
  | closed
  deriving DecidableEq

/-- `InMemoryTaskQueue`, with the worker tasks it created. -/
structure InMemoryTaskQueue (W : Type) where
  /-- `_records`. -/
  records : Dict Uuid (TaskRecord W)
  /-- `_completed_order`, the oldest first. -/
  completedOrder : List Uuid
  /-- `_queues`. -/
  queues : Dict Text AsyncQueue
  /-- `_workers`: the place in `tasks` of each user's current worker. -/
  workers : Dict Text ℕ
  /-- Every worker task, in the order of creation. -/
  tasks : List Worker
  /-- `_max_completed_records`. -/
  maxCompletedRecords : ℕ
  /-- The constructor refuses other limits. -/
  maxCompletedRecords_pos : 0 < maxCompletedRecords
  /-- `_accepting`. -/
  accepting : Bool
  /-- The calls of `close`, in the order they were made. -/
  closers : List ClosePhase

/-- What an observer sees of the queue. -/
inductive TaskEvent where
  /-- `enqueue` returned the id. -/
  | accepted (userId : Text) (taskId : Uuid)
  /-- `enqueue` raised. -/
  | rejected (error : PyError)
  /-- A worker set the record's status to running and started the work. -/
  | started (userId : Text) (taskId : Uuid)
  /-- The work ended and its outcome was recorded. -/
  | finished (userId : Text) (taskId : Uuid) (outcome : WorkOutcome)
  /-- `self._records[...]` raised `KeyError` in a worker. -/
  | recordMissing (taskId : Uuid)
  deriving DecidableEq

namespace InMemoryTaskQueue

variable {W : Type}

/-- A queue nothing was done with. -/
def fresh (m : ℕ) (h : 0 < m) : InMemoryTaskQueue W where
  records := .empty
  completedOrder := []
  queues := .empty
  workers := .empty
  tasks := []
  maxCompletedRecords := m
  maxCompletedRecords_pos := h
  accepting := true
  closers := []

/-- `InMemoryTaskQueue(max_completed_records=m)`. -/
def new (m : ℤ) : Except PyError (InMemoryTaskQueue W) :=
  if h : m ≤ 0 then .error (valueError "max_completed_records must be greater than zero")
  else .ok (fresh m.toNat (by omega))

/-- `worker is None or worker.done()`, for the user's current worker. -/
def needsWorker (q : InMemoryTaskQueue W) (user : Text) : Bool :=
  match q.workers.get? user with
  | none => true
  | some i => (q.tasks[i]?).all Worker.isDone

/-- `self._workers[user] = asyncio.create_task(self._worker(user, queue))`. -/
def createWorker (q : InMemoryTaskQueue W) (user : Text) : InMemoryTaskQueue W :=
  { q with
    tasks := q.tasks ++ [⟨user, .waiting⟩]
    workers := q.workers.set user q.tasks.length }

/-- The record `enqueue` creates. -/
def newRecord (user operation : Text) (work : W) (taskId : Uuid) (now : ℕ) : TaskRecord W where
  taskId := taskId
  userId := user
  operation := operation
  status := .queued
  errorCode := none
  error := none
  createdAt := now
  startedAt := none
  finishedAt := none
  workFactory := work
  completed := false

/-- What `enqueue` does once its arguments are validated. -/
def accept (q : InMemoryTaskQueue W) (user operation : Text) (work : W) (taskId : Uuid) (now : ℕ) :
    InMemoryTaskQueue W :=
  let q₁ := { q with records := q.records.set taskId (newRecord user operation work taskId now) }
  let queue := (q₁.queues.get? user).getD .new
  let q₂ := if q₁.needsWorker user then q₁.createWorker user else q₁
  { q₂ with queues := q₂.queues.set user (queue.put (.task taskId)) }

/-- `enqueue(user_id, operation, work_factory)`, where `uuid4` gives `taskId`. -/
def enqueue (pattern : UserIdPattern) (q : InMemoryTaskQueue W) (userId operation : Text) (work : W)
    (taskId : Uuid) (now : ℕ) : Except PyError (InMemoryTaskQueue W) :=
  match validatedUserId pattern userId with
  | .error e => .error e
  | .ok user =>
      match requiredIdentifier operation "operation" with
      | .error e => .error e
      | .ok operationName =>
          if q.accepting then .ok (q.accept user operationName work taskId now)
          else .error (runtimeError "background task queue is shutting down")

/-- The loop of `_retain_completed`: forget the oldest outcomes beyond the limit. -/
def evict (limit : ℕ) : List Uuid → Dict Uuid (TaskRecord W) → List Uuid × Dict Uuid (TaskRecord W)
  | [], records => ([], records)
  | expired :: order, records =>
      if limit < (expired :: order).length then evict limit order (records.erase expired)
      else (expired :: order, records)

/-- `_retain_completed(task_id)`. -/
def retainCompleted (q : InMemoryTaskQueue W) (taskId : Uuid) : InMemoryTaskQueue W :=
  let kept := evict q.maxCompletedRecords (q.completedOrder ++ [taskId]) q.records
  { q with completedOrder := kept.1, records := kept.2 }

/-- `task_done` on the queue of a user. -/
def taskDone (q : InMemoryTaskQueue W) (user : Text) : InMemoryTaskQueue W :=
  match q.queues.get? user with
  | none => q
  | some a => { q with queues := q.queues.set user a.taskDone }

/-- Worker `i` goes to the given state. -/
def setWorker (q : InMemoryTaskQueue W) (i : ℕ) (w : Worker) : InMemoryTaskQueue W :=
  { q with tasks := q.tasks.set i w }

/-- The record of a task that starts. -/
def startRecord (r : TaskRecord W) (now : ℕ) : TaskRecord W :=
  { r with status := .running, startedAt := some now }

/-- The record of a task whose work ended. -/
def finishRecord (r : TaskRecord W) (outcome : WorkOutcome) (now : ℕ) : TaskRecord W :=
  match outcome with
  | .success => { r with status := .succeeded, finishedAt := some now, completed := true }
  | .exception =>
      { r with
        status := .failed
        errorCode := some "TASK_FAILED"
        error := some "Background operation failed. Retry the original operation."
        finishedAt := some now
        completed := true }
  | .cancelled =>
      { r with
        status := .failed
        errorCode := some "TASK_CANCELLED"
        error := some "Background operation was cancelled. Retry the original operation."
        finishedAt := some now
        completed := true }

/-- Worker `i` at `await queue.get()` receives the next item: a stop marker ends it, a
task id makes it look the record up, mark it running and start the work. -/
def workerGet (q : InMemoryTaskQueue W) (i now : ℕ) : Option (InMemoryTaskQueue W × List TaskEvent) :=
  match q.tasks[i]? with
  | some ⟨user, .waiting⟩ =>
      match q.queues.get? user with
      | some ⟨.stop :: items, unfinished⟩ =>
          let q₁ := { q with queues := q.queues.set user ⟨items, unfinished⟩ }
          some ((q₁.taskDone user).setWorker i ⟨user, .done .stopped⟩, [])
      | some ⟨.task id :: items, unfinished⟩ =>
          let q₁ := { q with queues := q.queues.set user ⟨items, unfinished⟩ }
          match q.records.get? id with
          | none =>
              some ((q₁.taskDone user).setWorker i ⟨user, .done .keyError⟩, [.recordMissing id])
          | some r =>
              let q₂ := { q₁ with records := q₁.records.set id (startRecord r now) }
              some (q₂.setWorker i ⟨user, .busy id⟩, [.started user id])
      | _ => none
  | _ => none

/-- The work of busy worker `i` ends: the outcome is recorded and retained, the queue is
told, and the worker goes on unless the work was cancelled. -/
def workerFinish (q : InMemoryTaskQueue W) (i : ℕ) (outcome : WorkOutcome) (now : ℕ) :
    Option (InMemoryTaskQueue W × List TaskEvent) :=
  match q.tasks[i]? with
  | some ⟨user, .busy id⟩ =>
      let q₁ :=
        match q.records.get? id with
        | none => q
        | some r => { q with records := q.records.set id (finishRecord r outcome now) }
      let state := if outcome = .cancelled then WorkerState.done .cancelled else .waiting
      some (((q₁.retainCompleted id).taskDone user).setWorker i ⟨user, state⟩,
        [.finished user id outcome])
  | _ => none

/-- `get(task_id, user_id)`. -/
def get (pattern : UserIdPattern) (q : InMemoryTaskQueue W) (taskId userId : Text) :
    Except PyError TaskSnapshot :=
  match requiredIdentifier taskId "task_id" with
  | .error e => .error e
  | .ok key =>
      match validatedUserId pattern userId with
      | .error e => .error e
      | .ok user =>
          match q.records.entries.find? fun e => e.1.str = key with
          | none => .error (keyError "task")
          | some (_, r) => if r.userId = user then .ok r.snapshot else .error (keyError "task")

/-! ### Closing -/

/-- `close()` up to its first suspension. -/
def closeBegin (q : InMemoryTaskQueue W) : InMemoryTaskQueue W :=
  if !q.accepting ∧ q.workers.keys = [] then { q with closers := q.closers ++ [.closed] }
  else { q with accepting := false, closers := q.closers ++ [.joining q.queues.keys] }

/-- One `queue.join()` of a call of `close` returns: nothing is unfinished in the queue of the
user at that moment, whatever another call of `close` puts into it later. -/
def closeJoined (q : InMemoryTaskQueue W) (c : ℕ) (user : Text) : Option (InMemoryTaskQueue W) :=
  match q.closers[c]?, q.queues.get? user with
  | some (.joining users), some a =>
      if user ∈ users ∧ a.unfinished = 0 then
        some { q with closers := q.closers.set c (.joining (users.filter fun v => v ≠ user)) }
      else none
  | _, _ => none

/-- Every `queue.join()` of a call of `close` returned: a stop marker goes to every queue. The
queues it found are those of the object, unless another call of `close` cleared them; then no
worker is left to receive the markers. -/
def closeStop (q : InMemoryTaskQueue W) (c : ℕ) : Option (InMemoryTaskQueue W) :=
  if q.closers[c]? = some (.joining []) then
    some { q with
      queues := q.queues.keys.foldl (fun d user => d.set user (((d.get? user).getD .new).put .stop)) q.queues
      closers := q.closers.set c .gathering }
  else none

/-- The workers a call of `close` waits for have finished: the maps are cleared, unless a
worker was cancelled, when `close` raises. -/
def closeEnd (q : InMemoryTaskQueue W) (c : ℕ) : Option (InMemoryTaskQueue W) :=
  let current := q.workers.values.filterMap fun i => q.tasks[i]?
  if q.closers[c]? ≠ some .gathering then none
  else if current.any (fun w => w.isDone ∧ w.state ≠ .done .stopped) then
    some { q with closers := q.closers.set c .closed }
  else if current.all Worker.isDone then
    some { q with workers := .empty, queues := .empty, closers := q.closers.set c .closed }
  else none

/-- A step of the queue or of the environment. -/
inductive Action (W : Type) where
  /-- A call of `enqueue`. -/
  | enqueue (userId operation : Text) (work : W) (taskId : Uuid) (now : ℕ)
  /-- A worker receives the next item. -/
  | workerGet (worker now : ℕ)
  /-- The work of a worker ends. -/
  | workerFinish (worker : ℕ) (outcome : WorkOutcome) (now : ℕ)
  /-- A call of `close` starts. -/
  | closeBegin
  /-- A call of `close` has joined the queue of a user. -/
  | closeJoined (closer : ℕ) (user : Text)
  /-- A call of `close` puts the stop markers. -/
  | closeStop (closer : ℕ)
  /-- A call of `close` ends. -/
  | closeEnd (closer : ℕ)

/-- The queue and its workers, step by step. -/
def machine (W : Type) (pattern : UserIdPattern) :
    Machine (InMemoryTaskQueue W) (Action W) TaskEvent where
  step q
    | .enqueue userId operation work taskId now =>
        match q.enqueue pattern userId operation work taskId now with
        | .error e => some (q, [.rejected e])
        | .ok q' => some (q', [.accepted userId taskId])
    | .workerGet i now => q.workerGet i now
    | .workerFinish i outcome now => q.workerFinish i outcome now
    | .closeBegin => some (q.closeBegin, [])
    | .closeJoined c user => (q.closeJoined c user).map fun q' => (q', [])
    | .closeStop c => (q.closeStop c).map fun q' => (q', [])
    | .closeEnd c => (q.closeEnd c).map fun q' => (q', [])

end InMemoryTaskQueue

end TenantRag

import TenantRag.Services.TaskQueueOrder
import TenantRag.Services.TaskQueuePending
import TenantRag.Wizard.Upload
import TenantRag.Wizard.WizardRuns

/-!
# The endpoints of the wizards

The router of `backend/api/_wizard.py` and `get_task` of `backend/api/tasks.py`, over the maps of
`WizardRuntime` and the task queue: a wizard is created at once; what saves or deletes one is looked up,
queued, and done by the worker of its user.

## The model

The state has the task queue, the maps and the collection of every user and collection type, and the
requests that wait for their collections. A step is what runs between two suspensions of the event loop;
a call of `create_wizard`, `save_wizard` or `delete_wizard`, which runs in a thread, is one step, at which
its environment gives it its providers. Work of other endpoints shares the queue. The upload, which
only reads, is in `Wizard.Upload`; traces and log records are left out, and so is the cancellation of a
worker while a thread works for it.
-/

namespace TenantRag

/-- `WizardCollectionType`. -/
inductive WizardCollectionType where
  /-- `"knowledge_facts"`. -/
  | knowledgeFacts
  /-- `"policy"`. -/
  | policy
  deriving DecidableEq

/-- The type as a text. -/
def WizardCollectionType.name : WizardCollectionType → Text
  | .knowledgeFacts => lit "knowledge_facts"
  | .policy => lit "policy"

/-- `WizardRuntime._scope`: a user and a collection type. -/
abbrev WizardScope : Type := Text × WizardCollectionType

/-- `WizardResource`. -/
structure WizardResource where
  /-- `wizard_id`. -/
  wizardId : Text
  /-- `user_id`. -/
  userId : Text
  /-- `collection_type`. -/
  collectionType : WizardCollectionType
  /-- `full_text`. -/
  fullText : Text
  /-- `paragraph_ids`. -/
  paragraphIds : List ℕ
  deriving DecidableEq

/-- `list_documents()`. -/
def DocumentMap.listDocuments (m : DocumentMap) : List Text := m.documents.keys.map Uuid.str

/-- What a `work` of the endpoints does to its wizard. -/
inductive WizardChange where
  /-- `save_wizard` with `current_text` and `modified_paragraph_ids`. -/
  | save (currentText : Text) (modifiedParagraphIds : Option (List ℤ))
  /-- `delete_wizard`. -/
  | delete
  deriving DecidableEq

/-- A `work` of the endpoints. -/
structure WizardJob where
  /-- The user and the collection type. -/
  scope : WizardScope
  /-- `wizard_id`. -/
  wizardId : Text
  /-- What it does. -/
  change : WizardChange
  deriving DecidableEq

/-- What is queued. -/
inductive QueuedWork where
  /-- A `work` of these endpoints. -/
  | wizard (job : WizardJob)
  /-- The work of another endpoint. -/
  | other
  deriving DecidableEq

/-- The name the work is enqueued under. -/
def WizardJob.operation (job : WizardJob) : Text :=
  match job.change with
  | .save _ _ => lit "save_" ++ job.scope.2.name ++ lit "_wizard"
  | .delete => lit "delete_" ++ job.scope.2.name ++ lit "_wizard"

/-- The call the work makes, with the given providers. -/
def WizardJob.request {K : Type} (rt : Save.Runtime K) (job : WizardJob) : Save.Request K :=
  match job.change with
  | .save currentText modifiedParagraphIds => .save rt job.wizardId currentText modifiedParagraphIds
  | .delete => .delete rt job.wizardId

/-- A request to save or delete, behind its lookup. -/
structure WizardRequest where
  /-- What it wants to be done. -/
  job : WizardJob
  /-- Whether it was answered; until then it waits for its collections. -/
  answered : Bool
  deriving DecidableEq

/-- The settings. -/
structure WizardSettings where
  /-- `USER_ID_PATTERN`. -/
  userIdPattern : UserIdPattern
  /-- Whether `require_wizard_embedding` finds an embedding provider. -/
  embeddingConfigured : Bool

/-- What the endpoints share, and the requests that were not refused. -/
structure WizardSystem (K : Type) where
  /-- `task_queue`. -/
  queue : InMemoryTaskQueue QueuedWork
  /-- The maps of `wizard_runtime` and the collections; a scope without maps has empty ones. -/
  worlds : WizardScope → Save.World K
  /-- The requests to save or delete that were not refused, in the order they were looked up. -/
  requests : List WizardRequest

namespace WizardSystem

variable {K : Type}

/-- Nothing has happened yet. -/
def start (m : ℕ) (hm : 0 < m) : WizardSystem K := ⟨.fresh m hm, fun _ => .empty, []⟩

/-! ### Answers -/

/-- The body of an answer. -/
inductive Answer where
  /-- `WizardResource`. -/
  | wizard (resource : WizardResource)
  /-- `list[WizardResource]`. -/
  | wizards (resources : List WizardResource)
  /-- `TaskResource`. -/
  | task (snapshot : TaskSnapshot)
  deriving DecidableEq

/-- A call of `create_wizard`, `save_wizard` or `delete_wizard` that ended. -/
structure Call (K : Type) where
  /-- The task that made it, unless `create` did. -/
  taskId : Option Uuid
  /-- The user and the collection type. -/
  scope : WizardScope
  /-- The call. -/
  request : Save.Request K
  /-- Its answer, or whether its compensation had exceptions. -/
  result : Except Bool (Option Text)

/-- What an observer sees. -/
inductive Event (K : Type) where
  /-- The queue accepts, starts or ends a task. -/
  | queue (e : TaskEvent)
  /-- The accepted task has this work. -/
  | submitted (taskId : Uuid) (work : QueuedWork)
  /-- A call ends. -/
  | called (call : Call K)
  /-- A request is answered. -/
  | answered (result : Except UploadError Answer)

/-- `_resource(services, user_id, collection_type, wizard_id)`. -/
def resource (S : WizardSettings) (s : WizardSystem K) (userId : Text) (c : WizardCollectionType) (wizardId : Text) :
    Except PyError WizardResource := do
  let user ← validatedUserId S.userIdPattern userId
  let documentMap := (s.worlds (user, c)).documents
  let fullText ← documentMap.getFullText wizardId
  let paragraphIds ← documentMap.getParagraphs wizardId
  .ok ⟨wizardId, userId, c, fullText, paragraphIds⟩

/-- `service_unavailable(correlation_id)`. -/
def serviceUnavailable : UploadError := .http 503 "SERVICE_UNAVAILABLE" "A required service is temporarily unavailable."

/-- The answer of `create` to an exception. -/
def createError (e : PyError) : UploadError :=
  match e.kind with
  | .valueError => .http 409 "RESOURCE_CONFLICT" "The wizard could not be created because its identifier conflicts."
  | .typeError => validationError e.message
  | _ => .raised e

/-- What a call of the store or the maps raises; of `PartialParagraphUpdateError` the class. -/
def pyError : ChunkError → PyError
  | .raised e => e
  | .partialUpdate _ _ => runtimeError "paragraph-ID update failed"

/-- The answer of `list_wizards` to an exception. -/
def listError (e : PyError) : UploadError :=
  match e.kind with
  | .typeError | .valueError => validationError e.message
  | _ => .raised e

/-- The answer of `get_task` to an exception. -/
def taskError (e : PyError) : UploadError :=
  match e.kind with
  | .keyError => .http 404 "NOT_FOUND" "task not found"
  | .typeError | .valueError => validationError e.message
  | _ => .raised e

/-! ### Endpoints -/

section Endpoints

variable (S : WizardSettings) (s : WizardSystem K)

/-- `list_wizards(user_id)`. -/
def listWizards (userId : Text) (c : WizardCollectionType) : Except UploadError (List WizardResource) :=
  .mapError listError do
    let user ← validatedUserId S.userIdPattern userId
    (s.worlds (user, c)).documents.listDocuments.mapM (s.resource S userId c)

/-- `get_wizard(wizard_id, user_id)`. -/
def getWizard (userId : Text) (c : WizardCollectionType) (wizardId : Text) : Except UploadError WizardResource :=
  .mapError lookupError (s.resource S userId c wizardId)

/-- `get_task(task_id, user_id)`. -/
def getTask (taskId userId : Text) : Except UploadError TaskSnapshot :=
  .mapError taskError (s.queue.get S.userIdPattern taskId userId)

/-- The lookup of `save` and `delete`. -/
def lookup (job : WizardJob) : Except UploadError Unit :=
  if job.change ≠ .delete ∧ !S.embeddingConfigured then .error serviceUnavailable
  else
    .mapError lookupError do
      let user ← validatedUserId S.userIdPattern job.scope.1
      let _ ← (s.worlds (user, job.scope.2)).documents.getParagraphData job.wizardId
      .ok ()

/-- The maps and the collection of a scope after a call. -/
def setWorld (scope : WizardScope) (w : Save.World K) : WizardSystem K :=
  { s with worlds := Function.update s.worlds scope w }

/-- `create(body)`. -/
def create (rt : Save.Runtime K) (userId : Text) (c : WizardCollectionType) : WizardSystem K × List (Event K) :=
  match validatedUserId S.userIdPattern userId with
  | .error e => (s, [.answered (.error (validationError e.message))])
  | .ok user =>
      match Save.createWizard rt (s.worlds (user, c)) with
      | .ok wizardId w =>
          let t := s.setWorld (user, c) w
          (t, [.called ⟨none, (user, c), .create rt, .ok (some wizardId)⟩,
            .answered ((t.resource S userId c wizardId).map Answer.wizard |>.mapError createError)])
      | .error e w =>
          (s.setWorld (user, c) w, [.called ⟨none, (user, c), .create rt, .error e.unresolved⟩,
            .answered (.error (createError (pyError e.error)))])

/-- A request goes on once its collections are ensured: its work is enqueued. -/
def enqueueJob (i : ℕ) (job : WizardJob) (taskId : Uuid) (now : ℕ) : WizardSystem K × List (Event K) :=
  let t := { s with requests := s.requests.set i ⟨job, true⟩ }
  match s.queue.enqueue S.userIdPattern job.scope.1 job.operation (.wizard job) taskId now with
  | .error e => (t, [.answered (.error (.raised e))])
  | .ok q =>
      ({ t with queue := q }, [.queue (.accepted job.scope.1 taskId), .submitted taskId (.wizard job),
        .answered ((q.get S.userIdPattern taskId.str job.scope.1).map Answer.task |>.mapError UploadError.raised)])

/-- Another endpoint enqueues its work. -/
def enqueueOther (userId operation : Text) (taskId : Uuid) (now : ℕ) : WizardSystem K × List (Event K) :=
  match s.queue.enqueue S.userIdPattern userId operation .other taskId now with
  | .error e => (s, [.answered (.error (.raised e))])
  | .ok q => ({ s with queue := q }, [.queue (.accepted userId taskId), .submitted taskId .other])

/-- The task a worker is busy with, and its work. -/
def workAt (i : ℕ) : Option (Uuid × QueuedWork) :=
  match s.queue.tasks[i]? with
  | some ⟨_, .busy id⟩ => (s.queue.workOf id).map fun work => (id, work)
  | _ => none

/-- The work of a worker ends. -/
def finish (i : ℕ) (outcome : WorkOutcome) (now : ℕ) (events : List (Event K)) : Option (WizardSystem K × List (Event K)) :=
  (s.queue.workerFinish i outcome now).map fun r => ({ s with queue := r.1 }, r.2.map Event.queue ++ events)

/-- The wizard call of a busy worker runs and ends, and with it the work. -/
def work [DecidableEq K] (i : ℕ) (rt : Save.Runtime K) (now : ℕ) : Option (WizardSystem K × List (Event K)) :=
  match s.workAt i with
  | some (id, .wizard job) =>
      match (job.request rt).run (s.worlds job.scope) with
      | .ok answer w =>
          (s.setWorld job.scope w).finish i .success now [.called ⟨some id, job.scope, job.request rt, .ok answer⟩]
      | .error unresolved w =>
          (s.setWorld job.scope w).finish i .exception now [.called ⟨some id, job.scope, job.request rt, .error unresolved⟩]
  | _ => none

/-- The work of another endpoint ends. -/
def workOther (i : ℕ) (outcome : WorkOutcome) (now : ℕ) : Option (WizardSystem K × List (Event K)) :=
  match s.workAt i with
  | some (_, .other) => s.finish i outcome now []
  | _ => none

end Endpoints

/-! ### The machine -/

/-- A step of one of the parties. -/
inductive Action (K : Type) where
  /-- `create`. -/
  | create (rt : Save.Runtime K) (userId : Text) (c : WizardCollectionType)
  /-- `list_wizards`. -/
  | listWizards (userId : Text) (c : WizardCollectionType)
  /-- `get_wizard`. -/
  | getWizard (userId : Text) (c : WizardCollectionType) (wizardId : Text)
  /-- `save` or `delete`, up to its first suspension. -/
  | lookup (job : WizardJob)
  /-- The collections of a request are ensured, and `uuid4` gives the id of its task. -/
  | ensured (i : ℕ) (taskId : Uuid) (now : ℕ)
  /-- `ensure_user_collections` raises for a request. -/
  | unavailable (i : ℕ)
  /-- Another endpoint enqueues work. -/
  | enqueueOther (userId operation : Text) (taskId : Uuid) (now : ℕ)
  /-- A worker receives the next item. -/
  | workerGet (worker now : ℕ)
  /-- A worker does the work of one of these endpoints, with the given providers. -/
  | work (worker : ℕ) (rt : Save.Runtime K) (now : ℕ)
  /-- The work of another endpoint ends. -/
  | workOther (worker : ℕ) (outcome : WorkOutcome) (now : ℕ)
  /-- `get_task`. -/
  | getTask (taskId userId : Text)
  /-- `close()` up to its first suspension. -/
  | closeBegin
  /-- A call of `close` has joined the queue of a user. -/
  | closeJoined (closer : ℕ) (userId : Text)
  /-- A call of `close` puts the stop markers. -/
  | closeStop (closer : ℕ)
  /-- A call of `close` ends. -/
  | closeEnd (closer : ℕ)

/-- One step. -/
def step [DecidableEq K] (S : WizardSettings) (s : WizardSystem K) : Action K → Option (WizardSystem K × List (Event K))
  | .create rt userId c => some (s.create S rt userId c)
  | .listWizards userId c => some (s, [.answered ((s.listWizards S userId c).map Answer.wizards)])
  | .getWizard userId c wizardId => some (s, [.answered ((s.getWizard S userId c wizardId).map Answer.wizard)])
  | .lookup job =>
      match s.lookup S job with
      | .error e => some (s, [.answered (.error e)])
      | .ok _ => some ({ s with requests := s.requests ++ [⟨job, false⟩] }, [])
  | .ensured i taskId now =>
      match s.requests[i]? with
      | some ⟨job, false⟩ => some (s.enqueueJob S i job taskId now)
      | _ => none
  | .unavailable i =>
      match s.requests[i]? with
      | some ⟨job, false⟩ =>
          some ({ s with requests := s.requests.set i ⟨job, true⟩ }, [.answered (.error serviceUnavailable)])
      | _ => none
  | .enqueueOther userId operation taskId now => some (s.enqueueOther S userId operation taskId now)
  | .workerGet i now => (s.queue.workerGet i now).map fun r => ({ s with queue := r.1 }, r.2.map Event.queue)
  | .work i rt now => s.work i rt now
  | .workOther i outcome now => s.workOther i outcome now
  | .getTask taskId userId => some (s, [.answered ((s.getTask S taskId userId).map Answer.task)])
  | .closeBegin => some ({ s with queue := s.queue.closeBegin }, [])
  | .closeJoined c userId => (s.queue.closeJoined c userId).map fun q => ({ s with queue := q }, [])
  | .closeStop c => (s.queue.closeStop c).map fun q => ({ s with queue := q }, [])
  | .closeEnd c => (s.queue.closeEnd c).map fun q => ({ s with queue := q }, [])

/-- The system, step by step. -/
def machine [DecidableEq K] (S : WizardSettings) : Machine (WizardSystem K) (Action K) (Event K) := ⟨step S⟩

/-- The task ids `uuid4()` gave. -/
def drawnTasks (as : List (Action K)) : List Uuid :=
  as.filterMap fun
    | .ensured _ id _ | .enqueueOther _ _ id _ => some id
    | _ => none

end WizardSystem

end TenantRag

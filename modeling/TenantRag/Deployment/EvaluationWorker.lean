import TenantRag.Deployment.ContextHydration
import TenantRag.Foundations.JsonCanonical
import TenantRag.Foundations.Timestamp

/-!
# The worker of an evaluation

`_worker_payload`, `_evidence_mapping`, `_evidence_from_mapping`, `run_admitted_evaluation_payload` up to the
evaluator and `build_evaluation_record` of `deployment/evaluation_bridge.py`, with `_read_payload` of
`deployment/evaluation_bridge_worker.py`: a job is written to bytes, sent to another process and read there.

## The model

The functions `str`, `int` and `==` are parameters for values that are no texts and no integers, and so are the
connection to the store and `datetime.fromisoformat`. Deadlines and the evaluator itself are left out.

## What is proved

* `evidenceFromMapping_sorted` — the worker reads the evidence that it was sent.
* `admitted_payload` — it reads the job that it was sent, up to the order of keys and of documents.
* `worker_runs_job` — so it does what its sender would have done with the job, down to the bytes of the record.
* `judged_contexts_used` — the record names the contexts that the prompt of the request was made of.
-/

namespace TenantRag

namespace EvaluationBridge

variable {F : Type}

/-! ### Evidence as a mapping -/

/-- `_evidence_mapping.identity(value)`. -/
def identityMapping (value : ContextIdentity) : Json F :=
  .obj [(lit "collection", .str value.collection), (lit "ids", .arr (value.ids.map .str)),
    (lit "fingerprints", .arr (value.fingerprints.map .str)), (lit "digest", .str value.digest),
    (lit "rendered_utf8_bytes", .int value.renderedUtf8Bytes)]

/-- `_evidence_mapping(evidence)`. -/
def evidenceMapping (evidence : RequestEvidence) : Json F :=
  .obj [(lit "user_id", .str evidence.userId), (lit "trace_session_id", .str evidence.traceSessionId),
    (lit "operation_id", .str evidence.operationId), (lit "chat_session_id", .str evidence.chatSessionId),
    (lit "request_id", .str evidence.requestId), (lit "rewritten_query", .str evidence.rewrittenQuery),
    (lit "knowledge", identityMapping evidence.knowledge), (lit "policy", identityMapping evidence.policy)]

/-- What the worker is given by its process. -/
structure WorkerRuntime (F : Type) where
  /-- SHA-256. -/
  sha : List ℕ → Sha256
  /-- `USER_ID_PATTERN`. -/
  pattern : UserIdPattern
  /-- `str(value)` of a value that is no string. -/
  str : Json F → Text
  /-- `int(value)` of a value that is no integer. -/
  int : Json F → Except PyError ℤ
  /-- `left == right` of values that are not both strings. -/
  same : Json F → Json F → Bool
  /-- `datetime.fromisoformat(text)`: where it is no date, where it has no time zone, and its `isoformat()` in UTC. -/
  fromisoformat : Text → Option (Option Text)
  /-- `CorpusStorage(config, user_id)`, connected. -/
  connect : (Text → Option Text) → Text → Except PyError ContextStore

namespace WorkerRuntime

variable (R : WorkerRuntime F)

/-- `str(value)`. -/
def textOf : Json F → Text
  | .str t => t
  | v => R.str v

/-- `str(fields.get(name, ""))`. -/
def textAt (fields : List (Text × Json F)) (name : Text) : Text := (Json.get? fields name).elim [] R.textOf

/-- `int(value.get(name, -1))`. -/
def intAt (fields : List (Text × Json F)) (name : Text) : Except PyError ℤ :=
  match Json.get? fields name with
  | none => .ok (-1)
  | some (.int n) => .ok n
  | some v => R.int v

end WorkerRuntime

/-- `_evidence_from_mapping.identity(name)`. -/
def identityFromMapping (R : WorkerRuntime F) (item : List (Text × Json F)) (name : Text) : Except BridgeError ContextIdentity := do
  let raw ← mapping (Json.get? item name) s!"worker {shown name} evidence"
  match Json.get? raw (lit "ids"), Json.get? raw (lit "fingerprints") with
  | some (.arr ids), some (.arr fingerprints) => do
      let digest ← sha256At (Json.get? raw (lit "digest")) "worker context digest"
      let renderedBytes ← (R.intAt raw (lit "rendered_utf8_bytes")).mapError BridgeError.raised
      .ok ⟨R.textAt raw (lit "collection"), ids.map R.textOf, fingerprints.map R.textOf, digest, renderedBytes⟩
  | _, _ => .error (.bridge "worker context identity is malformed")

/-- `_evidence_from_mapping(value)`. -/
def evidenceFromMapping (R : WorkerRuntime F) (value : Option (Json F)) : Except BridgeError RequestEvidence := do
  let item ← mapping value "worker evidence"
  let traceSessionId ← canonicalUuidAt (Json.get? item (lit "trace_session_id")) "worker trace session ID"
  let operationId ← canonicalUuidAt (Json.get? item (lit "operation_id")) "worker operation ID"
  let chatSessionId ← canonicalUuidAt (Json.get? item (lit "chat_session_id")) "worker chat session ID"
  let requestId ← canonicalUuidAt (Json.get? item (lit "request_id")) "worker request ID"
  let knowledge ← identityFromMapping R item (lit "knowledge")
  let policy ← identityFromMapping R item (lit "policy")
  .ok ⟨R.textAt item (lit "user_id"), traceSessionId, operationId, chatSessionId, requestId,
    R.textAt item (lit "rewritten_query"), knowledge, policy⟩

/-! ### Evidence that was read -/

/-- An identity whose digest is one. -/
def IsDigest (digest : Text) : Prop := digest.length = 64 ∧ digest.all isLowerHex = true

/-- Evidence as `parse_request_evidence` returns it. -/
structure Wellformed (evidence : RequestEvidence) : Prop where
  traceSessionId : Canonical evidence.traceSessionId
  operationId : Canonical evidence.operationId
  chatSessionId : Canonical evidence.chatSessionId
  requestId : Canonical evidence.requestId
  knowledge : IsDigest evidence.knowledge.digest
  policy : IsDigest evidence.policy.digest

theorem canonicalUuidAt_str {t : Text} (h : Canonical t) (name : String) :
    canonicalUuidAt (F := F) (some (.str t)) name = .ok t := canonicalUuid_ok_iff.mpr ⟨rfl, h⟩

theorem sha256At_str {t : Text} (h : IsDigest t) (name : String) : sha256At (F := F) (some (.str t)) name = .ok t := by
  rw [sha256At, sha256Text]
  exact if_pos h

theorem textOf_strings (R : WorkerRuntime F) (ts : List Text) : (ts.map Json.str).map R.textOf = ts := by
  rw [List.map_map]
  exact List.map_id _

theorem identityFromMapping_sorted (R : WorkerRuntime F) {item : List (Text × Json F)} {name : Text} {value : ContextIdentity}
    (h : IsDigest value.digest) (hitem : Json.get? item name = some (Json.sortKeys (identityMapping value))) :
    identityFromMapping R item name = .ok value := by
  let fields : List (Text × Json F) := [(lit "collection", .str value.collection), (lit "ids", .arr (value.ids.map .str)),
    (lit "fingerprints", .arr (value.fingerprints.map .str)), (lit "digest", .str value.digest),
    (lit "rendered_utf8_bytes", .int value.renderedUtf8Bytes)]
  have hkeys : (fields.map Prod.fst).Nodup := by
    change [lit "collection", lit "ids", lit "fingerprints", lit "digest", lit "rendered_utf8_bytes"].Nodup
    decide +kernel
  have hget := Json.get?_sortFields hkeys
  have hids : Json.get? (Json.sortFields (Json.sortMembers fields)) (lit "ids") = some (.arr (value.ids.map .str)) := by
    rw [hget, ← Json.sortKeys_strings]
    rfl
  have hfingerprints : Json.get? (Json.sortFields (Json.sortMembers fields)) (lit "fingerprints") =
      some (.arr (value.fingerprints.map .str)) := by
    rw [hget, ← Json.sortKeys_strings]
    rfl
  have hdigest : Json.get? (Json.sortFields (Json.sortMembers fields)) (lit "digest") = some (.str value.digest) := by
    rw [hget, ← Json.sortKeys_str]
    rfl
  have hcollection : Json.get? (Json.sortFields (Json.sortMembers fields)) (lit "collection") = some (.str value.collection) := by
    rw [hget, ← Json.sortKeys_str]
    rfl
  have hbytes : Json.get? (Json.sortFields (Json.sortMembers fields)) (lit "rendered_utf8_bytes") =
      some (.int value.renderedUtf8Bytes) := by
    rw [hget]
    rfl
  have hmapping : mapping (Json.get? item name) s!"worker {shown name} evidence" = .ok (Json.sortFields (Json.sortMembers fields)) := by
    rw [hitem, identityMapping, Json.sortKeys]
    rfl
  refine (bind_of_ok hmapping).trans ?_
  rw [hids, hfingerprints]
  dsimp only
  rw [hdigest]
  refine (bind_of_ok (sha256At_str h _)).trans ?_
  rw [WorkerRuntime.intAt, hbytes]
  refine (bind_of_ok (show Except.mapError _ _ = .ok value.renderedUtf8Bytes from rfl)).trans ?_
  rw [WorkerRuntime.textAt, hcollection, textOf_strings, textOf_strings]
  rfl

/-- The worker reads the evidence that it was sent. -/
theorem evidenceFromMapping_sorted (R : WorkerRuntime F) {evidence : RequestEvidence} (h : Wellformed evidence) :
    evidenceFromMapping R (some (Json.sortKeys (evidenceMapping evidence))) = .ok evidence := by
  let fields : List (Text × Json F) := [(lit "user_id", .str evidence.userId), (lit "trace_session_id", .str evidence.traceSessionId),
    (lit "operation_id", .str evidence.operationId), (lit "chat_session_id", .str evidence.chatSessionId),
    (lit "request_id", .str evidence.requestId), (lit "rewritten_query", .str evidence.rewrittenQuery),
    (lit "knowledge", identityMapping evidence.knowledge), (lit "policy", identityMapping evidence.policy)]
  have hkeys : (fields.map Prod.fst).Nodup := by
    change [lit "user_id", lit "trace_session_id", lit "operation_id", lit "chat_session_id", lit "request_id",
      lit "rewritten_query", lit "knowledge", lit "policy"].Nodup
    decide +kernel
  have hget := Json.get?_sortFields hkeys
  have hstr : ∀ {name t : Text}, Json.get? fields name = some (.str t) →
      Json.get? (Json.sortFields (Json.sortMembers fields)) name = some (.str t) := by
    intro name t hname
    rw [hget, hname, Option.map_some, Json.sortKeys_str]
  have hmapping : mapping (some (Json.sortKeys (evidenceMapping evidence))) "worker evidence" =
      .ok (Json.sortFields (Json.sortMembers fields)) := by
    rw [evidenceMapping, Json.sortKeys]
    rfl
  have huser : R.textAt (Json.sortFields (Json.sortMembers fields)) (lit "user_id") = evidence.userId := by
    rw [WorkerRuntime.textAt, hstr rfl]
    rfl
  have hrewritten : R.textAt (Json.sortFields (Json.sortMembers fields)) (lit "rewritten_query") = evidence.rewrittenQuery := by
    rw [WorkerRuntime.textAt, hstr rfl]
    rfl
  refine (bind_of_ok hmapping).trans ?_
  rw [hstr (show Json.get? fields (lit "trace_session_id") = some (.str evidence.traceSessionId) from rfl),
    hstr (show Json.get? fields (lit "operation_id") = some (.str evidence.operationId) from rfl),
    hstr (show Json.get? fields (lit "chat_session_id") = some (.str evidence.chatSessionId) from rfl),
    hstr (show Json.get? fields (lit "request_id") = some (.str evidence.requestId) from rfl)]
  refine (bind_of_ok (canonicalUuidAt_str h.traceSessionId _)).trans ((bind_of_ok (canonicalUuidAt_str h.operationId _)).trans
    ((bind_of_ok (canonicalUuidAt_str h.chatSessionId _)).trans ((bind_of_ok (canonicalUuidAt_str h.requestId _)).trans ?_)))
  refine (bind_of_ok (identityFromMapping_sorted R h.knowledge (hget _))).trans
    ((bind_of_ok (identityFromMapping_sorted R h.policy (hget _))).trans ?_)
  rw [huser, hrewritten]

/-! ### A job -/

/-- The arguments of `submit_local_evaluation`. The telemetry is what `json.loads` made of it. -/
structure EvaluationRequest (F : Type) [PyFloat F] where
  /-- `config`. -/
  config : Dict Text Text
  /-- `user_id`. -/
  userId : Text
  /-- `evidence`. -/
  evidence : RequestEvidence
  /-- `allowed_document_ids`. -/
  allowedDocumentIds : Option (Dict Text (List Text))
  /-- `source`. -/
  source : Text
  /-- `request_id`. -/
  requestId : Text
  /-- `conversation_id`. -/
  conversationId : Text
  /-- `original_query`. -/
  originalQuery : Text
  /-- `response`. -/
  response : Text
  /-- `telemetry`. -/
  telemetry : List (Text × Json F)
  /-- It is JSON. -/
  legible : Json.Legible (.obj telemetry)
  /-- `captured_at`. -/
  capturedAt : Text
  /-- `directory`. -/
  directory : Text
  /-- `stem`. -/
  stem : Text
  /-- `exact_names`. -/
  exactNames : Bool
  /-- `evaluation_job_id`. -/
  evaluationJobId : Text
  /-- `acceptance_activity_path`. -/
  acceptanceActivityPath : Option Text
  /-- `reference`. -/
  reference : Option Text
  /-- `reference_context_ids`. -/
  referenceContextIds : List Text

/-- `_HYDRATION_CONFIG_KEYS`. -/
def hydrationConfigKeys : List Text :=
  [lit "WEAVIATE_URL", lit "WEAVIATE_API_KEY", lit "WEAVIATE_GRPC_PORT", lit "WEAVIATE_GRPC_SECURE"]

/-- `sorted(texts)`. -/
def sortedTexts (texts : List Text) : List Text := texts.insertionSort (· ≤ ·)

section Job

variable [PyFloat F]

namespace EvaluationRequest

variable (r : EvaluationRequest F)

/-- `hydration_config`. -/
def hydrationConfig : List (Text × Json F) := hydrationConfigKeys.filterMap fun name =>
  (r.config.get? name).map fun value => (name, .str value)

/-- The documents that are allowed, in the order of their identifiers. -/
def allowedPayload : Json F :=
  r.allowedDocumentIds.elim .null fun documents => .obj (documents.entries.map fun e => (e.1, .arr ((sortedTexts e.2).map .str)))

/-- `_worker_payload(…)`, before it is written. -/
def payload : List (Text × Json F) :=
  [(lit "config", .obj r.hydrationConfig), (lit "user_id", .str r.userId), (lit "evidence", evidenceMapping r.evidence),
    (lit "allowed_document_ids", r.allowedPayload), (lit "source", .str r.source), (lit "request_id", .str r.requestId),
    (lit "conversation_id", .str r.conversationId), (lit "original_query", .str r.originalQuery),
    (lit "response", .str r.response), (lit "telemetry", .obj r.telemetry), (lit "captured_at", .str r.capturedAt),
    (lit "directory", .str r.directory), (lit "stem", .str r.stem), (lit "exact_names", .bool r.exactNames),
    (lit "evaluation_job_id", .str r.evaluationJobId), (lit "acceptance_activity_path", stringOrNull r.acceptanceActivityPath),
    (lit "reference", stringOrNull r.reference), (lit "reference_context_ids", .arr (r.referenceContextIds.map .str))]

/-- `_worker_payload(…)`. -/
def workerPayload : Except PyError (List ℕ) := Json.canonicalBytes (.obj r.payload)

end EvaluationRequest

/-- `_MAX_INPUT_BYTES`. -/
def maxInputBytes : ℕ := 32 * 1024 * 1024

/-- `_read_payload(…)` of the bytes that were sent. -/
def readPayload (bytes : List ℕ) : Option (List (Text × Json F)) :=
  if maxInputBytes < bytes.length then none
  else
    match decodeUtf8 bytes with
    | .error _ => none
    | .ok t =>
        match Json.loads t with
        | some (.obj fields) => some fields
        | _ => none

/-- What the worker takes from a payload. -/
structure AdmittedJob (F : Type) where
  /-- `config`. -/
  config : Text → Option Text
  /-- `evidence`. -/
  evidence : RequestEvidence
  /-- `allowed`. -/
  allowed : Option (Dict Text (List Text))
  /-- `user_id`. -/
  userId : Text
  /-- `source`. -/
  source : Text
  /-- `request_id`. -/
  requestId : Text
  /-- `conversation_id`. -/
  conversationId : Text
  /-- `original_query`. -/
  originalQuery : Text
  /-- `response`. -/
  response : Text
  /-- `payload.get("telemetry")`. -/
  telemetry : Option (Json F)
  /-- `captured_at`. -/
  capturedAt : Text
  /-- `payload.get("reference")`. -/
  reference : Json F
  /-- `payload.get("reference_context_ids", [])`. -/
  referenceContextIds : Json F
  /-- `directory`. -/
  directory : Text
  /-- `stem`. -/
  stem : Text
  /-- `payload.get("exact_names") is True`. -/
  exactNames : Bool
  /-- `str(payload["acceptance_activity_path"])`, where it is not `None`. -/
  activityPath : Option Text
  /-- `payload.get("evaluation_job_id")`. -/
  evaluationJobId : Option (Json F)

/-- A collection and its documents, where they are a list. -/
def documentList (R : WorkerRuntime F) (f : Text × Json F) : Option (Text × List Text) :=
  match f.2 with
  | .arr items => some (f.1, items.map R.textOf)
  | _ => none

/-- `allowed`, where every value is a list. -/
def allowedDocuments (R : WorkerRuntime F) (value : Option (Json F)) : Except BridgeError (Option (Dict Text (List Text))) :=
  match value with
  | none => .ok none
  | some .null => .ok none
  | some v => do
      let fields ← mapping (some v) "allowed document IDs"
      match fields.mapM (documentList R) with
      | some entries => .ok (some (entries.foldl (fun d e => d.set e.1 e.2) .empty))
      | none => .error (.bridge "allowed document IDs are malformed")

/-- `None if value is None else str(value)`. -/
def activityPathOf (R : WorkerRuntime F) : Option (Json F) → Option Text
  | none => none
  | some .null => none
  | some v => some (R.textOf v)

/-- The first stage of `run_admitted_evaluation_payload(payload, …)`. -/
def admitted (R : WorkerRuntime F) (payload : List (Text × Json F)) : Except BridgeError (AdmittedJob F) := do
  let config ← mapping (Json.get? payload (lit "config")) "worker configuration"
  let evidence ← evidenceFromMapping R (Json.get? payload (lit "evidence"))
  let allowed ← allowedDocuments R (Json.get? payload (lit "allowed_document_ids"))
  .ok {
    config name := (Json.get? config name).map R.textOf
    evidence, allowed
    userId := R.textAt payload (lit "user_id")
    source := R.textAt payload (lit "source")
    requestId := R.textAt payload (lit "request_id")
    conversationId := R.textAt payload (lit "conversation_id")
    originalQuery := R.textAt payload (lit "original_query")
    response := R.textAt payload (lit "response")
    telemetry := Json.get? payload (lit "telemetry")
    capturedAt := R.textAt payload (lit "captured_at")
    reference := (Json.get? payload (lit "reference")).getD .null
    referenceContextIds := (Json.get? payload (lit "reference_context_ids")).getD (.arr [])
    directory := R.textAt payload (lit "directory")
    stem := R.textAt payload (lit "stem")
    exactNames := isBool (Json.get? payload (lit "exact_names")) true
    activityPath := activityPathOf R (Json.get? payload (lit "acceptance_activity_path"))
    evaluationJobId := Json.get? payload (lit "evaluation_job_id") }

/-! ### The record -/

/-- A list and a dictionary have no hash. -/
def unhashable : Json F → Bool
  | .arr _ => true
  | .obj _ => true
  | _ => false

/-- `left == right`. -/
def WorkerRuntime.equal (R : WorkerRuntime F) : Json F → Json F → Bool
  | .str left, .str right => left = right
  | left, right => R.same left right

/-- `len(set(values)) != len(values)`. -/
def repeated (R : WorkerRuntime F) : List (Json F) → Bool
  | [] => false
  | v :: vs => vs.any (R.equal v) || repeated R vs

/-- The checks of `build_evaluation_record` on `reference`. -/
def checkReference : Json F → Except BridgeError Unit
  | .null => .ok ()
  | .str t => if isBlank t then .error (.bridge "evaluation reference is invalid") else .ok ()
  | _ => .error (.bridge "evaluation reference is invalid")

/-- Its checks on `reference_context_ids`. -/
def checkReferenceIds (R : WorkerRuntime F) : Json F → Except BridgeError Unit
  | .arr ids =>
      if ids.any unhashable then .error (.raised (typeError "unhashable type"))
      else if repeated R ids then .error (.bridge "reference context IDs are invalid")
      else do
        let _ ← ids.mapM fun id => canonicalUuidAt (some id) "reference context ID"
        .ok ()
  | _ => .error (.bridge "reference context IDs are invalid")

/-- Its check on the query and on the response. -/
def checkText (value : Text) (name : String) : Except BridgeError Unit :=
  if isBlank value then .error (.bridge s!"evaluation {name} is invalid") else .ok ()

/-- `captured_at` of the record. -/
def capturedUtc (R : WorkerRuntime F) (capturedAt : Text) : Except BridgeError Text :=
  match R.fromisoformat (textReplace [90] utcOffset capturedAt) with
  | none => .error (.bridge "captured_at is invalid")
  | some none => .error (.bridge "captured_at must be timezone-aware")
  | some (some isoformat) => .ok (textReplace utcOffset [90] isoformat)

namespace AdmittedJob

variable (R : WorkerRuntime F) (job : AdmittedJob F)

/-- The checks of `build_evaluation_record(…)`; what they answer is the time of the record. -/
def checked : Except BridgeError Text := do
  if job.source = lit "e2e" ∨ job.source = lit "rag_ask" then
    checkReference job.reference
    checkReferenceIds R job.referenceContextIds
    let requestId ← canonicalUuid job.requestId "request ID"
    if requestId = job.evidence.requestId then
      let _ ← canonicalUuid job.conversationId "conversation ID"
      checkText job.originalQuery "query"
      checkText job.response "response"
      capturedUtc R job.capturedAt
    else .error (.bridge "evaluation request correlation is invalid")
  else .error (.bridge "evaluation source is invalid")

/-- `record`. -/
def recordFields (contexts : ResolvedContexts) (telemetry : List (Text × Json F)) (capturedAt : Text) : List (Text × Json F) :=
  [(lit "schema_version", .str (lit "1.0")), (lit "source", .str job.source), (lit "request_id", .str job.requestId),
    (lit "conversation_id", .str job.conversationId), (lit "original_query", .str job.originalQuery),
    (lit "rewritten_query", .str job.evidence.rewrittenQuery), (lit "response", .str job.response),
    (lit "knowledge_contexts", .arr (contexts.knowledge.map .str)),
    (lit "knowledge_context_ids", .arr (job.evidence.knowledge.ids.map .str)),
    (lit "policy_contexts", .arr (contexts.policy.map .str)),
    (lit "policy_context_ids", .arr (job.evidence.policy.ids.map .str)),
    (lit "retrieved_contexts", .arr ((contexts.knowledge ++ contexts.policy).map .str)),
    (lit "context_roles", .arr ((List.replicate contexts.knowledge.length (lit "knowledge") ++
      List.replicate contexts.policy.length (lit "policy")).map .str)),
    (lit "telemetry", .obj telemetry), (lit "reference", job.reference),
    (lit "reference_context_ids", job.referenceContextIds), (lit "captured_at", .str capturedAt)]

/-- `build_evaluation_record(…)` as the worker calls it. -/
def record (contexts : ResolvedContexts) : Except BridgeError (List (Text × Json F)) := do
  let telemetry ← mapping job.telemetry "worker telemetry"
  let capturedAt ← job.checked R
  let fields := job.recordFields contexts telemetry capturedAt
  if Json.isWritable (.obj fields) then .ok fields else .error (.bridge "evaluation record is not finite JSON")

end AdmittedJob

/-! ### The run -/

/-- What the evaluator is started with. -/
structure Launch where
  /-- The bytes of the record's file. -/
  record : Except PyError (List ℕ)
  /-- `directory`. -/
  directory : Text
  /-- `stem`. -/
  stem : Text
  /-- `exact_names`. -/
  exactNames : Bool
  /-- `activity_context`: `path` and `job_id`. -/
  activity : Option (Text × Text)

/-- `predicates`. -/
def hydrationCodes : List (String × String) :=
  [("empty ", "EMPTY_CONTEXT_MISMATCH"), ("collection does not exist", "COLLECTION_MISSING"),
    ("response is malformed", "RESPONSE_INVALID"), ("properties are malformed", "PROPERTIES_INVALID"),
    ("object ID", "OBJECT_ID_INVALID"), ("chunk ID", "CHUNK_ID_INVALID"), ("document ID", "DOCUMENT_ID_INVALID"),
    ("storage identity", "STORAGE_IDENTITY_INVALID"), ("outside the active corpus", "CORPUS_MEMBERSHIP_INVALID"),
    ("exact context ID", "CONTEXT_SET_MISMATCH"), ("fingerprint does not match", "FINGERPRINT_MISMATCH"),
    ("ordered context digest", "ORDERED_DIGEST_MISMATCH")]

/-- `_pre_record_failure_code("HYDRATION", exc)`. -/
def hydrationFailure : BridgeError → Text
  | .raised _ => lit "EVALUATION_HYDRATION_UNAVAILABLE"
  | .bridge message =>
      lit "EVALUATION_HYDRATION_" ++
        lit (((hydrationCodes.find? fun p => decide (lit p.1 <:+: lit message)).map Prod.snd).getD "INVALID")

namespace AdmittedJob

variable (R : WorkerRuntime F) (job : AdmittedJob F)

/-- The contexts of the job. -/
def hydrate : Except BridgeError ResolvedContexts := do
  let store ← (R.connect job.config job.userId).mapError BridgeError.raised
  resolveExactContexts R.sha R.pattern store job.userId job.evidence job.allowed

/-- `activity_context`. -/
def activity : Except BridgeError (Option (Text × Text)) :=
  match job.activityPath with
  | none => .ok none
  | some path => do
      let jobId ← canonicalUuidAt job.evaluationJobId "evaluation job ID"
      .ok (some (path, jobId))

/-- The record of the job, and the evaluator's other arguments. -/
def launch (contexts : ResolvedContexts) : Except BridgeError Launch := do
  let fields ← job.record R contexts
  let activity ← job.activity
  .ok ⟨Json.canonicalBytes (.obj fields), job.directory, job.stem, job.exactNames, activity⟩

/-- What becomes of an admitted job: the evaluator is started, or there is an error code. -/
def run : Except Text Launch :=
  match job.hydrate R with
  | .error e => .error (hydrationFailure e)
  | .ok contexts =>
      match job.launch R contexts with
      | .error _ => .error (lit "EVALUATION_RECORD_INVALID")
      | .ok launch => .ok launch

end AdmittedJob

/-- `run_admitted_evaluation_payload(payload, …)` up to the evaluator. -/
def runAdmittedEvaluationPayload (R : WorkerRuntime F) (payload : List (Text × Json F)) : Except Text Launch :=
  match admitted R payload with
  | .error _ => .error (lit "EVALUATION_WORKER_PAYLOAD_INVALID")
  | .ok job => job.run R

end Job

/-! ### What the worker reads -/

section Sent

variable [PyFloat F] {R : WorkerRuntime F} {r : EvaluationRequest F}

/-- The job as its sender has it. -/
def EvaluationRequest.job (r : EvaluationRequest F) : AdmittedJob F where
  config name := if name ∈ hydrationConfigKeys then r.config.get? name else none
  evidence := r.evidence
  allowed := r.allowedDocumentIds
  userId := r.userId
  source := r.source
  requestId := r.requestId
  conversationId := r.conversationId
  originalQuery := r.originalQuery
  response := r.response
  telemetry := some (.obj r.telemetry)
  capturedAt := r.capturedAt
  reference := stringOrNull r.reference
  referenceContextIds := .arr (r.referenceContextIds.map .str)
  directory := r.directory
  stem := r.stem
  exactNames := r.exactNames
  activityPath := r.acceptanceActivityPath
  evaluationJobId := some (.str r.evaluationJobId)

/-- The numbers of the evidence can be written. -/
def Sized (evidence : RequestEvidence) : Prop :=
  (decimal evidence.knowledge.renderedUtf8Bytes.natAbs).length ≤ Json.intMaxStrDigits ∧
    (decimal evidence.policy.renderedUtf8Bytes.natAbs).length ≤ Json.intMaxStrDigits

theorem legible_strings (ts : List Text) : Json.Legible (.arr (ts.map .str) : Json F) := by
  refine .arr fun v hv => ?_
  obtain ⟨t, -, rfl⟩ := List.mem_map.mp hv
  exact .str t

theorem legible_stringOrNull (t : Option Text) : Json.Legible (stringOrNull t : Json F) := by
  cases t with
  | none => exact .null
  | some t => exact .str t

theorem legible_identityMapping {value : ContextIdentity} (h : (decimal value.renderedUtf8Bytes.natAbs).length ≤ Json.intMaxStrDigits) :
    Json.Legible (identityMapping value : Json F) := by
  refine .obj ?_ ?_
  · change [lit "collection", lit "ids", lit "fingerprints", lit "digest", lit "rendered_utf8_bytes"].Nodup
    decide +kernel
  · simp only [List.forall_mem_cons]
    exact ⟨.str _, legible_strings _, legible_strings _, .str _, .int h, List.forall_mem_nil _⟩

theorem legible_evidenceMapping {evidence : RequestEvidence} (h : Sized evidence) :
    Json.Legible (evidenceMapping evidence : Json F) := by
  refine .obj ?_ ?_
  · change [lit "user_id", lit "trace_session_id", lit "operation_id", lit "chat_session_id", lit "request_id",
      lit "rewritten_query", lit "knowledge", lit "policy"].Nodup
    decide +kernel
  · simp only [List.forall_mem_cons]
    exact ⟨.str _, .str _, .str _, .str _, .str _, .str _, legible_identityMapping h.1, legible_identityMapping h.2,
      List.forall_mem_nil _⟩

omit [PyFloat F] in
/-- A part of the configuration has its keys once each. -/
theorem keys_filterMap_sublist (d : Dict Text Text) (keys : List Text) :
    ((keys.filterMap fun name => (d.get? name).map fun value => ((name, .str value) : Text × Json F)).map Prod.fst).Sublist keys := by
  induction keys with
  | nil => exact .slnil
  | cons name keys ih =>
    rw [List.filterMap_cons]
    cases d.get? name with
    | none => exact ih.cons _
    | some value => exact ih.cons_cons _

omit [PyFloat F] in
theorem get?_filterMap (d : Dict Text Text) (keys : List Text) (k : Text) :
    Json.get? (keys.filterMap fun name => (d.get? name).map fun value => ((name, .str value) : Text × Json F)) k =
      if k ∈ keys then (d.get? k).map .str else none := by
  induction keys with
  | nil => rfl
  | cons name keys ih =>
    rw [List.filterMap_cons]
    by_cases hk : k = name
    · subst hk
      cases hget : d.get? k with
      | none =>
        simp only [Option.map_none, ih, hget]
        split_ifs <;> rfl
      | some value =>
        simp only [Option.map_some]
        rw [Json.get?_cons, if_pos rfl, if_pos List.mem_cons_self]
    · have hmem : k ∈ name :: keys ↔ k ∈ keys := by simp [hk]
      cases d.get? name with
      | none => simp only [Option.map_none, ih, hmem]
      | some value =>
        simp only [Option.map_some]
        rw [Json.get?_cons, if_neg hk, ih]
        simp only [hmem]

theorem hydrationConfigKeys_nodup : hydrationConfigKeys.Nodup := by decide +kernel

theorem legible_hydrationConfig (r : EvaluationRequest F) : Json.Legible (.obj r.hydrationConfig) := by
  refine .obj ((keys_filterMap_sublist r.config _).nodup hydrationConfigKeys_nodup) fun f hf => ?_
  obtain ⟨name, -, hname⟩ := List.mem_filterMap.mp hf
  obtain ⟨value, -, rfl⟩ := Option.map_eq_some_iff.mp hname
  exact .str value

theorem legible_allowedPayload (r : EvaluationRequest F) : Json.Legible r.allowedPayload := by
  rw [EvaluationRequest.allowedPayload]
  cases r.allowedDocumentIds with
  | none => exact .null
  | some documents =>
    refine .obj ?_ fun f hf => ?_
    · rw [List.map_map]
      exact documents.nodupKeys
    · obtain ⟨e, -, rfl⟩ := List.mem_map.mp hf
      exact legible_strings _

theorem payload_keys (r : EvaluationRequest F) : (r.payload.map Prod.fst).Nodup := by
  change [lit "config", lit "user_id", lit "evidence", lit "allowed_document_ids", lit "source", lit "request_id",
    lit "conversation_id", lit "original_query", lit "response", lit "telemetry", lit "captured_at", lit "directory",
    lit "stem", lit "exact_names", lit "evaluation_job_id", lit "acceptance_activity_path", lit "reference",
    lit "reference_context_ids"].Nodup
  decide +kernel

theorem legible_payload (h : Sized r.evidence) : Json.Legible (.obj r.payload) := by
  refine .obj (payload_keys r) ?_
  simp only [EvaluationRequest.payload, List.forall_mem_cons]
  exact ⟨legible_hydrationConfig r, .str _, legible_evidenceMapping h, legible_allowedPayload r, .str _, .str _, .str _, .str _,
    .str _, r.legible, .str _, .str _, .str _, .bool _, .str _, legible_stringOrNull _, legible_stringOrNull _,
    legible_strings _, List.forall_mem_nil _⟩

/-- The payload is read with its keys sorted. -/
theorem readPayload_workerPayload (h : Sized r.evidence) {bytes : List ℕ} (hbytes : r.workerPayload = .ok bytes)
    (hlength : bytes.length ≤ maxInputBytes) :
    readPayload bytes = some (Json.sortFields (Json.sortMembers r.payload)) := by
  obtain ⟨t, ht, hread⟩ := Json.loads_canonicalBytes (legible_payload h) hbytes
  rw [readPayload, if_neg (Nat.not_lt.mpr hlength), ht]
  dsimp only
  rw [hread, Json.sortKeys]

/-- The same documents are allowed. -/
def SameAllowed (a b : Option (Dict Text (List Text))) : Prop :=
  ∀ (p : TracePrefix) (documentId : Text),
    ((allowedOf a p).all fun documents => documents.contains documentId) =
      (allowedOf b p).all fun documents => documents.contains documentId

theorem contains_sortedTexts (texts : List Text) (t : Text) : (sortedTexts texts).contains t = texts.contains t := by
  rw [Bool.eq_iff_iff, List.contains_iff_mem, List.contains_iff_mem]
  exact (List.perm_insertionSort _ texts).mem_iff

/-- The documents of a collection, in their order, are read where they stood. -/
theorem allowedDocuments_sorted (R : WorkerRuntime F) (r : EvaluationRequest F) :
    ∃ allowed, allowedDocuments R (some (Json.sortKeys r.allowedPayload)) = .ok allowed ∧
      SameAllowed allowed r.allowedDocumentIds := by
  rw [EvaluationRequest.allowedPayload]
  cases hallowed : r.allowedDocumentIds with
  | none => exact ⟨none, rfl, fun _ _ => rfl⟩
  | some documents =>
    let read : Text × List Text → Text × Json F := fun e => (e.1, .arr ((sortedTexts e.2).map .str))
    let listed : List (Text × List Text) := documents.entries.insertionSort fun a b => a.1 ≤ b.1
    let es : List (Text × List Text) := listed.map fun e => (e.1, sortedTexts e.2)
    have hlisted : listed.Perm documents.entries := List.perm_insertionSort _ _
    have hsorted : Json.sortFields (Json.sortMembers (documents.entries.map read)) = listed.map read := by
      have hmembers : Json.sortMembers (documents.entries.map read) = documents.entries.map read := by
        rw [Json.sortMembers_eq_map, List.map_map]
        exact List.map_congr_left fun e _ => Prod.ext rfl (Json.sortKeys_strings _)
      rw [hmembers, Json.sortFields]
      exact (List.map_insertionSort _ _ read _ fun _ _ _ _ => Iff.rfl).symm
    have hmapM : (listed.map read).mapM (documentList R) = some es := by
      rw [mapM_eq_some_iff, List.forall₂_map_left_iff, List.forall₂_map_right_iff, List.forall₂_same]
      intro e _
      exact congrArg (fun ts => some (e.1, ts)) (textOf_strings R (sortedTexts e.2))
    have hkeys : (es.map Prod.fst).Nodup := by
      have hfst : es.map Prod.fst = listed.map Prod.fst := by
        rw [List.map_map]
        rfl
      rw [hfst]
      exact (hlisted.map Prod.fst).nodup_iff.mpr documents.nodupKeys
    have hdict : es.foldl (fun d e => d.set e.1 e.2) (Dict.empty : Dict Text (List Text)) = ⟨es, hkeys⟩ :=
      Dict.ext_entries (Dict.entries_foldl_set es Dict.empty hkeys)
    have hget : ∀ k, (⟨es, hkeys⟩ : Dict Text (List Text)).get? k = (documents.get? k).map sortedTexts := by
      intro k
      ext texts
      rw [← Dict.mem_entries_iff, Option.map_eq_some_iff]
      constructor
      · intro hmem
        obtain ⟨e, he, heq⟩ := List.mem_map.mp hmem
        cases heq
        exact ⟨e.2, Dict.mem_entries_iff.mp (hlisted.mem_iff.mp he), rfl⟩
      · rintro ⟨texts, htexts, rfl⟩
        exact List.mem_map.mpr ⟨(k, texts), hlisted.mem_iff.mpr (Dict.mem_entries_iff.mpr htexts), rfl⟩
    refine ⟨some ⟨es, hkeys⟩, ?_, fun p documentId => ?_⟩
    · have hfields : Json.sortKeys (.obj (documents.entries.map read)) = .obj (listed.map read) := by
        rw [Json.sortKeys, hsorted]
      rw [Option.elim_some, hfields, allowedDocuments]
      · refine (bind_of_ok (show mapping _ _ = .ok (listed.map read) from rfl)).trans ?_
        rw [hmapM, ← hdict]
      · intro hnull
        cases hnull
    · rw [allowedOf, allowedOf, Option.map_some, Option.map_some, Option.all_some, Option.all_some, hget]
      cases documents.get? p.text with
      | none => rfl
      | some texts => exact contains_sortedTexts texts documentId

/-- The worker reads the job that it was sent, up to the order of keys and of documents. -/
theorem admitted_payload (h : Wellformed r.evidence) :
    ∃ allowed, SameAllowed allowed r.allowedDocumentIds ∧
      admitted R (Json.sortFields (Json.sortMembers r.payload)) =
        .ok { r.job with allowed, telemetry := some (Json.sortKeys (.obj r.telemetry)) } := by
  obtain ⟨allowed, hallowed, hsame⟩ := allowedDocuments_sorted R r
  refine ⟨allowed, hsame, ?_⟩
  have hget := Json.get?_sortFields (payload_keys r)
  have hstr : ∀ {name t : Text}, Json.get? r.payload name = some (.str t) →
      R.textAt (Json.sortFields (Json.sortMembers r.payload)) name = t := by
    intro name t hname
    rw [WorkerRuntime.textAt, hget, hname, Option.map_some, Json.sortKeys_str]
    rfl
  have hconfig : mapping (Json.get? (Json.sortFields (Json.sortMembers r.payload)) (lit "config")) "worker configuration" =
      .ok (Json.sortFields (Json.sortMembers r.hydrationConfig)) := by
    rw [hget, show Json.get? r.payload (lit "config") = some (.obj r.hydrationConfig) from rfl, Option.map_some, Json.sortKeys]
    rfl
  have hevidence : evidenceFromMapping R (Json.get? (Json.sortFields (Json.sortMembers r.payload)) (lit "evidence")) =
      .ok r.evidence := by
    rw [hget, show Json.get? r.payload (lit "evidence") = some (evidenceMapping r.evidence) from rfl, Option.map_some]
    exact evidenceFromMapping_sorted R h
  have hdocuments : allowedDocuments R (Json.get? (Json.sortFields (Json.sortMembers r.payload)) (lit "allowed_document_ids")) =
      .ok allowed := by
    rw [hget, show Json.get? r.payload (lit "allowed_document_ids") = some r.allowedPayload from rfl, Option.map_some]
    exact hallowed
  have hlookup : (fun name => (Json.get? (Json.sortFields (Json.sortMembers r.hydrationConfig)) name).map R.textOf) =
      fun name => if name ∈ hydrationConfigKeys then r.config.get? name else none := by
    funext name
    have hkeys : (r.hydrationConfig.map Prod.fst).Nodup := (keys_filterMap_sublist r.config _).nodup hydrationConfigKeys_nodup
    rw [Json.get?_sortFields hkeys, EvaluationRequest.hydrationConfig, get?_filterMap]
    split_ifs
    · cases r.config.get? name with
      | none => rfl
      | some value =>
        rw [Option.map_some, Option.map_some, Json.sortKeys_str]
        rfl
    · rfl
  have htelemetry : Json.get? (Json.sortFields (Json.sortMembers r.payload)) (lit "telemetry") =
      some (Json.sortKeys (.obj r.telemetry)) := by
    rw [hget]
    rfl
  have hjobId : Json.get? (Json.sortFields (Json.sortMembers r.payload)) (lit "evaluation_job_id") =
      some (.str r.evaluationJobId) := by
    rw [hget, ← Json.sortKeys_str]
    rfl
  have hreference : (Json.get? (Json.sortFields (Json.sortMembers r.payload)) (lit "reference")).getD .null =
      stringOrNull r.reference := by
    rw [hget, show Json.get? r.payload (lit "reference") = some (stringOrNull r.reference) from rfl]
    cases r.reference with
    | none => rfl
    | some t => exact Json.sortKeys_str t
  have hids : (Json.get? (Json.sortFields (Json.sortMembers r.payload)) (lit "reference_context_ids")).getD (.arr []) =
      .arr (r.referenceContextIds.map .str) := by
    rw [hget, ← Json.sortKeys_strings]
    rfl
  have hexact : isBool (Json.get? (Json.sortFields (Json.sortMembers r.payload)) (lit "exact_names")) true = r.exactNames := by
    rw [hget, show Json.get? r.payload (lit "exact_names") = some (.bool r.exactNames) from rfl]
    cases r.exactNames <;> rfl
  have hactivity : activityPathOf R (Json.get? (Json.sortFields (Json.sortMembers r.payload)) (lit "acceptance_activity_path")) =
      r.acceptanceActivityPath := by
    rw [hget, show Json.get? r.payload (lit "acceptance_activity_path") = some (stringOrNull r.acceptanceActivityPath) from rfl]
    cases r.acceptanceActivityPath <;> rfl
  refine (bind_of_ok hconfig).trans ((bind_of_ok hevidence).trans ((bind_of_ok hdocuments).trans ?_))
  rw [hlookup, hstr (show Json.get? r.payload (lit "user_id") = some (.str r.userId) from rfl),
    hstr (show Json.get? r.payload (lit "source") = some (.str r.source) from rfl),
    hstr (show Json.get? r.payload (lit "request_id") = some (.str r.requestId) from rfl),
    hstr (show Json.get? r.payload (lit "conversation_id") = some (.str r.conversationId) from rfl),
    hstr (show Json.get? r.payload (lit "original_query") = some (.str r.originalQuery) from rfl),
    hstr (show Json.get? r.payload (lit "response") = some (.str r.response) from rfl),
    hstr (show Json.get? r.payload (lit "captured_at") = some (.str r.capturedAt) from rfl),
    hstr (show Json.get? r.payload (lit "directory") = some (.str r.directory) from rfl),
    hstr (show Json.get? r.payload (lit "stem") = some (.str r.stem) from rfl),
    htelemetry, hjobId, hreference, hids, hexact, hactivity]
  rfl

/-! ### What the worker does -/

/-- Hydration asks only whether a document is allowed. -/
theorem fetchContexts_congr {sha : List ℕ → Sha256} {pattern : UserIdPattern} {store : ContextStore} {userId : Text}
    {identity : ContextIdentity} {a b : Option (List Text)}
    (h : ∀ documentId, (a.all fun documents => documents.contains documentId) = b.all fun documents => documents.contains documentId) :
    fetchContexts sha pattern store userId identity a = fetchContexts sha pattern store userId identity b := by
  have hobject : hydrateObject userId identity.ids a = hydrateObject userId identity.ids b := by
    funext hydrated item
    simp only [hydrateObject, h]
  simp only [fetchContexts, orderedContexts, hobject]

theorem resolveExactContexts_congr {sha : List ℕ → Sha256} {pattern : UserIdPattern} {store : ContextStore} {userId : Text}
    {evidence : RequestEvidence} {a b : Option (Dict Text (List Text))} (h : SameAllowed a b) :
    resolveExactContexts sha pattern store userId evidence a = resolveExactContexts sha pattern store userId evidence b := by
  have hknowledge : fetchContexts sha pattern store userId evidence.knowledge (allowedOf a .knowledge) =
      fetchContexts sha pattern store userId evidence.knowledge (allowedOf b .knowledge) := fetchContexts_congr (h .knowledge)
  have hpolicy : fetchContexts sha pattern store userId evidence.policy (allowedOf a .policy) =
      fetchContexts sha pattern store userId evidence.policy (allowedOf b .policy) := fetchContexts_congr (h .policy)
  change (do
    let knowledge ← fetchContexts sha pattern store userId evidence.knowledge (allowedOf a .knowledge)
    let policy ← fetchContexts sha pattern store userId evidence.policy (allowedOf a .policy)
    Except.ok (ResolvedContexts.mk knowledge policy)) = _
  rw [hknowledge, hpolicy]
  rfl

/-- A record is JSON where its telemetry is. -/
theorem legible_recordFields (contexts : ResolvedContexts) {telemetry : List (Text × Json F)} (h : Json.Legible (.obj telemetry))
    (capturedAt : Text) : Json.Legible (.obj (r.job.recordFields contexts telemetry capturedAt)) := by
  refine .obj ?_ ?_
  · change [lit "schema_version", lit "source", lit "request_id", lit "conversation_id", lit "original_query",
      lit "rewritten_query", lit "response", lit "knowledge_contexts", lit "knowledge_context_ids", lit "policy_contexts",
      lit "policy_context_ids", lit "retrieved_contexts", lit "context_roles", lit "telemetry", lit "reference",
      lit "reference_context_ids", lit "captured_at"].Nodup
    decide +kernel
  · simp only [AdmittedJob.recordFields, List.forall_mem_cons]
    exact ⟨.str _, .str _, .str _, .str _, .str _, .str _, .str _, legible_strings _, legible_strings _, legible_strings _,
      legible_strings _, legible_strings _, legible_strings _, h, legible_stringOrNull _, legible_strings _, .str _,
      List.forall_mem_nil _⟩

/-- The file of a record does not depend on the order of the telemetry's keys. -/
theorem canonicalBytes_recordFields (r : EvaluationRequest F) (contexts : ResolvedContexts) (capturedAt : Text) :
    Json.canonicalBytes (.obj (r.job.recordFields contexts (Json.sortFields (Json.sortMembers r.telemetry)) capturedAt)) =
      Json.canonicalBytes (.obj (r.job.recordFields contexts r.telemetry capturedAt)) := by
  have hobj : Json.sortKeys (.obj r.telemetry) = .obj (Json.sortFields (Json.sortMembers r.telemetry)) := by rw [Json.sortKeys]
  have htelemetry : Json.sortKeys (.obj (Json.sortFields (Json.sortMembers r.telemetry))) = Json.sortKeys (.obj r.telemetry) := by
    rw [← hobj]
    exact Json.sortKeys_sortKeys _
  have hmembers : Json.sortMembers (r.job.recordFields contexts (Json.sortFields (Json.sortMembers r.telemetry)) capturedAt) =
      Json.sortMembers (r.job.recordFields contexts r.telemetry capturedAt) := by
    simp only [AdmittedJob.recordFields, Json.sortMembers, htelemetry]
  refine Json.canonicalBytes_sortKeys (legible_recordFields contexts (hobj ▸ r.legible.sortKeys) capturedAt)
    (legible_recordFields contexts r.legible capturedAt) ?_
  rw [Json.sortKeys, Json.sortKeys, hmembers]

/-- The record of a job, where its telemetry is JSON. -/
theorem record_of_telemetry {allowed : Option (Dict Text (List Text))} {telemetry : List (Text × Json F)}
    (h : Json.Legible (.obj telemetry)) (contexts : ResolvedContexts) :
    AdmittedJob.record R { r.job with allowed, telemetry := some (.obj telemetry) } contexts =
      (r.job.checked R).map (r.job.recordFields contexts telemetry) := by
  refine (bind_of_ok (show mapping _ _ = .ok telemetry from rfl)).trans ?_
  change (r.job.checked R >>= fun capturedAt => if Json.isWritable (.obj (r.job.recordFields contexts telemetry capturedAt)) then
    .ok (r.job.recordFields contexts telemetry capturedAt) else .error (.bridge "evaluation record is not finite JSON")) = _
  cases r.job.checked R with
  | error e => rfl
  | ok capturedAt => exact if_pos (legible_recordFields contexts h capturedAt).isWritable

/-- A job with the documents and the telemetry in their orders becomes what the job becomes. -/
theorem run_sorted {allowed : Option (Dict Text (List Text))} (hsame : SameAllowed allowed r.allowedDocumentIds) :
    AdmittedJob.run R { r.job with allowed, telemetry := some (Json.sortKeys (.obj r.telemetry)) } = r.job.run R := by
  have hobj : Json.sortKeys (.obj r.telemetry) = .obj (Json.sortFields (Json.sortMembers r.telemetry)) := by rw [Json.sortKeys]
  have hhydrate : AdmittedJob.hydrate R { r.job with allowed, telemetry := some (Json.sortKeys (.obj r.telemetry)) } =
      r.job.hydrate R := by
    simp only [AdmittedJob.hydrate, resolveExactContexts_congr hsame]
    rfl
  have hlaunch : ∀ contexts, AdmittedJob.launch R { r.job with allowed, telemetry := some (Json.sortKeys (.obj r.telemetry)) } contexts =
      r.job.launch R contexts := by
    intro contexts
    have hread : AdmittedJob.record R { r.job with allowed := r.allowedDocumentIds, telemetry := some (.obj r.telemetry) } contexts =
        _ := record_of_telemetry r.legible contexts
    have hsorted : AdmittedJob.record R { r.job with
        allowed, telemetry := some (.obj (Json.sortFields (Json.sortMembers r.telemetry))) } contexts = _ :=
      record_of_telemetry (hobj ▸ r.legible.sortKeys) contexts
    change r.job.record R contexts = _ at hread
    rw [AdmittedJob.launch, AdmittedJob.launch, hobj, hsorted, hread]
    cases r.job.checked R with
    | error e => rfl
    | ok capturedAt =>
      simp only [Except.map, bind, Except.bind, canonicalBytes_recordFields]
      rfl
  simp only [AdmittedJob.run, hhydrate, hlaunch]

/-- Of the payload with its keys sorted, the worker makes what its sender would make of the job. -/
theorem runAdmitted_sorted (R : WorkerRuntime F) (h : Wellformed r.evidence) :
    runAdmittedEvaluationPayload R (Json.sortFields (Json.sortMembers r.payload)) = r.job.run R := by
  obtain ⟨allowed, hsame, hadmitted⟩ := admitted_payload (R := R) h
  rw [runAdmittedEvaluationPayload, hadmitted]
  exact run_sorted hsame

/-- What was written has numbers that can be written. -/
theorem sized_of_written {bytes : List ℕ} (h : r.workerPayload = .ok bytes) : Sized r.evidence := by
  have hfields : ∀ {fields : List (Text × Json F)}, Json.isWritable (.obj fields) = true → ∀ f ∈ fields, Json.isWritable f.2 = true := by
    intro fields hwritable
    rwa [Json.isWritable, Json.membersWritable_eq_all, List.all_eq_true] at hwritable
  have hpayload : Json.isWritable (.obj r.payload) = true := by
    by_contra hnot
    rw [EvaluationRequest.workerPayload, Json.canonicalBytes, if_neg hnot] at h
    cases h
  have hevidence : Json.isWritable (evidenceMapping r.evidence : Json F) = true :=
    hfields hpayload (lit "evidence", evidenceMapping r.evidence)
      (List.mem_cons_of_mem _ (List.mem_cons_of_mem _ List.mem_cons_self))
  have hidentity : ∀ {value : ContextIdentity}, Json.isWritable (identityMapping value : Json F) = true →
      (decimal value.renderedUtf8Bytes.natAbs).length ≤ Json.intMaxStrDigits := by
    intro value hvalue
    have hint := hfields hvalue (lit "rendered_utf8_bytes", .int value.renderedUtf8Bytes) (by simp)
    rw [Json.isWritable] at hint
    exact of_decide_eq_true hint
  exact ⟨hidentity (hfields hevidence (lit "knowledge", identityMapping r.evidence.knowledge) (by simp)),
    hidentity (hfields hevidence (lit "policy", identityMapping r.evidence.policy) (by simp))⟩

/-- **The worker runs the job**: of the bytes that it is sent, it makes what its sender would make of the job, whatever the
store answers: the same error code, or the same evaluator with the same bytes of the record. -/
theorem worker_runs_job (R : WorkerRuntime F) (r : EvaluationRequest F) (h : Wellformed r.evidence) {bytes : List ℕ}
    (hbytes : r.workerPayload = .ok bytes) (hlength : bytes.length ≤ maxInputBytes) :
    ∃ payload, readPayload bytes = some payload ∧ runAdmittedEvaluationPayload R payload = r.job.run R :=
  ⟨_, readPayload_workerPayload (sized_of_written hbytes) hbytes hlength, runAdmitted_sorted R h⟩

end Sent

/-! ### From the prompt to the record -/

section Judged

variable [PyFloat F] {K : Type} {R : WorkerRuntime F} {r : EvaluationRequest F}

theorem isDigest_hexdigest (d : Sha256) : IsDigest d.hexdigest := by
  by_contra hnot
  have hread := sha256Text_hexdigest d ""
  rw [sha256Text, if_neg (show ¬(_ ∧ _) from hnot)] at hread
  cases hread

/-- What the evaluator is told of a job that is run. -/
theorem run_ok {job : AdmittedJob F} {launch : Launch} (h : job.run R = .ok launch) :
    ∃ store contexts fields, R.connect job.config job.userId = .ok store ∧
      resolveExactContexts R.sha R.pattern store job.userId job.evidence job.allowed = .ok contexts ∧
      job.record R contexts = .ok fields ∧ launch.record = Json.canonicalBytes (.obj fields) := by
  rw [AdmittedJob.run] at h
  split at h
  · cases h
  case h_2 contexts hcontexts =>
    split at h
    · cases h
    case h_2 started hlaunch =>
      cases h
      obtain ⟨store, hstore, hresolved⟩ := bind_eq_ok_iff.mp hcontexts
      obtain ⟨fields, hfields, hlaunch⟩ := bind_eq_ok_iff.mp hlaunch
      obtain ⟨activity, -, hlaunch⟩ := bind_eq_ok_iff.mp hlaunch
      cases hlaunch
      exact ⟨store, contexts, fields, mapError_eq_ok_iff.mp hstore, hresolved, hfields, rfl⟩

theorem record_ok {job : AdmittedJob F} {contexts : ResolvedContexts} {fields : List (Text × Json F)}
    (h : job.record R contexts = .ok fields) :
    ∃ telemetry capturedAt, fields = job.recordFields contexts telemetry capturedAt := by
  obtain ⟨telemetry, -, h⟩ := bind_eq_ok_iff.mp h
  obtain ⟨capturedAt, -, h⟩ := bind_eq_ok_iff.mp h
  dsimp only at h
  split_ifs at h
  exact ⟨telemetry, capturedAt, (Except.ok.inj h).symm⟩

/-- The record names the contexts of a request by their identifiers and their texts. -/
structure Names (fields : List (Text × Json F)) (rewritten : Text) (knowledge policy : List (ContextItem K)) : Prop where
  rewrittenQuery : Json.get? fields (lit "rewritten_query") = some (.str rewritten)
  knowledgeIds : Json.get? fields (lit "knowledge_context_ids") = some (.arr ((knowledge.map fun item => item.objectId.str).map .str))
  knowledgeTexts : Json.get? fields (lit "knowledge_contexts") = some (.arr ((knowledge.map ContextItem.rawText).map .str))
  policyIds : Json.get? fields (lit "policy_context_ids") = some (.arr ((policy.map fun item => item.objectId.str).map .str))
  policyTexts : Json.get? fields (lit "policy_contexts") = some (.arr ((policy.map ContextItem.rawText).map .str))
  retrieved : Json.get? fields (lit "retrieved_contexts") = some (.arr (((knowledge ++ policy).map ContextItem.rawText).map .str))
  roles : Json.get? fields (lit "context_roles") = some (.arr (((knowledge.map fun _ => lit "knowledge") ++
    policy.map fun _ => lit "policy").map .str))

/-- The record names the contexts whose evidence evaluation mode recorded, whatever the store answered. -/
theorem captured_contexts_named {knowledge policy : List (ContextItem K)} {rewritten : Text} (hk : EncodableItems knowledge)
    (hp : EncodableItems policy) (hblank : isBlank rewritten = false) (hencodable : encodable rewritten = true)
    {traceSessionId operationId chatSessionId requestId : Uuid} {G : Type} [PyFloat G] {o : TracedOperation G}
    (hevidence : o.evidence = Trace.fresh.observeAll R.sha (evaluationCalls R.sha rewritten knowledge policy))
    (hoperation : o.operationId = operationId.str) (hkind : o.kind = lit "chat_query")
    (hcollection : o.collectionType = lit "conversations") (hchat : o.wizardId = chatSessionId.str)
    (houtcome : o.outcome = lit "succeeded") (hfinished : o.finishedAt.isSome)
    (hparse : parseRequestEvidence R.sha o.payload o.userId traceSessionId.str operationId.str chatSessionId.str requestId.str =
      .ok r.evidence)
    (hsafe : ∀ store, R.connect r.job.config r.userId = .ok store → Separated R.sha R.pattern store r.userId .knowledge knowledge ∧
      Separated R.sha R.pattern store r.userId .policy policy)
    {bytes : List ℕ} (hbytes : r.workerPayload = .ok bytes) {payload : List (Text × Json F)} (hread : readPayload bytes = some payload)
    {launch : Launch} (hrun : runAdmittedEvaluationPayload R payload = .ok launch) :
    ∃ fields : List (Text × Json F), launch.record = Json.canonicalBytes (.obj fields) ∧ Names fields rewritten knowledge policy := by
  have hne : rewritten ≠ [] := by
    rintro rfl
    cases hblank
  have hcarries := carries_payload o
  rw [hevidence] at hcarries
  obtain ⟨hrewrite, hknowledge, hpolicy⟩ := evaluationCalls_subset hk hp hne hencodable
  obtain ⟨heq, -, -, -, hids⟩ := (parseRequestEvidence_ok_iff (keys_evaluationCalls hk hp hne hencodable) hrewrite hknowledge hpolicy
    hk hp hblank hencodable hcarries (isCorrelated_payload hoperation hkind hcollection hchat houtcome hfinished)).mp hparse
  rw [List.map_append, List.nodup_append] at hids
  have hwell : Wellformed r.evidence := by
    rw [heq]
    exact ⟨⟨_, rfl⟩, ⟨_, rfl⟩, ⟨_, rfl⟩, ⟨_, rfl⟩, isDigest_hexdigest _, isDigest_hexdigest _⟩
  have hlength : bytes.length ≤ maxInputBytes := by
    by_contra hlong
    rw [readPayload, if_pos (Nat.not_le.mp hlong)] at hread
    cases hread
  have hsent := readPayload_workerPayload (sized_of_written hbytes) hbytes hlength
  rw [Option.some.inj (hread.symm.trans hsent), runAdmitted_sorted R hwell] at hrun
  obtain ⟨store, contexts, fields, hstore, hresolved, hrecord, hfile⟩ := run_ok hrun
  obtain ⟨hksafe, hpsafe⟩ := hsafe store hstore
  obtain ⟨hktexts, hptexts⟩ := resolveExactContexts_ok_iff.mp hresolved
  rw [show r.job.evidence.knowledge = _ from congrArg RequestEvidence.knowledge heq] at hktexts
  rw [show r.job.evidence.policy = _ from congrArg RequestEvidence.policy heq] at hptexts
  have hcontexts : contexts = ⟨knowledge.map ContextItem.rawText, policy.map ContextItem.rawText⟩ :=
    congrArg₂ ResolvedContexts.mk ((fetchContexts_iff hk hids.1 hksafe).mp hktexts).1
      ((fetchContexts_iff hp hids.2.1 hpsafe).mp hptexts).1
  subst hcontexts
  obtain ⟨telemetry, capturedAt, rfl⟩ := record_ok hrecord
  refine ⟨_, hfile, ?_⟩
  have hjob : r.job.evidence = _ := heq
  constructor
  · change some (Json.str r.job.evidence.rewrittenQuery) = _
    rw [hjob]
  · change some (Json.arr (r.job.evidence.knowledge.ids.map .str)) = _
    rw [hjob]
    rfl
  · rfl
  · change some (Json.arr (r.job.evidence.policy.ids.map .str)) = _
    rw [hjob]
    rfl
  · rfl
  · rw [List.map_append]
    rfl
  · change some (Json.arr ((List.replicate (knowledge.map ContextItem.rawText).length (lit "knowledge") ++
      List.replicate (policy.map ContextItem.rawText).length (lit "policy")).map Json.str)) = _
    rw [List.length_map, List.length_map, List.map_const', List.map_const']

/-- **What is judged is what was used**: where a request succeeded in evaluation mode, its evidence was read from its trace
and sent to the worker, and the worker starts the evaluator, the file of the record names the rewrite and, in their order,
the identifiers, the texts and the roles of the contexts that the prompt was made of; whatever the store answered. -/
theorem judged_contexts_used [LinearOrder K] {rewritten : Text} {encode : Text → List ℕ} {B : PromptBudgets}
    {facts guidelines : List (ContextItem K)} {b : BudgetedPrompt K}
    (hprompt : buildBudgetedPrompt encode B rewritten facts guidelines = .ok b)
    (htexts : ∀ item ∈ b.knowledge ++ b.policy, encodable item.rawText = true)
    (hblank : isBlank rewritten = false) (hencodable : encodable rewritten = true)
    {traceSessionId operationId chatSessionId requestId : Uuid} {G : Type} [PyFloat G] {o : TracedOperation G}
    (hevidence : o.evidence = Trace.fresh.observeAll R.sha (evaluationCalls R.sha rewritten b.knowledge b.policy))
    (hoperation : o.operationId = operationId.str) (hkind : o.kind = lit "chat_query")
    (hcollection : o.collectionType = lit "conversations") (hchat : o.wizardId = chatSessionId.str)
    (houtcome : o.outcome = lit "succeeded") (hfinished : o.finishedAt.isSome)
    (hparse : parseRequestEvidence R.sha o.payload o.userId traceSessionId.str operationId.str chatSessionId.str requestId.str =
      .ok r.evidence)
    (hsafe : ∀ store, R.connect r.job.config r.userId = .ok store →
      Separated R.sha R.pattern store r.userId .knowledge b.knowledge ∧ Separated R.sha R.pattern store r.userId .policy b.policy)
    {bytes : List ℕ} (hbytes : r.workerPayload = .ok bytes) {payload : List (Text × Json F)} (hread : readPayload bytes = some payload)
    {launch : Launch} (hrun : runAdmittedEvaluationPayload R payload = .ok launch) :
    b.prompt = answerPrompt rewritten b.knowledge b.policy ∧
      ∃ fields : List (Text × Json F), launch.record = Json.canonicalBytes (.obj fields) ∧
        Names fields rewritten b.knowledge b.policy := by
  obtain ⟨hk, hp⟩ := encodableItems_of_prompt hprompt htexts
  exact ⟨(budgetedPrompt_spec hprompt).prompt, captured_contexts_named hk hp hblank hencodable hevidence hoperation hkind hcollection
    hchat houtcome hfinished hparse hsafe hbytes hread hrun⟩

end Judged

/-! ### One chunk of each collection, sent to a worker -/

/-- A store that has both chunks. -/
def bothSample : ContextStore where
  exists? _ := .ok true
  fetchObjectsByIds _ ids := .ok (some (([factSample, ruleSample].filter fun item => item.objectId.str ∈ ids).map objectSample))

/-- A worker of this store. -/
def workerSample : WorkerRuntime WholeFloat where
  sha := shaSample
  pattern := patternSample
  str _ := []
  int _ := .ok 0
  same _ _ := false
  fromisoformat t := some (some t)
  connect _ _ := .ok bothSample

/-- The job of the request with both chunks. -/
def requestSample : EvaluationRequest WholeFloat where
  config := .empty
  userId := lit "user"
  evidence := ⟨lit "user", (Uuid.ofNat 5).str, (Uuid.ofNat 3).str, (Uuid.ofNat 4).str, (Uuid.ofNat 6).str, lit "opening hours",
    identityOf shaSample .knowledge [factSample], identityOf shaSample .policy [ruleSample]⟩
  allowedDocumentIds := none
  source := lit "e2e"
  requestId := (Uuid.ofNat 6).str
  conversationId := (Uuid.ofNat 4).str
  originalQuery := lit "when?"
  response := lit "at nine"
  telemetry := []
  legible := .obj .nil (List.forall_mem_nil _)
  capturedAt := lit "2025-01-01T00:00:02Z"
  directory := lit "reports"
  stem := lit "one"
  exactNames := false
  evaluationJobId := (Uuid.ofNat 9).str
  acceptanceActivityPath := none
  reference := none
  referenceContextIds := []

theorem wellformed_requestSample : Wellformed requestSample.evidence :=
  ⟨⟨_, rfl⟩, ⟨_, rfl⟩, ⟨_, rfl⟩, ⟨_, rfl⟩, isDigest_hexdigest _, isDigest_hexdigest _⟩

theorem written_requestSample : ∃ bytes, requestSample.workerPayload = .ok bytes ∧ bytes.length ≤ maxInputBytes := by
  obtain ⟨bytes, hbytes, hlength⟩ := exists_ok_of_toOption (x := requestSample.workerPayload)
    (f := fun bytes => decide (bytes.length ≤ maxInputBytes)) (c := true) (by decide +kernel)
  exact ⟨bytes, hbytes, of_decide_eq_true hlength⟩

theorem worker_runs_job_sample : ∃ bytes payload, requestSample.workerPayload = .ok bytes ∧ readPayload bytes = some payload ∧
    runAdmittedEvaluationPayload workerSample payload = requestSample.job.run workerSample := by
  obtain ⟨bytes, hbytes, hlength⟩ := written_requestSample
  obtain ⟨payload, hread, hrun⟩ := worker_runs_job workerSample requestSample wellformed_requestSample hbytes hlength
  exact ⟨bytes, payload, hbytes, hread, hrun⟩

theorem separated_bothSample (p : TracePrefix) {item : ContextItem Unit} (hitem : item ∈ [factSample, ruleSample]) :
    Separated shaSample patternSample bothSample (lit "user") p [item] := by
  have hpairs : ∀ item ∈ [factSample, ruleSample], ∀ other ∈ [factSample, ruleSample],
      shaSample (itemInput item other.rawText) = itemDigest shaSample item → other.rawText = item.rawText := by decide +kernel
  rintro objects ⟨name, -, -, hanswer⟩ item' hitem' object hobject ps text hps htext ⟨-, hdigest⟩
  cases hanswer
  rw [List.mem_singleton.mp hitem'] at hdigest ⊢
  obtain ⟨other, hother, rfl⟩ := List.mem_map.mp hobject
  cases hps
  cases htext
  exact hpairs item hitem other (List.mem_of_mem_filter hother) hdigest

theorem judged_contexts_used_sample : ∃ bytes payload launch, ∃ fields : List (Text × Json WholeFloat),
    requestSample.workerPayload = .ok bytes ∧ readPayload bytes = some payload ∧ runAdmittedEvaluationPayload workerSample payload = .ok launch ∧
    launch.record = Json.canonicalBytes (.obj fields) ∧ Names fields (lit "opening hours") [factSample] [ruleSample] := by
  obtain ⟨bytes, hbytes, hlength⟩ := written_requestSample
  have hread := readPayload_workerPayload (sized_of_written hbytes) hbytes hlength
  have hstarted : (requestSample.job.run workerSample).toOption.isSome = true := by decide +kernel
  obtain ⟨launch, hlaunch⟩ := Option.isSome_iff_exists.mp hstarted
  rw [toOption_eq_some_iff, ← runAdmitted_sorted workerSample wellformed_requestSample] at hlaunch
  have hevidence : operationSample.evidence =
      Trace.fresh.observeAll shaSample (evaluationCalls shaSample (lit "opening hours") [factSample] [ruleSample]) := by
    rw [operationSample]
  have hk : EncodableItems [factSample] := by decide +kernel
  have hp : EncodableItems [ruleSample] := by decide +kernel
  have hoperation : operationSample.operationId = (Uuid.ofNat 3).str := rfl
  have hchat : operationSample.wizardId = (Uuid.ofNat 4).str := rfl
  have hparse : parseRequestEvidence shaSample operationSample.payload operationSample.userId (Uuid.ofNat 5).str (Uuid.ofNat 3).str
      (Uuid.ofNat 4).str (Uuid.ofNat 6).str = .ok requestSample.evidence := by
    have hne : lit "opening hours" ≠ [] := by decide
    have hencodable : encodable (lit "opening hours") = true := by decide +kernel
    have hcarries := carries_payload operationSample
    rw [hevidence] at hcarries
    obtain ⟨hrewrite, hknowledge, hpolicy⟩ := evaluationCalls_subset hk hp hne hencodable
    exact (parseRequestEvidence_ok_iff (keys_evaluationCalls hk hp hne hencodable) hrewrite hknowledge hpolicy hk hp
      (by decide +kernel) hencodable hcarries (isCorrelated_payload hoperation rfl rfl hchat rfl rfl)).mpr ⟨rfl, by decide +kernel⟩
  obtain ⟨-, fields, hfile, hnames⟩ := judged_contexts_used (R := workerSample) buildBudgetedPrompt_sample (by decide +kernel)
    (by decide +kernel) (by decide +kernel) hevidence hoperation rfl rfl hchat rfl rfl hparse (fun store hstore => by
      cases hstore
      exact ⟨separated_bothSample _ (by simp), separated_bothSample _ (by simp)⟩) hbytes hread hlaunch
  exact ⟨bytes, _, launch, fields, hbytes, hread, hlaunch, hfile, hnames⟩

end EvaluationBridge

end TenantRag

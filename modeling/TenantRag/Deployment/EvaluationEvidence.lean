import TenantRag.Deployment.EvaluationCapture
import TenantRag.Foundations.JsonVerbatim

/-!
# Evidence of a request

`parse_request_evidence` of `deployment/evaluation_bridge.py`, which reads the contexts and the rewrite of a
request from the trace of its operation.

## The model

The trace is the JSON object that the diagnostics endpoint answers, for an operation with the stages that it
likes.

## What is proved

* `contextIdentity_ok_iff` — of a context that was recorded whole, its identifiers, fingerprints, digest and
  size are read back; of another, nothing.
* `parseRequestEvidence_ok_iff` — and so is the evidence of a request.
* `captured_evidence_parsed` — for the calls that evaluation mode makes of a prompt.
-/

namespace TenantRag

/-- What the bridge raises. -/
inductive BridgeError where
  /-- `EvaluationBridgeError(message)`. -/
  | bridge (message : String)
  /-- Another exception. -/
  | raised (e : PyError)
  deriving DecidableEq

/-- `ContextIdentity`. -/
structure ContextIdentity where
  /-- `collection`. -/
  collection : Text
  /-- `ids`. -/
  ids : List Text
  /-- `fingerprints`. -/
  fingerprints : List Text
  /-- `digest`. -/
  digest : Text
  /-- `rendered_utf8_bytes`. -/
  renderedUtf8Bytes : ℤ
  deriving DecidableEq

/-- `RequestEvidence`. -/
structure RequestEvidence where
  /-- `user_id`. -/
  userId : Text
  /-- `trace_session_id`. -/
  traceSessionId : Text
  /-- `operation_id`. -/
  operationId : Text
  /-- `chat_session_id`. -/
  chatSessionId : Text
  /-- `request_id`. -/
  requestId : Text
  /-- `rewritten_query`. -/
  rewrittenQuery : Text
  /-- `knowledge`. -/
  knowledge : ContextIdentity
  /-- `policy`. -/
  policy : ContextIdentity
  deriving DecidableEq

/-- `_Operation`. -/
structure TracedOperation (F : Type) where
  /-- `operation_id`. -/
  operationId : Text
  /-- `kind`. -/
  kind : Text
  /-- `user_id`. -/
  userId : Text
  /-- `collection_type`. -/
  collectionType : Text
  /-- `wizard_id`. -/
  wizardId : Text
  /-- `started_at`. -/
  startedAt : Text
  /-- `finished_at`. -/
  finishedAt : Option Text
  /-- `outcome`. -/
  outcome : Text
  /-- `task_id`. -/
  taskId : Option Text
  /-- `related_tasks`. -/
  relatedTasks : Dict Text Text
  /-- `stages`, each with its payload. -/
  stages : Dict Text (Json F)
  /-- `counts`, `flags`, `digests`, `samples` and `texts`. -/
  evidence : Trace

/-- A string, or `None`. -/
def stringOrNull {F : Type} (value : Option Text) : Json F := value.elim .null .str

/-- `_Operation.payload()`. -/
def TracedOperation.payload {F : Type} (o : TracedOperation F) : List (Text × Json F) :=
  [(lit "operation_id", .str o.operationId), (lit "kind", .str o.kind), (lit "user_id", .str o.userId),
    (lit "collection_type", .str o.collectionType), (lit "wizard_id", .str o.wizardId), (lit "task_id", stringOrNull o.taskId),
    (lit "related_tasks", .obj (sortedFields o.relatedTasks .str)), (lit "started_at", .str o.startedAt),
    (lit "finished_at", stringOrNull o.finishedAt), (lit "outcome", .str o.outcome), (lit "stages", .obj (sortedFields o.stages id)),
    (lit "counts", .obj o.evidence.countsPayload), (lit "flags", .obj o.evidence.flagsPayload),
    (lit "digests", .obj o.evidence.digestsPayload), (lit "samples", .obj o.evidence.samplesPayload),
    (lit "texts", .obj o.evidence.textsPayload)]

namespace EvaluationBridge

variable {F K : Type} [PyFloat F]

/-! ### Checks -/

/-- `_canonical_uuid(value, name)` of a string. -/
def canonicalUuid (value : Text) (name : String) : Except BridgeError Text :=
  match Uuid.ofText value with
  | none => .error (.bridge s!"{name} is malformed")
  | some parsed => if parsed.str = value then .ok parsed.str else .error (.bridge s!"{name} is not canonical")

/-- `_canonical_uuid(value, name)`. -/
def canonicalUuidAt (value : Option (Json F)) (name : String) : Except BridgeError Text :=
  match value with
  | some (.str t) => canonicalUuid t name
  | _ => .error (.bridge s!"{name} is missing")

/-- A character of `"0123456789abcdef"`. -/
def isLowerHex (c : PyChar) : Bool := (48 ≤ c.val && c.val ≤ 57) || (97 ≤ c.val && c.val ≤ 102)

/-- `_sha256(value, name)` of a string. -/
def sha256Text (value : Text) (name : String) : Except BridgeError Text :=
  if value.length = 64 ∧ value.all isLowerHex then .ok value else .error (.bridge s!"{name} is malformed")

/-- `_sha256(value, name)`. -/
def sha256At (value : Option (Json F)) (name : String) : Except BridgeError Text :=
  match value with
  | some (.str t) => sha256Text t name
  | _ => .error (.bridge s!"{name} is malformed")

/-- `_mapping(value, name)`. -/
def mapping (value : Option (Json F)) (name : String) : Except BridgeError (List (Text × Json F)) :=
  match value with
  | some (.obj fields) => .ok fields
  | _ => .error (.bridge s!"{name} is malformed")

/-- An integer, no boolean, that is not negative. -/
def naturalAt (value : Option (Json F)) : Option ℕ :=
  match value with
  | some (.int (.ofNat n)) => some n
  | _ => none

/-- `value == n`: numbers are compared by their values, and a boolean is a number. -/
def isNumber (value : Option (Json F)) (n : ℕ) : Bool :=
  match value with
  | some (.int k) => k = n
  | some (.num x) => PyFloat.whole? x = some (n : ℤ)
  | some (.bool b) => n = b.toNat
  | _ => false

/-! ### The trace -/

/-- `complete_sample(name)`, where so many items were used. -/
def completeSample (samples : List (Text × Json F)) (name : Text) (count : ℕ) : Except BridgeError (List Text) := do
  let sample ← mapping (Json.get? samples name) (shown name)
  match Json.get? sample (lit "items") with
  | some (.arr items) =>
      match nonemptyStrings items with
      | some texts =>
          if isNumber (Json.get? sample (lit "exact_count")) count ∧ isBool (Json.get? sample (lit "truncated")) false ∧
              items.length = count then .ok texts
          else .error (.bridge s!"{shown name} is incomplete")
      | none => .error (.bridge s!"{shown name} is incomplete")
  | _ => .error (.bridge s!"{shown name} is incomplete")

/-- A fingerprint begins with its identifier; behind it stands a digest. -/
def fingerprintDigest (collection identifier fingerprint : Text) : Except BridgeError Text :=
  if (identifier ++ lit ":").isPrefixOf fingerprint then
    sha256Text (fingerprint.drop (identifier ++ lit ":").length) "context fingerprint"
  else .error (.bridge s!"{shown collection} fingerprint order is invalid")

/-- `_context_identity(operation, collection)`. -/
def contextIdentity (operation : List (Text × Json F)) (p : TracePrefix) : Except BridgeError ContextIdentity := do
  let counts ← mapping (Json.get? operation (lit "counts")) "evidence counts"
  let flags ← mapping (Json.get? operation (lit "flags")) "evidence flags"
  let digests ← mapping (Json.get? operation (lit "digests")) "evidence digests"
  let samples ← mapping (Json.get? operation (lit "samples")) "evidence samples"
  match naturalAt (Json.get? counts (p.qwenName "_used_count")),
      naturalAt (Json.get? counts (p.qwenName "_context_utf8_bytes")),
      isBool (Json.get? flags (p.qwenName "_used_proof_truncated")) false with
  | some count, some renderedBytes, true => do
      let identifiers ← completeSample samples (p.qwenName "_used_ids") count
      let fingerprints ← completeSample samples (p.qwenName "_used_item_fingerprints") count
      let canonicalIds ← identifiers.mapM fun item => canonicalUuid item "context ID"
      if canonicalIds.Nodup then
        let _ ← (canonicalIds.zip fingerprints).mapM fun e => fingerprintDigest p.text e.1 e.2
        let digest ← sha256At (Json.get? digests (p.qwenName "_context_sha256")) s!"{shown p.text} context digest"
        .ok ⟨p.text, canonicalIds, fingerprints, digest, renderedBytes⟩
      else .error (.bridge s!"{shown p.text} context IDs are duplicated")
  | _, _, _ => .error (.bridge s!"{shown p.text} evidence is incomplete")

/-- `isinstance(value, str)`. -/
def isText (value : Option (Json F)) : Bool :=
  match value with
  | some (.str _) => true
  | _ => false

/-- The trace is that of this request, and it succeeded. -/
def isCorrelated (operation : List (Text × Json F)) (userId operationId chatSessionId : Text) : Bool :=
  Json.isStr (Json.get? operation (lit "operation_id")) operationId &&
    Json.isStr (Json.get? operation (lit "kind")) (lit "chat_query") &&
    Json.isStr (Json.get? operation (lit "user_id")) userId &&
    Json.isStr (Json.get? operation (lit "collection_type")) (lit "conversations") &&
    Json.isStr (Json.get? operation (lit "wizard_id")) chatSessionId &&
    Json.isStr (Json.get? operation (lit "outcome")) (lit "succeeded") && isText (Json.get? operation (lit "finished_at"))

/-- The rewrite in the trace, where it is complete. -/
def rewrittenQuery (flags texts : List (Text × Json F)) : Option Text :=
  match Json.get? texts (lit "granite_rewritten_query") with
  | some (.str t) =>
      if !isBlank t && isBool (Json.get? flags (lit "granite_rewritten_query_truncated")) false then some t else none
  | _ => none

/-- The contexts of the trace, which share no item. -/
def disjointContexts (operation : List (Text × Json F)) : Except BridgeError (ContextIdentity × ContextIdentity) := do
  let knowledge ← contextIdentity operation .knowledge
  let policy ← contextIdentity operation .policy
  if knowledge.ids.any fun identifier => policy.ids.contains identifier then
    .error (.bridge "Knowledge and Policy context IDs overlap")
  else .ok (knowledge, policy)

/-- `parse_request_evidence(operation, user_id=…, trace_session_id=…, operation_id=…, chat_session_id=…, request_id=…)`. -/
def parseRequestEvidence (sha : List ℕ → Sha256) (operation : List (Text × Json F))
    (userId traceSessionId operationId chatSessionId requestId : Text) : Except BridgeError RequestEvidence := do
  let traceSession ← canonicalUuid traceSessionId "trace session ID"
  let operationKey ← canonicalUuid operationId "operation ID"
  let chatSession ← canonicalUuid chatSessionId "chat session ID"
  let request ← canonicalUuid requestId "request ID"
  if !isCorrelated operation userId operationKey chatSession then
    .error (.bridge "evaluation evidence correlation is invalid")
  else
    let flags ← mapping (Json.get? operation (lit "flags")) "evidence flags"
    let texts ← mapping (Json.get? operation (lit "texts")) "evidence texts"
    let digests ← mapping (Json.get? operation (lit "digests")) "evidence digests"
    match rewrittenQuery flags texts with
    | none => .error (.bridge "official rewritten query evidence is incomplete")
    | some rewritten =>
        let encoded ← (encodeUtf8 rewritten).mapError BridgeError.raised
        let expected ← (contentDigest sha (lit "chat-granite-rewritten-query-v1") [encoded]).mapError BridgeError.raised
        if Json.isStr (Json.get? digests (lit "granite_rewritten_query_sha256")) expected then
          let contexts ← disjointContexts operation
          .ok ⟨userId, traceSession, operationKey, chatSession, request, rewritten, contexts.1, contexts.2⟩
        else .error (.bridge "official rewritten query digest does not match")

/-! ### What is read of a context -/

/-- The identity of a context. -/
def identityOf (sha : List ℕ → Sha256) (p : TracePrefix) (items : List (ContextItem K)) : ContextIdentity :=
  ⟨p.text, items.map fun item => item.objectId.str, items.map (fingerprintText sha),
    (sha (framed (p.qwenDomain.map Fin.val) (itemParts items))).hexdigest, renderedBytes items⟩

theorem canonicalUuid_str (u : Uuid) (name : String) : canonicalUuid u.str name = .ok u.str := by
  rw [canonicalUuid, Uuid.ofText_str]
  exact if_pos rfl

theorem isLowerHex_hexChar (d : Digit) : isLowerHex (hexChar d) = true := by
  revert d
  decide

theorem sha256Text_hexdigest (d : Sha256) (name : String) : sha256Text d.hexdigest name = .ok d.hexdigest := by
  have hall : d.hexdigest.all isLowerHex = true := by
    rw [Sha256.hexdigest, List.all_map, List.all_eq_true]
    exact fun digit _ => isLowerHex_hexChar digit
  exact if_pos ⟨d.length_hexdigest, hall⟩

theorem fingerprintDigest_fingerprintText (sha : List ℕ → Sha256) (collection : Text) (item : ContextItem K) :
    fingerprintDigest collection item.objectId.str (fingerprintText sha item) = .ok (itemDigest sha item).hexdigest := by
  have hprefix : (item.objectId.str ++ lit ":").isPrefixOf (fingerprintText sha item) = true :=
    List.isPrefixOf_iff_prefix.mpr (List.prefix_append _ _)
  rw [fingerprintDigest, if_pos hprefix, fingerprintText, List.drop_left]
  exact sha256Text_hexdigest _ _

section Context

variable {t : Trace}

/-- A complete sample of tokens is read as its items. -/
theorem completeSample_samples {name : Text} {items : List Text}
    (h : t.samples.get? name = some ⟨items.length, items, false⟩) (hne : ∀ s ∈ items, s ≠ []) :
    completeSample (F := F) t.samplesPayload name items.length = .ok items := by
  have hsample : mapping (Json.get? (F := F) t.samplesPayload name) (shown name) =
      .ok [(lit "exact_count", .int items.length), (lit "items", .arr (items.map .str)), (lit "truncated", .bool false)] := by
    rw [Trace.samplesPayload, get?_sortedFields, h]
    rfl
  have hitems : Json.get? (F := F) [(lit "exact_count", .int items.length), (lit "items", .arr (items.map .str)),
      (lit "truncated", .bool false)] (lit "items") = some (.arr (items.map .str)) := rfl
  have hcount : Json.get? (F := F) [(lit "exact_count", .int items.length), (lit "items", .arr (items.map .str)),
      (lit "truncated", .bool false)] (lit "exact_count") = some (.int items.length) := rfl
  have htruncated : Json.get? (F := F) [(lit "exact_count", .int items.length), (lit "items", .arr (items.map .str)),
      (lit "truncated", .bool false)] (lit "truncated") = some (.bool false) := rfl
  refine bind_eq_ok_iff.mpr ⟨_, hsample, ?_⟩
  simp only [hitems, nonemptyStrings_map hne, hcount, htruncated, isNumber, isBool, List.length_map]
  simp

/-- The payload of an operation carries its evidence. -/
structure Carries (operation : List (Text × Json F)) (t : Trace) : Prop where
  counts : Json.get? operation (lit "counts") = some (.obj t.countsPayload)
  flags : Json.get? operation (lit "flags") = some (.obj t.flagsPayload)
  digests : Json.get? operation (lit "digests") = some (.obj t.digestsPayload)
  samples : Json.get? operation (lit "samples") = some (.obj t.samplesPayload)
  texts : Json.get? operation (lit "texts") = some (.obj t.textsPayload)

variable {sha : List ℕ → Sha256} {log : List Call} {operation : List (Text × Json F)} {p : TracePrefix}
  {items : List (ContextItem K)}

omit [PyFloat F] in
theorem naturalAt_counts {name : Text} {n : ℕ} (h : t.counts.get? name = some n) :
    naturalAt (Json.get? (F := F) t.countsPayload name) = some n := by
  rw [Trace.countsPayload, get?_sortedFields, h]
  rfl

omit [PyFloat F] in
theorem sha256At_digests {name : Text} {d : Sha256} (h : t.digests.get? name = some d.hexdigest) (label : String) :
    sha256At (Json.get? (F := F) t.digestsPayload name) label = .ok d.hexdigest := by
  rw [Trace.digestsPayload, get?_sortedFields, h]
  exact sha256Text_hexdigest d label

/-- A context of no more items than the limit, recorded once by either mode, is read where its items are distinct. -/
theorem contextIdentity_of_calls (honce : (log.flatMap Call.keys).Nodup) (hlog : usedContextCalls sha p items ⊆ log)
    (h : EncodableItems items) (hlength : items.length ≤ traceSampleLimit)
    (hcarries : Carries operation (Trace.fresh.observeAll sha log)) :
    contextIdentity operation p = if (items.map fun item => item.objectId.str).Nodup then .ok (identityOf sha p items)
      else .error (.bridge s!"{shown p.text} context IDs are duplicated") := by
  have hidTokens : ∀ s ∈ items.map fun item => item.objectId.str, isSampleToken s = true ∧ s ≠ [] := by
    intro s hs
    obtain ⟨item, -, rfl⟩ := List.mem_map.mp hs
    exact ⟨isSampleToken_str item.objectId, Uuid.str_ne_nil _⟩
  have hfingerprintTokens : ∀ s ∈ items.map (fingerprintText sha), isSampleToken s = true ∧ s ≠ [] := by
    intro s hs
    obtain ⟨item, -, rfl⟩ := List.mem_map.mp hs
    exact ⟨isSampleToken_fingerprintText sha item, by simp [fingerprintText, Uuid.str_ne_nil]⟩
  have call {c : Call} (i : ℕ) (hc : (usedContextCalls sha p items)[i]? = some c) : c ∈ log := hlog (List.mem_of_getElem? hc)
  rw [usedContextCalls_encodable sha p h] at call
  have hcount := Trace.counts_of_once sha honce (call 0 rfl) (p.isRequiredText_qwenName (by decide))
  have hbytes := Trace.counts_of_once sha honce (call 1 rfl) (p.isRequiredText_qwenName (by decide))
  have hflag := Trace.flags_of_once sha honce (call 4 rfl) (p.isRequiredText_qwenName (by decide))
  have hdigest := Trace.digests_of_once sha honce (call 5 rfl) (p.isRequiredText_qwenName (by decide)) p.isDigestDomain_qwenDomain
  have hidSample := completeSample_samples (F := F) (Trace.samples_of_once sha honce
    (by rw [List.length_map]; exact call 2 rfl) (p.isRequiredText_qwenName (by decide)) (fun s hs => (hidTokens s hs).1)
    (by rwa [List.length_map])) fun s hs => (hidTokens s hs).2
  have hfingerprintSample := completeSample_samples (F := F) (Trace.samples_of_once sha honce
    (by rw [List.length_map]; exact call 3 rfl) (p.isRequiredText_qwenName (by decide))
    (fun s hs => (hfingerprintTokens s hs).1) (by rwa [List.length_map])) fun s hs => (hfingerprintTokens s hs).2
  rw [List.length_map] at hidSample hfingerprintSample
  have hnottruncated : decide (traceSampleLimit < items.length) = false := by simpa using hlength
  rw [hnottruncated] at hflag
  have hcomplete : isBool (Json.get? (F := F) (Trace.fresh.observeAll sha log).flagsPayload
      (p.qwenName "_used_proof_truncated")) false = true := by
    rw [get?_flagsPayload hflag]
    rfl
  -- the checks in their order
  refine (bind_of_ok (by rw [hcarries.counts]; rfl)).trans ((bind_of_ok (by rw [hcarries.flags]; rfl)).trans
    ((bind_of_ok (by rw [hcarries.digests]; rfl)).trans ((bind_of_ok (by rw [hcarries.samples]; rfl)).trans ?_)))
  rw [naturalAt_counts hcount, naturalAt_counts hbytes, hcomplete]
  have hcanonical : (items.map fun item => item.objectId.str).mapM (fun item => canonicalUuid item "context ID") =
      .ok (items.map fun item => item.objectId.str) := by
    rw [mapM_eq_ok_iff, List.forall₂_map_left_iff, List.forall₂_map_right_iff]
    exact List.forall₂_same.mpr fun item _ => canonicalUuid_str _ _
  refine (bind_of_ok hidSample).trans ((bind_of_ok hfingerprintSample).trans ((bind_of_ok hcanonical).trans ?_))
  refine if_congr Iff.rfl (bind_eq_ok_iff.mpr ⟨items.map fun item => (itemDigest sha item).hexdigest, ?_, ?_⟩) rfl
  · rw [List.zip_map', mapM_eq_ok_iff, List.forall₂_map_left_iff, List.forall₂_map_right_iff]
    exact List.forall₂_same.mpr fun item _ => fingerprintDigest_fingerprintText sha p.text item
  · exact bind_eq_ok_iff.mpr ⟨_, sha256At_digests hdigest _, rfl⟩

theorem nodup_strs_iff : (items.map fun item => item.objectId.str).Nodup ↔ (items.map ContextItem.objectId).Nodup := by
  rw [← List.nodup_map_iff (f := Uuid.str) Uuid.str_injective, List.map_map]
  rfl

/-- What is read was not cut. -/
theorem proofTruncated_of_ok {identity : ContextIdentity} {flags : List (Text × Json F)}
    (hok : contextIdentity operation p = .ok identity) (hflags : Json.get? operation (lit "flags") = some (.obj flags)) :
    isBool (Json.get? flags (p.qwenName "_used_proof_truncated")) false = true := by
  obtain ⟨counts, -, hok⟩ := bind_eq_ok_iff.mp hok
  obtain ⟨flags', hflags', hok⟩ := bind_eq_ok_iff.mp hok
  rw [hflags] at hflags'
  cases hflags'
  obtain ⟨digests, -, hok⟩ := bind_eq_ok_iff.mp hok
  obtain ⟨samples, -, hok⟩ := bind_eq_ok_iff.mp hok
  split at hok
  · assumption
  · cases hok

/-- Of a context that was cut, or holds an item twice, nothing is read. -/
theorem contextIdentity_ok_iff (honce : (log.flatMap Call.keys).Nodup) (hlog : usedContextCalls sha p items ⊆ log)
    (h : EncodableItems items) (hcarries : Carries operation (Trace.fresh.observeAll sha log)) {identity : ContextIdentity} :
    contextIdentity operation p = .ok identity ↔
      identity = identityOf sha p items ∧ items.length ≤ traceSampleLimit ∧ (items.map ContextItem.objectId).Nodup := by
  constructor
  · intro hok
    have hlength : items.length ≤ traceSampleLimit := by
      have hcall : Call.setFlag (p.qwenName "_used_proof_truncated") (traceSampleLimit < items.length) ∈ log :=
        hlog (usedContextCalls_encodable sha p h ▸ by simp)
      have hflag := Trace.flags_of_once sha honce hcall (p.isRequiredText_qwenName (by decide))
      have hcomplete := proofTruncated_of_ok hok hcarries.flags
      rw [get?_flagsPayload hflag] at hcomplete
      simpa [isBool] using hcomplete
    rw [contextIdentity_of_calls honce hlog h hlength hcarries] at hok
    split_ifs at hok with hids
    exact ⟨(Except.ok.inj hok).symm, hlength, nodup_strs_iff.mp hids⟩
  · rintro ⟨rfl, hlength, hids⟩
    rw [contextIdentity_of_calls honce hlog h hlength hcarries, if_pos (nodup_strs_iff.mpr hids)]

/-! ### What is read of a request -/

/-- A text of no more bytes than the limit is there, and no other; the flag says which. -/
theorem texts_of_once (sha : List ℕ → Sha256) (honce : (log.flatMap Call.keys).Nodup) {name value : Text}
    (hc : Call.setText name value ∈ log) (hname : isRequiredText name 96 = true) (hne : value ≠ []) (h : encodable value = true) :
    (Trace.fresh.observeAll sha log).texts.get? name =
        (if (value.flatMap utf8Bytes).length ≤ traceTextMaxUtf8Bytes then some value else none) ∧
      (Trace.fresh.observeAll sha log).flags.get? (Trace.truncatedKey name) =
        some (decide (traceTextMaxUtf8Bytes < (value.flatMap utf8Bytes).length)) := by
  have hrecord : ∀ u : Trace, u.observe sha (.setText name value) = u.record (.text name value (value.flatMap utf8Bytes).length) := by
    intro u
    rw [Trace.observe, recording_setText hname hne h]
  have htext : (Trace.fresh.observeAll sha log).read (.text name) =
      if (value.flatMap utf8Bytes).length ≤ traceTextMaxUtf8Bytes then some (.text value) else none := by
    refine Trace.read_of_once honce hc (by simp [Call.keys]) fun u hu => ?_
    rw [hrecord, Trace.record]
    split_ifs with hlong hshort
    · omega
    · exact hu
    · simp only [Trace.read, Dict.get?_set_self, Option.map_some]
    · omega
  have hflag : (Trace.fresh.observeAll sha log).read (.flag (Trace.truncatedKey name)) =
      some (.flag (decide (traceTextMaxUtf8Bytes < (value.flatMap utf8Bytes).length))) := by
    refine Trace.read_of_once honce hc (by simp [Call.keys]) fun u _ => ?_
    rw [hrecord, Trace.record]
    split_ifs with hlong
    · simp only [Trace.read, Dict.get?_set_self, Option.map_some, hlong, decide_true]
    · simp only [Trace.read, Dict.get?_set_self, Option.map_some, hlong, decide_false]
  refine ⟨?_, Trace.flags_of_read hflag⟩
  rw [Trace.read] at htext
  split_ifs at htext ⊢ with hshort
  · obtain ⟨v, hv, heq⟩ := Option.map_eq_some_iff.mp htext
    cases heq
    exact hv
  · exact Option.map_eq_none_iff.mp htext

variable {rewritten : Text}

omit [PyFloat F] in
theorem rewrittenQuery_of_calls (honce : (log.flatMap Call.keys).Nodup) (hrewrite : rewriteCalls rewritten ⊆ log)
    (hblank : isBlank rewritten = false) (h : encodable rewritten = true) :
    rewrittenQuery (F := F) (Trace.fresh.observeAll sha log).flagsPayload (Trace.fresh.observeAll sha log).textsPayload =
      if (rewritten.flatMap utf8Bytes).length ≤ traceTextMaxUtf8Bytes then some rewritten else none := by
  have hne : rewritten ≠ [] := by
    rintro rfl
    cases hblank
  rw [rewriteCalls_eq h] at hrewrite
  obtain ⟨htext, hflag⟩ := texts_of_once sha honce (hrewrite (List.mem_cons_of_mem _ List.mem_cons_self))
    (by decide +kernel) hne h
  have hcomplete := get?_flagsPayload (F := F) hflag
  rw [show Trace.truncatedKey (lit "granite_rewritten_query") = lit "granite_rewritten_query_truncated" by decide] at hcomplete
  rw [rewrittenQuery, Trace.textsPayload, get?_sortedFields, htext, hcomplete]
  split_ifs with hshort
  · have hcut : decide (traceTextMaxUtf8Bytes < (rewritten.flatMap utf8Bytes).length) = false := by simpa using hshort
    rw [hcut]
    simp [isBool, hblank]
  · rfl

/-- The contexts are read where they are whole, and no item stands twice in both. -/
theorem disjointContexts_ok_iff {knowledge policy : List (ContextItem K)} (honce : (log.flatMap Call.keys).Nodup)
    (hknowledge : usedContextCalls sha .knowledge knowledge ⊆ log) (hpolicy : usedContextCalls sha .policy policy ⊆ log)
    (hk : EncodableItems knowledge) (hp : EncodableItems policy) (hcarries : Carries operation (Trace.fresh.observeAll sha log))
    {contexts : ContextIdentity × ContextIdentity} :
    disjointContexts operation = .ok contexts ↔
      contexts = (identityOf sha .knowledge knowledge, identityOf sha .policy policy) ∧ knowledge.length ≤ traceSampleLimit ∧
        policy.length ≤ traceSampleLimit ∧ ((knowledge ++ policy).map ContextItem.objectId).Nodup := by
  have hoverlap : ((identityOf sha .knowledge knowledge).ids.any fun identifier =>
      (identityOf sha .policy policy).ids.contains identifier) = false ↔
      ∀ a ∈ knowledge.map ContextItem.objectId, ∀ b ∈ policy.map ContextItem.objectId, a ≠ b := by
    rw [List.any_eq_false]
    constructor
    · rintro hdisjoint a ha b hb rfl
      refine hdisjoint a.str ?_ (List.contains_iff_mem.mpr ?_)
      · obtain ⟨item, hitem, rfl⟩ := List.mem_map.mp ha
        exact List.mem_map_of_mem hitem
      · obtain ⟨item, hitem, rfl⟩ := List.mem_map.mp hb
        exact List.mem_map_of_mem hitem
    · intro hdisjoint s hs hcontains
      obtain ⟨item, hitem, rfl⟩ := List.mem_map.mp hs
      obtain ⟨other, hother, heq⟩ := List.mem_map.mp (List.contains_iff_mem.mp hcontains)
      exact hdisjoint _ (List.mem_map_of_mem hitem) _ (List.mem_map_of_mem hother) (Uuid.str_injective heq).symm
  rw [List.map_append, List.nodup_append, ← hoverlap]
  constructor
  · intro hok
    obtain ⟨k, hcontext, hok⟩ := bind_eq_ok_iff.mp hok
    obtain ⟨rfl, hklength, hkids⟩ := (contextIdentity_ok_iff honce hknowledge hk hcarries).mp hcontext
    obtain ⟨q, hcontext, hok⟩ := bind_eq_ok_iff.mp hok
    obtain ⟨rfl, hplength, hpids⟩ := (contextIdentity_ok_iff honce hpolicy hp hcarries).mp hcontext
    split_ifs at hok with hshared
    exact ⟨(Except.ok.inj hok).symm, hklength, hplength, hkids, hpids, Bool.eq_false_iff.mpr hshared⟩
  · rintro ⟨rfl, hklength, hplength, hkids, hpids, hshared⟩
    refine bind_eq_ok_iff.mpr ⟨_, (contextIdentity_ok_iff honce hknowledge hk hcarries).mpr ⟨rfl, hklength, hkids⟩,
      bind_eq_ok_iff.mpr ⟨_, (contextIdentity_ok_iff honce hpolicy hp hcarries).mpr ⟨rfl, hplength, hpids⟩, ?_⟩⟩
    rw [hshared]
    rfl

/-- **Evidence of a request**: recorded once by either mode, it is read where nothing of it was cut and no item of the
contexts stands twice; and what is read is the rewrite with the identities of the contexts. -/
theorem parseRequestEvidence_ok_iff {knowledge policy : List (ContextItem K)} {userId : Text}
    {traceSessionId operationId chatSessionId requestId : Uuid} (honce : (log.flatMap Call.keys).Nodup)
    (hrewrite : rewriteCalls rewritten ⊆ log) (hknowledge : usedContextCalls sha .knowledge knowledge ⊆ log)
    (hpolicy : usedContextCalls sha .policy policy ⊆ log) (hk : EncodableItems knowledge) (hp : EncodableItems policy)
    (hblank : isBlank rewritten = false) (hencodable : encodable rewritten = true)
    (hcarries : Carries operation (Trace.fresh.observeAll sha log))
    (hcorrelated : isCorrelated operation userId operationId.str chatSessionId.str = true) {evidence : RequestEvidence} :
    parseRequestEvidence sha operation userId traceSessionId.str operationId.str chatSessionId.str requestId.str = .ok evidence ↔
      evidence = ⟨userId, traceSessionId.str, operationId.str, chatSessionId.str, requestId.str, rewritten,
          identityOf sha .knowledge knowledge, identityOf sha .policy policy⟩ ∧
        (rewritten.flatMap utf8Bytes).length ≤ traceTextMaxUtf8Bytes ∧ knowledge.length ≤ traceSampleLimit ∧
        policy.length ≤ traceSampleLimit ∧ ((knowledge ++ policy).map ContextItem.objectId).Nodup := by
  have hcall : Call.setFramedDigest (lit "granite_rewritten_query_sha256") (lit "chat-granite-rewritten-query-v1")
      (.ok [rewritten.flatMap utf8Bytes]) ∈ log := hrewrite (rewriteCalls_eq hencodable ▸ List.mem_cons_self)
  have hdigest := Trace.digests_of_once sha honce hcall (by decide +kernel) (by decide +kernel)
  have hexpected : (contentDigest sha (lit "chat-granite-rewritten-query-v1") [rewritten.flatMap utf8Bytes]).mapError
      BridgeError.raised = .ok (sha (framed ((lit "chat-granite-rewritten-query-v1").map Fin.val)
        [rewritten.flatMap utf8Bytes])).hexdigest := by
    rw [contentDigest_ok (by decide +kernel)]
    rfl
  have hsame : Json.isStr (Json.get? (F := F) (Trace.fresh.observeAll sha log).digestsPayload
      (lit "granite_rewritten_query_sha256")) (sha (framed ((lit "chat-granite-rewritten-query-v1").map Fin.val)
        [rewritten.flatMap utf8Bytes])).hexdigest = true := by
    rw [Trace.digestsPayload, get?_sortedFields, hdigest]
    simp [Json.isStr]
  -- the checks of the correlation
  have hchecks : parseRequestEvidence sha operation userId traceSessionId.str operationId.str chatSessionId.str requestId.str =
      .ok evidence ↔ (rewritten.flatMap utf8Bytes).length ≤ traceTextMaxUtf8Bytes ∧ ∃ contexts, disjointContexts operation = .ok contexts ∧
        evidence = ⟨userId, traceSessionId.str, operationId.str, chatSessionId.str, requestId.str, rewritten, contexts.1,
          contexts.2⟩ := by
    rw [parseRequestEvidence, bind_of_ok (canonicalUuid_str _ _), bind_of_ok (canonicalUuid_str _ _),
      bind_of_ok (canonicalUuid_str _ _), bind_of_ok (canonicalUuid_str _ _), hcorrelated, hcarries.flags, hcarries.texts,
      hcarries.digests]
    simp only [Bool.not_true, Bool.false_eq_true, if_false]
    rw [bind_of_ok (show mapping _ _ = .ok _ from rfl), bind_of_ok (show mapping _ _ = .ok _ from rfl),
      bind_of_ok (show mapping _ _ = .ok _ from rfl), rewrittenQuery_of_calls honce hrewrite hblank hencodable]
    split_ifs with hshort
    · dsimp only
      rw [encodeUtf8_of_encodable hencodable, bind_of_ok (show Except.mapError _ _ = .ok _ from rfl), bind_of_ok hexpected,
        if_pos hsame, bind_eq_ok_iff]
      simp only [hshort, true_and, Except.ok.injEq, eq_comm]
    · constructor
      · intro hok
        cases hok
      · exact fun hread => absurd hread.1 hshort
  rw [hchecks]
  constructor
  · rintro ⟨hshort, contexts, hcontexts, rfl⟩
    obtain ⟨rfl, hrest⟩ := (disjointContexts_ok_iff honce hknowledge hpolicy hk hp hcarries).mp hcontexts
    exact ⟨rfl, hshort, hrest⟩
  · rintro ⟨rfl, hshort, hrest⟩
    exact ⟨hshort, _, (disjointContexts_ok_iff honce hknowledge hpolicy hk hp hcarries).mpr ⟨rfl, hrest⟩, rfl⟩

/-! ### What evaluation mode records -/

/-- The calls that record evidence in evaluation mode. -/
def evaluationCalls (sha : List ℕ → Sha256) (rewritten : Text) (knowledge policy : List (ContextItem K)) : List Call :=
  captureEvaluationRewrite sha rewritten ++ captureEvaluationContexts sha knowledge policy

omit [PyFloat F] in
theorem carries_payload (o : TracedOperation F) : Carries o.payload o.evidence := ⟨rfl, rfl, rfl, rfl, rfl⟩

/-- No name is recorded twice. -/
theorem keys_evaluationCalls {knowledge policy : List (ContextItem K)} (hk : EncodableItems knowledge) (hp : EncodableItems policy)
    (hne : rewritten ≠ []) (h : encodable rewritten = true) :
    ((evaluationCalls sha rewritten knowledge policy).flatMap Call.keys).Nodup := by
  rw [evaluationCalls, captureEvaluationRewrite_eq hne h, captureEvaluationContexts_eq hk hp, rewriteCalls_eq h,
    usedContextCalls_encodable sha .knowledge hk, usedContextCalls_encodable sha .policy hp]
  simp only [List.flatMap_append, List.flatMap_cons, List.flatMap_nil, Call.keys, idSample, List.append_nil]
  decide +kernel

/-- The calls about the rewrite and about both contexts are among them. -/
theorem evaluationCalls_subset {knowledge policy : List (ContextItem K)} (hk : EncodableItems knowledge) (hp : EncodableItems policy)
    (hne : rewritten ≠ []) (h : encodable rewritten = true) :
    rewriteCalls rewritten ⊆ evaluationCalls sha rewritten knowledge policy ∧
      usedContextCalls sha .knowledge knowledge ⊆ evaluationCalls sha rewritten knowledge policy ∧
      usedContextCalls sha .policy policy ⊆ evaluationCalls sha rewritten knowledge policy := by
  rw [evaluationCalls, captureEvaluationRewrite_eq hne h, captureEvaluationContexts_eq hk hp]
  refine ⟨List.subset_append_left _ _, fun c hc => ?_, fun c hc => ?_⟩
  · simp [hc]
  · simp [hc]

omit [PyFloat F] in
/-- The payload of a chat request that succeeded is that of the request. -/
theorem isCorrelated_payload {o : TracedOperation F} {operationId chatSessionId : Uuid} (hoperation : o.operationId = operationId.str)
    (hkind : o.kind = lit "chat_query") (hcollection : o.collectionType = lit "conversations")
    (hchat : o.wizardId = chatSessionId.str) (houtcome : o.outcome = lit "succeeded") (hfinished : o.finishedAt.isSome) :
    isCorrelated o.payload o.userId operationId.str chatSessionId.str = true := by
  obtain ⟨finishedAt, hsome⟩ := Option.isSome_iff_exists.mp hfinished
  have hfinish : Json.get? o.payload (lit "finished_at") = some (.str finishedAt) := by
    change some (stringOrNull o.finishedAt) = _
    rw [hsome]
    rfl
  have hfields : Json.get? o.payload (lit "operation_id") = some (.str operationId.str) ∧
      Json.get? o.payload (lit "kind") = some (.str (lit "chat_query")) ∧
      Json.get? o.payload (lit "user_id") = some (.str o.userId) ∧
      Json.get? o.payload (lit "collection_type") = some (.str (lit "conversations")) ∧
      Json.get? o.payload (lit "wizard_id") = some (.str chatSessionId.str) ∧
      Json.get? o.payload (lit "outcome") = some (.str (lit "succeeded")) := by
    rw [← hoperation, ← hkind, ← hcollection, ← hchat, ← houtcome]
    exact ⟨rfl, rfl, rfl, rfl, rfl, rfl⟩
  obtain ⟨h₁, h₂, h₃, h₄, h₅, h₆⟩ := hfields
  simp only [isCorrelated, h₁, h₂, h₃, h₄, h₅, h₆, hfinish, Json.isStr, isText, decide_true, Bool.and_self]

/-- What a prompt is made of has text, and where it can be encoded, so can the contexts. -/
theorem encodableItems_of_prompt [LinearOrder K] {encode : Text → List ℕ} {B : PromptBudgets}
    {facts guidelines : List (ContextItem K)} {b : BudgetedPrompt K}
    (hprompt : buildBudgetedPrompt encode B rewritten facts guidelines = .ok b)
    (htexts : ∀ item ∈ b.knowledge ++ b.policy, encodable item.rawText = true) :
    EncodableItems b.knowledge ∧ EncodableItems b.policy := by
  have hblank := budgetedPrompt_texts hprompt
  exact ⟨fun item hitem => ⟨hblank item (List.mem_append_left _ hitem), htexts item (List.mem_append_left _ hitem)⟩,
    fun item hitem => ⟨hblank item (List.mem_append_right _ hitem), htexts item (List.mem_append_right _ hitem)⟩⟩

/-- **Captured evidence**: of a request that succeeded in evaluation mode, the bridge reads the evidence where the rewrite
and both contexts were recorded whole and no item stands twice in them; and it reads the rewrite, the identifiers, the
fingerprints and the digests of the contexts that the prompt was made of. Deep tracing makes the same calls about them. -/
theorem captured_evidence_parsed [LinearOrder K] {encode : Text → List ℕ} {B : PromptBudgets}
    {facts guidelines : List (ContextItem K)} {b : BudgetedPrompt K}
    (hprompt : buildBudgetedPrompt encode B rewritten facts guidelines = .ok b)
    (htexts : ∀ item ∈ b.knowledge ++ b.policy, encodable item.rawText = true)
    (hblank : isBlank rewritten = false) (hencodable : encodable rewritten = true)
    {traceSessionId operationId chatSessionId requestId : Uuid} {o : TracedOperation F}
    (hevidence : o.evidence = Trace.fresh.observeAll sha (evaluationCalls sha rewritten b.knowledge b.policy))
    (hoperation : o.operationId = operationId.str) (hkind : o.kind = lit "chat_query")
    (hcollection : o.collectionType = lit "conversations") (hchat : o.wizardId = chatSessionId.str)
    (houtcome : o.outcome = lit "succeeded") (hfinished : o.finishedAt.isSome) :
    (∀ evidence : RequestEvidence,
      parseRequestEvidence sha o.payload o.userId traceSessionId.str operationId.str chatSessionId.str requestId.str = .ok evidence ↔
        evidence = ⟨o.userId, traceSessionId.str, operationId.str, chatSessionId.str, requestId.str, rewritten,
            identityOf sha .knowledge b.knowledge, identityOf sha .policy b.policy⟩ ∧
          (rewritten.flatMap utf8Bytes).length ≤ traceTextMaxUtf8Bytes ∧ b.knowledge.length ≤ traceSampleLimit ∧
          b.policy.length ≤ traceSampleLimit ∧ ((b.knowledge ++ b.policy).map ContextItem.objectId).Nodup) ∧
      b.prompt = answerPrompt rewritten b.knowledge b.policy ∧
      ∃ calls, captureEvaluationContexts sha b.knowledge b.policy = calls ++ [.setFlag (lit "evaluation_evidence_captured") true] ∧
        finalPromptContextCalls sha b = calls ++ upTo Call.isRaise (constructedPromptCalls b.prompt) := by
  obtain ⟨hk, hp⟩ := encodableItems_of_prompt hprompt htexts
  refine ⟨fun evidence => ?_, (budgetedPrompt_spec hprompt).prompt, sameContextCalls hk hp⟩
  have hne : rewritten ≠ [] := by
    rintro rfl
    cases hblank
  have hcarries := carries_payload o
  rw [hevidence] at hcarries
  obtain ⟨hrewrite, hknowledge, hpolicy⟩ := evaluationCalls_subset hk hp hne hencodable
  exact parseRequestEvidence_ok_iff (keys_evaluationCalls hk hp hne hencodable) hrewrite hknowledge hpolicy hk hp hblank
    hencodable hcarries (isCorrelated_payload hoperation hkind hcollection hchat houtcome hfinished)

end Context

/-! ### One chunk of each collection -/

/-- A digest of the number of bytes. -/
def shaSample (bytes : List ℕ) : Sha256 := ⟨List.replicate 62 0 ++ [Fin.ofNat 16 (bytes.length / 16), Fin.ofNat 16 bytes.length], by simp⟩

/-- A chunk of the facts. -/
def factSample : ContextItem Unit := ⟨Uuid.ofNat 1, lit "open from nine", none⟩

/-- A chunk of the policy. -/
def ruleSample : ContextItem Unit := ⟨Uuid.ofNat 2, lit "be kind", none⟩

/-- The operation of a request with both. -/
def operationSample : TracedOperation WholeFloat where
  operationId := (Uuid.ofNat 3).str
  kind := lit "chat_query"
  userId := lit "user"
  collectionType := lit "conversations"
  wizardId := (Uuid.ofNat 4).str
  startedAt := lit "2025-01-01T00:00:00Z"
  finishedAt := some (lit "2025-01-01T00:00:01Z")
  outcome := lit "succeeded"
  taskId := none
  relatedTasks := .empty
  stages := .empty
  evidence := Trace.fresh.observeAll shaSample (evaluationCalls shaSample (lit "opening hours") [factSample] [ruleSample])

/-- The prompt of both. -/
def promptSample : BudgetedPrompt Unit :=
  ⟨[factSample], [ruleSample], answerPrompt (lit "opening hours") [factSample] [ruleSample]⟩

theorem buildBudgetedPrompt_sample :
    buildBudgetedPrompt (fun _ => []) ⟨1, 1, 1⟩ (lit "opening hours") [factSample] [ruleSample] = .ok promptSample := by
  rfl

theorem captured_evidence_parsed_sample :
    parseRequestEvidence shaSample operationSample.payload (lit "user") (Uuid.ofNat 5).str (Uuid.ofNat 3).str (Uuid.ofNat 4).str
        (Uuid.ofNat 6).str =
      .ok ⟨lit "user", (Uuid.ofNat 5).str, (Uuid.ofNat 3).str, (Uuid.ofNat 4).str, (Uuid.ofNat 6).str, lit "opening hours",
        identityOf shaSample .knowledge [factSample], identityOf shaSample .policy [ruleSample]⟩ := by
  have hevidence : operationSample.evidence =
      Trace.fresh.observeAll shaSample (evaluationCalls shaSample (lit "opening hours") [factSample] [ruleSample]) := by rw [operationSample]
  have hoperation : operationSample.operationId = (Uuid.ofNat 3).str := rfl
  have hchat : operationSample.wizardId = (Uuid.ofNat 4).str := rfl
  exact ((captured_evidence_parsed buildBudgetedPrompt_sample (by decide +kernel) (by decide +kernel) (by decide +kernel) hevidence
    hoperation rfl rfl hchat rfl rfl).1 _).mpr ⟨rfl, by decide +kernel⟩

end EvaluationBridge

end TenantRag

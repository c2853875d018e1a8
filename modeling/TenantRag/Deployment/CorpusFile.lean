import TenantRag.Deployment.CorpusGeneration
import TenantRag.Foundations.ScalarText

/-!
# The file of the corpus state

`CorpusState` of `deployment/wizard_diagnostic.py`, the payload that
`write_corpus_state` writes and `load_corpus_state` with its checks.

## The model

The file is its text; `none` is a file that does not exist. It is replaced as a
whole.

## What is proved

* `load_write` — the file of a consistent state of texts that JSON keeps is read back as that state.
-/

namespace TenantRag

variable {F : Type} [PyFloat F] {env : CorpusEnv F}

/-- `CorpusState`. -/
structure CorpusState (env : CorpusEnv F) where
  /-- `diagnostic_user_id`. -/
  diagnosticUserId : Text
  /-- `active`. -/
  active : Option (CorpusGeneration env)
  /-- `pending_replacement`. -/
  pendingReplacement : Option (CorpusGeneration env)
  /-- `pending_cleanup`. -/
  pendingCleanup : List CorpusDocument
  /-- `updated_at`. -/
  updatedAt : Text

/-! ### The payload -/

/-- `_DOCUMENT_KEYS`. -/
def documentKeys : List Text :=
  [lit "collection", lit "wizard_id", lit "status", lit "task_id", lit "chunk_ids", lit "storage_fingerprint"]

omit [PyFloat F] in
/-- The members of `CorpusDocument.payload()`. -/
def CorpusDocument.fields (d : CorpusDocument) : List (Text × Json F) :=
  [(lit "collection", .str d.collection.name), (lit "wizard_id", .str d.wizardId.val), (lit "status", .str d.status.name),
    (lit "task_id", textOrNull (d.taskId.map Subtype.val)), (lit "chunk_ids", .arr ((d.chunkIds.map Subtype.val).map .str)),
    (lit "storage_fingerprint", textOrNull (d.storageFingerprint.map Subtype.val))]

/-- `_GENERATION_KEYS`. -/
def generationKeys : List Text :=
  [lit "generation_id", lit "fixture_digest", lit "fixtures", lit "text_encoding", lit "text_join_separator",
    lit "ingestion_policy", lit "documents", lit "created_at", lit "verified_at", lit "completed_at"]

/-- The members of `CorpusGeneration.payload()`. -/
def CorpusGeneration.fields (g : CorpusGeneration env) : List (Text × Json F) :=
  [(lit "generation_id", .str g.generationId), (lit "fixture_digest", .str g.fixtureDigest),
    (lit "fixtures", g.fixtures.json), (lit "text_encoding", .str g.textEncoding),
    (lit "text_join_separator", .str g.textJoinSeparator), (lit "ingestion_policy", g.ingestionPolicy.json),
    (lit "documents", .arr (g.documents.map fun d => .obj d.fields)), (lit "created_at", .str g.createdAt),
    (lit "verified_at", textOrNull g.verifiedAt), (lit "completed_at", textOrNull g.completedAt)]

/-- The payload of a generation, or `None`. -/
def generationPayload (g : Option (CorpusGeneration env)) : Json F := g.elim .null fun g => .obj g.fields

/-- `CORPUS_SCHEMA_VERSION`. -/
def corpusSchemaVersion : Text := lit "1.1"

/-- `_STATE_KEYS`. -/
def stateKeys : List Text :=
  [lit "schema_version", lit "diagnostic", lit "diagnostic_user_id", lit "active", lit "pending_replacement",
    lit "pending_cleanup", lit "updated_at"]

/-- The members of `CorpusState.payload()`. -/
def CorpusState.fields (s : CorpusState env) : List (Text × Json F) :=
  [(lit "schema_version", .str corpusSchemaVersion), (lit "diagnostic", .str (lit "wizard-corpus")),
    (lit "diagnostic_user_id", .str s.diagnosticUserId), (lit "active", generationPayload s.active),
    (lit "pending_replacement", generationPayload s.pendingReplacement),
    (lit "pending_cleanup", .arr (s.pendingCleanup.map fun d => .obj d.fields)), (lit "updated_at", .str s.updatedAt)]

/-- What `write_corpus_state` writes. -/
def writeCorpusState (s : CorpusState env) : Text := Json.dumpsIndented (.obj s.fields)

/-! ### Reading -/

omit [PyFloat F] in
/-- `value.get(key)`. -/
def Json.getOrNull (fields : List (Text × Json F)) (key : Text) : Json F := (Json.get? fields key).getD .null

omit [PyFloat F] in
/-- `_document_from_payload(value)`. -/
def documentFromPayload (value : Json F) : Except PyError CorpusDocument :=
  match value with
  | .obj fields =>
      if Json.hasKeys fields documentKeys then
        match Json.get? fields (lit "chunk_ids") with
        | some (.arr chunkIds) =>
            CorpusDocument.ofValues ⟨Json.getOrNull fields (lit "collection"), Json.getOrNull fields (lit "wizard_id"),
              Json.getOrNull fields (lit "status"), Json.getOrNull fields (lit "task_id"), chunkIds,
              Json.getOrNull fields (lit "storage_fingerprint")⟩
        | _ => .error (wizardDiagnosticError "Corpus document chunk_ids must be an array")
      else .error (wizardDiagnosticError "Corpus document state must be an object")
  | _ => .error (wizardDiagnosticError "Corpus document state must be an object")

omit [PyFloat F] in
/-- `None if value is None else _validated_timestamp(value, name)`. -/
def optionalTimestamp (env : CorpusEnv F) (value : Json F) (name : String) : Except PyError (Option Text) :=
  match value with
  | .null => .ok none
  | _ => (validatedTimestamp env value name).map some

/-- The generation whose members these are. -/
def generationFromFields (env : CorpusEnv F) (fields : List (Text × Json F)) (documents : List (Json F)) :
    Except PyError (CorpusGeneration env) := do
  let fixtures ← validateFixtureInventory (Json.getOrNull fields (lit "fixtures"))
  let policy ← validateIngestionPolicy (Json.getOrNull fields (lit "ingestion_policy"))
  let documents ← documents.mapM documentFromPayload
  let createdAt ← validatedTimestamp env (Json.getOrNull fields (lit "created_at")) "created_at"
  let verifiedAt ← optionalTimestamp env (Json.getOrNull fields (lit "verified_at")) "verified_at"
  let completedAt ← optionalTimestamp env (Json.getOrNull fields (lit "completed_at")) "completed_at"
  CorpusGeneration.make env ⟨Json.getOrNull fields (lit "generation_id"), Json.getOrNull fields (lit "fixture_digest"),
    fixtures, Json.getOrNull fields (lit "text_encoding"), Json.getOrNull fields (lit "text_join_separator"), policy,
    documents, createdAt, verifiedAt, completedAt⟩

/-- `_generation_from_payload(value)`. -/
def generationFromPayload (env : CorpusEnv F) (value : Json F) : Except PyError (Option (CorpusGeneration env)) :=
  match value with
  | .null => .ok none
  | .obj fields =>
      if Json.hasKeys fields generationKeys then
        match Json.get? fields (lit "documents") with
        | some (.arr documents) => (generationFromFields env fields documents).map some
        | _ => .error (wizardDiagnosticError "Corpus generation state is malformed")
      else .error (wizardDiagnosticError "Corpus generation state must be an object")
  | _ => .error (wizardDiagnosticError "Corpus generation state must be an object")

/-- The documents of a generation, or none. -/
def documentsOf (g : Option (CorpusGeneration env)) : List CorpusDocument := g.elim [] CorpusGeneration.documents

/-- `(item.collection, item.wizard_id)`. -/
def CorpusDocument.key (d : CorpusDocument) : FixtureCollection × Text := (d.collection, d.wizardId.val)

/-- The identities of the documents of a state. -/
def CorpusState.identities (s : CorpusState env) : List (FixtureCollection × Text) :=
  (documentsOf s.active ++ documentsOf s.pendingReplacement ++ s.pendingCleanup).map CorpusDocument.key

/-- The generation was verified and completed, and is complete. -/
def CorpusGeneration.IsActive (g : CorpusGeneration env) : Prop :=
  g.completedAt ≠ none ∧ g.verifiedAt ≠ none ∧ Complete g.documents

instance (g : CorpusGeneration env) : Decidable g.IsActive := by
  unfold CorpusGeneration.IsActive
  infer_instance

/-- The rules on the state as a whole. -/
def CorpusState.check (s : CorpusState env) : Except PyError Unit := do
  let _ ← require (∀ g ∈ s.active, g.IsActive) "Active corpus generation is incomplete"
  let _ ← require (∀ g ∈ s.pendingReplacement, g.completedAt = none) "Pending corpus replacement is already completed"
  let _ ← require (∀ d ∈ s.pendingCleanup, d.status = .saved) "Pending corpus cleanup contains incomplete data"
  let _ ← require (s.active.isNone = true → s.pendingCleanup = []) "Corpus cleanup exists without an active generation"
  let _ ← require s.identities.Nodup "Corpus state contains duplicate document IDs"
  .ok ()

/-- The state whose members these are. -/
def stateFromFields (env : CorpusEnv F) (diagnosticUserId : Text) (fields : List (Text × Json F)) (cleanup : List (Json F)) :
    Except PyError (CorpusState env) := do
  let active ← generationFromPayload env (Json.getOrNull fields (lit "active"))
  let pendingReplacement ← generationFromPayload env (Json.getOrNull fields (lit "pending_replacement"))
  let pendingCleanup ← cleanup.mapM documentFromPayload
  let updatedAt ← validatedTimestamp env (Json.getOrNull fields (lit "updated_at")) "updated_at"
  let state : CorpusState env := ⟨diagnosticUserId, active, pendingReplacement, pendingCleanup, updatedAt⟩
  state.check
  .ok state

/-- `load_corpus_state(path, diagnostic_user_id)`. -/
def loadCorpusState (env : CorpusEnv F) (path : String) (file : Option Text) (diagnosticUserId : Text) :
    Except PyError (Option (CorpusState env)) :=
  match file with
  | none => .ok none
  | some contents =>
      match Json.loads contents with
      | none => .error (wizardDiagnosticError s!"Corpus state is unreadable: {path}")
      | some (.obj fields) =>
          if !Json.hasKeys fields stateKeys then .error (wizardDiagnosticError "Corpus state root must be an object")
          else if !Json.isStr (Json.get? fields (lit "schema_version")) corpusSchemaVersion then
            .error (wizardDiagnosticError "Corpus state schema version is unsupported")
          else if !Json.isStr (Json.get? fields (lit "diagnostic")) (lit "wizard-corpus") then
            .error (wizardDiagnosticError "Corpus state diagnostic type is invalid")
          else if !Json.isStr (Json.get? fields (lit "diagnostic_user_id")) diagnosticUserId then
            .error (wizardDiagnosticError "Corpus state belongs to a different diagnostic user")
          else
            match Json.get? fields (lit "pending_cleanup") with
            | some (.arr cleanup) => (stateFromFields env diagnosticUserId fields cleanup).map some
            | _ => .error (wizardDiagnosticError "Corpus state is malformed")
      | some _ => .error (wizardDiagnosticError "Corpus state root must be an object")

/-! ### Reading what was written -/

section

omit [PyFloat F]

theorem Json.getOrNull_sortFields {fields : List (Text × Json F)} (h : (fields.map Prod.fst).Nodup) (key : Text) :
    getOrNull (sortFields (sortMembers fields)) key = sortKeys (getOrNull fields key) := by
  rw [getOrNull, getOrNull, get?_sortFields h]
  cases get? fields key with
  | none => rw [Option.map_none, Option.getD_none, sortKeys]
  | some v => rfl

theorem sortKeys_textOrNull (t : Option Text) : Json.sortKeys (textOrNull t : Json F) = textOrNull t := by
  cases t with
  | none => exact Json.sortKeys.eq_1
  | some t => exact Json.sortKeys_str t

theorem CorpusDocument.nodup_fields (d : CorpusDocument) : ((d.fields : List (Text × Json F)).map Prod.fst).Nodup :=
  show documentKeys.Nodup by decide

/-- A document is read back. -/
theorem documentFromPayload_sortKeys (d : CorpusDocument) :
    documentFromPayload (Json.sortKeys (.obj d.fields : Json F)) = .ok d := by
  have hkeys : Json.hasKeys (d.fields : List (Text × Json F)) documentKeys = true := rfl
  have hchunks : Json.get? (Json.sortFields (Json.sortMembers (d.fields : List (Text × Json F)))) (lit "chunk_ids") =
      some (.arr ((d.chunkIds.map Subtype.val).map .str)) := by
    rw [Json.get?_sortFields d.nodup_fields]
    exact congrArg some (Json.sortKeys_strings _)
  have hget : ∀ (key : Text) (v : Json F), Json.getOrNull (d.fields : List (Text × Json F)) key = v → Json.sortKeys v = v →
      Json.getOrNull (Json.sortFields (Json.sortMembers (d.fields : List (Text × Json F)))) key = v := by
    intro key v hv hsort
    rw [Json.getOrNull_sortFields d.nodup_fields, hv, hsort]
  rw [Json.sortKeys, documentFromPayload, Json.hasKeys_sortFields, if_pos hkeys, hchunks]
  dsimp only
  rw [hget (lit "collection") (.str d.collection.name) rfl (Json.sortKeys_str _), hget (lit "wizard_id") (.str d.wizardId.val) rfl (Json.sortKeys_str _),
    hget (lit "status") (.str d.status.name) rfl (Json.sortKeys_str _), hget (lit "task_id") (textOrNull (d.taskId.map Subtype.val)) rfl (sortKeys_textOrNull _),
    hget (lit "storage_fingerprint") (textOrNull (d.storageFingerprint.map Subtype.val)) rfl (sortKeys_textOrNull _), List.map_map]
  exact d.ofValues_values

theorem mapM_documentFromPayload (ds : List CorpusDocument) :
    ((ds.map fun d => (.obj d.fields : Json F)).map Json.sortKeys).mapM documentFromPayload = .ok ds := by
  rw [List.map_map, mapM_eq_ok_iff, List.forall₂_map_left_iff, List.forall₂_same]
  exact fun d _ => documentFromPayload_sortKeys d

theorem optionalTimestamp_textOrNull {env : CorpusEnv F} {t : Option Text} (h : ∀ s, t = some s → env.IsTimestamp s)
    (name : String) : optionalTimestamp env (textOrNull t) name = .ok t := by
  cases t with
  | none => rfl
  | some t =>
    show (validatedTimestamp env (.str t) name).map some = _
    rw [validatedTimestamp_str (h t rfl)]
    rfl

end

theorem CorpusGeneration.nodup_fields (g : CorpusGeneration env) : ((g.fields : List (Text × Json F)).map Prod.fst).Nodup :=
  show generationKeys.Nodup by decide

theorem CorpusGeneration.fixtures_valid (g : CorpusGeneration env) : g.fixtures.Valid := by
  obtain ⟨inventory, hread, -⟩ := bind_eq_ok_iff.mp g.digest
  exact ((validateFixtureInventory_json g.fixtures inventory).mp hread).2

/-- A generation is read back. -/
theorem generationFromPayload_sortKeys {g : CorpusGeneration env} (h : env.IsTimestamp g.createdAt) :
    generationFromPayload env (Json.sortKeys (.obj g.fields)) = .ok (some g) := by
  have hkeys : Json.hasKeys g.fields generationKeys = true := rfl
  have hdocuments : Json.get? (Json.sortFields (Json.sortMembers g.fields)) (lit "documents") =
      some (.arr ((g.documents.map fun d => .obj d.fields).map Json.sortKeys)) := by
    rw [Json.get?_sortFields g.nodup_fields, ← Json.sortItems_eq_map, ← Json.sortKeys]
    rfl
  have hget : ∀ (key : Text) (v : Json F), Json.getOrNull g.fields key = v → Json.sortKeys v = v →
      Json.getOrNull (Json.sortFields (Json.sortMembers g.fields)) key = v := by
    intro key v hv hsort
    rw [Json.getOrNull_sortFields g.nodup_fields, hv, hsort]
  have hfixtures : validateFixtureInventory (Json.getOrNull (Json.sortFields (Json.sortMembers g.fields)) (lit "fixtures")) =
      .ok g.fixtures := by
    rw [Json.getOrNull_sortFields g.nodup_fields]
    exact (validateFixtureInventory_sortKeys g.fixtures g.fixtures).mpr ⟨rfl, g.fixtures_valid⟩
  have hpolicy : validateIngestionPolicy
      (Json.getOrNull (Json.sortFields (Json.sortMembers g.fields)) (lit "ingestion_policy")) = .ok g.ingestionPolicy := by
    rw [Json.getOrNull_sortFields g.nodup_fields]
    exact (validateIngestionPolicy_sortKeys g.ingestionPolicy g.ingestionPolicy).mpr ⟨rfl, g.policy⟩
  have hfields : generationFromFields env (Json.sortFields (Json.sortMembers g.fields))
      ((g.documents.map fun d => .obj d.fields).map Json.sortKeys) = .ok g := by
    rw [generationFromFields, hfixtures, hpolicy, mapM_documentFromPayload,
      hget (lit "created_at") (.str g.createdAt) rfl (Json.sortKeys_str _), hget (lit "verified_at") (textOrNull g.verifiedAt) rfl (sortKeys_textOrNull _),
      hget (lit "completed_at") (textOrNull g.completedAt) rfl (sortKeys_textOrNull _), hget (lit "generation_id") (.str g.generationId) rfl (Json.sortKeys_str _),
      hget (lit "fixture_digest") (.str g.fixtureDigest) rfl (Json.sortKeys_str _), hget (lit "text_encoding") (.str g.textEncoding) rfl (Json.sortKeys_str _),
      hget (lit "text_join_separator") (.str g.textJoinSeparator) rfl (Json.sortKeys_str _), validatedTimestamp_str h,
      optionalTimestamp_textOrNull fun t ht => (g.verified t ht).1,
      optionalTimestamp_textOrNull fun t ht => (g.completed t ht).1]
    exact g.make_values
  rw [Json.sortKeys, generationFromPayload, Json.hasKeys_sortFields, if_pos hkeys, hdocuments]
  dsimp only
  rw [hfields]
  rfl

/-- So is a generation that may be missing. -/
theorem generationFromPayload_payload {g : Option (CorpusGeneration env)} (h : ∀ g' ∈ g, env.IsTimestamp g'.createdAt) :
    generationFromPayload env (Json.sortKeys (generationPayload g)) = .ok g := by
  cases g with
  | none => rfl
  | some g => exact generationFromPayload_sortKeys (h g rfl)

/-- What the transitions keep, and the loader asks for. -/
structure CorpusState.Consistent (s : CorpusState env) : Prop where
  /-- The active generation was verified and completed. -/
  active : ∀ g ∈ s.active, g.IsActive
  /-- The pending replacement was not completed. -/
  pendingReplacement : ∀ g ∈ s.pendingReplacement, g.completedAt = none
  /-- What is to be deleted was saved. -/
  pendingCleanup : ∀ d ∈ s.pendingCleanup, d.status = .saved
  /-- It was superseded by an active generation. -/
  superseded : s.active.isNone = true → s.pendingCleanup = []
  /-- No document is in two places. -/
  identities : s.identities.Nodup

theorem CorpusState.Consistent.check {s : CorpusState env} (h : s.Consistent) : s.check = .ok () := by
  rw [CorpusState.check, require_eq_ok h.active, require_eq_ok h.pendingReplacement, require_eq_ok h.pendingCleanup,
    require_eq_ok h.superseded, require_eq_ok h.identities]
  rfl

omit [PyFloat F] in
/-- The times of a generation are timestamps. -/
structure GenerationValues.Dated (v : GenerationValues F) : Prop where
  /-- When it was created. -/
  created : ∃ t, v.createdAt = timestamp t
  /-- When it was verified. -/
  verified : ∀ u ∈ v.verifiedAt, ∃ t, u = timestamp t
  /-- When it was completed. -/
  completed : ∀ u ∈ v.completedAt, ∃ t, u = timestamp t

/-- The times of a state are timestamps. -/
structure CorpusState.Dated (s : CorpusState env) : Prop where
  /-- When it was updated. -/
  updated : ∃ t, s.updatedAt = timestamp t
  /-- Those of the active generation. -/
  active : ∀ g ∈ s.active, g.values.Dated
  /-- Those of the pending replacement. -/
  pendingReplacement : ∀ g ∈ s.pendingReplacement, g.values.Dated

theorem CorpusState.nodup_fields (s : CorpusState env) : ((s.fields : List (Text × Json F)).map Prod.fst).Nodup :=
  show stateKeys.Nodup by decide

/-- The members of a consistent state are read back. -/
theorem stateFromFields_sortFields {s : CorpusState env} (hs : s.Consistent) (hd : s.Dated) :
    stateFromFields env s.diagnosticUserId (Json.sortFields (Json.sortMembers s.fields))
      ((s.pendingCleanup.map fun d => .obj d.fields).map Json.sortKeys) = .ok s := by
  have hcreated : ∀ g : CorpusGeneration env, g.values.Dated → env.IsTimestamp g.createdAt := by
    intro g hg
    obtain ⟨t, ht⟩ : ∃ t, g.createdAt = timestamp t := hg.created
    rw [ht]
    exact isTimestamp_timestamp env t
  have hupdated : env.IsTimestamp s.updatedAt := by
    obtain ⟨t, ht⟩ := hd.updated
    rw [ht]
    exact isTimestamp_timestamp env t
  have hactive : generationFromPayload env (Json.getOrNull (Json.sortFields (Json.sortMembers s.fields)) (lit "active")) =
      .ok s.active := by
    rw [Json.getOrNull_sortFields s.nodup_fields]
    exact generationFromPayload_payload fun g hg => hcreated g (hd.active g hg)
  have hpending : generationFromPayload env
      (Json.getOrNull (Json.sortFields (Json.sortMembers s.fields)) (lit "pending_replacement")) =
      .ok s.pendingReplacement := by
    rw [Json.getOrNull_sortFields s.nodup_fields]
    exact generationFromPayload_payload fun g hg => hcreated g (hd.pendingReplacement g hg)
  have htime : validatedTimestamp env (Json.getOrNull (Json.sortFields (Json.sortMembers s.fields)) (lit "updated_at"))
      "updated_at" = .ok s.updatedAt := by
    rw [Json.getOrNull_sortFields s.nodup_fields]
    exact validatedTimestamp_str hupdated "updated_at"
  rw [stateFromFields, hactive, hpending, mapM_documentFromPayload, htime]
  show (CorpusState.check s >>= fun _ => Except.ok s) = .ok s
  rw [hs.check]
  rfl

/-! ### Texts that JSON keeps -/

/-- The texts and the numbers of a generation that come from outside are read back. -/
structure GenerationValues.Readable (v : GenerationValues F) : Prop where
  /-- The identifier. -/
  generationId : Json.Plain v.generationId
  /-- The encoding. -/
  textEncoding : Json.Plain v.textEncoding
  /-- The separator. -/
  textJoinSeparator : Json.Plain v.textJoinSeparator
  /-- The paths and the sizes of the files. -/
  files : ∀ e ∈ v.fixtures.knowledge ++ v.fixtures.policy,
    Unpaired e.path ∧ (decimal e.sizeBytes.natAbs).length ≤ Json.intMaxStrDigits
  /-- The extensions. -/
  extensions : ∀ t ∈ v.ingestionPolicy.supportedExtensions, Unpaired t
  /-- The limits. -/
  limits : ∀ n ∈ [v.ingestionPolicy.uploadMaxFileBytes, v.ingestionPolicy.uploadMaxTotalBytes,
    v.ingestionPolicy.uploadReadChunkBytes], (decimal n.natAbs).length ≤ Json.intMaxStrDigits

/-- So are those of a state. -/
structure CorpusState.Readable (s : CorpusState env) : Prop where
  /-- The user. -/
  user : Unpaired s.diagnosticUserId
  /-- The active generation. -/
  active : ∀ g ∈ s.active, g.values.Readable
  /-- The pending replacement. -/
  pendingReplacement : ∀ g ∈ s.pendingReplacement, g.values.Readable

theorem plain_obj {fields : List (Text × Json F)} (hnodup : (fields.map Prod.fst).Nodup)
    (hkeys : (fields.map Prod.fst).all encodable = true) (h : ∀ f ∈ fields, Json.Plain f.2) : Json.Plain (.obj fields) := by
  rw [Json.Plain, Json.plainFields_iff]
  rw [List.all_eq_true] at hkeys
  exact ⟨hnodup, fun f hf => ⟨(scalar_of_encodable (hkeys f.1 (List.mem_map_of_mem hf))).unpaired, h f hf⟩⟩

theorem plain_str {t : Text} (h : Unpaired t) : Json.Plain (.str t : Json F) := by rwa [Json.Plain]

theorem plain_textOrNull {t : Option Text} (h : ∀ s ∈ t, Unpaired s) : Json.Plain (textOrNull t : Json F) := by
  cases t with
  | none => exact trivial
  | some t => exact plain_str (h t rfl)

theorem plain_arr_map {α : Type} {f : α → Json F} {l : List α} (h : ∀ a ∈ l, Json.Plain (f a)) :
    Json.Plain (.arr (l.map f)) := by
  rw [Json.Plain, Json.plainItems_iff]
  intro v hv
  obtain ⟨a, ha, rfl⟩ := List.mem_map.mp hv
  exact h a ha

theorem unpaired_uuidText (t : UuidText) : Unpaired t.val := (scalar_of_ofText t.property).unpaired

theorem unpaired_sha256Text {t : Text} (h : isSha256Text t = true) : Unpaired t := by
  rw [isSha256Text, Bool.and_eq_true, List.all_eq_true] at h
  refine Scalar.unpaired fun c hc => ?_
  have hhex := h.2 c hc
  simp only [isHexDigit, Bool.or_eq_true, Bool.and_eq_true, decide_eq_true_eq] at hhex
  exact isSurrogate_of_lt (by omega)

/-- The payload of a document is read back. -/
theorem plain_document (d : CorpusDocument) : Json.Plain (.obj d.fields : Json F) := by
  have hcollection : Scalar d.collection.name := scalar_of_encodable (by cases d.collection <;> rfl)
  have hstatus : Scalar d.status.name := scalar_of_encodable (by cases d.status <;> rfl)
  have htask : ∀ t ∈ d.taskId.map Subtype.val, Unpaired t := by
    intro t ht
    obtain ⟨u, -, rfl⟩ := Option.map_eq_some_iff.mp ht
    exact unpaired_uuidText u
  have hfingerprint : ∀ t ∈ d.storageFingerprint.map Subtype.val, Unpaired t := by
    intro t ht
    obtain ⟨u, -, rfl⟩ := Option.map_eq_some_iff.mp ht
    exact unpaired_sha256Text u.property
  have hchunks : ∀ t ∈ d.chunkIds.map Subtype.val, Json.Plain (.str t : Json F) := by
    intro t ht
    obtain ⟨u, -, rfl⟩ := List.mem_map.mp ht
    exact plain_str (unpaired_uuidText u)
  refine plain_obj d.nodup_fields rfl ?_
  simp only [CorpusDocument.fields, List.forall_mem_cons, List.not_mem_nil, false_implies, implies_true, and_true]
  exact ⟨plain_str hcollection.unpaired, plain_str (unpaired_uuidText d.wizardId), plain_str hstatus.unpaired,
    plain_textOrNull htask, plain_arr_map hchunks, plain_textOrNull hfingerprint⟩

/-- A generation whose texts are read back has a payload that is. -/
theorem plain_generation {g : CorpusGeneration env} (hr : g.values.Readable) (hd : g.values.Dated) :
    Json.Plain (.obj g.fields : Json F) := by
  have hdigest : Unpaired g.fixtureDigest := by
    obtain ⟨inventory, -, h⟩ := bind_eq_ok_iff.mp g.digest
    obtain ⟨encoded, -, h⟩ := bind_eq_ok_iff.mp h
    rw [← Except.ok.inj h]
    exact (scalar_hexdigest _).unpaired
  have hentry : ∀ c, ∀ e : FixtureEntry, e.isValid c = true →
      (Unpaired e.path ∧ (decimal e.sizeBytes.natAbs).length ≤ Json.intMaxStrDigits) → Json.Plain (e.json : Json F) := by
    intro c e hvalid he
    simp only [FixtureEntry.isValid, Bool.and_eq_true] at hvalid
    refine plain_obj e.nodup_fields rfl ?_
    simp only [FixtureEntry.fields, List.forall_mem_cons, List.not_mem_nil, false_implies, implies_true, and_true]
    exact ⟨plain_str he.1, by rw [Json.Plain]; exact he.2, plain_str (unpaired_sha256Text hvalid.2)⟩
  have hfixtures : Json.Plain (g.fixtures.json : Json F) := by
    refine plain_obj g.fixtures.nodup_fields rfl ?_
    simp only [FixtureInventory.fields, List.forall_mem_cons, List.not_mem_nil, false_implies, implies_true, and_true]
    exact ⟨plain_arr_map fun e he => hentry .knowledge e (g.fixtures_valid.1.2.1 e he)
        (hr.files e (List.mem_append_left _ he)),
      plain_arr_map fun e he => hentry .policy e (g.fixtures_valid.2.2.1 e he) (hr.files e (List.mem_append_right _ he))⟩
  have hpolicy : Json.Plain (g.ingestionPolicy.json : Json F) := by
    have hlimits := hr.limits
    simp only [List.forall_mem_cons, List.not_mem_nil, false_implies, implies_true, and_true] at hlimits
    refine plain_obj (show ingestionPolicyKeys.Nodup by decide) rfl ?_
    simp only [IngestionPolicy.fields, List.forall_mem_cons, List.not_mem_nil, false_implies, implies_true, and_true,
      Json.Plain]
    exact ⟨plain_arr_map fun t ht => plain_str (hr.extensions t ht), hlimits⟩
  have htime : ∀ {u : Text}, (∃ t, u = timestamp t) → Unpaired u := by
    rintro u ⟨t, rfl⟩
    exact (scalar_timestamp t).unpaired
  refine plain_obj g.nodup_fields rfl ?_
  simp only [CorpusGeneration.fields, List.forall_mem_cons, List.not_mem_nil, false_implies, implies_true, and_true]
  exact ⟨hr.generationId, plain_str hdigest, hfixtures, hr.textEncoding, hr.textJoinSeparator, hpolicy,
    plain_arr_map fun d _ => plain_document d, plain_str (htime hd.created),
    plain_textOrNull fun u hu => htime (hd.verified u hu), plain_textOrNull fun u hu => htime (hd.completed u hu)⟩

/-- So has a state. -/
theorem plain_state {s : CorpusState env} (hr : s.Readable) (hd : s.Dated) : Json.Plain (.obj s.fields : Json F) := by
  have hpayload : ∀ g : Option (CorpusGeneration env), (∀ g' ∈ g, g'.values.Readable) → (∀ g' ∈ g, g'.values.Dated) →
      Json.Plain (generationPayload g) := by
    intro g hgr hgd
    cases g with
    | none => exact trivial
    | some g => exact plain_generation (hgr g rfl) (hgd g rfl)
  obtain ⟨t, ht⟩ := hd.updated
  refine plain_obj s.nodup_fields rfl ?_
  simp only [CorpusState.fields, List.forall_mem_cons, List.not_mem_nil, false_implies, implies_true, and_true]
  refine ⟨plain_str (scalar_of_encodable rfl).unpaired, plain_str (scalar_of_encodable rfl).unpaired, plain_str hr.user,
    hpayload s.active hr.active hd.active, hpayload s.pendingReplacement hr.pendingReplacement hd.pendingReplacement,
    plain_arr_map fun d _ => plain_document d, ?_⟩
  rw [ht]
  exact plain_str (scalar_timestamp t).unpaired

/-- The file of a consistent state is read back as that state, where JSON keeps its texts. -/
theorem load_write {s : CorpusState env} (hs : s.Consistent) (hd : s.Dated) (hr : s.Readable)
    (path : String) : loadCorpusState env path (some (writeCorpusState s)) s.diagnosticUserId = .ok (some s) := by
  have hget : ∀ (key : Text) (t : Text), Json.get? s.fields key = some (.str t) →
      Json.isStr (Json.get? (Json.sortFields (Json.sortMembers s.fields)) key) t = true := by
    intro key t ht
    rw [Json.get?_sortFields s.nodup_fields, ht, Option.map_some, Json.sortKeys_str]
    exact decide_eq_true rfl
  have hkeys : Json.hasKeys s.fields stateKeys = true := rfl
  have hcleanup : Json.get? (Json.sortFields (Json.sortMembers s.fields)) (lit "pending_cleanup") =
      some (.arr ((s.pendingCleanup.map fun d => .obj d.fields).map Json.sortKeys)) := by
    rw [Json.get?_sortFields s.nodup_fields, ← Json.sortItems_eq_map, ← Json.sortKeys]
    rfl
  rw [loadCorpusState, writeCorpusState, Json.loads_dumpsIndented (plain_state hr hd), Json.sortKeys]
  dsimp only
  rw [Json.hasKeys_sortFields, hkeys, hget (lit "schema_version") corpusSchemaVersion rfl,
    hget (lit "diagnostic") (lit "wizard-corpus") rfl, hget (lit "diagnostic_user_id") s.diagnosticUserId rfl, hcleanup]
  dsimp only
  rw [stateFromFields_sortFields hs hd]
  rfl

end TenantRag

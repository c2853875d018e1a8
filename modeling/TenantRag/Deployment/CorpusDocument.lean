import TenantRag.Foundations.JsonSorted
import TenantRag.Foundations.PyError
import TenantRag.Foundations.Result
import TenantRag.Foundations.Uuid

/-!
# Documents of the diagnostic corpus

`CorpusDocument` of `deployment/wizard_diagnostic.py`: a wizard document that the
diagnostic created, with what its `__post_init__` checks as fields, so that no other
document can be built.

## The model

The constructor takes JSON values, as it does when a state file is read. A document
that exists is copied with other values by giving its own values back to it.
`WizardDiagnosticError` is a `ValueError`.

## What is proved

* `ofValues_values` — a document is built again from its own values.
-/

namespace TenantRag

variable {F : Type}

/-- `WizardDiagnosticError(message)`. -/
def wizardDiagnosticError (message : String) : PyError := valueError message

/-- `if not P: raise WizardDiagnosticError(message)`. -/
def require (P : Prop) [Decidable P] (message : String) : Except PyError (PLift P) :=
  if h : P then .ok ⟨h⟩ else .error (wizardDiagnosticError message)

theorem require_eq_ok {P : Prop} [Decidable P] (h : P) (message : String) : require P message = .ok ⟨h⟩ := dif_pos h

/-! ### Names -/

/-- `WIZARD_FIXTURE_COLLECTIONS`. -/
inductive FixtureCollection where
  /-- `"knowledge"`. -/
  | knowledge
  /-- `"policy"`. -/
  | policy
  deriving DecidableEq

/-- The name of a collection. -/
def FixtureCollection.name : FixtureCollection → Text
  | .knowledge => lit "knowledge"
  | .policy => lit "policy"

/-- The collection of a name. -/
def FixtureCollection.ofName (t : Text) : Option FixtureCollection :=
  if t = lit "knowledge" then some .knowledge
  else if t = lit "policy" then some .policy
  else none

theorem FixtureCollection.ofName_name (c : FixtureCollection) : FixtureCollection.ofName c.name = some c := by
  cases c <;> decide

/-- `DOCUMENT_STATES`. -/
inductive DocumentState where
  /-- `"created"`. -/
  | created
  /-- `"save_submitting"`. -/
  | saveSubmitting
  /-- `"save_submitted"`. -/
  | saveSubmitted
  /-- `"saved"`. -/
  | saved
  deriving DecidableEq

/-- The name of a status. -/
def DocumentState.name : DocumentState → Text
  | .created => lit "created"
  | .saveSubmitting => lit "save_submitting"
  | .saveSubmitted => lit "save_submitted"
  | .saved => lit "saved"

/-- The status of a name. -/
def DocumentState.ofName (t : Text) : Option DocumentState :=
  if t = lit "created" then some .created
  else if t = lit "save_submitting" then some .saveSubmitting
  else if t = lit "save_submitted" then some .saveSubmitted
  else if t = lit "saved" then some .saved
  else none

theorem DocumentState.ofName_name (s : DocumentState) : DocumentState.ofName s.name = some s := by
  cases s <;> decide

/-- The save of the document was not submitted yet. -/
def DocumentState.isPreSubmit (s : DocumentState) : Bool := s = .created || s = .saveSubmitting

/-! ### Identifiers and digests -/

/-- A text that `UUID` reads. -/
abbrev UuidText := { t : Text // (Uuid.ofText t).isSome = true }

/-- `str(UUID(t))`. -/
def UuidText.canonical (t : UuidText) : Text := ((Uuid.ofText t.val).get t.property).str

/-- `_validated_uuid(value, name)`: the text, which has a canonical form. -/
def validatedUuid (value : Json F) (name : String) : Except PyError UuidText :=
  match value with
  | .str t =>
      if h : (Uuid.ofText t).isSome = true then .ok ⟨t, h⟩
      else .error (wizardDiagnosticError s!"{name} must be a valid UUID")
  | _ => .error (wizardDiagnosticError s!"{name} must be a UUID string")

theorem validatedUuid_str (t : UuidText) (name : String) : validatedUuid (.str t.val : Json F) name = .ok t := dif_pos t.property

/-- A lower-case hexadecimal digit. -/
def isHexDigit (c : PyChar) : Bool := (48 ≤ c.val && c.val ≤ 57) || (97 ≤ c.val && c.val ≤ 102)

/-- `_valid_sha256(value)` of a string. -/
def isSha256Text (t : Text) : Bool := t.length = 64 && t.all isHexDigit

/-- A text that `_valid_sha256` accepts. -/
abbrev Sha256Text := { t : Text // isSha256Text t = true }

/-- `ts == tuple(sorted(ts)) and len(ts) == len(set(ts))`. -/
def SortedUnique (ts : List Text) : Prop := ts = ts.insertionSort (fun a b => a ≤ b) ∧ ts.Nodup

instance (ts : List Text) : Decidable (SortedUnique ts) := by
  unfold SortedUnique
  infer_instance

/-! ### Documents -/

/-- The integrity data of a document: chunks and a fingerprint exactly of one that is saved. -/
def Integrity (status : DocumentState) (chunkIds : List UuidText) (storageFingerprint : Option Sha256Text) : Prop :=
  if status = .saved then chunkIds ≠ [] ∧ storageFingerprint ≠ none
  else chunkIds = [] ∧ storageFingerprint = none

/-- `CorpusDocument`. -/
structure CorpusDocument where
  /-- `collection`. -/
  collection : FixtureCollection
  /-- `wizard_id`. -/
  wizardId : UuidText
  /-- `status`. -/
  status : DocumentState
  /-- `task_id`. -/
  taskId : Option UuidText
  /-- `chunk_ids`. -/
  chunkIds : List UuidText
  /-- `storage_fingerprint`. -/
  storageFingerprint : Option Sha256Text
  /-- The chunks are different and in order. -/
  chunks_sorted : SortedUnique (chunkIds.map UuidText.canonical)
  /-- There is a task exactly where the save was submitted. -/
  task : taskId.isNone = status.isPreSubmit
  /-- There is integrity data exactly where the document is saved. -/
  integrity : Integrity status chunkIds storageFingerprint
  deriving DecidableEq

/-- The arguments of the constructor. -/
structure DocumentValues (F : Type) where
  /-- `collection`. -/
  collection : Json F
  /-- `wizard_id`. -/
  wizardId : Json F
  /-- `status`. -/
  status : Json F
  /-- `task_id`. -/
  taskId : Json F
  /-- `chunk_ids`. -/
  chunkIds : List (Json F)
  /-- `storage_fingerprint`. -/
  storageFingerprint : Json F

/-- The check on `collection`. -/
def collectionOf (value : Json F) : Except PyError FixtureCollection :=
  match value with
  | .str t =>
      match FixtureCollection.ofName t with
      | some c => .ok c
      | none => .error (wizardDiagnosticError "Corpus document has an invalid collection")
  | _ => .error (wizardDiagnosticError "Corpus document has an invalid collection")

/-- The check on `status`, which is looked up in a set. -/
def statusOf (value : Json F) : Except PyError DocumentState :=
  match value with
  | .str t =>
      match DocumentState.ofName t with
      | some s => .ok s
      | none => .error (wizardDiagnosticError "Corpus document has an invalid status")
  | .arr _ => .error (typeError "unhashable type: 'list'")
  | .obj _ => .error (typeError "unhashable type: 'dict'")
  | _ => .error (wizardDiagnosticError "Corpus document has an invalid status")

/-- The check on `task_id`. -/
def taskOf (value : Json F) : Except PyError (Option UuidText) :=
  match value with
  | .null => .ok none
  | _ => (validatedUuid value "task_id").map some

/-- The checks on whether there is a task. -/
def checkTask (status : DocumentState) (taskId : Option UuidText) :
    Except PyError (PLift (taskId.isNone = status.isPreSubmit)) :=
  if h : taskId.isNone = status.isPreSubmit then .ok ⟨h⟩
  else if status.isPreSubmit then .error (wizardDiagnosticError "Pre-submit corpus document must not have task_id")
  else .error (wizardDiagnosticError "Saved corpus document is missing task_id")

/-- `value is None`. -/
def isNull (value : Json F) : Bool :=
  match value with
  | .null => true
  | _ => false

/-- The text, where `_valid_sha256(value)` holds. -/
def sha256Of (value : Json F) : Option Sha256Text :=
  match value with
  | .str t => if h : isSha256Text t = true then some ⟨t, h⟩ else none
  | _ => none

theorem sha256Of_str (d : Sha256Text) : sha256Of (.str d.val : Json F) = some d := dif_pos d.property

theorem integrity_none {status : DocumentState} {chunkIds : List UuidText} (hs : status ≠ .saved) (hc : chunkIds = []) :
    Integrity status chunkIds none := by
  rw [Integrity, if_neg hs]
  exact ⟨hc, rfl⟩

theorem integrity_some {chunkIds : List UuidText} (hc : chunkIds ≠ []) (d : Sha256Text) :
    Integrity .saved chunkIds (some d) := by
  rw [Integrity, if_pos rfl]
  exact ⟨hc, Option.some_ne_none d⟩

/-- The checks on the integrity data. -/
def integrityOf (status : DocumentState) (chunkIds : List UuidText) (value : Json F) :
    Except PyError { d : Option Sha256Text // Integrity status chunkIds d } :=
  if hs : status = .saved then
    if hc : chunkIds = [] then .error (wizardDiagnosticError "Saved corpus document has no chunk IDs")
    else
      match sha256Of value with
      | none => .error (wizardDiagnosticError "Saved corpus document has an invalid storage fingerprint")
      | some d => .ok ⟨some d, hs ▸ integrity_some hc d⟩
  else if hc : chunkIds = [] ∧ isNull value = true then .ok ⟨none, integrity_none hs hc.1⟩
  else .error (wizardDiagnosticError "Incomplete corpus document must not contain persisted integrity data")

/-- `CorpusDocument(...)`: `__post_init__` checks the values in this order. -/
def CorpusDocument.ofValues (v : DocumentValues F) : Except PyError CorpusDocument := do
  let collection ← collectionOf v.collection
  let wizardId ← validatedUuid v.wizardId "wizard_id"
  let status ← statusOf v.status
  let taskId ← taskOf v.taskId
  let chunkIds ← v.chunkIds.mapM fun item => validatedUuid item "chunk_id"
  let chunks_sorted ← require (SortedUnique (chunkIds.map UuidText.canonical))
    "Corpus document chunk_ids must be unique and lexically ordered"
  let task ← checkTask status taskId
  let integrity ← integrityOf status chunkIds v.storageFingerprint
  .ok ⟨collection, wizardId, status, taskId, chunkIds, integrity.val, chunks_sorted.down, task.down, integrity.property⟩

/-- The value of an optional text. -/
def textOrNull (t : Option Text) : Json F := t.elim .null .str

/-- The document's own values. -/
def CorpusDocument.values (F : Type) (d : CorpusDocument) : DocumentValues F where
  collection := .str d.collection.name
  wizardId := .str d.wizardId.val
  status := .str d.status.name
  taskId := textOrNull (d.taskId.map Subtype.val)
  chunkIds := d.chunkIds.map fun t => .str t.val
  storageFingerprint := textOrNull (d.storageFingerprint.map Subtype.val)

theorem collectionOf_name (c : FixtureCollection) : collectionOf (.str c.name : Json F) = .ok c := by
  rw [collectionOf, FixtureCollection.ofName_name]

theorem statusOf_name (s : DocumentState) : statusOf (.str s.name : Json F) = .ok s := by
  rw [statusOf, DocumentState.ofName_name]

theorem taskOf_textOrNull (t : Option UuidText) : taskOf (textOrNull (t.map Subtype.val) : Json F) = .ok t := by
  cases t with
  | none => rfl
  | some t =>
    show (validatedUuid (.str t.val : Json F) "task_id").map some = _
    rw [validatedUuid_str]
    rfl

theorem mapM_validatedUuid (ts : List UuidText) (name : String) :
    (ts.map fun t => (.str t.val : Json F)).mapM (fun item => validatedUuid item name) = .ok ts := by
  rw [mapM_eq_ok_iff, List.forall₂_map_left_iff, List.forall₂_same]
  exact fun t _ => validatedUuid_str t name

theorem integrityOf_textOrNull {status : DocumentState} {chunkIds : List UuidText} {d : Option Sha256Text}
    (h : Integrity status chunkIds d) :
    integrityOf status chunkIds (textOrNull (d.map Subtype.val) : Json F) = .ok ⟨d, h⟩ := by
  by_cases hs : status = .saved
  · have hparts := h
    rw [Integrity, if_pos hs] at hparts
    obtain ⟨digest, rfl⟩ := Option.ne_none_iff_exists'.mp hparts.2
    rw [integrityOf, dif_pos hs, dif_neg hparts.1]
    show (match sha256Of (.str digest.val : Json F) with
      | none => _
      | some d => _) = _
    rw [sha256Of_str]
  · have hparts := h
    rw [Integrity, if_neg hs] at hparts
    obtain ⟨hc, rfl⟩ := hparts
    rw [integrityOf, dif_neg hs, dif_pos ⟨hc, rfl⟩]

/-- A document is built again from its own values. -/
theorem CorpusDocument.ofValues_values (d : CorpusDocument) : ofValues (d.values F) = .ok d := by
  simp only [ofValues, values, collectionOf_name, validatedUuid_str, statusOf_name, taskOf_textOrNull,
    mapM_validatedUuid, require_eq_ok d.chunks_sorted, checkTask, dif_pos d.task, integrityOf_textOrNull d.integrity,
    bind, Except.bind]

end TenantRag

import TenantRag.Foundations.Decimal
import TenantRag.Foundations.JsonText
import TenantRag.Foundations.Result
import TenantRag.Mappings.DocumentMap

/-!
# Uploading files to a wizard

`upload` in `backend/api/_wizard.py` with `read_text_files` of
`backend/processing/file_reader.py`: the files of a request are checked, copied under the
size limits, decoded, and their text is put behind the text of the draft. Nothing is
stored; the answer is the new draft.

## The model

A file is its name and its bytes. Decoding under the configured encoding is a parameter,
and so is `str.lower` of a suffix. Traces and the temporary directory are left out: a copied
file is its name in the directory and its bytes.

## What is proved

* `pathSuffix_uploadName` — a copied file keeps its suffix.
* `copyUploads_ok` — files within the limits are copied as they are.
* `upload_eq` — what the endpoint of an empty wizard answers for files that decode: the draft with their
  texts behind it, or a refusal where all of them are empty.
-/

namespace TenantRag

/-- The production ingestion settings: `FixtureRules`, and the constants of `backend/config.py`. -/
structure IngestionRules where
  /-- `supported_extensions`. -/
  supportedExtensions : List Text
  /-- The text of a file under `text_encoding`, or what its `UnicodeDecodeError` says. -/
  decode : List ℕ → Except Text Text
  /-- `text_join_separator`. -/
  textJoinSeparator : Text
  /-- `upload_max_file_bytes`. -/
  uploadMaxFileBytes : ℕ
  /-- `upload_max_total_bytes`. -/
  uploadMaxTotalBytes : ℕ
  /-- `upload_read_chunk_bytes`. -/
  uploadReadChunkBytes : ℕ
  /-- `str.lower`. -/
  lower : Text → Text
  /-- The configuration refuses other limits. -/
  chunk_pos : 0 < uploadReadChunkBytes
  /-- The configuration refuses other limits. -/
  file_le_total : uploadMaxFileBytes ≤ uploadMaxTotalBytes

/-- `Path(name).suffix` for a name without directories. -/
def pathSuffix (name : Text) : Text :=
  let stem := name.rdropWhile (· ≠ 46)
  let tail := name.rtakeWhile (· ≠ 46)
  if 1 < stem.length ∧ tail ≠ [] then 46 :: tail else []

/-- `Path(name).suffix.lower() in SUPPORTED_FILE_EXTENSIONS`. -/
def IngestionRules.supports (R : IngestionRules) (name : Text) : Bool := R.supportedExtensions.contains (R.lower (pathSuffix name))

/-- An exception of the endpoint. -/
inductive UploadError where
  /-- `public_http_error(status, code, message, correlation_id)`. -/
  | http (status : ℕ) (code message : String)
  /-- Another exception, which the endpoint does not catch. -/
  | raised (e : PyError)
  deriving DecidableEq

/-- `validation_error(message, correlation_id)`. -/
def validationError (message : String) : UploadError := .http 422 "VALIDATION_ERROR" message

/-! ### Modified paragraphs -/

/-- The digits of an integer literal, with single underscores between digits; `after` says
that a digit came last. -/
def literalDigits (after : Bool) : Text → Option Text
  | [] => if after then some [] else none
  | c :: cs =>
      if after = true ∧ c = 95 then literalDigits false cs
      else if isDigit c then (literalDigits true cs).map fun ds => c :: ds
      else none

/-- `int(t)`; digits of other scripts are not read. -/
def intOfText (t : Text) : Option ℤ :=
  match strip t with
  | 43 :: cs => (literalDigits false cs).map fun ds => (ofDecimal ds : ℤ)
  | 45 :: cs => (literalDigits false cs).map fun ds => -(ofDecimal ds : ℤ)
  | cs => (literalDigits false cs).map fun ds => (ofDecimal ds : ℤ)

section ModifiedIds

variable (F : Type) [PyFloat F]

/-- The values that one field adds. -/
def rawModifiedIds (rawValue : Text) : Except PyError (List (Json F)) :=
  let value := strip rawValue
  if value.head? = some 91 then
    match Json.loads value with
    | none => .error (valueError "modified_paragraph_ids contains malformed JSON")
    | some (.arr items) => .ok items
    | some _ => .error (valueError "modified_paragraph_ids JSON must be an array")
  else .ok [.str value]

/-- `int(value)` of one of the values. -/
def modifiedId (value : Json F) : Except PyError ℤ :=
  match value with
  | .str t =>
      match intOfText t with
      | none => .error (typeError "modified paragraph IDs must be integers")
      | some n => .ok n
  | .int n => .ok n
  | _ => .error (typeError "modified paragraph IDs must be integers")

/-- `_modified_paragraph_ids(raw_values, saved_paragraph_ids)`. -/
def modifiedParagraphIds (rawValues : Option (List Text)) (savedParagraphIds : List ℕ) : Except PyError (List ℕ) := do
  let values ← (rawValues.getD []).mapM (rawModifiedIds F)
  let modified ← values.flatten.mapM fun value => do
    let paragraphId ← positiveParagraphId (← modifiedId F value)
    if paragraphId ∈ savedParagraphIds then .ok paragraphId
    else .error (valueError s!"modified paragraph_id {paragraphId} does not exist")
  .ok (modified.dedup.insertionSort (· ≤ ·))

end ModifiedIds

/-! ### Copying and reading -/

/-- An `UploadFile`. -/
structure UploadFile where
  /-- `filename or ""`. -/
  filename : Text
  /-- What its `file` reads. -/
  content : List ℕ
  deriving DecidableEq

/-- A file in the temporary directory. -/
structure StoredFile where
  /-- The name in the directory. -/
  name : Text
  /-- The bytes. -/
  content : List ℕ
  deriving DecidableEq

/-- An exception of copying and reading. -/
inductive UploadReadError where
  /-- `_UploadTooLargeError`. -/
  | tooLarge (message : String)
  /-- `_EmptyUploadError`. -/
  | emptyUpload
  /-- `UnicodeDecodeError`. -/
  | unicodeDecode (message : Text)
  /-- Another one. -/
  | raised (e : PyError)
  deriving DecidableEq

/-- The `while True` of `_copy_uploads_with_limits`, for no more than `n` chunks: what is written, and `total_bytes`. -/
def copyChunks (R : IngestionRules) : ℕ → List ℕ → List ℕ → ℕ → ℕ → Except UploadReadError (List ℕ × ℕ)
  | 0, _, written, _, totalBytes => .ok (written, totalBytes)
  | n + 1, unread, written, fileBytes, totalBytes =>
      let chunk := unread.take R.uploadReadChunkBytes
      if chunk.isEmpty then .ok (written, totalBytes)
      else if R.uploadMaxFileBytes < fileBytes + chunk.length then .error (.tooLarge "file upload limit exceeded")
      else if R.uploadMaxTotalBytes < totalBytes + chunk.length then .error (.tooLarge "total upload limit exceeded")
      else copyChunks R n (unread.drop R.uploadReadChunkBytes) (written ++ chunk) (fileBytes + chunk.length)
        (totalBytes + chunk.length)

/-- `f"upload-{index}{suffix}"`. -/
def uploadName (index : ℕ) (suffix : Text) : Text := lit "upload-" ++ decimal index ++ suffix

/-- The loop of `_copy_uploads_with_limits(files, directory)`. -/
def copyUploads (R : IngestionRules) : ℕ → ℕ → List UploadFile → Except UploadReadError (List StoredFile)
  | _, _, [] => .ok []
  | index, totalBytes, file :: files => do
      let copied ← copyChunks R file.content.length file.content [] 0 totalBytes
      let stored ← copyUploads R (index + 1) copied.2 files
      .ok (⟨uploadName index (pathSuffix file.filename), copied.1⟩ :: stored)

/-- `read_text_files([file_path])` for a file of the directory: the text of one file joins to itself. -/
def readTextFile (R : IngestionRules) (file : StoredFile) : Except UploadReadError Text :=
  if !R.supports file.name then .error (.raised (valueError "Unsupported file extension"))
  else
    match R.decode file.content with
    | .error message => .error (.unicodeDecode message)
    | .ok t => .ok t

/-- `_read_uploaded_text(file_paths)`. -/
def readUploadedText (R : IngestionRules) (files : List StoredFile) : Except UploadReadError Text := do
  let contents ← files.mapM (readTextFile R)
  if contents.all List.isEmpty then .error .emptyUpload else .ok (join R.textJoinSeparator contents)

/-! ### The endpoint -/

/-- `get_full_text(document_id)`. -/
def DocumentMap.getFullText (m : DocumentMap) (documentId : Text) : Except PyError Text := do
  let paragraphs ← m.getParagraphData documentId
  .ok paragraphs.values.flatten

/-- `get_paragraphs(document_id)`. -/
def DocumentMap.getParagraphs (m : DocumentMap) (documentId : Text) : Except PyError (List ℕ) := do
  let paragraphs ← m.getParagraphData documentId
  .ok paragraphs.keys

/-- `WizardUploadResource`, without the user and the collection type, which it repeats. -/
structure WizardUploadResource where
  /-- `wizard_id`. -/
  wizardId : Text
  /-- `full_text`. -/
  fullText : Text
  /-- `paragraph_ids`. -/
  paragraphIds : List ℕ
  /-- `modified_paragraph_ids`. -/
  modifiedParagraphIds : List ℕ
  deriving DecidableEq

/-- The answer to an exception of the map. -/
def lookupError (e : PyError) : UploadError :=
  match e.kind with
  | .keyError => .http 404 "NOT_FOUND" "wizard not found"
  | .typeError | .valueError => validationError e.message
  | _ => .raised e

/-- The answer to an exception of copying and reading. -/
def uploadReadError : UploadReadError → UploadError
  | .tooLarge _ => .http 413 "UPLOAD_TOO_LARGE" "The uploaded files exceed the configured size limit."
  | .emptyUpload => .http 422 "EMPTY_UPLOAD" "At least one uploaded file must contain text."
  | .unicodeDecode _ => .http 422 "INVALID_TEXT_ENCODING" "An uploaded file is not valid configured text."
  | .raised e => .raised e

/-- `base_text` and `uploaded_text` in one. -/
def draftMerge (R : IngestionRules) (baseText uploadedText : Text) : Text :=
  if baseText ≠ [] ∧ uploadedText ≠ [] then baseText ++ R.textJoinSeparator ++ uploadedText else baseText ++ uploadedText

/-- `upload(wizard_id, files=files, current_text=current_text, modified_paragraph_ids=modified_paragraph_ids)`,
for the document map of the user and the collection. -/
def upload (F : Type) [PyFloat F] (R : IngestionRules) (documentMap : DocumentMap) (wizardId : Text) (files : List UploadFile)
    (currentText : Option Text) (modified : Option (List Text)) : Except UploadError WizardUploadResource := do
  if files.isEmpty then .error (validationError "at least one file is required")
  else do
    let savedText ← (documentMap.getFullText wizardId).mapError lookupError
    let paragraphIds ← (documentMap.getParagraphs wizardId).mapError lookupError
    if !files.all fun file => R.supports file.filename then
      .error (.http 415 "UNSUPPORTED_FILE_TYPE" "One or more uploaded files use an unsupported type.")
    else do
      let modified ← (modifiedParagraphIds F modified paragraphIds).mapError fun e => validationError e.message
      let paths ← (copyUploads R 0 0 files).mapError uploadReadError
      let uploadedText ← (readUploadedText R paths).mapError uploadReadError
      match paragraphIds.getLast? with
      | none => .error (.raised ⟨.otherException, "list index out of range"⟩)
      | some last =>
          .ok ⟨wizardId, draftMerge R (currentText.getD savedText) uploadedText, paragraphIds,
            (modified ++ [last]).dedup.insertionSort (· ≤ ·)⟩

/-! ### Suffixes -/

theorem rdropWhile_dot {front tail : Text} (h : 46 ∉ tail) :
    (front ++ 46 :: tail).rdropWhile (· ≠ 46) = front ++ [46] := by
  have hrest : ∀ c ∈ tail.reverse, decide (c ≠ 46) = true := by
    intro c hc
    rw [decide_eq_true_iff]
    rintro rfl
    exact h (List.mem_reverse.mp hc)
  have hreverse : (front ++ 46 :: tail).reverse = tail.reverse ++ 46 :: front.reverse := by simp
  rw [List.rdropWhile, hreverse, List.dropWhile_append_of_pos hrest, List.dropWhile_cons_of_neg (by simp)]
  simp

theorem rtakeWhile_dot {front tail : Text} (h : 46 ∉ tail) : (front ++ 46 :: tail).rtakeWhile (· ≠ 46) = tail := by
  have hrest : ∀ c ∈ tail.reverse, decide (c ≠ 46) = true := by
    intro c hc
    rw [decide_eq_true_iff]
    rintro rfl
    exact h (List.mem_reverse.mp hc)
  have hreverse : (front ++ 46 :: tail).reverse = tail.reverse ++ 46 :: front.reverse := by simp
  rw [List.rtakeWhile, hreverse, List.takeWhile_append_of_pos hrest, List.takeWhile_cons_of_neg (by simp),
    List.append_nil, List.reverse_reverse]

/-- A suffix is empty, or a dot and something without one. -/
theorem pathSuffix_shape (name : Text) :
    pathSuffix name = [] ∨ ∃ tail, pathSuffix name = 46 :: tail ∧ tail ≠ [] ∧ 46 ∉ tail := by
  rw [pathSuffix]
  split_ifs with h
  · refine .inr ⟨_, rfl, h.2, fun hdot => ?_⟩
    have hnot := List.mem_rtakeWhile_imp hdot
    simp at hnot
  · exact .inl rfl

/-- A copied file keeps the suffix of the file. -/
theorem pathSuffix_uploadName (index : ℕ) (name : Text) : pathSuffix (uploadName index (pathSuffix name)) = pathSuffix name := by
  have hfront : 46 ∉ lit "upload-" ++ decimal index := by
    rw [List.mem_append, not_or]
    refine ⟨by decide, fun hdot => ?_⟩
    have hdigit := isDigit_of_mem_decimal hdot
    revert hdigit
    decide
  rcases pathSuffix_shape name with hnil | ⟨tail, htail, hne, hdot⟩
  · have hstem : (lit "upload-" ++ decimal index).rdropWhile (· ≠ 46) = [] := by
      rw [List.rdropWhile_eq_nil_iff]
      intro c hc
      rw [decide_eq_true_iff]
      rintro rfl
      exact hfront hc
    rw [hnil, uploadName, List.append_nil, pathSuffix, hstem]
    simp
  · have hlong : 1 < (lit "upload-" ++ decimal index ++ [46]).length := by
      simp only [List.length_append, List.length_singleton]
      have hseven : (lit "upload-").length = 7 := by decide
      omega
    rw [htail, uploadName, pathSuffix, rdropWhile_dot hdot, rtakeWhile_dot hdot]
    exact if_pos ⟨hlong, hne⟩

/-! ### Copying and reading -/

/-- A file within the limits is copied as it is. -/
theorem copyChunks_ok {R : IngestionRules} {n : ℕ} {unread written : List ℕ} {fileBytes totalBytes : ℕ}
    (hn : unread.length ≤ n) (hfile : fileBytes + unread.length ≤ R.uploadMaxFileBytes)
    (htotal : totalBytes + unread.length ≤ R.uploadMaxTotalBytes) :
    copyChunks R n unread written fileBytes totalBytes = .ok (written ++ unread, totalBytes + unread.length) := by
  induction n generalizing unread written fileBytes totalBytes with
  | zero =>
    obtain rfl : unread = [] := List.length_eq_zero_iff.mp (by omega)
    simp [copyChunks]
  | succ n ih =>
    have hsplit : (unread.take R.uploadReadChunkBytes).length + (unread.drop R.uploadReadChunkBytes).length = unread.length := by
      rw [← List.length_append, List.take_append_drop]
    rw [copyChunks]
    by_cases hempty : (unread.take R.uploadReadChunkBytes).isEmpty = true
    · -- a chunk is only empty at the end of the file
      rcases List.take_eq_nil_iff.mp (List.isEmpty_iff.mp hempty) with hzero | rfl
      · exact absurd hzero R.chunk_pos.ne'
      · simp
    · have hpos : 0 < (unread.take R.uploadReadChunkBytes).length :=
        List.length_pos_iff.mpr fun hnil => hempty (List.isEmpty_iff.mpr hnil)
      rw [if_neg hempty, if_neg (by omega), if_neg (by omega), ih (by omega) (by omega) (by omega), List.append_assoc,
        List.take_append_drop, Nat.add_assoc, hsplit]

/-- The files of the directory. -/
def storedFiles : ℕ → List UploadFile → List StoredFile
  | _, [] => []
  | index, file :: files => ⟨uploadName index (pathSuffix file.filename), file.content⟩ :: storedFiles (index + 1) files

/-- The bytes of some files together. -/
def uploadBytes (files : List UploadFile) : ℕ := (files.map fun file => file.content.length).sum

/-- Files within the limits are copied as they are. -/
theorem copyUploads_ok {R : IngestionRules} {files : List UploadFile} {index totalBytes : ℕ}
    (hfile : ∀ file ∈ files, file.content.length ≤ R.uploadMaxFileBytes)
    (htotal : totalBytes + uploadBytes files ≤ R.uploadMaxTotalBytes) :
    copyUploads R index totalBytes files = .ok (storedFiles index files) := by
  induction files generalizing index totalBytes with
  | nil => rfl
  | cons file files ih =>
    obtain ⟨hfirst, hrest⟩ := List.forall_mem_cons.mp hfile
    rw [uploadBytes, List.map_cons, List.sum_cons, ← uploadBytes] at htotal
    rw [copyUploads, copyChunks_ok le_rfl (by omega) (by omega)]
    simp only [bind, Except.bind]
    rw [ih hrest (by omega), List.nil_append, storedFiles]

/-- Files that are supported and decode are read. -/
theorem readTextFiles_ok {R : IngestionRules} {files : List UploadFile} {texts : List Text}
    (hsupports : ∀ file ∈ files, R.supports file.filename = true)
    (hdecode : List.Forall₂ (fun file t => R.decode file.content = .ok t) files texts) (index : ℕ) :
    (storedFiles index files).mapM (readTextFile R) = .ok texts := by
  rw [mapM_eq_ok_iff]
  induction hdecode generalizing index with
  | nil => exact .nil
  | @cons file t files texts hfirst _ ih =>
    obtain ⟨hsupported, hrest⟩ := List.forall_mem_cons.mp hsupports
    refine .cons ?_ (ih hrest (index + 1))
    have hkept : R.supports (uploadName index (pathSuffix file.filename)) = true := by
      rw [IngestionRules.supports, pathSuffix_uploadName]
      exact hsupported
    simp only [readTextFile, hkept, hfirst]
    rfl

/-! ### What the endpoint answers -/

/-- The fields that a client of an empty wizard sends back. -/
inductive EmptyWizardIds : Option (List Text) → Prop
  /-- None at first. -/
  | absent : EmptyWizardIds none
  /-- The only paragraph then. -/
  | only : EmptyWizardIds (some [decimal 1])

theorem modifiedParagraphIds_only (F : Type) [PyFloat F] {modified : Option (List Text)} (h : EmptyWizardIds modified) :
    ∃ ids, modifiedParagraphIds F modified [1] = .ok ids ∧ (ids ++ [1]).dedup.insertionSort (· ≤ ·) = [1] := by
  cases h with
  | absent => exact ⟨[], rfl, by decide⟩
  | only => exact ⟨[1], rfl, by decide⟩

/-- Files that are all accepted for themselves: their texts are put behind the draft, unless all are empty. -/
theorem upload_eq (F : Type) [PyFloat F] {R : IngestionRules} {m : DocumentMap} {wizardId : Text} {files : List UploadFile}
    (currentText : Option Text) {modified : Option (List Text)} {texts : List Text}
    (hwizard : m.getParagraphData wizardId = .ok DocumentMap.emptyDocument) (hne : files ≠ [])
    (hsupports : ∀ file ∈ files, R.supports file.filename = true)
    (hfile : ∀ file ∈ files, file.content.length ≤ R.uploadMaxFileBytes) (htotal : uploadBytes files ≤ R.uploadMaxTotalBytes)
    (hdecode : List.Forall₂ (fun file t => R.decode file.content = .ok t) files texts) (hmodified : EmptyWizardIds modified) :
    upload F R m wizardId files currentText modified =
      if texts.all List.isEmpty then .error (.http 422 "EMPTY_UPLOAD" "At least one uploaded file must contain text.")
      else .ok ⟨wizardId, draftMerge R (currentText.getD []) (join R.textJoinSeparator texts), [1], [1]⟩ := by
  obtain ⟨ids, hids, hsorted⟩ := modifiedParagraphIds_only F hmodified
  have htext : m.getFullText wizardId = .ok [] := by
    rw [DocumentMap.getFullText, hwizard]
    rfl
  have hparagraphs : m.getParagraphs wizardId = .ok [1] := by
    rw [DocumentMap.getParagraphs, hwizard]
    rfl
  have hcopied : copyUploads R 0 0 files = .ok (storedFiles 0 files) := copyUploads_ok hfile (by omega)
  have hall : (files.all fun file => R.supports file.filename) = true := List.all_eq_true.mpr hsupports
  have hfiles : files.isEmpty = false := by
    rw [Bool.eq_false_iff]
    exact fun h => hne (List.isEmpty_iff.mp h)
  simp only [upload, hfiles, htext, hparagraphs, hall, hids, hcopied, readUploadedText, readTextFiles_ok hsupports hdecode,
    bind, Except.bind, Except.mapError, Bool.false_eq_true, if_false, Bool.not_true]
  by_cases hempty : texts.all List.isEmpty = true
  · simp only [hempty, if_true, uploadReadError]
  · simp only [hempty, List.getLast?_singleton, hsorted]
    rfl

end TenantRag

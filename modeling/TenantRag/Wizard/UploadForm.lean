import TenantRag.Foundations.Unicode
import TenantRag.Wizard.Upload

/-!
# The form of an upload

`WizardApi.upload` in `deployment/wizard_diagnostic_api.py` sends the files and the fields of
`upload_form_fields` as a multipart form, and `upload` in `backend/api/_wizard.py` is handed what the
framework reads of it. The framework and its parser are no part of the repository.

## The model

* `MultipartParser`, `FormTransport` — the framework between the two, a parameter.
* `FormTransport.Lawful` — what it is known to do: a form within the limits of the parser is received as
  it was sent, but for the names of its files, and any other is refused; a field that is empty counts as
  missing; an answer is sent back if its text has an encoding.

## What is proved

* `requestUpload_ok_iff` — which requests to an empty wizard succeed, and with which draft.
-/

namespace TenantRag

/-- The fields of `upload_form_fields`, and the files. -/
structure UploadForm where
  /-- `user_id`. -/
  userId : Text
  /-- `current_text`. -/
  currentText : Option Text
  /-- `modified_paragraph_ids`. -/
  modifiedParagraphIds : Option (List Text)
  /-- `files`. -/
  files : List UploadFile

/-- The fields of a form that are no files. -/
def UploadForm.fields (form : UploadForm) : List Text :=
  form.userId :: (form.currentText.toList ++ form.modifiedParagraphIds.getD [])

/-- The multipart parser: its limits, and what it makes of the names of files. -/
structure MultipartParser where
  /-- `max_files`. -/
  maxFiles : ℕ
  /-- `max_fields`. -/
  maxFields : ℕ
  /-- `max_part_size`, in bytes, of a field that is no file. -/
  maxPartSize : ℕ
  /-- What is received of the name of a file, if it can be sent. -/
  filename : Text → Option Text
  /-- The three fields of an upload are not too many. -/
  fields_le : 3 ≤ maxFields

namespace MultipartParser

variable (N : MultipartParser)

/-- A field that is within the limit. -/
def TakesField (t : Text) : Prop := encodable t = true ∧ (t.flatMap utf8Bytes).length ≤ N.maxPartSize

instance (t : Text) : Decidable (N.TakesField t) := inferInstanceAs (Decidable (_ ∧ _))

/-- A form that the parser takes. -/
structure Takes (form : UploadForm) : Prop where
  /-- The user is named. -/
  user : form.userId ≠ []
  /-- There are not too many files. -/
  files : form.files.length ≤ N.maxFiles
  /-- There are not too many fields. -/
  fields : form.fields.length ≤ N.maxFields
  /-- No field is too long. -/
  sizes : ∀ t ∈ form.fields, N.TakesField t
  /-- Every name can be sent. -/
  names : ∀ file ∈ form.files, (N.filename file.filename).isSome = true

instance (form : UploadForm) : Decidable (N.Takes form) :=
  decidable_of_iff (form.userId ≠ [] ∧ form.files.length ≤ N.maxFiles ∧ form.fields.length ≤ N.maxFields ∧
      (∀ t ∈ form.fields, N.TakesField t) ∧ ∀ file ∈ form.files, (N.filename file.filename).isSome = true)
    ⟨fun ⟨huser, hfiles, hfields, hsizes, hnames⟩ => ⟨huser, hfiles, hfields, hsizes, hnames⟩,
      fun ⟨huser, hfiles, hfields, hsizes, hnames⟩ => ⟨huser, hfiles, hfields, hsizes, hnames⟩⟩

/-- A file as it is received. -/
def Sent (file received : UploadFile) : Prop := N.filename file.filename = some received.filename ∧ received.content = file.content

end MultipartParser

/-- What is between the client and the endpoint. -/
structure FormTransport extends MultipartParser where
  /-- What the endpoint is handed of a form, or how the form is refused. -/
  receive : UploadForm → Except UploadError UploadForm
  /-- What the client reads of an answer. -/
  respond : WizardUploadResource → Except UploadError WizardUploadResource

/-- What the framework is known to do. -/
structure FormTransport.Lawful (N : FormTransport) : Prop where
  /-- A form that the parser takes is received, where no draft is empty. -/
  received : ∀ (form : UploadForm) (files : List UploadFile), N.Takes form → form.currentText ≠ some [] →
    List.Forall₂ N.Sent form.files files → N.receive form = .ok { form with files := files }
  /-- Any other is refused. -/
  refused : ∀ form, ¬ N.Takes form → ∃ e, N.receive form = .error e
  /-- An answer that has an encoding is sent back. -/
  answered : ∀ answer, encodable answer.fullText = true → N.respond answer = .ok answer
  /-- Any other is not. -/
  unanswered : ∀ answer, encodable answer.fullText = false → ∃ e, N.respond answer = .error e

/-- `WizardApi.upload`: the form, the endpoint, and the answer. -/
def requestUpload (F : Type) [PyFloat F] (R : IngestionRules) (N : FormTransport) (m : DocumentMap) (wizardId : Text)
    (form : UploadForm) : Except UploadError WizardUploadResource := do
  let received ← N.receive form
  let answer ← upload F R m wizardId received.files received.currentText received.modifiedParagraphIds
  N.respond answer

/-! ### What the endpoint is handed -/

section Received

variable {R : IngestionRules} {N : FormTransport} {m : DocumentMap} {wizardId : Text}

/-- The files of a form that the parser takes are received. -/
theorem MultipartParser.Takes.sent {N : MultipartParser} {form : UploadForm} (h : N.Takes form) : ∃ files, List.Forall₂ N.Sent form.files files :=
  exists_forall₂ fun file hfile =>
    have ⟨name, hname⟩ := Option.isSome_iff_exists.mp (h.names file hfile)
    ⟨⟨name, file.content⟩, hname, rfl⟩

/-- Bytes are received as they were sent. -/
theorem map_content_of_sent {files received : List UploadFile} (h : List.Forall₂ N.Sent files received) :
    received.map UploadFile.content = files.map UploadFile.content := by
  induction h with
  | nil => rfl
  | cons hfile _ ih => rw [List.map_cons, List.map_cons, hfile.2, ih]

/-- A file of a type that is not supported is refused, whatever else there is. -/
theorem upload_unsupported (F : Type) [PyFloat F] {files : List UploadFile} (m : DocumentMap) (wizardId : Text)
    (currentText : Option Text) (modified : Option (List Text)) (h : ¬ ∀ file ∈ files, R.supports file.filename = true) :
    ∃ e, upload F R m wizardId files currentText modified = .error e := by
  have hall : (!files.all fun file => R.supports file.filename) = true := by
    rw [Bool.not_eq_true', Bool.eq_false_iff, Ne, List.all_eq_true]
    exact h
  cases hresult : upload F R m wizardId files currentText modified with
  | error e => exact ⟨e, rfl⟩
  | ok answer =>
    simp only [upload, hall, if_true] at hresult
    split_ifs at hresult
    obtain ⟨savedText, -, hresult⟩ := bind_eq_ok_iff.mp hresult
    obtain ⟨paragraphIds, -, hresult⟩ := bind_eq_ok_iff.mp hresult
    cases hresult

/-- What the endpoint of an empty wizard answers, of files of which one has text. -/
theorem upload_ok_iff (F : Type) [PyFloat F] {files : List UploadFile} (currentText : Option Text)
    {modified : Option (List Text)} {texts : List Text} {answer : WizardUploadResource}
    (hwizard : m.getParagraphData wizardId = .ok DocumentMap.emptyDocument) (hne : files ≠ [])
    (hfile : ∀ file ∈ files, file.content.length ≤ R.uploadMaxFileBytes) (htotal : uploadBytes files ≤ R.uploadMaxTotalBytes)
    (hdecode : List.Forall₂ (fun file t => R.decode file.content = .ok t) files texts) (hmodified : EmptyWizardIds modified) :
    upload F R m wizardId files currentText modified = .ok answer ↔
      (∀ file ∈ files, R.supports file.filename = true) ∧ (∃ t ∈ texts, t ≠ []) ∧
        answer = ⟨wizardId, draftMerge R (currentText.getD []) (join R.textJoinSeparator texts), [1], [1]⟩ := by
  by_cases hsupports : ∀ file ∈ files, R.supports file.filename = true
  · have htexts : texts.all List.isEmpty = true ↔ ¬ ∃ t ∈ texts, t ≠ [] := by simp [List.all_eq_true]
    rw [upload_eq F currentText hwizard hne hsupports hfile htotal hdecode hmodified]
    by_cases hempty : texts.all List.isEmpty = true
    · rw [if_pos hempty]
      exact ⟨nofun, fun h => absurd h.2.1 (htexts.mp hempty)⟩
    · rw [if_neg hempty]
      constructor
      · intro h
        exact ⟨hsupports, not_not.mp (mt htexts.mpr hempty), (Except.ok.inj h).symm⟩
      · rintro ⟨-, -, rfl⟩
        rfl
  · obtain ⟨e, he⟩ := upload_unsupported F m wizardId currentText modified hsupports
    rw [he]
    exact ⟨nofun, fun h => absurd h.1 hsupports⟩

theorem FormTransport.Lawful.respond_ok_iff (hN : N.Lawful) {answer sent : WizardUploadResource} :
    N.respond answer = .ok sent ↔ encodable answer.fullText = true ∧ sent = answer := by
  by_cases h : encodable answer.fullText = true
  · rw [hN.answered answer h]
    exact ⟨fun heq => ⟨h, (Except.ok.inj heq).symm⟩, fun heq => congrArg _ heq.2.symm⟩
  · obtain ⟨e, he⟩ := hN.unanswered answer (Bool.eq_false_iff.mpr h)
    rw [he]
    exact ⟨nofun, fun heq => absurd heq.1 h⟩

/-- A request succeeds where its form is taken, and the endpoint and the framework answer. -/
theorem requestUpload_of_takes (F : Type) [PyFloat F] (hN : N.Lawful) {form : UploadForm} (htakes : N.Takes form)
    (hcurrent : form.currentText ≠ some []) {files : List UploadFile} (hsent : List.Forall₂ N.Sent form.files files)
    {answer : WizardUploadResource} :
    requestUpload F R N m wizardId form = .ok answer ↔
      upload F R m wizardId files form.currentText form.modifiedParagraphIds = .ok answer ∧
        encodable answer.fullText = true := by
  rw [requestUpload, hN.received form files htakes hcurrent hsent, bind_of_ok rfl, bind_eq_ok_iff]
  constructor
  · rintro ⟨answer', hupload, hrespond⟩
    obtain ⟨hencodable, rfl⟩ := hN.respond_ok_iff.mp hrespond
    exact ⟨hupload, hencodable⟩
  · rintro ⟨hupload, hencodable⟩
    exact ⟨answer, hupload, hN.respond_ok_iff.mpr ⟨hencodable, rfl⟩⟩

/-- A request to an empty wizard, of files that all decode and are within the limits of the upload: it succeeds exactly
where the parser takes its form, every file keeps a supported name, one of them has text, and the draft with their
texts behind it can be sent back. -/
theorem requestUpload_ok_iff (F : Type) [PyFloat F] (hN : N.Lawful) {form : UploadForm} {texts : List Text}
    {answer : WizardUploadResource} (hwizard : m.getParagraphData wizardId = .ok DocumentMap.emptyDocument)
    (hne : form.files ≠ []) (hfile : ∀ file ∈ form.files, file.content.length ≤ R.uploadMaxFileBytes)
    (htotal : uploadBytes form.files ≤ R.uploadMaxTotalBytes)
    (hdecode : List.Forall₂ (fun file t => R.decode file.content = .ok t) form.files texts)
    (hmodified : EmptyWizardIds form.modifiedParagraphIds) (hcurrent : form.currentText ≠ some []) :
    requestUpload F R N m wizardId form = .ok answer ↔
      N.Takes form ∧ (∀ file ∈ form.files, ∃ name, N.filename file.filename = some name ∧ R.supports name = true) ∧
        (∃ t ∈ texts, t ≠ []) ∧
        encodable (draftMerge R (form.currentText.getD []) (join R.textJoinSeparator texts)) = true ∧
        answer = ⟨wizardId, draftMerge R (form.currentText.getD []) (join R.textJoinSeparator texts), [1], [1]⟩ := by
  by_cases htakes : N.Takes form
  · obtain ⟨files, hsent⟩ := htakes.sent
    have hcontents := map_content_of_sent hsent
    have hnames : (∀ file ∈ files, R.supports file.filename = true) ↔
        ∀ file ∈ form.files, ∃ name, N.filename file.filename = some name ∧ R.supports name = true := by
      constructor
      · intro h file hmem
        obtain ⟨received, hreceived, hname, -⟩ := forall₂_left hsent hmem
        exact ⟨received.filename, hname, h received hreceived⟩
      · intro h received hmem
        obtain ⟨file, hmem', hname, -⟩ := forall₂_right hsent hmem
        obtain ⟨name, hname', hsupports⟩ := h file hmem'
        rw [hname] at hname'
        rwa [Option.some.inj hname']
    have hne' : files ≠ [] := by
      rintro rfl
      exact hne (List.forall₂_nil_right_iff.mp hsent)
    have hfile' : ∀ file ∈ files, file.content.length ≤ R.uploadMaxFileBytes := by
      intro received hmem
      obtain ⟨file, hmem', -, hcontent⟩ := forall₂_right hsent hmem
      rw [hcontent]
      exact hfile file hmem'
    have htotal' : uploadBytes files ≤ R.uploadMaxTotalBytes := by
      have hbytes := congrArg (fun contents : List (List ℕ) => (contents.map List.length).sum) hcontents
      simp only [List.map_map] at hbytes
      exact hbytes.le.trans htotal
    have hdecode' : List.Forall₂ (fun file t => R.decode file.content = .ok t) files texts := by
      rw [← List.forall₂_map_left_iff (R := fun content t => R.decode content = .ok t) (f := UploadFile.content)] at hdecode ⊢
      rwa [hcontents]
    rw [requestUpload_of_takes F hN htakes hcurrent hsent,
      upload_ok_iff F form.currentText hwizard hne' hfile' htotal' hdecode' hmodified, hnames]
    constructor
    · rintro ⟨⟨hsupports, htext, rfl⟩, hencodable⟩
      exact ⟨htakes, hsupports, htext, hencodable, rfl⟩
    · rintro ⟨-, hsupports, htext, hencodable, rfl⟩
      exact ⟨⟨hsupports, htext, rfl⟩, hencodable⟩
  · obtain ⟨e, he⟩ := hN.refused form htakes
    rw [requestUpload, he]
    simp [bind, Except.bind, htakes]

end Received

end TenantRag

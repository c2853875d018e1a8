import TenantRag.Foundations.Utf8
import TenantRag.Wizard.UploadForm

/-!
# Uploading a fixture collection in batches

`_fixture_files`, `WizardFixtures.batches` and `WizardFixtures.combined_text` in
`deployment/wizard_diagnostic.py`, and `_upload_fixture_batches` in
`deployment/wizard_diagnostic_api.py`: the files of a directory are checked, grouped under
the total upload limit, and uploaded group by group, each with the draft of the one before.

## The model

A directory is what is found under its path: nothing, something else, or entries with
their bytes, which stay as they are. The digests of the files are left out. A request is
the form that the framework reads, and its answer.

## What is proved

* `sizeGroups_batches`, `batches_of_sizeGroups` — the batches are the only grouping that ends a group
  exactly where the next file would exceed the limit.
* `uploadBatches_cons_iff`, `uploadBatches_iff` — when one upload succeeds, and when all do.
* `uploadsAsOne_iff` — then, and only then, they make the combined text.
-/

namespace TenantRag

/-- `WizardDiagnosticError(message)`. -/
structure WizardDiagnosticError where
  /-- `str(exc)`. -/
  message : Text
  deriving DecidableEq

/-- An entry of a directory. -/
structure DirectoryEntry where
  /-- `entry.name`. -/
  name : Text
  /-- `entry.is_symlink()`. -/
  isSymlink : Bool
  /-- `entry.is_file()`. -/
  isFile : Bool
  /-- Its bytes. -/
  content : List ℕ
  deriving DecidableEq

/-- What is found under the path of a collection. -/
inductive FixtureDirectory where
  /-- A symbolic link. -/
  | symlink
  /-- Nothing. -/
  | missing
  /-- No directory. -/
  | other
  /-- A directory, in the order of `iterdir`. -/
  | entries (entries : List DirectoryEntry)

/-- `FixtureFile`. -/
structure FixtureFile where
  /-- `path`, with what it refers to. -/
  path : DirectoryEntry
  /-- `size_bytes`. -/
  sizeBytes : ℕ
  /-- `path.stat().st_size`. -/
  size_eq : sizeBytes = path.content.length
  deriving DecidableEq

/-- `FixtureBatch`. -/
structure FixtureBatch where
  /-- `files`. -/
  files : List FixtureFile
  /-- `size_bytes`. -/
  sizeBytes : ℕ

section Files

variable (R : IngestionRules) (pyRepr : Text → Text) (strictPrivate : Bool) (directory : Text)

/-- `str(entry)`. -/
def entryPath (entry : DirectoryEntry) : Text := directory ++ lit "/" ++ entry.name

/-- The first loop of `_fixture_files`. -/
def fixturePaths : List DirectoryEntry → Except WizardDiagnosticError (List DirectoryEntry)
  | [] => .ok []
  | entry :: rest =>
      let allowedExtensions := if strictPrivate then [lit ".txt"] else R.supportedExtensions
      let suffix := pathSuffix entry.name
      if entry.name.head? = some 46 then
        if entry.name = lit ".gitkeep" ∧ entry.isFile ∧ !entry.isSymlink then fixturePaths rest
        else if strictPrivate then .error ⟨lit "Hidden fixture entries are not allowed: " ++ entryPath directory entry⟩
        else fixturePaths rest
      else if entry.isSymlink then .error ⟨lit "Fixture must not be a symlink: " ++ entryPath directory entry⟩
      else if !entry.isFile then
        .error ⟨lit "Fixture collections may contain only top-level files: " ++ entryPath directory entry⟩
      else if !allowedExtensions.contains (R.lower suffix) then
        .error ⟨lit "Unsupported file extension " ++ pyRepr (if suffix.isEmpty then lit "<none>" else suffix) ++
          lit "; expected one of: " ++ join (lit ", ") allowedExtensions⟩
      else (fixturePaths rest).map fun paths => entry :: paths

/-- One turn of the second loop of `_fixture_files`. -/
def readFixture (path : DirectoryEntry) : Except WizardDiagnosticError (FixtureFile × Text) :=
  match R.decode path.content with
  | .error message =>
      if strictPrivate then
        .error ⟨lit "Invalid private fixture: " ++ entryPath directory path ++ lit " (UnicodeDecodeError)"⟩
      else .error ⟨lit "Invalid fixture " ++ entryPath directory path ++ lit ": " ++ message⟩
  | .ok content =>
      if R.uploadMaxFileBytes < path.content.length then
        .error ⟨lit "Fixture exceeds UPLOAD_MAX_FILE_BYTES: " ++ entryPath directory path⟩
      else if R.uploadMaxTotalBytes < path.content.length then
        .error ⟨lit "Fixture cannot fit within UPLOAD_MAX_TOTAL_BYTES: " ++ entryPath directory path⟩
      else if strictPrivate ∧ isBlank content then
        .error ⟨lit "Private corpus fixture is empty: " ++ entryPath directory path⟩
      else .ok (⟨path, path.content.length, rfl⟩, content)

/-- `_fixture_files(directory, rules, strict_private=strict_private)`. -/
def fixtureFiles : FixtureDirectory → Except WizardDiagnosticError (List FixtureFile)
  | .symlink => .error ⟨lit "Fixture collection must not be a symlink: " ++ directory⟩
  | .missing => .error ⟨lit "Missing fixture collection: " ++ directory⟩
  | .other => .error ⟨lit "Fixture collection is not a directory: " ++ directory⟩
  | .entries entries => do
      let paths ← fixturePaths R pyRepr strictPrivate directory (entries.insertionSort fun a b => ¬ b.name < a.name)
      if paths.isEmpty then .error ⟨lit "Fixture collection contains no fixture files: " ++ directory⟩
      else do
        let fixtures ← paths.mapM (readFixture R strictPrivate directory)
        if fixtures.all fun fixture => fixture.2.isEmpty then
          .error ⟨lit "Fixture collection must contain non-empty text: " ++ directory⟩
        else .ok (fixtures.map Prod.fst)

end Files

/-! ### Batches -/

/-- The loop of `batches`. -/
def batchesFrom (total : ℕ) : List FixtureFile → List FixtureFile → ℕ → List FixtureBatch
  | [], current, currentBytes => if current.isEmpty then [] else [⟨current, currentBytes⟩]
  | fixture :: rest, current, currentBytes =>
      if !current.isEmpty ∧ total < currentBytes + fixture.sizeBytes then
        ⟨current, currentBytes⟩ :: batchesFrom total rest [fixture] fixture.sizeBytes
      else batchesFrom total rest (current ++ [fixture]) (currentBytes + fixture.sizeBytes)

/-- `batches(collection)`, for the files of the collection. -/
def batches (R : IngestionRules) (files : List FixtureFile) : List FixtureBatch := batchesFrom R.uploadMaxTotalBytes files [] 0

/-- `combined_text(collection)`, for the files of the collection. -/
def combinedText (R : IngestionRules) (collection : Text) (files : List FixtureFile) : Except WizardDiagnosticError Text :=
  match files.mapM fun item => R.decode item.path.content with
  | .error _ => .error ⟨lit "Could not decode " ++ collection ++ lit " fixtures with configured encoding"⟩
  | .ok contents => .ok (join R.textJoinSeparator contents)

/-! ### Uploads -/

/-- How the uploads of a collection end without a draft. -/
inductive FixtureUploadError where
  /-- The client gives up. -/
  | diagnostic (e : WizardDiagnosticError)
  /-- The endpoint refuses a batch. -/
  | refused (e : UploadError)
  deriving DecidableEq

/-- `upload_continuation(previous)`, for an answer of the endpoint. -/
def uploadContinuation (previous : Option WizardUploadResource) :
    Except WizardDiagnosticError (Option Text × Option (List ℕ)) :=
  match previous with
  | none => .ok (none, none)
  | some answer =>
      if answer.modifiedParagraphIds.all fun item => 0 < item then .ok (some answer.fullText, some answer.modifiedParagraphIds)
      else .error ⟨lit "Upload returned invalid modified paragraph IDs"⟩

/-- The part of a request for a file. -/
def FixtureFile.part (file : FixtureFile) : UploadFile := ⟨file.path.name, file.path.content⟩

/-- The form for a batch, which has each identifier as a text. -/
def batchForm (userId : Text) (batch : FixtureBatch) (currentText : Option Text) (modified : Option (List ℕ)) : UploadForm :=
  ⟨userId, currentText, modified.map fun ids => ids.map decimal, batch.files.map FixtureFile.part⟩

/-- The loop of `_upload_fixture_batches`. -/
def uploadBatches (F : Type) [PyFloat F] (R : IngestionRules) (N : FormTransport) (m : DocumentMap) (userId wizardId : Text) :
    List FixtureBatch → Option WizardUploadResource → Except FixtureUploadError (Option WizardUploadResource)
  | [], previous => .ok previous
  | batch :: rest, previous => do
      let (currentText, modified) ← (uploadContinuation previous).mapError .diagnostic
      let answer ← (requestUpload F R N m wizardId (batchForm userId batch currentText modified)).mapError .refused
      uploadBatches F R N m userId wizardId rest (some answer)

/-- `_upload_fixture_batches`, for the files of the collection. -/
def uploadFixtureBatches (F : Type) [PyFloat F] (R : IngestionRules) (N : FormTransport) (m : DocumentMap)
    (userId wizardId : Text) (files : List FixtureFile) : Except FixtureUploadError (Text × List ℕ) :=
  if (batches R files).isEmpty then .error (.diagnostic ⟨lit "Fixture upload plan is empty"⟩)
  else do
    let previous ← uploadBatches F R N m userId wizardId (batches R files) none
    match ← (uploadContinuation previous).mapError .diagnostic with
    | (some fullText, some modified) => .ok (fullText, modified)
    | _ => .error (.diagnostic ⟨lit "Fixture upload did not produce a final draft"⟩)

/-! ### The grouping by size -/

/-- The bytes of some files. -/
def groupSize (group : List FixtureFile) : ℕ := (group.map FixtureFile.sizeBytes).sum

theorem groupSize_append (g h : List FixtureFile) : groupSize (g ++ h) = groupSize g + groupSize h := by
  rw [groupSize, List.map_append, List.sum_append, ← groupSize, ← groupSize]

theorem groupSize_singleton (f : FixtureFile) : groupSize [f] = f.sizeBytes := by
  rw [groupSize, List.map_singleton, List.sum_singleton]

/-- The next group begins with a file that has no room in this one. -/
def NoRoom (total : ℕ) (g h : List FixtureFile) : Prop := ∀ f, h.head? = some f → total < groupSize g + f.sizeBytes

/-- A grouping of files, in order, that ends a group exactly where the next file would take it over the limit. -/
structure SizeGroups (total : ℕ) (files : List FixtureFile) (groups : List (List FixtureFile)) : Prop where
  /-- Every file once, in order. -/
  flatten : groups.flatten = files
  /-- No group is empty. -/
  nonempty : ∀ g ∈ groups, g ≠ []
  /-- Every group is within the limit. -/
  fits : ∀ g ∈ groups, groupSize g ≤ total
  /-- No group has room for the next file. -/
  full : groups.IsChain (NoRoom total)

theorem isEmpty_eq_false {l : List FixtureFile} (h : l ≠ []) : l.isEmpty = false := by
  rw [Bool.eq_false_iff]
  exact fun hempty => h (List.isEmpty_iff.mp hempty)

/-- Files that have room go into the current group. -/
theorem batchesFrom_room {total : ℕ} (current group rest : List FixtureFile) (h : groupSize (current ++ group) ≤ total) :
    batchesFrom total (group ++ rest) current (groupSize current) =
      batchesFrom total rest (current ++ group) (groupSize (current ++ group)) := by
  induction group generalizing current with
  | nil => rw [List.nil_append, List.append_nil]
  | cons f group ih =>
    have hassoc : current ++ f :: group = current ++ [f] ++ group := by simp
    rw [hassoc] at h ⊢
    have hroom : groupSize current + f.sizeBytes ≤ total := by
      rw [groupSize_append, groupSize_append, groupSize_singleton] at h
      omega
    rw [List.cons_append, batchesFrom, if_neg (by simp [not_lt.mpr hroom]), ← groupSize_singleton, ← groupSize_append]
    exact ih _ h

/-- A file that has no room begins a group. -/
theorem batchesFrom_noRoom {total : ℕ} {current rest : List FixtureFile} {f : FixtureFile} (hne : current ≠ [])
    (h : total < groupSize current + f.sizeBytes) :
    batchesFrom total (f :: rest) current (groupSize current) =
      ⟨current, groupSize current⟩ :: batchesFrom total rest [f] (groupSize [f]) := by
  rw [batchesFrom, if_pos ⟨by simp [isEmpty_eq_false hne], h⟩, groupSize_singleton]

/-- The loop finds the groups behind a full one. -/
theorem batchesFrom_groups {total : ℕ} {current : List FixtureFile} {groups : List (List FixtureFile)} (hne : current ≠ [])
    (hnonempty : ∀ g ∈ groups, g ≠ []) (hfits : ∀ g ∈ groups, groupSize g ≤ total)
    (hfull : (current :: groups).IsChain (NoRoom total)) :
    (batchesFrom total groups.flatten current (groupSize current)).map FixtureBatch.files = current :: groups := by
  induction groups generalizing current with
  | nil => simp [batchesFrom, isEmpty_eq_false hne]
  | cons g groups ih =>
    obtain ⟨hg, hgroups⟩ := List.forall_mem_cons.mp hnonempty
    obtain ⟨hgfits, hgroupsfit⟩ := List.forall_mem_cons.mp hfits
    obtain ⟨hnoRoom, hchain⟩ := List.isChain_cons_cons.mp hfull
    obtain ⟨f, g, rfl⟩ := List.exists_cons_of_ne_nil hg
    rw [List.flatten_cons, List.cons_append, batchesFrom_noRoom hne (hnoRoom f rfl), List.map_cons]
    rw [batchesFrom_room [f] g _ hgfits]
    exact congrArg (current :: ·) (ih (List.cons_ne_nil f g) hgroups hgroupsfit hchain)

/-- Any such grouping is that of the batches. -/
theorem batches_of_sizeGroups {R : IngestionRules} {files : List FixtureFile} {groups : List (List FixtureFile)}
    (h : SizeGroups R.uploadMaxTotalBytes files groups) : (batches R files).map FixtureBatch.files = groups := by
  rw [batches, ← h.flatten]
  cases groups with
  | nil => rfl
  | cons g groups =>
    obtain ⟨hg, hnonempty⟩ := List.forall_mem_cons.mp h.nonempty
    obtain ⟨hgfits, hfits⟩ := List.forall_mem_cons.mp h.fits
    rw [List.flatten_cons]
    have hfirst : batchesFrom R.uploadMaxTotalBytes (g ++ groups.flatten) [] 0 =
        batchesFrom R.uploadMaxTotalBytes groups.flatten g (groupSize g) := batchesFrom_room [] g _ hgfits
    rw [hfirst]
    exact batchesFrom_groups hg hnonempty hfits h.full

/-- The groups of the loop from a group on that has files. -/
theorem sizeGroups_batchesFrom {total : ℕ} {files current : List FixtureFile} (hsmall : ∀ f ∈ files, f.sizeBytes ≤ total)
    (hne : current ≠ []) (hfits : groupSize current ≤ total) :
    SizeGroups total (current ++ files) ((batchesFrom total files current (groupSize current)).map FixtureBatch.files) := by
  induction files generalizing current with
  | nil =>
    have hone : batchesFrom total [] current (groupSize current) = [⟨current, groupSize current⟩] := by
      simp [batchesFrom, isEmpty_eq_false hne]
    rw [hone, List.map_singleton]
    exact ⟨by simp, by simpa using hne, by simpa using hfits, .singleton _⟩
  | cons f files ih =>
    obtain ⟨hf, hsmall⟩ := List.forall_mem_cons.mp hsmall
    by_cases hroom : groupSize current + f.sizeBytes ≤ total
    · have hbytes : groupSize (current ++ [f]) ≤ total := by rwa [groupSize_append, groupSize_singleton]
      have hstep := batchesFrom_room current [f] files hbytes
      rw [List.singleton_append] at hstep
      have hassoc : current ++ f :: files = current ++ [f] ++ files := by simp
      rw [hstep, hassoc]
      exact ih hsmall (by simp) hbytes
    · have hnext := @ih [f] hsmall (List.cons_ne_nil f []) (by rwa [groupSize_singleton])
      rw [batchesFrom_noRoom hne (not_le.mp hroom), List.map_cons]
      refine ⟨?_, ?_, ?_, ?_⟩
      · rw [List.flatten_cons, hnext.flatten]
        rfl
      · exact List.forall_mem_cons.mpr ⟨hne, hnext.nonempty⟩
      · exact List.forall_mem_cons.mpr ⟨hfits, hnext.fits⟩
      · -- the groups behind begin with the file that has no room
        cases hgroups : (batchesFrom total files [f] (groupSize [f])).map FixtureBatch.files with
        | nil => exact .singleton _
        | cons g groups =>
          have hflatten := hnext.flatten
          have hg := hnext.nonempty g (by rw [hgroups]; exact List.mem_cons_self)
          have hchain := hnext.full
          rw [hgroups] at hflatten hchain
          refine List.isChain_cons_cons.mpr ⟨fun first hfirst => ?_, hchain⟩
          obtain ⟨rest, rfl⟩ := List.head?_eq_some_iff.mp hfirst
          rw [List.flatten_cons, List.cons_append, List.singleton_append] at hflatten
          rw [(List.cons.inj hflatten).1]
          exact not_le.mp hroom

/-- The batches of files that are small enough are such a grouping. -/
theorem sizeGroups_batches {R : IngestionRules} {files : List FixtureFile}
    (hsmall : ∀ f ∈ files, f.sizeBytes ≤ R.uploadMaxTotalBytes) :
    SizeGroups R.uploadMaxTotalBytes files ((batches R files).map FixtureBatch.files) := by
  cases files with
  | nil => exact ⟨rfl, by simp [batches, batchesFrom], by simp [batches, batchesFrom], .nil⟩
  | cons f files =>
    obtain ⟨hf, hsmall⟩ := List.forall_mem_cons.mp hsmall
    have hfits : groupSize ([] ++ [f]) ≤ R.uploadMaxTotalBytes := by rwa [List.nil_append, groupSize_singleton]
    have hfirst : batches R (f :: files) = batchesFrom R.uploadMaxTotalBytes files [f] (groupSize [f]) :=
      batchesFrom_room [] [f] files hfits
    rw [hfirst]
    exact sizeGroups_batchesFrom hsmall (List.cons_ne_nil f []) hfits

/-- A batch records the bytes of its files. -/
theorem sizeBytes_batchesFrom {total : ℕ} {files current : List FixtureFile} :
    ∀ b ∈ batchesFrom total files current (groupSize current), b.sizeBytes = groupSize b.files := by
  induction files generalizing current with
  | nil =>
    intro b hb
    rw [batchesFrom] at hb
    split_ifs at hb
    · cases hb
    · rw [List.mem_singleton.mp hb]
  | cons f files ih =>
    intro b hb
    rw [batchesFrom] at hb
    split_ifs at hb
    · rcases List.mem_cons.mp hb with rfl | hb
      · rfl
      · rw [← groupSize_singleton] at hb
        exact ih b hb
    · rw [← groupSize_singleton, ← groupSize_append] at hb
      exact ih b hb

/-! ### Accepted files -/

/-- What `_fixture_files` has seen of a file. -/
structure AcceptedFile (R : IngestionRules) (f : FixtureFile) : Prop where
  /-- Its extension is supported. -/
  supports : R.supports f.path.name = true
  /-- It is within the limit of a file. -/
  small : f.sizeBytes ≤ R.uploadMaxFileBytes
  /-- It decodes. -/
  decodes : ∃ t, R.decode f.path.content = .ok t

/-- The text of a file. -/
def fileText (R : IngestionRules) (f : FixtureFile) : Text := (R.decode f.path.content).toOption.getD []

theorem AcceptedFile.text {R : IngestionRules} {f : FixtureFile} (h : AcceptedFile R f) :
    R.decode f.path.content = .ok (fileText R f) := by
  obtain ⟨t, ht⟩ := h.decodes
  rw [fileText, ht]
  rfl

theorem supports_of_fixturePaths {R : IngestionRules} {pyRepr : Text → Text} {directory : Text}
    {entries paths : List DirectoryEntry} (h : fixturePaths R pyRepr false directory entries = .ok paths) :
    ∀ entry ∈ paths, R.supports entry.name = true := by
  induction entries generalizing paths with
  | nil =>
    cases h
    simp
  | cons entry entries ih =>
    rw [fixturePaths] at h
    simp only [Bool.false_eq_true, if_false] at h
    split_ifs at h with hhidden hkeep hlink hfile hsuffix
    · exact ih h
    · exact ih h
    · obtain ⟨rest, hrest, rfl⟩ := map_eq_ok_iff.mp h
      refine List.forall_mem_cons.mpr ⟨?_, ih hrest⟩
      simpa [IngestionRules.supports] using hsuffix

theorem readFixture_accepted {R : IngestionRules} {directory : Text} {path : DirectoryEntry} {fixture : FixtureFile × Text}
    (h : readFixture R false directory path = .ok fixture) (hsupports : R.supports path.name = true) :
    AcceptedFile R fixture.1 := by
  rw [readFixture] at h
  cases hdecode : R.decode path.content with
  | error message =>
    rw [hdecode] at h
    simp at h
  | ok content =>
    rw [hdecode] at h
    dsimp only at h
    split_ifs at h with hfile
    cases h
    exact ⟨hsupports, not_lt.mp hfile, content, hdecode⟩

/-- The files of an accepted collection are accepted, and there is one. -/
theorem accepted_of_fixtureFiles {R : IngestionRules} {pyRepr : Text → Text} {directory : Text} {found : FixtureDirectory}
    {files : List FixtureFile} (h : fixtureFiles R pyRepr false directory found = .ok files) :
    files ≠ [] ∧ ∀ f ∈ files, AcceptedFile R f := by
  cases found with
  | symlink => cases h
  | missing => cases h
  | other => cases h
  | entries entries =>
    obtain ⟨paths, hpaths, h⟩ := bind_eq_ok_iff.mp h
    split_ifs at h with hempty
    obtain ⟨fixtures, hfixtures, h⟩ := bind_eq_ok_iff.mp h
    split_ifs at h with hblank
    cases h
    rw [mapM_eq_ok_iff] at hfixtures
    have hlength := hfixtures.length_eq
    refine ⟨fun hnil => hempty ?_, fun f hf => ?_⟩
    · rw [List.map_eq_nil_iff] at hnil
      rw [List.isEmpty_iff]
      exact List.length_eq_zero_iff.mp (by rw [hlength, hnil, List.length_nil])
    · obtain ⟨fixture, hfixture, rfl⟩ := List.mem_map.mp hf
      obtain ⟨i, hi, rfl⟩ := List.mem_iff_getElem.mp hfixture
      have hread := List.forall₂_iff_get.mp hfixtures |>.2 i (by omega) hi
      exact readFixture_accepted hread (supports_of_fixturePaths hpaths _ (List.getElem_mem _))

/-! ### The uploads -/

/-- One of the files has text. -/
def HasText (R : IngestionRules) (group : List FixtureFile) : Prop := ∃ f ∈ group, fileText R f ≠ []

/-- The text of a group. -/
def groupText (R : IngestionRules) (group : List FixtureFile) : Text := join R.textJoinSeparator (group.map (fileText R))

/-- The answer of the endpoint with this draft. -/
def draftAnswer (wizardId fullText : Text) : WizardUploadResource := ⟨wizardId, fullText, [1], [1]⟩

section Uploads

variable {R : IngestionRules} {N : FormTransport} {m : DocumentMap} {userId wizardId : Text}

theorem groupText_ne_nil {group : List FixtureFile} (h : HasText R group) : groupText R group ≠ [] := by
  obtain ⟨f, hf, hne⟩ := h
  exact join_ne_nil _ (List.mem_map_of_mem hf) hne

/-- A batch that the endpoint looks at: some accepted files within the limit. -/
structure AcceptedBatch (R : IngestionRules) (b : FixtureBatch) : Prop where
  /-- There is a file. -/
  nonempty : b.files ≠ []
  /-- All of them are accepted. -/
  files : ∀ f ∈ b.files, AcceptedFile R f
  /-- They are within the limit. -/
  fits : groupSize b.files ≤ R.uploadMaxTotalBytes

/-- Files that the parser takes in one form of this user, under names that are supported, and of which one has text. -/
structure Receivable (R : IngestionRules) (N : FormTransport) (userId : Text) (group : List FixtureFile) : Prop where
  /-- The user is named. -/
  user : userId ≠ [] ∧ N.TakesField userId
  /-- There are not too many files. -/
  files : group.length ≤ N.maxFiles
  /-- Their names stay supported. -/
  names : ∀ f ∈ group, ∃ name, N.filename f.path.name = some name ∧ R.supports name = true
  /-- There is text. -/
  text : HasText R group

/-- What a client of the wizard has: nothing yet, or a draft. -/
inductive Drafted (wizardId : Text) : Option WizardUploadResource → Text → Prop
  /-- Nothing yet. -/
  | nothing : Drafted wizardId none []
  /-- A draft. -/
  | draft {fullText : Text} (h : fullText ≠ []) : Drafted wizardId (some (draftAnswer wizardId fullText)) fullText

/-- Where the user can be named, an identifier of one digit is not too long. -/
theorem takes_decimal_one (hne : userId ≠ []) (h : N.TakesField userId) : N.TakesField (decimal 1) := by
  have hpos : 0 < (userId.flatMap utf8Bytes).length := by
    obtain ⟨c, cs, rfl⟩ := List.exists_cons_of_ne_nil hne
    have hchar : 0 < (utf8Bytes c).length := by
      simp only [utf8Bytes]
      split_ifs <;> exact Nat.succ_pos _
    rw [List.flatMap_cons, List.length_append]
    omega
  have hone : ((decimal 1).flatMap utf8Bytes).length = 1 := by decide
  exact ⟨by decide, hone.le.trans (hpos.trans_le h.2)⟩

/-- What the parser looks at in the form of a batch. -/
theorem takes_batchForm_iff {b : FixtureBatch} {currentText : Option Text} {modified : Option (List ℕ)} :
    N.Takes (batchForm userId b currentText modified) ↔
      userId ≠ [] ∧ b.files.length ≤ N.maxFiles ∧
        (batchForm userId b currentText modified).fields.length ≤ N.maxFields ∧
        (∀ t ∈ (batchForm userId b currentText modified).fields, N.TakesField t) ∧
        ∀ f ∈ b.files, (N.filename f.path.name).isSome = true := by
  have hlength : (batchForm userId b currentText modified).files.length = b.files.length := List.length_map _
  have hnames : (∀ file ∈ (batchForm userId b currentText modified).files, (N.filename file.filename).isSome = true) ↔
      ∀ f ∈ b.files, (N.filename f.path.name).isSome = true := List.forall_mem_map
  constructor
  · rintro ⟨huser, hfiles, hfields, hsizes, hall⟩
    exact ⟨huser, hlength ▸ hfiles, hfields, hsizes, hnames.mp hall⟩
  · rintro ⟨huser, hfiles, hfields, hsizes, hall⟩
    exact ⟨huser, hlength.symm ▸ hfiles, hfields, hsizes, hnames.mpr hall⟩

variable (N userId) in
/-- The form of one request: it has the draft, where there is one. -/
theorem Drafted.form {previous : Option WizardUploadResource} {base : Text} (h : Drafted wizardId previous base)
    (b : FixtureBatch) : ∃ currentText modified, uploadContinuation previous = .ok (currentText, modified) ∧
      currentText.getD [] = base ∧ currentText ≠ some [] ∧
      EmptyWizardIds (batchForm userId b currentText modified).modifiedParagraphIds ∧
      (N.Takes (batchForm userId b currentText modified) ↔
        (userId ≠ [] ∧ N.TakesField userId) ∧ (base ≠ [] → N.TakesField base) ∧ b.files.length ≤ N.maxFiles ∧
          ∀ f ∈ b.files, (N.filename f.path.name).isSome = true) := by
  have hlimit := N.fields_le
  cases h with
  | nothing =>
    refine ⟨none, none, rfl, rfl, by simp, .absent, ?_⟩
    have hfields : (batchForm userId b none none).fields = [userId] := rfl
    rw [takes_batchForm_iff, hfields]
    constructor
    · rintro ⟨huser, hfiles, -, hsizes, hnames⟩
      exact ⟨⟨huser, hsizes userId List.mem_cons_self⟩, fun hne => absurd rfl hne, hfiles, hnames⟩
    · rintro ⟨⟨huser, htakes⟩, -, hfiles, hnames⟩
      exact ⟨huser, hfiles, by rw [List.length_singleton]; omega, by simpa using htakes, hnames⟩
  | draft hne =>
    refine ⟨some base, some [1], rfl, rfl, by simpa using hne, .only, ?_⟩
    have hfields : (batchForm userId b (some base) (some [1])).fields = [userId, base, decimal 1] := rfl
    rw [takes_batchForm_iff, hfields]
    constructor
    · rintro ⟨huser, hfiles, -, hsizes, hnames⟩
      exact ⟨⟨huser, hsizes userId List.mem_cons_self⟩,
        fun _ => hsizes base (List.mem_cons_of_mem _ List.mem_cons_self), hfiles, hnames⟩
    · rintro ⟨⟨huser, htakes⟩, hbase, hfiles, hnames⟩
      refine ⟨huser, hfiles, hlimit, ?_, hnames⟩
      simp only [List.forall_mem_cons]
      exact ⟨htakes, hbase hne, takes_decimal_one huser htakes, by simp⟩

/-- One turn of the loop is one request. -/
theorem uploadBatches_cons_iff (F : Type) [PyFloat F] (hN : N.Lawful) {b : FixtureBatch} (rest : List FixtureBatch)
    {previous result : Option WizardUploadResource} {base : Text}
    (hwizard : m.getParagraphData wizardId = .ok DocumentMap.emptyDocument) (hb : AcceptedBatch R b)
    (hprevious : Drafted wizardId previous base) :
    uploadBatches F R N m userId wizardId (b :: rest) previous = .ok result ↔
      Receivable R N userId b.files ∧ (base ≠ [] → N.TakesField base) ∧
        encodable (draftMerge R base (groupText R b.files)) = true ∧
        uploadBatches F R N m userId wizardId rest
          (some (draftAnswer wizardId (draftMerge R base (groupText R b.files)))) = .ok result := by
  obtain ⟨currentText, modified, hcontinue, hbase, hcurrent, hmodified, htakes⟩ := hprevious.form N userId b
  have hdecode : List.Forall₂ (fun file t => R.decode file.content = .ok t) (b.files.map FixtureFile.part)
      (b.files.map (fileText R)) := by
    rw [List.forall₂_map_left_iff, List.forall₂_map_right_iff, List.forall₂_same]
    exact fun f hf => (hb.files f hf).text
  have hbytes : uploadBytes (b.files.map FixtureFile.part) ≤ R.uploadMaxTotalBytes := by
    have hfits := hb.fits
    rw [groupSize] at hfits
    rw [uploadBytes, List.map_map]
    refine le_of_eq_of_le (congrArg List.sum (List.map_congr_left fun f _ => ?_)) hfits
    exact f.size_eq.symm
  have hsmall : ∀ file ∈ b.files.map FixtureFile.part, file.content.length ≤ R.uploadMaxFileBytes :=
    List.forall_mem_map.mpr fun f hf => f.size_eq.symm.le.trans (hb.files f hf).small
  have hfiles : (batchForm userId b currentText modified).files ≠ [] := by simpa [batchForm] using hb.nonempty
  have hrequest (answer : WizardUploadResource) :=
    @requestUpload_ok_iff R N m wizardId F _ hN _ _ answer hwizard hfiles hsmall hbytes hdecode hmodified hcurrent
  have hcurrentText : (batchForm userId b currentText modified).currentText.getD [] = base := hbase
  have hnames : (∀ file ∈ (batchForm userId b currentText modified).files,
      ∃ name, N.filename file.filename = some name ∧ R.supports name = true) ↔
      ∀ f ∈ b.files, ∃ name, N.filename f.path.name = some name ∧ R.supports name = true := List.forall_mem_map
  have htext : (∃ t ∈ b.files.map (fileText R), t ≠ []) ↔ HasText R b.files := by simp [HasText]
  rw [hnames, htext, htakes, hcurrentText, ← groupText] at hrequest
  have hdraft : (Except.ok (currentText, modified)).mapError FixtureUploadError.diagnostic = .ok (currentText, modified) := rfl
  rw [uploadBatches, hcontinue, bind_of_ok hdraft, bind_eq_ok_iff]
  simp only [mapError_eq_ok_iff, hrequest]
  constructor
  · rintro ⟨_, ⟨⟨huser, hdraft, hfiles, -⟩, hsupported, hhas, hencodable, rfl⟩, hrest⟩
    exact ⟨⟨huser, hfiles, hsupported, hhas⟩, hdraft, hencodable, hrest⟩
  · rintro ⟨⟨huser, hfiles, hsupported, hhas⟩, hdraft, hencodable, hrest⟩
    refine ⟨_, ⟨⟨huser, hdraft, hfiles, fun f hf => ?_⟩, hsupported, hhas, hencodable, rfl⟩, hrest⟩
    obtain ⟨name, hname, -⟩ := hsupported f hf
    rw [hname]
    rfl

/-- The draft behind some batches. -/
def draftBehind (R : IngestionRules) (base : Text) (bs : List FixtureBatch) : Text :=
  join R.textJoinSeparator (base :: bs.map fun b => groupText R b.files)

/-- The first of them is put behind the draft at once. -/
theorem draftBehind_cons (base : Text) (b : FixtureBatch) (bs : List FixtureBatch) :
    draftBehind R base (b :: bs) = draftBehind R (base ++ R.textJoinSeparator ++ groupText R b.files) bs := by
  rw [draftBehind, draftBehind, List.map_cons, join_cons_cons]
  cases bs with
  | nil => rw [List.map_nil, join_singleton, join_singleton, List.append_assoc]
  | cons b' bs =>
    rw [List.map_cons, join_cons_cons, join_cons_cons]
    simp only [List.append_assoc]

/-- Behind a draft the uploads succeed where every batch is received and has text, every draft but the last can be
sent, and the last can be sent back. -/
structure Continues (R : IngestionRules) (N : FormTransport) (userId base : Text) (bs : List FixtureBatch) : Prop where
  /-- Every batch is received. -/
  batches : ∀ b ∈ bs, Receivable R N userId b.files
  /-- Every draft but the last is sent. -/
  drafts : ∀ before b after, bs = before ++ b :: after → N.TakesField (draftBehind R base before)
  /-- The last is sent back. -/
  answer : encodable (draftBehind R base bs) = true

theorem continues_nil {base : Text} : Continues R N userId base [] ↔ encodable base = true := by
  have hbase : draftBehind R base [] = base := join_singleton _ _
  constructor
  · intro h
    rw [← hbase]
    exact h.answer
  · intro h
    refine ⟨by simp, fun before b after heq => ?_, hbase.symm ▸ h⟩
    cases List.append_eq_nil_iff.mp heq.symm |>.2

theorem continues_cons {base : Text} {b : FixtureBatch} {bs : List FixtureBatch} :
    Continues R N userId base (b :: bs) ↔
      Receivable R N userId b.files ∧ N.TakesField base ∧
        Continues R N userId (base ++ R.textJoinSeparator ++ groupText R b.files) bs := by
  have hbase : draftBehind R base [] = base := join_singleton _ _
  constructor
  · intro h
    obtain ⟨hfirst, hrest⟩ := List.forall_mem_cons.mp h.batches
    refine ⟨hfirst, hbase ▸ h.drafts [] b bs rfl, hrest, fun before b' after heq => ?_, ?_⟩
    · rw [← draftBehind_cons]
      exact h.drafts (b :: before) b' after (by rw [heq, List.cons_append])
    · rw [← draftBehind_cons]
      exact h.answer
  · rintro ⟨hfirst, htakes, hrest⟩
    refine ⟨List.forall_mem_cons.mpr ⟨hfirst, hrest.batches⟩, fun before b' after heq => ?_, ?_⟩
    · cases before with
      | nil => rwa [hbase]
      | cons c before =>
        obtain ⟨rfl, htail⟩ := List.cons.inj heq
        rw [draftBehind_cons]
        exact hrest.drafts before b' after htail
    · rw [draftBehind_cons]
      exact hrest.answer

/-- Every draft on the way can be sent back. -/
theorem Continues.encodable {base : Text} {bs : List FixtureBatch} (h : Continues R N userId base bs) : encodable base = true := by
  cases bs with
  | nil => exact continues_nil.mp h
  | cons b bs => exact (continues_cons.mp h).2.1.1

/-- Behind a draft that has text, the uploads succeed where they continue it, and end with the text of all. -/
theorem uploadBatches_iff (F : Type) [PyFloat F] (hN : N.Lawful) {bs : List FixtureBatch} {base : Text}
    {result : Option WizardUploadResource} (hwizard : m.getParagraphData wizardId = .ok DocumentMap.emptyDocument)
    (hbs : ∀ b ∈ bs, AcceptedBatch R b) (hbase : base ≠ []) (hencodable : encodable base = true) :
    uploadBatches F R N m userId wizardId bs (some (draftAnswer wizardId base)) = .ok result ↔
      Continues R N userId base bs ∧ result = some (draftAnswer wizardId (draftBehind R base bs)) := by
  induction bs generalizing base with
  | nil =>
    have hdraft : draftBehind R base [] = base := join_singleton _ _
    rw [uploadBatches, hdraft, continues_nil]
    exact ⟨fun h => ⟨hencodable, (Except.ok.inj h).symm⟩, fun h => congrArg _ h.2.symm⟩
  | cons b bs ih =>
    obtain ⟨hb, hbs⟩ := List.forall_mem_cons.mp hbs
    rw [uploadBatches_cons_iff F hN bs hwizard hb (.draft hbase), continues_cons, draftBehind_cons]
    constructor
    · rintro ⟨hreceivable, htakes, hnext, hrest⟩
      have hmerge : draftMerge R base (groupText R b.files) = base ++ R.textJoinSeparator ++ groupText R b.files :=
        if_pos ⟨hbase, groupText_ne_nil hreceivable.text⟩
      rw [hmerge] at hnext hrest
      obtain ⟨hcontinues, hresult⟩ := (ih hbs (List.append_ne_nil_of_right_ne_nil _ (groupText_ne_nil hreceivable.text))
        hnext).mp hrest
      exact ⟨⟨hreceivable, htakes hbase, hcontinues⟩, hresult⟩
    · rintro ⟨⟨hreceivable, htakes, hcontinues⟩, hresult⟩
      have hmerge : draftMerge R base (groupText R b.files) = base ++ R.textJoinSeparator ++ groupText R b.files :=
        if_pos ⟨hbase, groupText_ne_nil hreceivable.text⟩
      rw [hmerge]
      have hnext := hcontinues.encodable
      exact ⟨hreceivable, fun _ => htakes, hnext, (ih hbs (List.append_ne_nil_of_right_ne_nil _
        (groupText_ne_nil hreceivable.text)) hnext).mpr ⟨hcontinues, hresult⟩⟩

end Uploads

/-! ### Batched uploads and the combined text -/

/-- The uploads of a collection succeed with its combined text, and its batches are its files in order, in
groups within the limit. -/
structure UploadsAsOne (F : Type) [PyFloat F] (R : IngestionRules) (N : FormTransport) (m : DocumentMap)
    (userId wizardId collection : Text) (files : List FixtureFile) : Prop where
  /-- Every batch is accepted, and the last answer has the combined text. -/
  draft : ∃ fullText modified, uploadFixtureBatches F R N m userId wizardId files = .ok (fullText, modified) ∧
    combinedText R collection files = .ok fullText
  /-- Every file once, in order. -/
  order : (batches R files).flatMap FixtureBatch.files = files
  /-- No batch is empty. -/
  nonempty : ∀ b ∈ batches R files, b.files ≠ []
  /-- Every batch fits. -/
  fits : ∀ b ∈ batches R files, b.sizeBytes = groupSize b.files ∧ b.sizeBytes ≤ R.uploadMaxTotalBytes

/-- What the files of a collection must be for that: the groups that the limit makes of them have text each and pass the
parser, with the text of all groups before as the draft. -/
structure UploadsFit (R : IngestionRules) (N : FormTransport) (userId : Text) (files : List FixtureFile) : Prop where
  /-- The user is named. -/
  user : userId ≠ [] ∧ N.TakesField userId
  /-- The names of the files stay supported. -/
  names : ∀ f ∈ files, ∃ name, N.filename f.path.name = some name ∧ R.supports name = true
  /-- Every group has text, and not too many files. -/
  groups : ∀ groups, SizeGroups R.uploadMaxTotalBytes files groups →
    ∀ g ∈ groups, HasText R g ∧ g.length ≤ N.maxFiles
  /-- Before every group but the first, the text so far can be sent. -/
  drafts : ∀ groups, SizeGroups R.uploadMaxTotalBytes files groups → ∀ before g behind, groups = before ++ g :: behind →
    before ≠ [] → N.TakesField (groupText R before.flatten)
  /-- The text of all of them can be sent back. -/
  answer : encodable (groupText R files) = true

theorem getParagraphData_of_createDocument {m m' : DocumentMap} {wizardId : Text} (h : m.createDocument wizardId = .ok m') :
    m'.getParagraphData wizardId = .ok DocumentMap.emptyDocument := by
  obtain ⟨key, hkey, h⟩ := bind_eq_ok_iff.mp h
  split_ifs at h
  cases h
  rw [DocumentMap.getParagraphData, hkey]
  simp only [bind, Except.bind, Dict.get?_set_self]

theorem combinedText_accepted {R : IngestionRules} {collection : Text} {files : List FixtureFile}
    (h : ∀ f ∈ files, AcceptedFile R f) : combinedText R collection files = .ok (groupText R files) := by
  have hall : files.mapM (fun item => R.decode item.path.content) = .ok (files.map (fileText R)) :=
    mapM_ok fun f hf => (h f hf).text
  rw [combinedText, hall, groupText]

/-- The draft behind some batches that all have files is the text of all their files. -/
theorem draftBehind_groupText {R : IngestionRules} {first : FixtureBatch} {bs : List FixtureBatch}
    (h : ∀ b ∈ first :: bs, b.files ≠ []) :
    draftBehind R (groupText R first.files) bs = groupText R ((first :: bs).map FixtureBatch.files).flatten := by
  have hnonempty : ∀ group ∈ (first :: bs).map fun b => b.files.map (fileText R), group ≠ [] := by
    intro group hgroup
    obtain ⟨b, hb, rfl⟩ := List.mem_map.mp hgroup
    simpa using h b hb
  have hparts := join_map_join R.textJoinSeparator hnonempty
  rw [List.map_map] at hparts
  have hflatten : ((first :: bs).map fun b => b.files.map (fileText R)).flatten =
      ((first :: bs).map FixtureBatch.files).flatten.map (fileText R) := by
    rw [List.map_flatten, List.map_map]
    rfl
  calc draftBehind R (groupText R first.files) bs
      = join R.textJoinSeparator ((first :: bs).map fun b => b.files.map (fileText R)).flatten := hparts
    _ = groupText R ((first :: bs).map FixtureBatch.files).flatten := by rw [hflatten, groupText]

/-- What the first batch needs, and the batches behind it, is what the groups need. -/
theorem uploadsFit_iff {R : IngestionRules} {N : FormTransport} {userId : Text} {files : List FixtureFile}
    {first : FixtureBatch} {rest : List FixtureBatch} (hplan : batches R files = first :: rest)
    (hgroups : SizeGroups R.uploadMaxTotalBytes files ((first :: rest).map FixtureBatch.files)) :
    UploadsFit R N userId files ↔ Receivable R N userId first.files ∧ Continues R N userId (groupText R first.files) rest := by
  have honly : ∀ groups, SizeGroups R.uploadMaxTotalBytes files groups → groups = (first :: rest).map FixtureBatch.files :=
    fun groups hother => hplan ▸ (batches_of_sizeGroups hother).symm
  have hfiles : ∀ b ∈ first :: rest, b.files ≠ [] := fun b hb => hgroups.nonempty _ (List.mem_map_of_mem hb)
  have hbefore : ∀ before b behind, rest = before ++ b :: behind → ∀ b ∈ first :: before, b.files ≠ [] := by
    intro before b behind heq b' hb'
    refine hfiles b' ?_
    rw [heq, ← List.cons_append]
    exact List.mem_append_left _ hb'
  have hmem : ∀ b ∈ first :: rest, ∀ f ∈ b.files, f ∈ files := by
    intro b hb f hf
    rw [← hgroups.flatten]
    exact List.mem_flatten.mpr ⟨_, List.mem_map_of_mem hb, hf⟩
  constructor
  · intro h
    have hall : ∀ b ∈ first :: rest, Receivable R N userId b.files := fun b hb =>
      have ⟨htext, hlength⟩ := h.groups _ hgroups _ (List.mem_map_of_mem hb)
      ⟨h.user, hlength, fun f hf => h.names f (hmem b hb f hf), htext⟩
    obtain ⟨hfirst, hrest⟩ := List.forall_mem_cons.mp hall
    refine ⟨hfirst, hrest, fun before b behind heq => ?_, ?_⟩
    · rw [draftBehind_groupText (hbefore before b behind heq)]
      refine h.drafts _ hgroups _ b.files (behind.map FixtureBatch.files) ?_ (by simp)
      rw [heq, ← List.cons_append, List.map_append, List.map_cons (l := behind)]
    · rw [draftBehind_groupText hfiles, hgroups.flatten]
      exact h.answer
  · rintro ⟨hfirst, hrest⟩
    have hall : ∀ b ∈ first :: rest, Receivable R N userId b.files := List.forall_mem_cons.mpr ⟨hfirst, hrest.batches⟩
    refine ⟨hfirst.user, fun f hf => ?_, fun groups hother g hg => ?_, fun groups hother before g behind heq hne => ?_, ?_⟩
    · rw [← hgroups.flatten] at hf
      obtain ⟨g, hg, hf⟩ := List.mem_flatten.mp hf
      obtain ⟨b, hb, rfl⟩ := List.mem_map.mp hg
      exact (hall b hb).names f hf
    · rw [honly groups hother] at hg
      obtain ⟨b, hb, rfl⟩ := List.mem_map.mp hg
      exact ⟨(hall b hb).text, (hall b hb).files⟩
    · rw [honly groups hother] at heq
      obtain ⟨bs, bs', hsplit, hbs, hbs'⟩ := List.map_eq_append_iff.mp heq
      obtain ⟨b, behind', rfl, -, -⟩ := List.map_eq_cons_iff.mp hbs'
      cases bs with
      | nil => exact absurd hbs.symm hne
      | cons c before' =>
        obtain ⟨rfl, htail⟩ := List.cons.inj hsplit
        rw [← hbs, ← draftBehind_groupText (hbefore before' b behind' htail)]
        exact hrest.drafts before' b behind' htail
    · rw [← hgroups.flatten, ← draftBehind_groupText hfiles]
      exact hrest.answer

/-- The uploads of an accepted collection to a new wizard make its combined text if and only if the user can be named,
every file keeps a supported name, no group of its files that the limit makes has too many files or empty texts only,
the text of the groups before any other is not too long for a field, and the text of all has an encoding. -/
theorem uploadsAsOne_iff (F : Type) [PyFloat F] {R : IngestionRules} {pyRepr : Text → Text} {directory : Text}
    {found : FixtureDirectory} {files : List FixtureFile} (hfiles : fixtureFiles R pyRepr false directory found = .ok files)
    {m₀ m : DocumentMap} {wizardId : Text} (hwizard : m₀.createDocument wizardId = .ok m) {N : FormTransport} (hN : N.Lawful)
    (userId collection : Text) :
    UploadsAsOne F R N m userId wizardId collection files ↔ UploadsFit R N userId files := by
  obtain ⟨hne, haccepted⟩ := accepted_of_fixtureFiles hfiles
  have hempty := getParagraphData_of_createDocument hwizard
  have hgroups : SizeGroups R.uploadMaxTotalBytes files ((batches R files).map FixtureBatch.files) :=
    sizeGroups_batches fun f hf => (haccepted f hf).small.trans R.file_le_total
  have hbatches : ∀ b ∈ batches R files, AcceptedBatch R b := by
    intro b hb
    have hmem : b.files ∈ (batches R files).map FixtureBatch.files := List.mem_map_of_mem hb
    refine ⟨hgroups.nonempty _ hmem, fun f hf => haccepted f ?_, hgroups.fits _ hmem⟩
    rw [← hgroups.flatten]
    exact List.mem_flatten.mpr ⟨_, hmem, hf⟩
  have hsizes : ∀ b ∈ batches R files, b.sizeBytes = groupSize b.files ∧ b.sizeBytes ≤ R.uploadMaxTotalBytes := fun b hb =>
    have hsize : b.sizeBytes = groupSize b.files := sizeBytes_batchesFrom b hb
    ⟨hsize, hsize.le.trans (hgroups.fits _ (List.mem_map_of_mem hb))⟩
  obtain ⟨first, rest, hplan⟩ : ∃ first rest, batches R files = first :: rest := by
    cases hplan : batches R files with
    | nil =>
      have hnil := hgroups.flatten
      rw [hplan, List.map_nil, List.flatten_nil] at hnil
      exact absurd hnil.symm hne
    | cons first rest => exact ⟨first, rest, rfl⟩
  have hplanGroups := hplan ▸ hgroups
  have hplanBatches := hplan ▸ hbatches
  obtain ⟨hfirst, hrest⟩ := List.forall_mem_cons.mp hplanBatches
  have hbegin : draftMerge R [] (groupText R first.files) = groupText R first.files := by
    rw [draftMerge, if_neg (by simp), List.nil_append]
  have hwhole : draftBehind R (groupText R first.files) rest = groupText R files := by
    rw [draftBehind_groupText fun b hb => (hplanBatches b hb).nonempty, hplanGroups.flatten]
  have hrun : ∀ result, uploadBatches F R N m userId wizardId (first :: rest) none = .ok result ↔
      UploadsFit R N userId files ∧ result = some (draftAnswer wizardId (groupText R files)) := by
    intro result
    rw [uploadBatches_cons_iff F hN rest hempty hfirst .nothing, hbegin, uploadsFit_iff hplan hplanGroups]
    constructor
    · rintro ⟨hreceivable, -, hencodable, hresult⟩
      obtain ⟨hcontinues, rfl⟩ := (uploadBatches_iff F hN hempty hrest (groupText_ne_nil hreceivable.text) hencodable).mp hresult
      exact ⟨⟨hreceivable, hcontinues⟩, by rw [hwhole]⟩
    · rintro ⟨⟨hreceivable, hcontinues⟩, rfl⟩
      have hencodable := hcontinues.encodable
      refine ⟨hreceivable, fun h => absurd rfl h, hencodable, ?_⟩
      rw [uploadBatches_iff F hN hempty hrest (groupText_ne_nil hreceivable.text) hencodable, hwhole]
      exact ⟨hcontinues, rfl⟩
  constructor
  · rintro ⟨⟨fullText, modified, hdraft, -⟩, -, -, -⟩
    rw [uploadFixtureBatches, hplan, if_neg (by simp)] at hdraft
    obtain ⟨previous, hprevious, -⟩ := bind_eq_ok_iff.mp hdraft
    exact ((hrun previous).mp hprevious).1
  · intro hfit
    refine ⟨⟨groupText R files, [1], ?_, combinedText_accepted haccepted⟩, ?_, fun b hb => (hbatches b hb).nonempty, hsizes⟩
    · rw [uploadFixtureBatches, hplan, if_neg (by simp), (hrun _).mpr ⟨hfit, rfl⟩]
      rfl
    · rw [List.flatMap_def, hgroups.flatten]

/-! ### A byte order mark without text -/

/-- The codec `utf-8-sig`. -/
def decodeUtf8Sig (bytes : List ℕ) : Except Text Text :=
  let body := if [0xEF, 0xBB, 0xBF].isPrefixOf bytes then bytes.drop 3 else bytes
  (decodeUtf8 body).mapError fun e => lit e.message

/-- Text files of at most seven bytes together. -/
def smallUploads : IngestionRules where
  supportedExtensions := [lit ".txt"]
  decode := decodeUtf8Sig
  textJoinSeparator := lit "\n\n"
  uploadMaxFileBytes := 7
  uploadMaxTotalBytes := 7
  uploadReadChunkBytes := 2
  lower := id
  chunk_pos := Nat.two_pos
  file_le_total := le_rfl

/-- A file of five letters. -/
def letters : DirectoryEntry := ⟨lit "a.txt", false, true, [104, 101, 108, 108, 111]⟩

/-- A file with a byte order mark only. -/
def markOnly : DirectoryEntry := ⟨lit "b.txt", false, true, [0xEF, 0xBB, 0xBF]⟩

/-- The two files. -/
def markedFiles : List FixtureFile := [⟨letters, 5, rfl⟩, ⟨markOnly, 3, rfl⟩]

/-- A new wizard. -/
def newWizard : Uuid := ⟨List.replicate 32 0, Uuid.length_zeros⟩

/-- The map with the new wizard. -/
def newWizardMap : DocumentMap := ⟨Dict.empty.set newWizard DocumentMap.emptyDocument⟩

theorem createDocument_newWizard : (⟨Dict.empty⟩ : DocumentMap).createDocument newWizard.str = .ok newWizardMap := by
  rw [DocumentMap.createDocument, requiredUuid_str]
  rfl

theorem fixtureFiles_markedFiles :
    fixtureFiles smallUploads id false (lit "policy") (.entries [markOnly, letters]) = .ok markedFiles := by
  decide +kernel

/-- The parser with the limits it has where nothing sets them. Names without quotes, backslashes and control characters
are received as they are; others are left out. -/
def plainParser : MultipartParser where
  maxFiles := 1000
  maxFields := 1000
  maxPartSize := 1048576
  filename name := if encodable name && name.all fun c => 32 ≤ c.val && c.val ≠ 34 && c.val ≠ 92 then some name else none
  fields_le := by decide

/-- A framework with this parser. -/
def plainTransport : FormTransport where
  toMultipartParser := plainParser
  receive form :=
    if plainParser.Takes form then .ok { form with currentText := form.currentText.filter fun t => !t.isEmpty }
    else .error (.http 400 "BAD_REQUEST" "There was an error parsing the body")
  respond answer :=
    if encodable answer.fullText then .ok answer else .error (.raised (valueError "surrogates not allowed"))

theorem eq_of_plainParser_sent {file received : UploadFile} (h : plainParser.Sent file received) : file = received := by
  obtain ⟨hname, hcontent⟩ := h
  dsimp only [plainParser] at hname
  split_ifs at hname
  cases file
  cases received
  simp_all

theorem plainTransport_lawful : plainTransport.Lawful where
  received form files htakes hcurrent hsent := by
    have hfiles : form.files = files := List.forall₂_eq_eq_eq ▸ hsent.imp fun _ _ h => eq_of_plainParser_sent h
    have hdraft : (form.currentText.filter fun t => !t.isEmpty) = form.currentText := by
      cases hcurrentText : form.currentText with
      | none => rfl
      | some t =>
        have hne : t ≠ [] := fun h => hcurrent (h ▸ hcurrentText)
        exact Option.filter_some_pos (by simpa using hne)
    have htaken : plainParser.Takes form := htakes
    rw [plainTransport]
    dsimp only
    rw [if_pos htaken, hdraft, ← hfiles]
  refused form htakes := ⟨_, if_neg htakes⟩
  answered answer h := if_pos h
  unanswered answer h := ⟨_, if_neg (by simp [h])⟩

theorem uploadsAsOne_iff_sample :
    UploadsAsOne WholeFloat smallUploads plainTransport newWizardMap (lit "u1") newWizard.str (lit "policy") markedFiles ↔
      UploadsFit smallUploads plainTransport (lit "u1") markedFiles :=
  uploadsAsOne_iff WholeFloat fixtureFiles_markedFiles createDocument_newWizard plainTransport_lawful (lit "u1") (lit "policy")

/-- The second batch of an accepted collection is refused. -/
theorem uploads_markOnly_refused :
    fixtureFiles smallUploads id false (lit "policy") (.entries [markOnly, letters]) = .ok markedFiles ∧
      (batches smallUploads markedFiles).map FixtureBatch.files = markedFiles.map (fun f => [f]) ∧
      uploadFixtureBatches WholeFloat smallUploads plainTransport newWizardMap (lit "u1") newWizard.str markedFiles =
        .error (.refused (.http 422 "EMPTY_UPLOAD" "At least one uploaded file must contain text.")) ∧
      ¬ UploadsAsOne WholeFloat smallUploads plainTransport newWizardMap (lit "u1") newWizard.str (lit "policy") markedFiles := by
  have hrefused :
      uploadFixtureBatches WholeFloat smallUploads plainTransport newWizardMap (lit "u1") newWizard.str markedFiles =
        .error (.refused (.http 422 "EMPTY_UPLOAD" "At least one uploaded file must contain text.")) := by
    decide +kernel
  refine ⟨fixtureFiles_markedFiles, by decide +kernel, hrefused, fun h => ?_⟩
  obtain ⟨fullText, modified, hrun, -⟩ := h.draft
  rw [hrefused] at hrun
  cases hrun

end TenantRag

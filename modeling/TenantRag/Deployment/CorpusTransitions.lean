import TenantRag.Deployment.CorpusFile
import TenantRag.Foundations.Machine

/-!
# The transitions of the corpus state

`new_corpus_state` and the seven transitions of `deployment/wizard_diagnostic.py`.
Each takes the times at which it is called, and raises or returns a new state.

## The model

`dataclasses.replace` of a generation builds it again, with all its checks. The
fixtures are the inventory of their files and the rules for their texts; a path is
relative to the root.

## What is proved

* `recorded_spec`, `promoted_spec`, … — what each transition leaves of a state it accepts.
-/

namespace TenantRag

variable {F : Type} [PyFloat F] {env : CorpusEnv F}

/-- `FixtureRules`. -/
structure FixtureRules where
  /-- `supported_extensions`. -/
  supportedExtensions : List Text
  /-- `text_encoding`. -/
  textEncoding : Text
  /-- `text_join_separator`. -/
  textJoinSeparator : Text
  /-- `upload_max_file_bytes`. -/
  uploadMaxFileBytes : ℤ
  /-- `upload_max_total_bytes`. -/
  uploadMaxTotalBytes : ℤ
  /-- `upload_read_chunk_bytes`. -/
  uploadReadChunkBytes : ℤ
  deriving DecidableEq

/-- `ingestion_policy()`. -/
def FixtureRules.ingestionPolicy (r : FixtureRules) : IngestionPolicy :=
  ⟨r.supportedExtensions, r.uploadMaxFileBytes, r.uploadMaxTotalBytes, r.uploadReadChunkBytes⟩

/-- `WizardFixtures`. -/
structure WizardFixtures where
  /-- The files, as `inventory()` lists them. -/
  inventory : FixtureInventory
  /-- `rules`. -/
  rules : FixtureRules
  deriving DecidableEq

/-- `digest`. -/
def WizardFixtures.digest (env : CorpusEnv F) (f : WizardFixtures) : Except PyError Text :=
  fixtureDigest env f.inventory.json f.rules.textEncoding f.rules.textJoinSeparator

namespace CorpusState

/-- `new_corpus_state(diagnostic_user_id)`. -/
def new (env : CorpusEnv F) (diagnosticUserId : Text) (now : UtcTime) : CorpusState env :=
  ⟨diagnosticUserId, none, none, [], timestamp now⟩

/-- `record_active_ingestion_policy(state, fixtures)`. -/
def recordActiveIngestionPolicy (s : CorpusState env) (fixtures : WizardFixtures) (now : UtcTime) :
    Except PyError (CorpusState env) :=
  match s.active with
  | none => .error (wizardDiagnosticError "Corpus has no active generation")
  | some active => do
      let digest ← fixtures.digest env
      if active.fixtureDigest ≠ digest then
        .error (wizardDiagnosticError "Cannot record policy for a different fixture corpus")
      else do
        let updated ← CorpusGeneration.make env { active.values with ingestionPolicy := fixtures.rules.ingestionPolicy }
        .ok { s with active := some updated, updatedAt := timestamp now }

/-- `begin_replacement(state, run_id, fixtures)`. -/
def beginReplacement (s : CorpusState env) (runId : Text) (fixtures : WizardFixtures) (created now : UtcTime) :
    Except PyError (CorpusState env) :=
  if s.pendingReplacement.isSome then .error (wizardDiagnosticError "A corpus replacement is already pending")
  else do
    let digest ← fixtures.digest env
    let generation ← CorpusGeneration.make env
      { generationId := .str runId, fixtureDigest := .str digest, fixtures := fixtures.inventory,
        textEncoding := .str fixtures.rules.textEncoding, textJoinSeparator := .str fixtures.rules.textJoinSeparator,
        ingestionPolicy := fixtures.rules.ingestionPolicy, documents := [], createdAt := timestamp created,
        verifiedAt := none, completedAt := none }
    .ok { s with pendingReplacement := some generation, updatedAt := timestamp now }

/-- What the status of a recorded document must be, behind that of the one it replaces. -/
def expectedTransition : DocumentState → Option DocumentState
  | .created => some .saveSubmitting
  | .saveSubmitting => some .saveSubmitted
  | .saveSubmitted => some .saved
  | .saved => none

/-- The checks on a document against the one it replaces. -/
def checkTransition (existing : Option CorpusDocument) (document : CorpusDocument) : Except PyError Unit :=
  match existing with
  | none =>
      if document.status ≠ .created then .error (wizardDiagnosticError "Corpus document must be recorded at Create")
      else .ok ()
  | some existing =>
      if existing.wizardId ≠ document.wizardId then
        .error (wizardDiagnosticError "Corpus document identity cannot change")
      else if some document.status ≠ expectedTransition existing.status then
        .error (wizardDiagnosticError "Corpus document transition is invalid")
      else if existing.taskId ≠ none ∧ document.taskId ≠ existing.taskId then
        .error (wizardDiagnosticError "Corpus task identity cannot change")
      else .ok ()

/-- The documents with one of them in its place, or behind them. -/
def recordedDocuments (documents : List CorpusDocument) (document : CorpusDocument) : List CorpusDocument :=
  (documents.map fun item => if item.collection = document.collection then document else item) ++
    if (documents.find? fun item => item.collection = document.collection).isNone then [document] else []

/-- `record_replacement_document(state, document)`. -/
def recordReplacementDocument (s : CorpusState env) (document : CorpusDocument) (now : UtcTime) :
    Except PyError (CorpusState env) :=
  match s.pendingReplacement with
  | none => .error (wizardDiagnosticError "No corpus replacement is pending")
  | some generation =>
      if generation.verifiedAt ≠ none then
        .error (wizardDiagnosticError "Verified corpus replacement cannot be modified")
      else do
        checkTransition (generation.documents.find? fun item => item.collection = document.collection) document
        let updated ← CorpusGeneration.make env
          { generation.values with documents := recordedDocuments generation.documents document }
        .ok { s with pendingReplacement := some updated, updatedAt := timestamp now }

/-- `mark_replacement_verified(state)`. -/
def markReplacementVerified (s : CorpusState env) (verified now : UtcTime) : Except PyError (CorpusState env) :=
  match s.pendingReplacement with
  | none => .error (wizardDiagnosticError "No corpus replacement is pending")
  | some replacement =>
      if replacement.verifiedAt ≠ none then .error (wizardDiagnosticError "Corpus replacement is already verified")
      else if ¬ Complete replacement.documents then .error (wizardDiagnosticError "Corpus replacement is not complete")
      else do
        let updated ← CorpusGeneration.make env { replacement.values with verifiedAt := some (timestamp verified) }
        .ok { s with pendingReplacement := some updated, updatedAt := timestamp now }

/-- `discard_pending_replacement(state)`. -/
def discardPendingReplacement (s : CorpusState env) (now : UtcTime) : Except PyError (CorpusState env) :=
  .ok { s with pendingReplacement := none, updatedAt := timestamp now }

/-- `promote_replacement(state)`. -/
def promoteReplacement (s : CorpusState env) (completed now : UtcTime) : Except PyError (CorpusState env) :=
  match s.pendingReplacement with
  | none => .error (wizardDiagnosticError "No corpus replacement is pending")
  | some replacement =>
      if replacement.verifiedAt = none then
        .error (wizardDiagnosticError "Corpus replacement has not been verified")
      else do
        let updated ← CorpusGeneration.make env { replacement.values with completedAt := some (timestamp completed) }
        .ok { s with
          active := some updated, pendingReplacement := none,
          pendingCleanup := s.pendingCleanup ++ documentsOf s.active, updatedAt := timestamp now }

/-- `remove_pending_cleanup(state, document)`. -/
def removePendingCleanup (s : CorpusState env) (document : CorpusDocument) (now : UtcTime) :
    Except PyError (CorpusState env) :=
  let remaining := s.pendingCleanup.filter fun item =>
    !(item.collection = document.collection && item.wizardId = document.wizardId)
  if remaining.length = s.pendingCleanup.length then
    .error (wizardDiagnosticError "Corpus cleanup document is not pending")
  else .ok { s with pendingCleanup := remaining, updatedAt := timestamp now }

/-! ### What a transition does -/

variable {s s' : CorpusState env} {now : UtcTime}

theorem recordedPolicy_spec {fixtures : WizardFixtures} (h : s.recordActiveIngestionPolicy fixtures now = .ok s') :
    ∃ g g', s.active = some g ∧ g'.values = { g.values with ingestionPolicy := fixtures.rules.ingestionPolicy } ∧
      s' = { s with active := some g', updatedAt := timestamp now } := by
  rw [recordActiveIngestionPolicy] at h
  cases hg : s.active with
  | none =>
    rw [hg] at h
    cases h
  | some g =>
    rw [hg] at h
    obtain ⟨digest, -, h⟩ := bind_eq_ok_iff.mp h
    split_ifs at h
    obtain ⟨g', hmake, h⟩ := bind_eq_ok_iff.mp h
    exact ⟨g, g', rfl, CorpusGeneration.make_eq_ok hmake, (Except.ok.inj h).symm⟩

theorem begun_spec {runId : Text} {fixtures : WizardFixtures} {created : UtcTime}
    (h : s.beginReplacement runId fixtures created now = .ok s') :
    s.pendingReplacement = none ∧ ∃ digest g, g.values =
      { generationId := .str runId, fixtureDigest := .str digest, fixtures := fixtures.inventory,
        textEncoding := .str fixtures.rules.textEncoding, textJoinSeparator := .str fixtures.rules.textJoinSeparator,
        ingestionPolicy := fixtures.rules.ingestionPolicy, documents := [], createdAt := timestamp created,
        verifiedAt := none, completedAt := none } ∧
      s' = { s with pendingReplacement := some g, updatedAt := timestamp now } := by
  rw [beginReplacement] at h
  split_ifs at h with hnone
  obtain ⟨digest, -, h⟩ := bind_eq_ok_iff.mp h
  obtain ⟨g, hmake, h⟩ := bind_eq_ok_iff.mp h
  exact ⟨Option.not_isSome_iff_eq_none.mp hnone, digest, g, CorpusGeneration.make_eq_ok hmake, (Except.ok.inj h).symm⟩

theorem recorded_spec {document : CorpusDocument} (h : s.recordReplacementDocument document now = .ok s') :
    ∃ g g', s.pendingReplacement = some g ∧ g.verifiedAt = none ∧
      checkTransition (g.documents.find? fun item => item.collection = document.collection) document = .ok () ∧
      g'.values = { g.values with documents := recordedDocuments g.documents document } ∧
      s' = { s with pendingReplacement := some g', updatedAt := timestamp now } := by
  rw [recordReplacementDocument] at h
  cases hg : s.pendingReplacement with
  | none =>
    rw [hg] at h
    cases h
  | some g =>
    rw [hg] at h
    dsimp only at h
    split_ifs at h with hverified
    obtain ⟨⟨⟩, hcheck, h⟩ := bind_eq_ok_iff.mp h
    obtain ⟨g', hmake, h⟩ := bind_eq_ok_iff.mp h
    exact ⟨g, g', rfl, not_ne_iff.mp hverified, hcheck, CorpusGeneration.make_eq_ok hmake, (Except.ok.inj h).symm⟩

theorem verified_spec {verified : UtcTime} (h : s.markReplacementVerified verified now = .ok s') :
    ∃ g g', s.pendingReplacement = some g ∧ g.verifiedAt = none ∧ Complete g.documents ∧
      g'.values = { g.values with verifiedAt := some (timestamp verified) } ∧
      s' = { s with pendingReplacement := some g', updatedAt := timestamp now } := by
  rw [markReplacementVerified] at h
  cases hg : s.pendingReplacement with
  | none =>
    rw [hg] at h
    cases h
  | some g =>
    rw [hg] at h
    dsimp only at h
    split_ifs at h with hverified hcomplete
    obtain ⟨g', hmake, h⟩ := bind_eq_ok_iff.mp h
    exact ⟨g, g', rfl, not_ne_iff.mp hverified, hcomplete, CorpusGeneration.make_eq_ok hmake,
      (Except.ok.inj h).symm⟩

theorem discarded_spec (h : s.discardPendingReplacement now = .ok s') :
    s' = { s with pendingReplacement := none, updatedAt := timestamp now } :=
  (Except.ok.inj h).symm

theorem promoted_spec {completed : UtcTime} (h : s.promoteReplacement completed now = .ok s') :
    ∃ g g', s.pendingReplacement = some g ∧ g.verifiedAt ≠ none ∧
      g'.values = { g.values with completedAt := some (timestamp completed) } ∧
      s' = { s with
        active := some g', pendingReplacement := none,
        pendingCleanup := s.pendingCleanup ++ documentsOf s.active, updatedAt := timestamp now } := by
  rw [promoteReplacement] at h
  cases hg : s.pendingReplacement with
  | none =>
    rw [hg] at h
    cases h
  | some g =>
    rw [hg] at h
    dsimp only at h
    split_ifs at h with hverified
    obtain ⟨g', hmake, h⟩ := bind_eq_ok_iff.mp h
    exact ⟨g, g', rfl, hverified, CorpusGeneration.make_eq_ok hmake, (Except.ok.inj h).symm⟩

theorem removed_spec {document : CorpusDocument} (h : s.removePendingCleanup document now = .ok s') :
    s' = { s with
      pendingCleanup := s.pendingCleanup.filter fun item =>
        !(item.collection = document.collection && item.wizardId = document.wizardId)
      updatedAt := timestamp now } := by
  rw [removePendingCleanup] at h
  split_ifs at h
  exact (Except.ok.inj h).symm

end CorpusState

end TenantRag

import TenantRag.Wizard.SaveAgreement

/-!
# Creating and deleting a wizard

`backend/wizard/crud.py`: a wizard is created empty, in the two maps only, and deleted
from the store and both maps, with the compensation of a deletion that fails.

## The model

The calls of the store and of the providers, and the commits of the maps, may raise as in a save;
`create_document` raises before it writes. The stages and the durations that the
diagnostics record are left out.

## What is proved

* `wp_createWizard` — a wizard that was created is empty and new; a creation that fails, and cleans up, leaves
  every document alone.
* `wp_deleteWizard` — a wizard that was deleted is gone from the store and the maps; a deletion that fails, and is
  compensated, leaves every document alone.
-/

namespace TenantRag.Save

open ChunkStore (Keyed Undoable)

variable {K : Type}

/-! ### Creating -/

/-- What `create_wizard` raises. -/
structure CreateError where
  /-- The exception. -/
  error : ChunkError
  /-- The exceptions of the cleanup, which `add_note` adds to it. -/
  notes : List ChunkError

/-- `_generated_uuid(runtime, name)`. -/
def generatedUuid (rt : Runtime K) (name : String) : Code K Text := do
  let value ← inject rt rt.uuidFactory
  match Uuid.ofText value with
  | none => fail (valueError s!"uuid_factory returned an invalid {name}")
  | some id => pure id.str

/-- `ValueError(f"generated document_id {document_id!r} already exists")`. -/
def documentExists : PyError := valueError "generated document_id already exists"

/-- The two checks that no map has the document. -/
def checkUnused (documentId : Text) : Code K Unit := do
  let w ← .read id
  match w.documents.getParagraphData documentId with
  | .ok _ => fail documentExists
  | .error e => do
      .whenever (e.kind ≠ .keyError) (fail e)
      let chunks ← check (w.paragraphs.getDocumentChunks documentId)
      .whenever (chunks.entries ≠ []) (fail documentExists)

/-- `document_map.create_document(document_id)`. -/
def createDocument (documentId : Text) : Code K Unit := do
  let documents ← .read World.documents
  let created ← check (documents.createDocument documentId)
  .update fun w => { w with documents := created }

/-- The cleanup of a creation: the exceptions that it notes. -/
def cleanUp (rt : Runtime K) (documentId : Text) : Code K (List ChunkError) := do
  let paragraphs ← attempt (commitParagraphs rt (ParagraphMap.deleteDocument documentId))
  let documents ← attempt (commitDocuments rt fun documents => documents.deleteDocument documentId)
  pure ([paragraphs, documents].filterMap id)

/-- `create_wizard(user_id, collection_type)`. -/
def createWizard (rt : Runtime K) : Eff (World K) CreateError Text := do
  let documentId ← .mapError (CreateError.mk · []) do
    let documentId ← generatedUuid rt "document_id"
    checkUnused documentId
    createDocument documentId
    pure documentId
  .tryExcept
    (.mapError (CreateError.mk · []) (commitParagraphs rt (ParagraphMap.replaceDocument documentId ParagraphMap.emptyChunks)))
    fun exc => do
      let recoveryErrors ← .mapError (CreateError.mk · []) (cleanUp rt documentId)
      .raise ⟨exc.error, recoveryErrors⟩
  pure documentId

/-! ### Deleting -/

/-- What `delete_wizard` raises. -/
inductive DeleteError where
  /-- An exception of the snapshot, or before it. -/
  | raised (error : ChunkError)
  /-- `WizardDeleteError`. -/
  | delete (failedStage : String) (affectedChunkIds : List Uuid)
  /-- `WizardDeleteRecoveryError`. -/
  | recovery (failedStage : String) (affectedChunkIds : List Uuid) (recoveryErrors : List ChunkError)

section Delete

variable (rt : Runtime K) (documentId : Text)

/-- The snapshots that a recovery restores, of the maps and of the store. -/
def deleteSnapshots : Code K (Dict ℕ Text × Dict ℕ (List Uuid) × List (ChunkRecord K)) := do
  setFlag "save_delete_executed" true
  let w ← .read id
  let paragraphData ← check (w.documents.getParagraphData documentId)
  let chunkMappings ← check (w.paragraphs.getDocumentChunks documentId)
  let snapshots ← outside (ChunkStore.snapshotByDocument rt.faults documentId)
  addCount "recovery_snapshot_chunk_count" snapshots.length
  setSample "delete_snapshot_chunk_ids" (snapshots.map fun r => r.chunkId.str) snapshots.length
  pure (paragraphData, chunkMappings, snapshots)

/-- The deletion from the store and both maps. -/
def deleteSteps : Code K Unit := do
  stage "storage_delete"
  let deletion ← outside (ChunkStore.deleteByDocument rt.faults documentId)
  addCount "weaviate_deleted_match_count" deletion.matched
  addCount "weaviate_deleted_success_count" deletion.successful
  setSample "deleted_chunk_ids" (deletion.deletedIds.map Uuid.str) deletion.successful
  stage "mapping_commit"
  commitParagraphs rt (ParagraphMap.deleteDocument documentId)
  commitDocuments rt fun documents => documents.deleteDocument documentId

variable (paragraphData : Dict ℕ Text) (chunkMappings : Dict ℕ (List Uuid)) (snapshots : List (ChunkRecord K))

/-- The recovery of a deletion: its exceptions. -/
def recoverDelete [DecidableEq K] : Code K (List ChunkError) := do
  let restoring ← attempt (outside (ChunkStore.restoreChunks rt.faults snapshots))
  let paragraphs ← attempt (commitParagraphs rt (ParagraphMap.replaceDocument documentId chunkMappings))
  let documents ← attempt (commitDocuments rt fun documents => documents.restoreDocument documentId paragraphData)
  pure ([restoring, paragraphs, documents].filterMap id)

/-- The handler of a deletion. -/
def abandonDelete [DecidableEq K] : Eff (World K) DeleteError Unit := do
  let recoveryErrors ← .mapError .raised (recoverDelete rt documentId paragraphData chunkMappings snapshots)
  let progress ← .read World.progress
  let affected := snapshots.map ChunkRecord.chunkId
  if recoveryErrors ≠ [] then .raise (.recovery progress.failedStage affected recoveryErrors)
  else .raise (.delete progress.failedStage affected)

/-- `delete_wizard(user_id, document_id, collection_type)`. -/
def deleteWizard [DecidableEq K] : Eff (World K) DeleteError Unit := do
  let taken ← .mapError .raised (deleteSnapshots rt documentId)
  .tryExcept (.mapError .raised (deleteSteps rt documentId)) fun _ =>
    abandonDelete rt documentId taken.1 taken.2.1 taken.2.2

end Delete

/-! ### The other documents in the maps -/

section Elsewhere

variable {rt : Runtime K} {documentId : Text} {document : Uuid}

theorem elsewhere_removeParagraphs (hid : requiredUuid documentId "document_id" = .ok document) :
    Eff.Keeps (Elsewhere (K := K) document) (commitParagraphs rt (ParagraphMap.deleteDocument documentId)) :=
  elsewhere_commitParagraphs (ParagraphMap.elsewhere_deleteDocument hid)

theorem documents_of_deleteDocument (hid : requiredUuid documentId "document_id" = .ok document) {m m' : DocumentMap}
    (h : m.deleteDocument documentId = .ok m') : m'.documents = m.documents.erase document := by
  simp only [DocumentMap.deleteDocument, hid, bind, Except.bind] at h
  split_ifs at h
  cases h
  rfl

theorem elsewhere_removeDocument (hid : requiredUuid documentId "document_id" = .ok document) :
    Eff.Keeps (Elsewhere (K := K) document) (commitDocuments rt fun documents => documents.deleteDocument documentId) :=
  elsewhere_commitDocuments fun m m' h d hd => by
    rw [documents_of_deleteDocument hid h, Dict.get?_erase_ne _ (Ne.symm hd)]

theorem elsewhere_cleanUp (hid : requiredUuid documentId "document_id" = .ok document) :
    Eff.Keeps (Elsewhere (K := K) document) (cleanUp rt documentId) := by
  refine (keeps_attempt (elsewhere_removeParagraphs hid)).bind fun paragraphs => ?_
  exact (keeps_attempt (elsewhere_removeDocument hid)).bind fun documents => Eff.Keeps.pure _

theorem elsewhere_deleteSteps (hid : requiredUuid documentId "document_id" = .ok document) :
    Eff.Keeps (Elsewhere (K := K) document) (deleteSteps rt documentId) := by
  refine (elsewhere_assign _).bind fun _ => (elsewhere_outside _).bind fun deletion => ?_
  refine (elsewhere_note _).bind fun _ => (elsewhere_note _).bind fun _ => (elsewhere_note _).bind fun _ => ?_
  refine (elsewhere_assign _).bind fun _ => ?_
  exact (elsewhere_removeParagraphs hid).bind fun _ => elsewhere_removeDocument hid

theorem elsewhere_abandonDelete [DecidableEq K] (hid : requiredUuid documentId "document_id" = .ok document)
    (paragraphData : Dict ℕ Text) (chunkMappings : Dict ℕ (List Uuid)) (snapshots : List (ChunkRecord K)) :
    Eff.Keeps (Elsewhere document) (abandonDelete rt documentId paragraphData chunkMappings snapshots) := by
  refine Eff.Keeps.bind (Eff.Keeps.mapError ?_ _) fun errors => (Eff.Keeps.read _).bind fun progress => ?_
  · refine (keeps_attempt (elsewhere_outside _)).bind fun restoring => ?_
    refine (keeps_attempt (elsewhere_replaceDocument hid _)).bind fun paragraphs => ?_
    exact (keeps_attempt (elsewhere_restoreDocument hid _)).bind fun documents => Eff.Keeps.pure _
  · exact (Eff.Keeps.raise _).ite (Eff.Keeps.raise _)

/-- However a deletion ends, the maps keep the other documents. -/
theorem elsewhere_deleteWizard [DecidableEq K] (hid : requiredUuid documentId "document_id" = .ok document) :
    Eff.Keeps (Elsewhere document) (deleteWizard rt documentId) := by
  refine Eff.Keeps.bind (Eff.Keeps.mapError ?_ _) fun taken => ?_
  · refine (elsewhere_note _).bind fun _ => (Eff.Keeps.read id).bind fun w => (keeps_check _).bind fun data => ?_
    refine (keeps_check _).bind fun chunks => (elsewhere_outside _).bind fun snapshots => ?_
    exact (elsewhere_note _).bind fun _ => (elsewhere_note _).bind fun _ => Eff.Keeps.pure _
  · exact ((elsewhere_deleteSteps hid).mapError _).tryExcept fun _ => elsewhere_abandonDelete hid _ _ _

end Elsewhere

/-! ### What a creation has done -/

section Create

variable {rt : Runtime K} {documentId : Text} {document : Uuid} {w : World K}

/-- What a creation that returned has done: the document was absent, and is empty. -/
structure Created (w w' : World K) (document : Uuid) : Prop where
  keyed : Keyed w'.outside.chunks
  absent : Absent w document
  consistent : Consistent w' document DocumentMap.emptyDocument ParagraphMap.emptyChunks
  others : ∀ other, other ≠ document → SameDocument other w w'

/-- In a sound world a document is absent where the document map does not have it. -/
theorem Sound.absent (h : Sound w) (hnone : w.documents.documents.get? document = none) : Absent w document := by
  obtain habsent | ⟨data, chunks, hconsistent⟩ := h.documents document
  · exact habsent
  · rw [hconsistent.saved] at hnone
    cases hnone

/-- The world with a document entered in the document map, and nothing else changed. -/
structure Entered (w w' : World K) (document : Uuid) : Prop where
  unused : w.documents.documents.get? document = none
  documents : w'.documents.documents = w.documents.documents.set document DocumentMap.emptyDocument
  paragraphs : w'.paragraphs = w.paragraphs
  chunks : w'.outside.chunks = w.outside.chunks

theorem still_checkUnused (documentId : Text) : Eff.Keeps (Still (K := K)) (checkUnused documentId) := by
  refine (Eff.Keeps.read id).bind fun w => ?_
  cases w.documents.getParagraphData documentId with
  | ok data => exact keeps_fail _
  | error e =>
    refine (keeps_fail _).whenever.bind fun _ => (keeps_check _).bind fun chunks => ?_
    exact (keeps_fail _).whenever

theorem wp_generatedUuid (name : String) :
    Eff.wp (generatedUuid rt name) (fun documentId w' => Still w w' ∧ ∃ document : Uuid, documentId = document.str)
      (fun _ w' => Still w w') w := by
  refine (still_inject rt.uuidFactory).wp_bind_or (fun _ _ h => h) fun value w₁ h₁ => ?_
  cases Uuid.ofText value with
  | none => exact h₁
  | some document => exact ⟨h₁, document, rfl⟩

/-- A document that is entered is one that the document map did not have. -/
theorem wp_createDocument :
    Eff.wp (createDocument document.str) (fun _ w' => Entered w w' document) (fun _ w' => Still w w') w := by
  rw [createDocument, Eff.wp_bind, Eff.wp_read, Eff.wp_bind, wp_check]
  refine ⟨fun created hcreated => ?_, fun _ _ => Std.Refl.refl w⟩
  simp only [DocumentMap.createDocument, requiredUuid_str, bind, Except.bind] at hcreated
  split_ifs at hcreated with hnew
  cases hcreated
  refine ⟨?_, rfl, rfl, rfl⟩
  rw [Dict.contains_iff] at hnew
  exact Dict.get?_eq_none_iff.mpr hnew

/-- The replacement by a single paragraph without chunks. -/
theorem get?_of_emptied {m m' : ParagraphMap} (hid : requiredUuid documentId "document_id" = .ok document)
    (h : ParagraphMap.replaceDocument documentId ParagraphMap.emptyChunks m = .ok () m') (j : ParagraphKey) :
    m'.paragraphs.get? j = if j.1 = document then ParagraphMap.emptyChunks.get? j.2 else m.paragraphs.get? j := by
  obtain ⟨validated, hvalidated, hget⟩ := Eff.wp_ok (ParagraphMap.wp_replaceDocument hid _ m) h
  have hsame : validated = ParagraphMap.emptyChunks := by
    rw [(ParagraphMap.validated_spec hvalidated).2 (List.cons_ne_nil _ _)]
    exact Dict.sorted_eq_self (by decide)
  rw [hget, hsame]

theorem get?_emptyChunks {n : ℕ} {cs : List Uuid} (h : ParagraphMap.emptyChunks.get? n = some cs) : n = 1 ∧ cs = [] := by
  rw [← Dict.mem_entries_iff] at h
  simpa [ParagraphMap.emptyChunks] using h

/-- An empty document without records is consistent. -/
theorem consistent_empty (hsaved : w.documents.documents.get? document = some DocumentMap.emptyDocument)
    (hlists : ∀ n, w.paragraphs.paragraphs.get? (document, n) = ParagraphMap.emptyChunks.get? n)
    (hrecords : ∀ id r, w.outside.chunks.get? id = some r → r.documentId ≠ document) :
    Consistent w document DocumentMap.emptyDocument ParagraphMap.emptyChunks := by
  refine ⟨hsaved, ?_, rfl, List.cons_ne_nil _ _, rfl, fun n cs hcs => ?_, fun n id => ?_, fun n cs hcs => ?_⟩
  · exact ParagraphMap.documentChunks_eq_of_get? (by decide) hlists
  · obtain ⟨-, rfl⟩ := get?_emptyChunks hcs
    exact List.nodup_nil
  · constructor
    · rintro ⟨cs, hcs, hid⟩
      obtain ⟨-, rfl⟩ := get?_emptyChunks hcs
      cases hid
    · rintro ⟨r, hr, hd, -⟩
      exact absurd hd (hrecords id r hr)
  · obtain ⟨rfl, rfl⟩ := get?_emptyChunks hcs
    rfl

/-- A commit changes no record. -/
theorem keeps_chunks_commitParagraphs (m : Eff ParagraphMap PyError Unit) :
    Eff.Keeps (fun w w' : World K => w'.outside.chunks = w.outside.chunks) (commitParagraphs rt m) := fun _ =>
  Eff.wp_mono (wp_commitParagraphs m) (fun _ _ h => h.2.1) fun _ _ h => h.1

theorem keeps_chunks_commitDocuments (f : DocumentMap → Except PyError DocumentMap) :
    Eff.Keeps (fun w w' : World K => w'.outside.chunks = w.outside.chunks) (commitDocuments rt f) := fun _ =>
  Eff.wp_mono (wp_commitDocuments f) (fun _ _ h => h.2.2.1) fun _ _ h => h.1

/-- A cleanup without exceptions has removed the document from both maps. -/
theorem wp_cleanUp {E : ChunkError → World K → Prop} (hid : requiredUuid documentId "document_id" = .ok document) :
    Eff.wp (cleanUp rt documentId)
      (fun errors w' => errors = [] → w'.documents.documents.get? document = none ∧
        (∀ n, w'.paragraphs.paragraphs.get? (document, n) = none)) E w := by
  rw [cleanUp]
  refine wp_phase True (fun w' => ∀ n, w'.paragraphs.paragraphs.get? (document, n) = none) (fun _ => ?_)
    fun paragraphs w₁ h₁ => ?_
  · refine Eff.wp_mono (wp_commitParagraphs _) (fun _ w' h n => ?_) fun _ _ _ => trivial
    rw [Eff.wp_ok (ParagraphMap.wp_deleteDocument hid _) h.1, if_pos rfl]
  refine wp_phase (True ∧ paragraphs = none) (fun w' => w'.documents.documents.get? document = none ∧
    (∀ n, w'.paragraphs.paragraphs.get? (document, n) = none)) (fun hdone => ?_) fun documents w₂ h₂ => ?_
  · refine Eff.wp_mono (wp_commitDocuments _) (fun _ w' h => ⟨?_, fun n => ?_⟩) fun _ _ _ => trivial
    · rw [documents_of_deleteDocument hid h.1, Dict.get?_erase_self]
    · rw [h.2.1, h₁ hdone]
  · intro hnone
    simp only [List.filterMap_eq_nil_iff, List.mem_cons, List.not_mem_nil, or_false, forall_eq_or_imp, forall_eq, id] at hnone
    exact h₂ ⟨⟨trivial, hnone.1⟩, hnone.2⟩

theorem keeps_chunks_cleanUp :
    Eff.Keeps (fun w w' : World K => w'.outside.chunks = w.outside.chunks) (cleanUp rt documentId) := by
  have hrefl : Std.Refl fun w w' : World K => w'.outside.chunks = w.outside.chunks := ⟨fun _ => rfl⟩
  have htrans : IsTrans (World K) fun w w' => w'.outside.chunks = w.outside.chunks := ⟨fun _ _ _ h h' => h'.trans h⟩
  refine (keeps_attempt (keeps_chunks_commitParagraphs _)).bind fun paragraphs => ?_
  exact (keeps_attempt (keeps_chunks_commitDocuments _)).bind fun documents => Eff.Keeps.pure _

/-- A creation that returns has entered a document that was absent, as an empty one; one that raises, and notes no
exception of its cleanup, has left every document alone. -/
theorem wp_createWizard (h : Sound w) :
    Eff.wp (createWizard rt) (fun documentId w' => ∃ document : Uuid, documentId = document.str ∧ Created w w' document)
      (fun e w' => e.notes = [] → Keyed w'.outside.chunks ∧ ∀ d, SameDocument d w w') w := by
  have hstill : ∀ {w' : World K}, Still w w' → Keyed w'.outside.chunks ∧ ∀ d, SameDocument d w w' := fun hs =>
    ⟨hs.chunks ▸ h.keyed, hs.same_document⟩
  rw [createWizard, Eff.wp_bind, Eff.wp_mapError, Eff.wp_bind]
  refine Eff.wp_mono (wp_generatedUuid _) (fun documentId w₁ h₁ => ?_) fun _ _ hs _ => hstill hs
  obtain ⟨h₁, document, rfl⟩ := h₁
  refine (still_checkUnused _).wp_bind_or (fun _ _ hs _ => hstill (Trans.trans h₁ hs)) fun _ w₂ h₂ => ?_
  have hw₂ : Still w w₂ := Trans.trans h₁ h₂
  rw [Eff.wp_bind]
  refine Eff.wp_mono wp_createDocument (fun _ w₃ h₃ => ?_) fun _ _ hs _ => hstill (Trans.trans hw₂ hs)
  have hid : requiredUuid document.str "document_id" = .ok document := requiredUuid_str _ _
  have habsent : Absent w document := h.absent (by rw [← hw₂.documents]; exact h₃.unused)
  have hdocuments : w₃.documents.documents = w.documents.documents.set document DocumentMap.emptyDocument := by
    rw [h₃.documents, hw₂.documents]
  have hparagraphs : w₃.paragraphs = w.paragraphs := h₃.paragraphs.trans hw₂.paragraphs
  have hchunks : w₃.outside.chunks = w.outside.chunks := h₃.chunks.trans hw₂.chunks
  have hothers : ∀ {w' : World K}, Elsewhere document w₃ w' → w'.outside.chunks = w₃.outside.chunks →
      ∀ other, other ≠ document → SameDocument other w w' := by
    intro w' helse hsame other hother
    refine ⟨?_, fun n => ?_, fun id r _ => by rw [hsame, hchunks]⟩
    · rw [helse.documents other hother, hdocuments, Dict.get?_set_ne _ _ (Ne.symm hother)]
    · rw [helse.paragraphs (other, n) hother, hparagraphs]
  rw [Eff.wp_pure, Eff.wp_bind, Eff.wp_tryExcept, Eff.wp_mapError]
  refine Eff.wp_mono (Eff.wp_and (Eff.wp_and (wp_commitParagraphs _) (keeps_documents_commitParagraphs _ w₃))
    (elsewhere_replaceDocument hid _ w₃)) (fun _ w₄ h₄ => ?_) fun exc w₄ h₄ => ?_
  · obtain ⟨⟨⟨hrun, hsame, -⟩, hkept⟩, helse⟩ := h₄
    refine ⟨document, rfl, ?_, habsent, consistent_empty ?_ (fun n => ?_) fun id r hr => ?_, hothers helse hsame⟩
    · rw [hsame, hchunks]
      exact h.keyed
    · rw [hkept, hdocuments, Dict.get?_set_self]
    · rw [get?_of_emptied hid hrun, if_pos rfl]
    · rw [hsame, hchunks] at hr
      exact habsent.records id r hr
  · obtain ⟨⟨⟨hsame, -⟩, -⟩, helse⟩ := h₄
    rw [Eff.wp_bind, Eff.wp_mapError]
    refine Eff.wp_mono (Eff.wp_and (Eff.wp_and (wp_cleanUp (E := fun _ _ => False) hid) (keeps_chunks_cleanUp w₄))
      (elsewhere_cleanUp hid w₄)) (fun errors w₅ h₅ hnone => ?_) fun e w₅ h₅ => h₅.1.1.elim
    · obtain ⟨⟨hgone, hsame'⟩, helse'⟩ := h₅
      obtain ⟨hdocument, hlists⟩ := hgone hnone
      have hrecords : w₅.outside.chunks = w.outside.chunks := by rw [hsame', hsame, hchunks]
      refine ⟨hrecords ▸ h.keyed, fun d => ?_⟩
      by_cases hd : d = document
      · subst hd
        exact ⟨by rw [hdocument, habsent.documents], fun n => by rw [hlists, habsent.paragraphs], fun id r _ => by rw [hrecords]⟩
      · exact hothers (Trans.trans helse helse') (hsame'.trans hsame) d hd

end Create

/-! ### What a deletion has done -/

section Delete

variable {rt : Runtime K} {documentId : Text} {document : Uuid} {data : Dict ℕ Text} {chunks : Dict ℕ (List Uuid)}
  {snapshots : List (ChunkRecord K)} {before : Dict Uuid (ChunkRecord K)} {w : World K}

/-- The snapshots of a document: its texts, its lists, and all of its records. -/
structure Taken (before : Dict Uuid (ChunkRecord K)) (documentId : Text) (snapshots : List (ChunkRecord K)) : Prop where
  found : ∀ r ∈ snapshots, before.get? r.chunkId = some r
  all : ∀ document, Weaviate.uuidText documentId "document_id" = .ok document → ∀ id r, before.get? id = some r →
    r.documentId = document → id ∈ snapshots.map ChunkRecord.chunkId

theorem wp_deleteSnapshots (hid : requiredUuid documentId "document_id" = .ok document)
    (hsaved : w.documents.documents.get? document = some data) (hlists : w.paragraphs.documentChunks document = chunks) :
    Eff.wp (deleteSnapshots rt documentId)
      (fun taken w' => Still w w' ∧ taken.1 = data ∧ taken.2.1 = chunks ∧ Taken w.outside.chunks documentId taken.2.2)
      (fun _ w' => Still w w') w := by
  rw [deleteSnapshots]
  refine (still_note _).wp_bind_or (fun _ _ h => h) fun _ w₁ h₁ => ?_
  rw [Eff.wp_bind, Eff.wp_read, Eff.wp_bind, wp_check]
  refine ⟨fun data' hdata => ?_, fun _ _ => h₁⟩
  rw [Eff.wp_bind, wp_check]
  refine ⟨fun chunks' hchunks => ?_, fun _ _ => h₁⟩
  rw [Eff.wp_bind, outside, Eff.wp_zoom]
  refine Eff.wp_mono (ChunkStore.wp_snapshotByDocument documentId) (fun snapshots o ho => ?_) fun _ o ho => ?_
  · obtain ⟨ho, hfound, hall⟩ := ho
    have h₂ : Still w { w₁ with outside := o } :=
      ⟨h₁.documents, h₁.paragraphs, ho.trans h₁.chunks, h₁.inserted, h₁.retained⟩
    refine (still_note _).wp_bind_or (fun _ _ hs => Trans.trans h₂ hs) fun _ w₃ h₃ => ?_
    refine (still_note _).wp_bind_or (fun _ _ hs => Trans.trans h₂ (Trans.trans h₃ hs)) fun _ w₄ h₄ => ?_
    refine ⟨Trans.trans h₂ (Trans.trans h₃ h₄), ?_, ?_, ?_⟩
    · simp only [id, DocumentMap.getParagraphData, hid, bind, Except.bind, h₁.documents, hsaved, Except.ok.injEq] at hdata
      exact hdata.symm
    · simp only [id, ParagraphMap.getDocumentChunks, hid, bind, Except.bind, h₁.paragraphs, hlists, Except.ok.injEq] at hchunks
      exact hchunks.symm
    · rw [h₁.chunks] at hfound hall
      exact ⟨hfound, hall⟩
  · exact ⟨h₁.documents, h₁.paragraphs, ho.trans h₁.chunks, h₁.inserted, h₁.retained⟩

/-- A deletion whose steps return has removed the document; on the way, it can only have removed records that have
their snapshots. -/
theorem wp_deleteSteps (hid : requiredUuid documentId "document_id" = .ok document)
    (htaken : Taken w.outside.chunks documentId snapshots) :
    Eff.wp (deleteSteps rt documentId)
      (fun _ w' => Absent w' document ∧
        ∀ id, w'.outside.chunks.get? id = (w.outside.chunks.get? id).filter fun r => r.documentId ≠ document)
      (fun _ w' => Undoable w.outside.chunks w'.outside.chunks (snapshots.map ChunkRecord.chunkId) [] []) w := by
  have hundoable : ∀ {o : Outside K}, (∀ id, o.chunks.get? id =
      (w.outside.chunks.get? id).filter fun r => r.documentId ≠ document) →
      Weaviate.uuidText documentId "document_id" = .ok document →
      Undoable w.outside.chunks o.chunks (snapshots.map ChunkRecord.chunkId) [] [] := by
    intro o ho hdocument id
    cases hr : w.outside.chunks.get? id with
    | none => exact .inl (by rw [ho, hr]; rfl)
    | some r =>
      by_cases hd : r.documentId = document
      · exact .inr (.inl ⟨htaken.all document hdocument id r hr hd, by rw [ho, hr]; simp [hd]⟩)
      · exact .inl (by rw [ho, hr]; simp [hd])
  rw [deleteSteps, Eff.wp_bind, stage, assign, Eff.wp_update, Eff.wp_bind, outside, Eff.wp_zoom]
  refine Eff.wp_mono (ChunkStore.wp_deleteByDocument documentId) (fun deletion o ho => ?_) fun _ o ho id => ?_
  · obtain ⟨document', hdocument, ho⟩ := ho
    obtain rfl := uuidText_eq_requiredUuid hdocument hid
    simp only [addCount, setSample, stage, assign, Eff.wp_bind, wp_note, Eff.wp_update]
    have hundo := hundoable ho hdocument
    refine Eff.wp_mono (wp_commitParagraphs _) (fun _ w₁ h₁ => ?_) fun _ w₁ h₁ => ?_
    · obtain ⟨hrun, hchunks, -⟩ := h₁
      have hlists := Eff.wp_ok (ParagraphMap.wp_deleteDocument hid _) hrun
      refine Eff.wp_mono (wp_commitDocuments _) (fun _ w₂ h₂ => ?_) fun _ w₂ h₂ => ?_
      · have hrecords : ∀ id, w₂.outside.chunks.get? id =
            (w.outside.chunks.get? id).filter fun r => r.documentId ≠ document' := by
          intro id
          rw [h₂.2.2.1, hchunks, ← ho]
        refine ⟨⟨?_, fun n => ?_, fun id r hr => ?_⟩, hrecords⟩
        · rw [documents_of_deleteDocument hid h₂.1, Dict.get?_erase_self]
        · rw [h₂.2.1, hlists, if_pos rfl]
        · rw [hrecords] at hr
          simpa using (Option.filter_eq_some_iff.mp hr).2
      · rw [h₂.1, hchunks]
        exact hundo
    · rw [h₁.1]
      exact hundo
  · obtain hsame | ⟨document', r, hdocument, hr, hd, hnone⟩ := ho id
    · exact .inl hsame
    · exact .inr (.inl ⟨htaken.all document' hdocument id r hr hd, hnone⟩)

/-- A recovery without exceptions has undone what a deletion had left. -/
theorem wp_recoverDelete [DecidableEq K] {E : ChunkError → World K → Prop}
    (hid : requiredUuid documentId "document_id" = .ok document) (hkeys : data.keys = List.range' 1 data.keys.length)
    (hne : data.keys ≠ []) (hsame : chunks.keys = data.keys) (hfound : ∀ r ∈ snapshots, before.get? r.chunkId = some r)
    (h : Undoable before w.outside.chunks (snapshots.map ChunkRecord.chunkId) [] []) :
    Eff.wp (recoverDelete rt documentId data chunks snapshots)
      (fun errors w' => errors = [] → Restored before document data chunks w') E w := by
  have hascending : chunks.keys.Pairwise (· < ·) := by
    rw [hsame, hkeys]
    exact List.pairwise_lt_range'
  rw [recoverDelete]
  refine wp_phase True (fun w' => Undoable before w'.outside.chunks [] [] []) (fun _ => ?_) fun restoring w₁ h₁ => ?_
  · rw [outside, Eff.wp_zoom]
    exact h.restoreBack hfound
  refine wp_phase (True ∧ restoring = none)
    (fun w' => Undoable before w'.outside.chunks [] [] [] ∧ w'.paragraphs.documentChunks document = chunks)
    (fun hdone => ?_) fun replacing w₂ h₂ => ?_
  · refine Eff.wp_mono (wp_commitParagraphs _) (fun _ w' h' => ⟨?_, ?_⟩) fun _ _ _ => trivial
    · rw [h'.2.1]
      exact h₁ hdone
    · exact documentChunks_of_replaced hid (hsame ▸ hne) hascending h'.1
  refine wp_phase ((True ∧ restoring = none) ∧ replacing = none) (fun w' => Restored before document data chunks w')
    (fun hdone => ?_) fun documents w₃ h₃ => ?_
  · refine Eff.wp_mono (wp_commitDocuments _) (fun _ w' h' => ⟨fun id => ?_, ?_, ?_⟩) fun _ _ _ => trivial
    · rw [h'.2.2.1]
      exact (h₂ hdone).1.get?_eq id
    · exact get?_of_restored hid hkeys hne h'.1
    · rw [h'.2.1]
      exact (h₂ hdone).2
  · intro hnone
    simp only [List.filterMap_eq_nil_iff, List.mem_cons, List.not_mem_nil, or_false, forall_eq_or_imp, forall_eq, id] at hnone
    exact h₃ ⟨⟨⟨trivial, hnone.1⟩, hnone.2.1⟩, hnone.2.2⟩

/-- The deletion says that its recovery had exceptions. -/
def DeleteError.unresolved : DeleteError → Bool
  | .recovery .. => true
  | _ => false

/-- A deletion of a consistent document that returns has removed it, and nothing else; one that fails, and says that
its recovery had no exceptions, has left every document alone. -/
theorem wp_deleteWizard [DecidableEq K] (hconsistent : Consistent w document data chunks) (hkeyed : Keyed w.outside.chunks)
    (hid : requiredUuid documentId "document_id" = .ok document) :
    Eff.wp (deleteWizard rt documentId)
      (fun _ w' => Keyed w'.outside.chunks ∧ Absent w' document ∧ ∀ other, other ≠ document → SameDocument other w w')
      (fun e w' => e.unresolved = false → Keyed w'.outside.chunks ∧ ∀ d, SameDocument d w w') w := by
  have hrestored : ∀ {w' : World K}, Still w w' → Restored w.outside.chunks document data chunks w' := fun hs =>
    ⟨fun id => by rw [hs.chunks], by rw [hs.documents, hconsistent.saved], by rw [hs.paragraphs, hconsistent.documentChunks]⟩
  have hrun : Eff.wp (deleteWizard rt documentId)
      (fun _ w' => Absent w' document ∧
        ∀ id, w'.outside.chunks.get? id = (w.outside.chunks.get? id).filter fun r => r.documentId ≠ document)
      (fun e w' => e.unresolved = false → Restored w.outside.chunks document data chunks w') w := by
    rw [deleteWizard, Eff.wp_bind, Eff.wp_mapError]
    refine Eff.wp_mono (wp_deleteSnapshots hid hconsistent.saved hconsistent.documentChunks) (fun taken w₁ h₁ => ?_)
      fun _ _ hs _ => hrestored hs
    obtain ⟨data', chunks', snapshots⟩ := taken
    obtain ⟨h₁, rfl, rfl, htaken⟩ := h₁
    rw [← h₁.chunks] at htaken
    rw [Eff.wp_tryExcept, Eff.wp_mapError]
    refine Eff.wp_mono (wp_deleteSteps hid htaken) (fun _ w₂ h₂ => ?_) fun e w₂ h₂ => ?_
    · rw [h₁.chunks] at h₂
      exact h₂
    · rw [abandonDelete, Eff.wp_bind, Eff.wp_mapError]
      refine Eff.wp_mono (wp_recoverDelete (E := fun _ _ => False) hid hconsistent.keys hconsistent.ne_nil hconsistent.same
        htaken.found h₂) (fun errors w₃ h₃ => ?_) fun _ _ hfalse => hfalse.elim
      rw [h₁.chunks] at h₃
      rw [Eff.wp_bind, Eff.wp_read, Eff.wp_ite]
      refine ⟨fun _ hresolved => ?_, fun hnone _ => ?_⟩
      · cases hresolved
      · exact h₃ (not_not.mp hnone)
  refine Eff.wp_mono (Eff.wp_and hrun (elsewhere_deleteWizard hid w)) (fun _ w' h => ?_) fun e w' h hresolved => ?_
  · obtain ⟨⟨habsent, hrecords⟩, helse⟩ := h
    refine ⟨fun id r hr => ?_, habsent, fun other hother => ?_⟩
    · rw [hrecords] at hr
      exact hkeyed id r (Option.filter_eq_some_iff.mp hr).1
    · refine ⟨helse.documents other hother, fun n => helse.paragraphs (other, n) hother, fun id r hr => ?_⟩
      rw [hrecords, Option.filter_eq_some_iff]
      simp [hr, hother]
  · have hdone := h.1 hresolved
    refine ⟨fun id r hr => hkeyed id r (by rw [← hdone.records, hr]), hdone.same_documents hconsistent h.2⟩

/-- A deletion of a document that the maps do not have changes nothing. -/
theorem still_deleteWizard_of_missing [DecidableEq K] {e : PyError} (h : w.documents.getParagraphData documentId = .error e) :
    Eff.wp (deleteWizard rt documentId) (fun _ _ => False) (fun e' w' => e' = .raised (.raised e) ∧ Still w w') w := by
  rw [deleteWizard, Eff.wp_bind, Eff.wp_mapError, deleteSnapshots, setFlag, Eff.wp_bind, wp_note, Eff.wp_bind, Eff.wp_read,
    Eff.wp_bind, wp_check, id]
  constructor
  · intro data hdata
    rw [h] at hdata
    cases hdata
  · intro e' he'
    rw [h] at he'
    cases he'
    exact ⟨rfl, rfl, rfl, rfl, rfl, rfl⟩

end Delete

end TenantRag.Save

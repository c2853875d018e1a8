import TenantRag.Mappings.DocumentMap
import TenantRag.Mappings.ParagraphMap
import TenantRag.Weaviate.ChunkStore
import TenantRag.Wizard.Alignment

/-!
# The save pipeline

`save_wizard` of `backend/wizard/save.py`: from an edited text to a document whose
texts, chunk lists and stored chunks belong together, with the compensation of a
save that fails on the way.

## The model

A world is what a save reads and changes: the two maps of one user and collection type,
the store, and the local variables its handler reads. The injected functions are
parameters; a splitter, a chunker and the two embedders are functions of their argument,
while each call of the `uuid_factory` is told apart by its number. Every call to one of
them, to the store or to commit a map may raise, and a call that raises has made any
part of its change. The names of `observe_stage` are left out: under a deep trace they
only count.
-/

namespace TenantRag.Save

/-- `_StagedChunk`. -/
structure StagedChunk (K : Type) where
  chunkId : Uuid
  rawText : Text
  lateInteraction : List (List K)
  mmrDiversity : List K

/-- `_ParagraphNode`. -/
structure ParagraphNode (K : Type) where
  rawText : Text
  chunks : List (StagedChunk K)
  oldParagraphId : Option ℕ

/-- What `WizardRuntime` injects, and which calls raise. `none` is an answer of another type. -/
structure Runtime (K : Type) where
  /-- The failing calls, by their number. -/
  faults : ℕ → Option Fault
  /-- `SequenceMatcher(None, a, b, autojunk=False).get_opcodes()`. -/
  getOpcodes : Text → Text → List Opcode
  /-- `paragraph_splitter`. -/
  paragraphSplitter : Text → Option (List Text)
  /-- `paragraph_chunker`. -/
  paragraphChunker : Text → Option (List Text)
  /-- `uuid_factory`, by the number of the call, as `str`. -/
  uuidFactory : ℕ → Text
  /-- `multi_vectors.encode_documents`. -/
  encodeDocuments : List Text → Option (List (RawMatrix K))
  /-- `embedder.embed_many`. -/
  embedMany : List Text → Option (List (RawVector K))

/-- The local variables of `save_wizard` that its handler reads. -/
structure Progress where
  /-- `failed_stage`. -/
  failedStage : String
  /-- `attempted_insert_ids`. -/
  attemptedInsertIds : List Uuid
  /-- `inserted_ids`. -/
  insertedIds : List Uuid
  /-- `attempted_retained_ids`. -/
  attemptedRetainedIds : List Uuid
  /-- `updated_retained_ids`. -/
  updatedRetainedIds : List Uuid

/-- What a save reads and changes. -/
structure World (K : Type) where
  /-- The document map. -/
  documents : DocumentMap
  /-- The paragraph map. -/
  paragraphs : ParagraphMap
  /-- The store and the trace. -/
  outside : Outside K
  /-- The local variables. -/
  progress : Progress

/-- Code of a save. -/
abbrev Code (K α : Type) := Eff (World K) ChunkError α

section Code

variable {K α : Type}

/-- Code over the store and the trace. -/
def outside (m : Eff (Outside K) ChunkError α) : Code K α := .zoom World.outside (fun o w => { w with outside := o }) m

/-- A recording function is called. -/
def note (c : Call) : Code K Unit := outside (ChunkStore.note c)

/-- An injected function is called. -/
def inject (rt : Runtime K) (f : ℕ → α) : Code K α := outside (ChunkStore.answer rt.faults fun o => f o.calls)

/-- The exceptions of a check. -/
def check (x : Except PyError α) : Code K α := .mapError .raised (.ofExcept x)

/-- An exception is raised. -/
def fail (e : PyError) : Code K α := .raise (.raised e)

/-- The local variables change. -/
def assign (f : Progress → Progress) : Code K Unit := .update fun w => { w with progress := f w.progress }

/-- `failed_stage = stage`. -/
def stage (name : String) : Code K Unit := assign fun p => { p with failedStage := name }

/-- `add_count(name, value)`. -/
def addCount (name : String) (value : ℕ) : Code K Unit := note (.addCount (lit name) value)

/-- `set_flag(name, value)`. -/
def setFlag (name : String) (value : Bool) : Code K Unit := note (.setFlag (lit name) value)

/-- `set_sample(name, items, exact_count=exact_count)`. -/
def setSample (name : String) (items : List Text) (exactCount : ℕ) : Code K Unit :=
  note (.setSample (lit name) (.ok items) (some exactCount))

/-- `sorted(ids)` of a set that is given as a list. -/
def sortedIds (ids : List Uuid) : List Text := (ids.dedup.map Uuid.str).insertionSort (· ≤ ·)

/-- `_mapping_digest(mapping)`, before it is hashed. -/
def mappingParts (mapping : Dict ℕ (List Uuid)) : List (List ℕ) :=
  mapping.sorted.entries.flatMap fun e =>
    ((PyValue.intStr e.1).map Fin.val :: e.2.map fun c => c.str.map Fin.val) ++ [(lit ";").map Fin.val]

/-- `set_mapping_digest(name, mapping)`. -/
def setMappingDigest (name : String) (mapping : Dict ℕ (List Uuid)) : Code K Unit :=
  note (.setFramedDigest (lit name) (lit "wizard-diagnostic-mapping-v1") (.ok (mappingParts mapping)))

/-- The commit of a change of the paragraph map, which may raise with a part of the change made. -/
def commitParagraphs (rt : Runtime K) (m : Eff ParagraphMap PyError Unit) : Code K Unit := fun w =>
  let called := { w with outside := { w.outside with calls := w.outside.calls + 1 } }
  match rt.faults w.outside.calls, m w.paragraphs with
  | none, .ok _ p => .ok () { called with paragraphs := p }
  | none, .error e p => .error (.raised e) { called with paragraphs := p }
  | some fault, .ok _ p | some fault, .error _ p =>
      .error (.raised fault.error.val)
        { called with paragraphs :=
            { paragraphs := Dict.mix fault.appliedTo w.paragraphs.paragraphs p.paragraphs
              chunkOwners := Dict.mix fault.applied w.paragraphs.chunkOwners p.chunkOwners } }

/-- The commit of a change of the document map, which may raise with the change made or not. -/
def commitDocuments (rt : Runtime K) (f : DocumentMap → Except PyError DocumentMap) : Code K Unit := fun w =>
  let called := { w with outside := { w.outside with calls := w.outside.calls + 1 } }
  match rt.faults w.outside.calls, f w.documents with
  | none, .ok d => .ok () { called with documents := d }
  | none, .error e => .error (.raised e) called
  | some fault, .ok d =>
      .error (.raised fault.error.val)
        { called with documents := ⟨Dict.mix fault.applied w.documents.documents d.documents⟩ }
  | some fault, .error _ => .error (.raised fault.error.val) called

end Code

/-! ### Validations -/

/-- `_validated_modified_ids`. -/
def validatedModifiedIds (modifiedParagraphIds : Option (List ℤ)) (existingIds : List ℕ) : Except PyError (Finset ℕ) :=
  match modifiedParagraphIds with
  | none => .ok ∅
  | some ids => do
      let validated ← ids.mapM fun raw => do
        let paragraphId ← positiveParagraphId raw
        if paragraphId ∉ existingIds then
          .error (valueError s!"modified paragraph_id {paragraphId} does not exist in the document")
        else .ok paragraphId
      .ok validated.toFinset

/-- `_validated_processor_output`. -/
def validatedProcessorOutput (value : Option (List Text)) (sourceText : Text) (processorName : String) :
    Except PyError (List Text) :=
  match value with
  | none => .error (typeError s!"{processorName} must return a list of strings")
  | some pieces =>
      if pieces.flatten ≠ sourceText then .error (valueError s!"{processorName} must preserve its source text exactly")
      else .ok pieces

section Vectors

variable {K : Type}

/-- `_validated_vector`. -/
def validatedVector : RawVector K → Except PyError (List K)
  | .notSequence => .error (typeError "embedder must return a sequence of numbers")
  | .sequence items => vectorValues "embedding vector" (.sequence items)

/-- `_validated_multi_vector`. -/
def validatedMultiVector : RawMatrix K → Except PyError (List (List K))
  | .notSequence => .error (typeError "multi-vector provider must return a sequence of vectors")
  | .sequence rows => do
      let vectors ← rows.mapM validatedVector
      match vectors with
      | [] => .error (valueError "multi-vector provider must not return an empty matrix")
      | row :: rest =>
          if rest.any fun r => r.length ≠ row.length then
            .error (valueError "multi-vector rows must have consistent dimensions")
          else if row.length ≠ lateonEmbeddingDimension then
            .error (valueError "LateOn multi-vector rows must have exactly 128 dimensions")
          else .ok (row :: rest)

/-- `_batch_vectors`. -/
def batchVectors (rt : Runtime K) (texts : List Text) : Code K (List (List (List K)) × List (List K)) :=
  if texts = [] then pure ([], [])
  else do
    let rawMultiVectors ← inject rt fun _ => rt.encodeDocuments texts
    setFlag "lateon_executed" true
    addCount "lateon_document_count" texts.length
    match rawMultiVectors with
    | none => fail (typeError "multi-vector provider must return a sequence of matrices")
    | some raw => do
        .whenever (raw.length ≠ texts.length) (fail (valueError "multi-vector provider returned the wrong document count"))
        let multiVectors ← check (raw.mapM validatedMultiVector)
        let rowCounts := multiVectors.map List.length
        addCount "lateon_total_rows" rowCounts.sum
        addCount "lateon_min_rows" (rowCounts.min?.getD 0)
        addCount "lateon_max_rows" (rowCounts.max?.getD 0)
        addCount "lateon_dimension" ((multiVectors.headD []).headD []).length
        setFlag "lateon_values_finite" true
        .whenever ((multiVectors.flatten.map List.length).toFinset.card ≠ 1)
          (fail (valueError "document multi-vectors must have consistent dimensions"))
        let rawDiversityVectors ← inject rt fun _ => rt.embedMany texts
        setFlag "gte_executed" true
        addCount "gte_vector_count" texts.length
        match rawDiversityVectors with
        | none => fail (typeError "embedder must return a sequence of vectors")
        | some raw => do
            .whenever (raw.length ≠ texts.length) (fail (valueError "embedder returned the wrong number of vectors"))
            let diversityVectors ← check (raw.mapM validatedVector)
            .whenever ((diversityVectors.map List.length).toFinset.card ≠ 1)
              (fail (valueError "embedding vectors must have consistent dimensions"))
            addCount "gte_dimension" (diversityVectors.headD []).length
            setFlag "gte_values_finite" true
            pure (multiVectors, diversityVectors)

end Vectors

/-! ### Steps 1 and 2 -/

/-- What the first two steps find. -/
structure Prepared where
  /-- `paragraph_data`. -/
  paragraphData : Dict ℕ Text
  /-- `hinted_ids`. -/
  hintedIds : Finset ℕ
  /-- `unions`. -/
  unions : List ParagraphUnion
  /-- `old_chunks_by_paragraph`. -/
  oldChunks : Dict ℕ (List Uuid)

namespace Prepared

/-- `old_paragraphs`. -/
def oldParagraphs (p : Prepared) : List SavedParagraph := savedParagraphs p.paragraphData

/-- `union_ids`, in order. -/
def unionIds (p : Prepared) : List ℕ := p.unions.flatMap ParagraphUnion.paragraphIds

/-- `old_chunks_by_paragraph.get(paragraph_id, [])`. -/
def chunksOf (p : Prepared) (paragraphId : ℕ) : List Uuid := (p.oldChunks.get? paragraphId).getD []

/-- The chunks of the document. -/
def existingChunks (p : Prepared) : List Uuid := p.oldChunks.values.flatten

/-- `existing_chunk_ids`. -/
def existingChunkIds (p : Prepared) : Finset Uuid := p.existingChunks.toFinset

/-- The chunks of the unions. -/
def targetedChunks (p : Prepared) : List Uuid := p.unionIds.flatMap p.chunksOf

/-- `targeted_ids`. -/
def targetedIds (p : Prepared) : Finset Uuid := p.targetedChunks.toFinset

/-- `old_paragraph_by_chunk`. -/
def oldParagraphByChunk (p : Prepared) : Dict Uuid ℕ :=
  p.oldChunks.entries.foldl (fun d e => e.2.foldl (fun d c => d.set c e.1) d) .empty

end Prepared

section Save

variable {K : Type} (rt : Runtime K) (documentId currentText : Text) (modifiedParagraphIds : Option (List ℤ))

/-- The first stage, "save.diff"; `none` where the text is the saved one. -/
def saveDiff : Code K (Option Prepared) := do
  let w ← .read id
  let paragraphData ← check (w.documents.getParagraphData documentId)
  let oldParagraphs := savedParagraphs paragraphData
  let hintedIds ← check (validatedModifiedIds modifiedParagraphIds (oldParagraphs.map SavedParagraph.paragraphId))
  if currentText = (oldParagraphs.map SavedParagraph.text).flatten then do
    setFlag "save_noop" true
    pure none
  else do
    let unions ← check (alignUnions rt.getOpcodes oldParagraphs currentText hintedIds)
    let oldChunks ← check (w.paragraphs.getDocumentChunks documentId)
    pure (some ⟨paragraphData, hintedIds, unions, oldChunks⟩)

/-- What is recorded of the first stage. -/
def recordDiff (p : Prepared) : Code K Unit := do
  addCount "saved_paragraph_count" p.oldParagraphs.length
  addCount "hinted_modified_paragraph_count" p.hintedIds.card
  addCount "modified_union_count" p.unions.length
  setMappingDigest "before_paragraph_mapping" p.oldChunks
  setSample "before_chunk_ids" (sortedIds p.existingChunks) p.existingChunkIds.card
  setSample "modified_paragraph_ids" ((p.unionIds.insertionSort (· ≤ ·)).map fun n : ℕ => PyValue.intStr n)
    (p.unions.map fun u => u.paragraphIds.length).sum
  addCount "targeted_old_chunk_count" p.targetedIds.card
  setSample "targeted_old_chunk_ids" (sortedIds p.targetedChunks) p.targetedIds.card

/-- The snapshots that a recovery restores. -/
def takeSnapshots (p : Prepared) : Code K (List (ChunkRecord K)) := do
  let snapshots ← .collect
    (fun union => outside (ChunkStore.snapshotByParagraphs rt.faults documentId union.paragraphIds)) p.unions
  .whenever ((snapshots.flatten.map ChunkRecord.chunkId).toFinset ≠ p.targetedIds)
    (fail (runtimeError "storage snapshot does not match paragraph mappings"))
  pure snapshots.flatten

/-! ### Steps 3 to 5 -/

/-- Step 3. -/
def deleteOldChunks (p : Prepared) : Code K Unit :=
  .forEach (fun union => do
    let deletion ← outside (ChunkStore.deleteByParagraphs rt.faults documentId union.paragraphIds)
    addCount "weaviate_deleted_match_count" deletion.matched
    addCount "weaviate_deleted_success_count" deletion.successful
    setSample "deleted_chunk_ids" (deletion.deletedIds.map Uuid.str) deletion.successful) p.unions

/-- `_new_chunk_uuid(runtime, unavailable_ids)`. -/
def newChunkUuid (unavailableIds : Finset Uuid) : Code K Uuid := do
  let value ← inject rt rt.uuidFactory
  match Uuid.ofText value with
  | none => fail (valueError "uuid_factory returned an invalid chunk_id")
  | some chunkId =>
      if chunkId ∈ unavailableIds then fail (valueError "uuid_factory returned duplicate chunk_id")
      else pure chunkId

/-- The chunks of one paragraph, and the identifiers that are not available then. -/
def stageChunks : Finset Uuid → List Text → Code K (List (StagedChunk K) × Finset Uuid)
  | unavailableIds, [] => pure ([], unavailableIds)
  | unavailableIds, chunkText :: rest => do
      .whenever (isBlank chunkText) (fail (valueError "paragraph_chunker returned an empty chunk"))
      let chunkId ← newChunkUuid rt unavailableIds
      let (chunks, unavailableIds) ← stageChunks (insert chunkId unavailableIds) rest
      pure (⟨chunkId, chunkText, [], []⟩ :: chunks, unavailableIds)

/-- The paragraphs of one union. -/
def stageParagraphs : Finset Uuid → List Text → Code K (List (ParagraphNode K) × Finset Uuid)
  | unavailableIds, [] => pure ([], unavailableIds)
  | unavailableIds, paragraphText :: rest => do
      let rawChunks ← inject rt fun _ => rt.paragraphChunker paragraphText
      let chunks ← check (validatedProcessorOutput rawChunks paragraphText "paragraph_chunker")
      addCount "chunk_count" chunks.length
      let (staged, unavailableIds) ← stageChunks rt unavailableIds chunks
      let (nodes, unavailableIds) ← stageParagraphs unavailableIds rest
      pure (⟨paragraphText, staged, none⟩ :: nodes, unavailableIds)

/-- Step 4: `staged_by_union`, whose keys are the first paragraphs of the unions. -/
def stageUnions : Finset Uuid → List ParagraphUnion → Code K (List (ℕ × List (ParagraphNode K)))
  | _, [] => pure []
  | unavailableIds, union :: rest => do
      let rawSplitParagraphs ← inject rt fun _ => rt.paragraphSplitter union.currentText
      let splitParagraphs ← check (validatedProcessorOutput rawSplitParagraphs union.currentText "paragraph_splitter")
      addCount "semantic_paragraph_count" splitParagraphs.length
      let (nodes, unavailableIds) ← stageParagraphs rt unavailableIds splitParagraphs
      let stagedByUnion ← stageUnions unavailableIds rest
      pure ((union.paragraphIds.headD 0, nodes) :: stagedByUnion)

/-- `pending_chunks`. -/
def pendingChunks (stagedByUnion : List (ℕ × List (ParagraphNode K))) : List (StagedChunk K) :=
  stagedByUnion.flatMap fun e => e.2.flatMap ParagraphNode.chunks

/-- A staged chunk with its vectors; every staged chunk has some. -/
def withVectors (vectorsById : List (Uuid × List (List K) × List K)) (chunk : StagedChunk K) : StagedChunk K :=
  match vectorsById.lookup chunk.chunkId with
  | some (multiVector, diversityVector) => ⟨chunk.chunkId, chunk.rawText, multiVector, diversityVector⟩
  | none => chunk

/-- Step 5. -/
def embedUnions (stagedByUnion : List (ℕ × List (ParagraphNode K))) : Code K (List (ℕ × List (ParagraphNode K))) := do
  let pending := pendingChunks stagedByUnion
  let (multiVectors, diversityVectors) ← batchVectors rt (pending.map StagedChunk.rawText)
  let vectorsById := (pending.map StagedChunk.chunkId).zip (multiVectors.zip diversityVectors)
  pure (stagedByUnion.map fun e =>
    (e.1, e.2.map fun node => ⟨node.rawText, node.chunks.map (withVectors vectorsById), none⟩))

/-! ### Step 6 -/

/-- The nodes of an old paragraph: those of the union it is the first of, none where another paragraph is the first, or
its own. -/
def nodesOf (p : Prepared) (stagedByUnion : List (ℕ × List (ParagraphNode K))) (old : SavedParagraph) :
    List (ParagraphNode K) :=
  match stagedByUnion.lookup old.paragraphId with
  | some nodes => nodes
  | none =>
      if old.paragraphId ∈ p.unionIds then []
      else [⟨old.text, (p.chunksOf old.paragraphId).map fun c => ⟨c, [], [], []⟩, some old.paragraphId⟩]

/-- `nodes`. -/
def finalNodes (p : Prepared) (stagedByUnion : List (ℕ × List (ParagraphNode K))) : List (ParagraphNode K) :=
  let nodes := p.oldParagraphs.flatMap (nodesOf p stagedByUnion)
  if nodes = [] then [⟨[], [], none⟩] else nodes

/-- `final_paragraph_data`. -/
def finalParagraphData (nodes : List (ParagraphNode K)) : Dict ℕ Text := .numbered (nodes.map ParagraphNode.rawText)

/-- The identifiers of the chunks of a node. -/
def ParagraphNode.chunkIds (node : ParagraphNode K) : List Uuid := node.chunks.map StagedChunk.chunkId

/-- `final_chunk_mappings`. -/
def finalChunkMappings (nodes : List (ParagraphNode K)) : Dict ℕ (List Uuid) := .numbered (nodes.map ParagraphNode.chunkIds)

/-- The updates of one more node. -/
def nodeUpdates (updates : Dict Uuid ℕ) (e : ParagraphNode K × ℕ) : Dict Uuid ℕ :=
  match e.1.oldParagraphId with
  | none => updates
  | some old => if old ≠ e.2 then e.1.chunkIds.foldl (fun d c => d.set c e.2) updates else updates

/-- `unmodified_updates`. -/
def unmodifiedUpdates (nodes : List (ParagraphNode K)) : Dict Uuid ℕ := (nodes.zipIdx 1).foldl nodeUpdates .empty

/-- `new_chunks`. -/
def newChunks (nodes : List (ParagraphNode K)) : List (ℕ × StagedChunk K) :=
  (nodes.zipIdx 1).flatMap fun e => if e.1.oldParagraphId = none then e.1.chunks.map (e.2, ·) else []

/-- Step 6. -/
def renumber (p : Prepared) (stagedByUnion : List (ℕ × List (ParagraphNode K))) : Code K (List (ParagraphNode K)) := do
  let nodes := finalNodes p stagedByUnion
  .whenever ((nodes.map ParagraphNode.rawText).flatten ≠ currentText)
    (fail (runtimeError "renumbered paragraphs do not reconstruct current_text"))
  let w ← .read id
  check (w.paragraphs.validateDocumentReplacement documentId (finalChunkMappings nodes))
  check (w.documents.validateUpdate documentId (finalParagraphData nodes))
  pure nodes

/-- A mapping without the paragraphs of the unions. -/
def outsideUnions (p : Prepared) (mapping : Dict ℕ (List Uuid)) : Dict ℕ (List Uuid) := mapping.filter fun n _ => n ∉ p.unionIds

/-- What is recorded of step 6. -/
def recordRenumbering (p : Prepared) (nodes : List (ParagraphNode K)) : Code K Unit := do
  let finalMappings := finalChunkMappings nodes
  let finalChunkIds := finalMappings.values.flatten.toFinset
  addCount "final_paragraph_count" (finalParagraphData nodes).entries.length
  addCount "final_chunk_count" finalChunkIds.card
  addCount "new_chunk_count" (newChunks nodes).length
  addCount "retained_chunk_count" (finalChunkIds ∩ p.existingChunkIds).card
  addCount "updated_retained_chunk_count" (unmodifiedUpdates nodes).entries.length
  addCount "changed_old_new_intersection_count" (p.targetedIds ∩ finalChunkIds).card
  setFlag "unchanged_ordered_chunk_ids_retained" (outsideUnions p p.oldChunks = outsideUnions p finalMappings)
  setFlag "changed_old_chunk_ids_reused" (p.targetedIds ∩ finalChunkIds ≠ ∅)
  setFlag "changed_new_chunks_nonempty" (newChunks nodes ≠ [])
  setMappingDigest "after_paragraph_mapping" finalMappings
  setSample "final_chunk_ids" (sortedIds finalMappings.values.flatten) finalChunkIds.card

/-! ### Steps 7 and 8 -/

/-- Step 7a. -/
def insertNewChunks (nodes : List (ParagraphNode K)) : Code K Unit :=
  .forEach (fun e => do
    assign fun progress => { progress with attemptedInsertIds := progress.attemptedInsertIds ++ [e.2.chunkId] }
    setFlag "weaviate_mutation_executed" true
    outside (ChunkStore.insertChunk rt.faults documentId e.1 e.2.chunkId e.2.rawText e.2.lateInteraction e.2.mmrDiversity)
    assign fun progress => { progress with insertedIds := progress.insertedIds ++ [e.2.chunkId] }
    addCount "weaviate_insert_count" 1) (newChunks nodes)

/-- Step 7b. -/
def updateRetainedChunks (nodes : List (ParagraphNode K)) : Code K Unit :=
  let updates := unmodifiedUpdates nodes
  .whenever (updates.entries ≠ []) do
    assign fun progress => { progress with attemptedRetainedIds := progress.attemptedRetainedIds ++ updates.keys }
    .tryExcept (do
      setFlag "weaviate_mutation_executed" true
      outside (ChunkStore.updateParagraphIds rt.faults updates.entries)
      assign fun progress => { progress with updatedRetainedIds := progress.updatedRetainedIds ++ updates.keys }
      addCount "weaviate_metadata_update_count" updates.entries.length
      outside (ChunkStore.verifyParagraphIds rt.faults updates.entries)) fun error => do
        match error with
        | .partialUpdate completedChunkIds _ =>
            assign fun progress => { progress with updatedRetainedIds := progress.updatedRetainedIds ++ completedChunkIds }
        | .raised _ => pure ()
        .raise error

/-- Step 8. -/
def commitMaps (nodes : List (ParagraphNode K)) : Code K Unit := do
  commitParagraphs rt (ParagraphMap.replaceDocument documentId (finalChunkMappings nodes))
  commitDocuments rt fun documents => documents.updateParagraphs documentId (finalParagraphData nodes)

/-- Steps 3 to 8, which the handler guards. -/
def saveSteps (p : Prepared) : Code K Unit := do
  stage "step_3"
  deleteOldChunks rt documentId p
  stage "step_4"
  let stagedByUnion ← stageUnions rt p.existingChunkIds p.unions
  let pending := pendingChunks stagedByUnion
  setSample "new_chunk_ids" (pending.map fun c => c.chunkId.str) pending.length
  stage "step_5"
  let stagedByUnion ← embedUnions rt stagedByUnion
  stage "step_6"
  let nodes ← renumber documentId currentText p stagedByUnion
  recordRenumbering p nodes
  stage "step_7a"
  insertNewChunks rt documentId nodes
  stage "step_7b"
  updateRetainedChunks rt nodes
  stage "step_8"
  commitMaps rt documentId nodes

/-! ### Recovery -/

/-- `try: m except Exception as exc: errors.append(exc)`. -/
def attempt {σ ε : Type} (m : Eff σ ε Unit) : Eff σ ε (Option ε) :=
  .tryExcept (do m; pure none) fun error => pure (some error)

/-- `_recover_save`: its errors, and the identifiers left unresolved. -/
def recoverSave [DecidableEq K] (p : Prepared) (deletedSnapshots : List (ChunkRecord K)) :
    Code K (List ChunkError × List Uuid) := do
  let progress ← .read World.progress
  let retained := progress.attemptedRetainedIds
  let oldIds := retained.filterMap fun c => (p.oldParagraphByChunk.get? c).map (c, ·)
  let updating ← if retained = [] then pure none else attempt do
    outside (ChunkStore.updateParagraphIds rt.faults oldIds)
    outside (ChunkStore.verifyParagraphIds rt.faults oldIds)
  let inserted := progress.attemptedInsertIds
  let deleting ← if inserted = [] then pure none else attempt do
    let _ ← outside (ChunkStore.deleteChunks rt.faults inserted)
    pure ()
  let restoring ← if deletedSnapshots = [] then pure none else attempt do
    outside (ChunkStore.restoreChunks rt.faults deletedSnapshots)
  let paragraphs ← attempt (commitParagraphs rt (ParagraphMap.replaceDocument documentId p.oldChunks))
  let documents ← attempt (commitDocuments rt fun documents => documents.restoreDocument documentId p.paragraphData)
  let unresolved := (if updating.isSome then retained else []) ++ (if deleting.isSome then inserted else []) ++
    if restoring.isSome then deletedSnapshots.map ChunkRecord.chunkId else []
  pure ([updating, deleting, restoring, paragraphs, documents].filterMap id, unresolved.dedup)

/-- What a `WizardSaveError` says. -/
structure SaveReport where
  /-- `failed_stage`. -/
  failedStage : String
  /-- `inserted_chunk_ids`. -/
  insertedChunkIds : List Uuid
  /-- `updated_chunk_ids`. -/
  updatedChunkIds : List Uuid
  /-- `affected_chunk_ids`. -/
  affectedChunkIds : List Text

/-- What `save_wizard` raises. -/
inductive SaveError where
  /-- An exception of the first two steps. -/
  | raised (error : ChunkError)
  /-- `WizardSaveError`. -/
  | save (report : SaveReport)
  /-- `WizardSaveRecoveryError`. -/
  | recovery (report : SaveReport) (unresolvedChunkIds : List Uuid) (recoveryErrors : List ChunkError)

/-- The handler of steps 3 to 8. -/
def abandon [DecidableEq K] (p : Prepared) (deletedSnapshots : List (ChunkRecord K)) : Eff (World K) SaveError Unit := do
  let (recoveryErrors, unresolved) ← .mapError .raised (recoverSave rt documentId p deletedSnapshots)
  let progress ← .read World.progress
  let report : SaveReport := ⟨progress.failedStage, progress.insertedIds, progress.updatedRetainedIds,
    deletedSnapshots.map fun record => record.chunkId.str⟩
  if recoveryErrors ≠ [] then .raise (.recovery report unresolved recoveryErrors) else .raise (.save report)

/-- `save_wizard(user_id, document_id, collection_type, current_text, modified_paragraph_ids)`. -/
def saveWizard [DecidableEq K] : Eff (World K) SaveError Unit := do
  let prepared ← .mapError .raised do
    setFlag "save_delete_executed" true
    let prepared ← saveDiff rt documentId currentText modifiedParagraphIds
    match prepared with
    | none => pure none
    | some p => do
        recordDiff p
        pure (some p)
  match prepared with
  | none => pure ()
  | some p => do
      let deletedSnapshots ← .mapError (fun _ => .save ⟨"step_3_snapshot", [], [], sortedIds p.targetedChunks⟩)
        (takeSnapshots rt documentId p)
      .mapError .raised do
        addCount "recovery_snapshot_chunk_count" deletedSnapshots.length
        assign fun _ => ⟨"step_3", [], [], [], []⟩
      .tryExcept (.mapError .raised (saveSteps rt documentId currentText p)) fun _ =>
        abandon rt documentId p deletedSnapshots

end Save

end TenantRag.Save

import TenantRag.Wizard.SavePipeline
import TenantRag.Wizard.UnionAlignment

/-!
# The steps of a save

What each step of a save returns, and what it leaves alone.

## The model

A frame is what every step before the commit keeps: the two maps, and the names of the
trace that the step does not record.

## What is proved

* `returns_stageUnions`, `returns_embedUnions` — the staged nodes belong to the texts of the unions,
  and their chunks are new.
* `keeps_stageUnions`, `keeps_insertNewChunks` and the others — no step before the commit changes a map.
* `saveWizard_completed` — what a save that returns has done to the maps, and what stands in the trace.
-/

namespace TenantRag.Save

variable {K α : Type} {rt : Runtime K} {documentId currentText : Text} {names : List EvidenceKey}

/-! ### Frames -/

/-- The maps are the same, and what is recorded since does not touch the names. -/
structure Frame (names : List EvidenceKey) (w w' : World K) : Prop where
  documents : w'.documents = w.documents
  paragraphs : w'.paragraphs = w.paragraphs
  quiet : ChunkStore.Quiet names w.outside w'.outside

instance : Std.Refl (Frame (K := K) names) := ⟨fun w => ⟨rfl, rfl, Std.Refl.refl w.outside⟩⟩

instance : IsTrans (World K) (Frame names) where
  trans _ _ _ h h' :=
    ⟨h'.documents.trans h.documents, h'.paragraphs.trans h.paragraphs, Trans.trans h.quiet h'.quiet⟩

theorem keeps_outside {m : Eff (Outside K) ChunkError α} (hm : Eff.Keeps (ChunkStore.Quiet names) m) :
    Eff.Keeps (Frame names) (outside m) :=
  hm.zoom fun _ _ h => ⟨rfl, rfl, h⟩

theorem keeps_inject (f : ℕ → α) : Eff.Keeps (Frame names) (inject rt f) := keeps_outside (ChunkStore.keeps_answer _)

theorem keeps_note {c : Call} (h : ∀ k ∈ c.keys, k ∉ names) : Eff.Keeps (Frame (K := K) names) (note c) :=
  keeps_outside (ChunkStore.keeps_note h)

theorem keeps_check {R : World K → World K → Prop} [Std.Refl R] (x : Except PyError α) : Eff.Keeps R (check x) :=
  (Eff.Keeps.ofExcept x).mapError _

theorem keeps_fail {R : World K → World K → Prop} [Std.Refl R] (e : PyError) : Eff.Keeps R (fail e : Code K α) :=
  Eff.Keeps.raise _

theorem keeps_assign (f : Progress → Progress) : Eff.Keeps (Frame (K := K) names) (assign f) :=
  Eff.Keeps.update fun w => ⟨rfl, rfl, Std.Refl.refl w.outside⟩

/-! ### What is staged -/

/-- The chunks belong to their texts, and are new. -/
structure StagedChunks (unavailableIds : Finset Uuid) (texts : List Text) (chunks : List (StagedChunk K)) : Prop where
  rawTexts : chunks.map StagedChunk.rawText = texts
  filled : ∀ t ∈ texts, isBlank t = false
  nodup : (chunks.map StagedChunk.chunkId).Nodup
  new : ∀ c ∈ chunks, c.chunkId ∉ unavailableIds

/-- The node is a new paragraph with the chunks of its text. -/
structure StagedNode (rt : Runtime K) (node : ParagraphNode K) : Prop where
  new : node.oldParagraphId = none
  chunked : rt.paragraphChunker node.rawText = some (node.chunks.map StagedChunk.rawText)
  lossless : (node.chunks.map StagedChunk.rawText).flatten = node.rawText
  filled : ∀ c ∈ node.chunks, isBlank c.rawText = false

/-- The nodes are the paragraphs of a text. -/
structure StagedNodes (rt : Runtime K) (text : Text) (nodes : List (ParagraphNode K)) : Prop where
  split : rt.paragraphSplitter text = some (nodes.map ParagraphNode.rawText)
  lossless : (nodes.map ParagraphNode.rawText).flatten = text
  staged : ∀ node ∈ nodes, StagedNode rt node

/-- What is staged of the unions: the nodes of each under its first paragraph, with chunks that are new. -/
structure StagedUnions (rt : Runtime K) (unavailableIds : Finset Uuid) (unions : List ParagraphUnion)
    (staged : List (ℕ × List (ParagraphNode K))) : Prop where
  nodes : List.Forall₂ (fun u e => e.1 = u.paragraphIds.headD 0 ∧ StagedNodes rt u.currentText e.2) unions staged
  nodup : ((pendingChunks staged).map StagedChunk.chunkId).Nodup
  new : ∀ c ∈ pendingChunks staged, c.chunkId ∉ unavailableIds

theorem returns_outside {P : α → Prop} {m : Eff (Outside K) ChunkError α} (hm : Eff.Returns P m) :
    Eff.Returns P (outside m) :=
  hm.zoom

theorem returns_check {P : α → Prop} {x : Except PyError α} (h : ∀ a, x = .ok a → P a) :
    Eff.Returns P (check x : Code K α) :=
  (Eff.Returns.ofExcept h).mapError _

/-- An injected function answers what it answers to some call. -/
theorem returns_inject (f : ℕ → α) : Eff.Returns (fun a => ∃ n, a = f n) (inject rt f) := by
  refine returns_outside fun o => ?_
  rw [Eff.wp, ChunkStore.answer]
  cases rt.faults o.calls with
  | none => exact ⟨o.calls, rfl⟩
  | some fault => trivial

theorem validatedProcessorOutput_ok {value : Option (List Text)} {source : Text} {name : String} {pieces : List Text}
    (h : validatedProcessorOutput value source name = .ok pieces) : value = some pieces ∧ pieces.flatten = source := by
  cases value with
  | none => cases h
  | some given =>
    rw [validatedProcessorOutput] at h
    split_ifs at h with hsame
    cases h
    exact ⟨rfl, not_not.mp hsame⟩

theorem returns_newChunkUuid (unavailableIds : Finset Uuid) :
    Eff.Returns (· ∉ unavailableIds) (newChunkUuid rt unavailableIds) := by
  refine Eff.Returns.bind_any fun value => ?_
  split
  · exact Eff.Returns.raise _
  · split_ifs with hmem
    · exact Eff.Returns.raise _
    · exact Eff.Returns.pure hmem

theorem returns_stageChunks (texts : List Text) (unavailableIds : Finset Uuid) :
    Eff.Returns (fun r => StagedChunks unavailableIds texts r.1 ∧
      r.2 = unavailableIds ∪ (r.1.map StagedChunk.chunkId).toFinset) (stageChunks rt unavailableIds texts) := by
  induction texts generalizing unavailableIds with
  | nil => exact Eff.Returns.pure ⟨⟨rfl, by simp, by simp, by simp⟩, by simp⟩
  | cons t texts ih =>
    rw [stageChunks]
    refine Eff.Returns.bind_whenever fun hblank => ?_
    refine Eff.Returns.bind (returns_newChunkUuid unavailableIds) fun c hc => ?_
    refine Eff.Returns.bind (ih (insert c unavailableIds)) fun r hr => ?_
    obtain ⟨hchunks, hids⟩ := hr
    refine Eff.Returns.pure ⟨⟨by simp [hchunks.rawTexts], ?_, ?_, ?_⟩, ?_⟩
    · exact List.forall_mem_cons.mpr ⟨hblank, hchunks.filled⟩
    · rw [List.map_cons, List.nodup_cons]
      refine ⟨fun hmem => ?_, hchunks.nodup⟩
      obtain ⟨d, hd, hdc⟩ := List.mem_map.mp hmem
      exact hchunks.new d hd (hdc ▸ Finset.mem_insert_self _ _)
    · refine List.forall_mem_cons.mpr ⟨hc, fun d hd hmem => ?_⟩
      exact hchunks.new d hd (Finset.mem_insert_of_mem hmem)
    · rw [hids, List.map_cons, List.toFinset_cons]
      ext d
      simp only [Finset.mem_union, Finset.mem_insert]
      tauto

/-- The nodes of some texts, each with its chunks, which are new. -/
structure StagedParagraphs (rt : Runtime K) (unavailableIds : Finset Uuid) (texts : List Text)
    (nodes : List (ParagraphNode K)) : Prop where
  rawTexts : nodes.map ParagraphNode.rawText = texts
  staged : ∀ node ∈ nodes, StagedNode rt node
  nodup : ((nodes.flatMap ParagraphNode.chunks).map StagedChunk.chunkId).Nodup
  new : ∀ c ∈ nodes.flatMap ParagraphNode.chunks, c.chunkId ∉ unavailableIds

/-- Chunks that are new, behind chunks that were taken, are new together. -/
theorem nodup_append_chunks {unavailableIds : Finset Uuid} {first rest : List (StagedChunk K)}
    (hfirst : (first.map StagedChunk.chunkId).Nodup) (hrest : (rest.map StagedChunk.chunkId).Nodup)
    (hnew : ∀ c ∈ rest, c.chunkId ∉ unavailableIds ∪ (first.map StagedChunk.chunkId).toFinset) :
    ((first ++ rest).map StagedChunk.chunkId).Nodup := by
  rw [List.map_append, List.nodup_append]
  refine ⟨hfirst, hrest, ?_⟩
  rintro c hc d hd rfl
  obtain ⟨e, he, rfl⟩ := List.mem_map.mp hd
  exact hnew e he (Finset.mem_union_right _ (List.mem_toFinset.mpr hc))

theorem returns_stageParagraphs (texts : List Text) (unavailableIds : Finset Uuid) :
    Eff.Returns (fun r => StagedParagraphs rt unavailableIds texts r.1 ∧
      r.2 = unavailableIds ∪ ((r.1.flatMap ParagraphNode.chunks).map StagedChunk.chunkId).toFinset)
      (stageParagraphs rt unavailableIds texts) := by
  induction texts generalizing unavailableIds with
  | nil => exact Eff.Returns.pure ⟨⟨rfl, by simp, by simp, by simp⟩, by simp⟩
  | cons t texts ih =>
    rw [stageParagraphs]
    refine Eff.Returns.bind (returns_inject _) fun raw hraw => ?_
    obtain ⟨-, rfl⟩ := hraw
    refine Eff.Returns.bind (returns_check fun chunks h => h) fun pieces hpieces => ?_
    obtain ⟨hchunker, hflatten⟩ := validatedProcessorOutput_ok hpieces
    refine Eff.Returns.bind_any fun _ => ?_
    refine Eff.Returns.bind (returns_stageChunks pieces unavailableIds) fun staged hstaged => ?_
    obtain ⟨chunks, taken⟩ := staged
    obtain ⟨hchunks, htaken⟩ := hstaged
    refine Eff.Returns.bind (ih taken) fun rest hrest => ?_
    obtain ⟨nodes, taken'⟩ := rest
    obtain ⟨hnodes, htaken'⟩ := hrest
    dsimp only at htaken htaken' hchunks hnodes
    subst htaken htaken'
    refine Eff.Returns.pure ⟨⟨by simp [hnodes.rawTexts], ?_, ?_, ?_⟩, ?_⟩
    · refine List.forall_mem_cons.mpr ⟨⟨rfl, ?_, ?_, fun c hc => hchunks.filled _ ?_⟩, hnodes.staged⟩
      · rw [hchunks.rawTexts, hchunker]
      · rw [hchunks.rawTexts, hflatten]
      · rw [← hchunks.rawTexts]
        exact List.mem_map_of_mem hc
    · exact nodup_append_chunks hchunks.nodup hnodes.nodup hnodes.new
    · intro c hc
      rcases List.mem_append.mp hc with hc | hc
      · exact hchunks.new c hc
      · exact fun hmem => hnodes.new c hc (Finset.mem_union_left _ hmem)
    · simp [Finset.union_assoc]

/-- Step 4 stages the nodes of the unions, with chunks that are new. -/
theorem returns_stageUnions (unions : List ParagraphUnion) (unavailableIds : Finset Uuid) :
    Eff.Returns (StagedUnions rt unavailableIds unions) (stageUnions rt unavailableIds unions) := by
  induction unions generalizing unavailableIds with
  | nil => exact Eff.Returns.pure ⟨.nil, by simp [pendingChunks], by simp [pendingChunks]⟩
  | cons u unions ih =>
    rw [stageUnions]
    refine Eff.Returns.bind (returns_inject _) fun raw hraw => ?_
    obtain ⟨-, rfl⟩ := hraw
    refine Eff.Returns.bind (returns_check fun pieces h => h) fun pieces hpieces => ?_
    obtain ⟨hsplitter, hflatten⟩ := validatedProcessorOutput_ok hpieces
    refine Eff.Returns.bind_any fun _ => ?_
    refine Eff.Returns.bind (returns_stageParagraphs pieces unavailableIds) fun staged hstaged => ?_
    obtain ⟨nodes, taken⟩ := staged
    obtain ⟨hnodes, htaken⟩ := hstaged
    dsimp only at htaken hnodes
    subst htaken
    refine Eff.Returns.bind (ih _) fun rest hrest => Eff.Returns.pure ⟨?_, ?_, ?_⟩
    · refine .cons ⟨rfl, ?_, ?_, hnodes.staged⟩ hrest.nodes
      · rw [hnodes.rawTexts, hsplitter]
      · rw [hnodes.rawTexts, hflatten]
    · exact nodup_append_chunks hnodes.nodup hrest.nodup hrest.new
    · intro c hc
      rcases List.mem_append.mp hc with hc | hc
      · exact hnodes.new c hc
      · exact fun hmem => hrest.new c hc (Finset.mem_union_left _ hmem)

@[simp] theorem chunkId_withVectors (v : List (Uuid × List (List K) × List K)) (c : StagedChunk K) :
    (withVectors v c).chunkId = c.chunkId := by
  rw [withVectors]
  split <;> rfl

@[simp] theorem rawText_withVectors (v : List (Uuid × List (List K) × List K)) (c : StagedChunk K) :
    (withVectors v c).rawText = c.rawText := by
  rw [withVectors]
  split <;> rfl

/-- A node whose chunks got their vectors. -/
def vectored (v : List (Uuid × List (List K) × List K)) (node : ParagraphNode K) : ParagraphNode K :=
  ⟨node.rawText, node.chunks.map (withVectors v), none⟩

theorem texts_vectored (v : List (Uuid × List (List K) × List K)) (node : ParagraphNode K) :
    (vectored v node).chunks.map StagedChunk.rawText = node.chunks.map StagedChunk.rawText := by
  simp [vectored, Function.comp_def]

theorem StagedNode.vectored {node : ParagraphNode K} (h : StagedNode rt node) (v : List (Uuid × List (List K) × List K)) :
    StagedNode rt (vectored v node) := by
  refine ⟨rfl, ?_, ?_, fun c hc => ?_⟩
  · rw [texts_vectored]
    exact h.chunked
  · rw [texts_vectored]
    exact h.lossless
  · obtain ⟨d, hd, rfl⟩ := List.mem_map.mp hc
    rw [rawText_withVectors]
    exact h.filled d hd

theorem StagedNodes.vectored {text : Text} {nodes : List (ParagraphNode K)} (h : StagedNodes rt text nodes)
    (v : List (Uuid × List (List K) × List K)) : StagedNodes rt text (nodes.map (vectored v)) := by
  have htexts : (nodes.map (Save.vectored v)).map ParagraphNode.rawText = nodes.map ParagraphNode.rawText := by
    rw [List.map_map]
    rfl
  refine ⟨by rw [htexts, h.split], by rw [htexts, h.lossless], fun node hnode => ?_⟩
  obtain ⟨old, hold, rfl⟩ := List.mem_map.mp hnode
  exact (h.staged old hold).vectored v

/-- Step 5 gives the chunks their vectors, and changes nothing else. -/
theorem returns_embedUnions {unavailableIds : Finset Uuid} {unions : List ParagraphUnion}
    {staged : List (ℕ × List (ParagraphNode K))} (h : StagedUnions rt unavailableIds unions staged) :
    Eff.Returns (StagedUnions rt unavailableIds unions) (embedUnions rt staged) := by
  refine Eff.Returns.bind_any fun vectors => Eff.Returns.pure ?_
  set v := ((pendingChunks staged).map StagedChunk.chunkId).zip (vectors.1.zip vectors.2)
  change StagedUnions rt unavailableIds unions (staged.map fun e => (e.1, e.2.map (vectored v)))
  have hpending : pendingChunks (staged.map fun e => (e.1, e.2.map (vectored v))) =
      (pendingChunks staged).map (withVectors v) := by
    simp only [pendingChunks, List.flatMap_map, List.map_flatMap, vectored]
  refine ⟨?_, ?_, ?_⟩
  · rw [List.forall₂_map_right_iff]
    exact h.nodes.imp fun u e he => ⟨he.1, he.2.vectored v⟩
  · rw [hpending, List.map_map]
    simpa only [Function.comp_def, chunkId_withVectors] using h.nodup
  · rw [hpending]
    intro c hc
    obtain ⟨d, hd, rfl⟩ := List.mem_map.mp hc
    rw [chunkId_withVectors]
    exact h.new d hd

/-! ### What the steps leave alone -/

section Quiet

/-- The names that the steps of a save record before and after the renumbering. -/
def stepNames : List EvidenceKey :=
  [.flag (lit "save_delete_executed"), .flag (lit "save_noop"), .count (lit "saved_paragraph_count"),
    .count (lit "hinted_modified_paragraph_count"), .count (lit "modified_union_count"),
    .digest (lit "before_paragraph_mapping"), .sample (lit "before_chunk_ids"), .sample (lit "modified_paragraph_ids"),
    .count (lit "targeted_old_chunk_count"), .sample (lit "targeted_old_chunk_ids"),
    .count (lit "recovery_snapshot_chunk_count"), .count (lit "weaviate_deleted_match_count"), .count (lit "weaviate_deleted_success_count"),
    .sample (lit "deleted_chunk_ids"), .count (lit "semantic_paragraph_count"), .count (lit "chunk_count"),
    .sample (lit "new_chunk_ids"), .flag (lit "lateon_executed"), .count (lit "lateon_document_count"),
    .count (lit "lateon_total_rows"), .count (lit "lateon_min_rows"), .count (lit "lateon_max_rows"),
    .count (lit "lateon_dimension"), .flag (lit "lateon_values_finite"), .flag (lit "gte_executed"),
    .count (lit "gte_vector_count"), .count (lit "gte_dimension"), .flag (lit "gte_values_finite"),
    .flag (lit "weaviate_mutation_executed"), .count (lit "weaviate_insert_count"),
    .count (lit "weaviate_metadata_update_count")] ++ ChunkStore.deletionNames

theorem keeps_noteOf (h : ∀ k ∈ stepNames, k ∉ names) {c : Call} {k : EvidenceKey} (hkeys : c.keys = [k])
    (hk : k ∈ stepNames) : Eff.Keeps (Frame (K := K) names) (note c) := by
  refine keeps_note fun j hj => ?_
  rw [hkeys, List.mem_singleton] at hj
  exact hj ▸ h k hk

section Passive

/-- The relation does not see the injected functions called, nor the names of the steps recorded. -/
structure Passive (rt : Runtime K) (R : World K → World K → Prop) : Prop where
  inject : ∀ {β : Type} (f : ℕ → β), Eff.Keeps R (inject rt f)
  note : ∀ {c : Call} {k : EvidenceKey}, c.keys = [k] → k ∈ stepNames → Eff.Keeps R (note c)

theorem passive_frame (h : ∀ k ∈ stepNames, k ∉ names) : Passive rt (Frame names) :=
  ⟨keeps_inject, fun hkeys hk => keeps_noteOf h hkeys hk⟩

variable {R : World K → World K → Prop} [Std.Refl R] [IsTrans (World K) R] (hR : Passive rt R)
include hR

omit [Std.Refl R] in
theorem keeps_recordDiff (p : Prepared) : Eff.Keeps R (recordDiff p) := by
  refine (hR.note rfl (by decide)).bind fun _ => (hR.note rfl (by decide)).bind fun _ => ?_
  refine (hR.note rfl (by decide)).bind fun _ => (hR.note rfl (by decide)).bind fun _ => ?_
  refine (hR.note rfl (by decide)).bind fun _ => (hR.note rfl (by decide)).bind fun _ => ?_
  exact (hR.note rfl (by decide)).bind fun _ => hR.note rfl (by decide)

theorem keeps_newChunkUuid (unavailableIds : Finset Uuid) : Eff.Keeps R (newChunkUuid rt unavailableIds) := by
  refine (hR.inject _).bind fun value => ?_
  split
  · exact Eff.Keeps.raise _
  · exact Eff.Keeps.ite (Eff.Keeps.raise _) (Eff.Keeps.pure _)

theorem keeps_stageChunks (texts : List Text) (unavailableIds : Finset Uuid) :
    Eff.Keeps R (stageChunks rt unavailableIds texts) := by
  induction texts generalizing unavailableIds with
  | nil => exact Eff.Keeps.pure _
  | cons t texts ih =>
    rw [stageChunks]
    refine (keeps_fail _).whenever.bind fun _ => (keeps_newChunkUuid hR _).bind fun c => ?_
    exact (ih _).bind fun r => Eff.Keeps.pure _

theorem keeps_stageParagraphs (texts : List Text) (unavailableIds : Finset Uuid) :
    Eff.Keeps R (stageParagraphs rt unavailableIds texts) := by
  induction texts generalizing unavailableIds with
  | nil => exact Eff.Keeps.pure _
  | cons t texts ih =>
    rw [stageParagraphs]
    refine (hR.inject _).bind fun raw => (keeps_check _).bind fun chunks => ?_
    refine (hR.note rfl (by decide)).bind fun _ => (keeps_stageChunks hR _ _).bind fun staged => ?_
    exact (ih _).bind fun r => Eff.Keeps.pure _

theorem keeps_stageUnions (unions : List ParagraphUnion) (unavailableIds : Finset Uuid) :
    Eff.Keeps R (stageUnions rt unavailableIds unions) := by
  induction unions generalizing unavailableIds with
  | nil => exact Eff.Keeps.pure _
  | cons u unions ih =>
    rw [stageUnions]
    refine (hR.inject _).bind fun raw => (keeps_check _).bind fun pieces => ?_
    refine (hR.note rfl (by decide)).bind fun _ => (keeps_stageParagraphs hR _ _).bind fun staged => ?_
    exact (ih _).bind fun r => Eff.Keeps.pure _

theorem keeps_batchVectors (texts : List Text) : Eff.Keeps R (batchVectors rt texts) := by
  rw [batchVectors]
  refine Eff.Keeps.ite (Eff.Keeps.pure _) ((hR.inject _).bind fun raw => ?_)
  refine (hR.note rfl (by decide)).bind fun _ => (hR.note rfl (by decide)).bind fun _ => ?_
  cases raw with
  | none => exact Eff.Keeps.raise _
  | some raw =>
    refine (keeps_fail _).whenever.bind fun _ => (keeps_check _).bind fun multiVectors => ?_
    refine (hR.note rfl (by decide)).bind fun _ => (hR.note rfl (by decide)).bind fun _ => ?_
    refine (hR.note rfl (by decide)).bind fun _ => (hR.note rfl (by decide)).bind fun _ => ?_
    refine (hR.note rfl (by decide)).bind fun _ => (keeps_fail _).whenever.bind fun _ => ?_
    refine (hR.inject _).bind fun rawDiversity => ?_
    refine (hR.note rfl (by decide)).bind fun _ => (hR.note rfl (by decide)).bind fun _ => ?_
    cases rawDiversity with
    | none => exact Eff.Keeps.raise _
    | some rawDiversity =>
      refine (keeps_fail _).whenever.bind fun _ => (keeps_check _).bind fun diversityVectors => ?_
      refine (keeps_fail _).whenever.bind fun _ => (hR.note rfl (by decide)).bind fun _ => ?_
      exact (hR.note rfl (by decide)).bind fun _ => Eff.Keeps.pure _

theorem keeps_embedUnions (staged : List (ℕ × List (ParagraphNode K))) : Eff.Keeps R (embedUnions rt staged) :=
  (keeps_batchVectors hR _).bind fun _ => Eff.Keeps.pure _

end Passive

theorem keeps_takeSnapshots (p : Prepared) : Eff.Keeps (Frame (K := K) names) (takeSnapshots rt documentId p) := by
  refine Eff.Keeps.bind (Eff.Keeps.collect fun u _ => ?_) fun snapshots => ?_
  · exact keeps_outside (ChunkStore.keeps_snapshotByParagraphs _ _)
  · exact (keeps_fail _).whenever.bind fun _ => Eff.Keeps.pure _

variable (h : ∀ k ∈ stepNames, k ∉ names)
include h

theorem keeps_deleteOldChunks (p : Prepared) : Eff.Keeps (Frame (K := K) names) (deleteOldChunks rt documentId p) := by
  have hdeletion : ∀ k ∈ ChunkStore.deletionNames, k ∉ names := fun k hk => h k (List.mem_append_right _ hk)
  refine Eff.Keeps.forEach fun u _ => ?_
  refine (keeps_outside (ChunkStore.keeps_deleteByParagraphs hdeletion _ _)).bind fun deletion => ?_
  refine (keeps_noteOf h rfl (by decide)).bind fun _ => (keeps_noteOf h rfl (by decide)).bind fun _ => ?_
  exact keeps_noteOf h rfl (by decide)

theorem keeps_insertNewChunks (nodes : List (ParagraphNode K)) :
    Eff.Keeps (Frame names) (insertNewChunks rt documentId nodes) := by
  refine Eff.Keeps.forEach fun e _ => (keeps_assign _).bind fun _ => (keeps_noteOf h rfl (by decide)).bind fun _ => ?_
  refine (keeps_outside (ChunkStore.keeps_insertChunk _ _ _ _ _ _)).bind fun _ => (keeps_assign _).bind fun _ => ?_
  exact keeps_noteOf h rfl (by decide)

theorem keeps_updateRetainedChunks (nodes : List (ParagraphNode K)) :
    Eff.Keeps (Frame names) (updateRetainedChunks rt nodes) := by
  refine Eff.Keeps.whenever ((keeps_assign _).bind fun _ => Eff.Keeps.tryExcept ?_ fun error => ?_)
  · refine (keeps_noteOf h rfl (by decide)).bind fun _ => ?_
    refine (keeps_outside (ChunkStore.keeps_updateParagraphIds _)).bind fun _ => (keeps_assign _).bind fun _ => ?_
    refine (keeps_noteOf h rfl (by decide)).bind fun _ => keeps_outside (ChunkStore.keeps_verifyParagraphIds _)
  · cases error with
    | raised e => exact (Eff.Keeps.pure _).bind fun _ => Eff.Keeps.raise _
    | partialUpdate completed failed => exact (keeps_assign _).bind fun _ => Eff.Keeps.raise _

end Quiet

/-! ### A save that returns -/

/-- The two maps have the same paragraphs of a document, numbered from one on. -/
structure Agree (w : World K) (document : Uuid) (data : Dict ℕ Text) (chunks : Dict ℕ (List Uuid)) : Prop where
  saved : w.documents.documents.get? document = some data
  documentChunks : w.paragraphs.documentChunks document = chunks
  keys : data.keys = List.range' 1 data.keys.length
  same : chunks.keys = data.keys
  owned : w.paragraphs.Owned

/-- The unions of an edit: those the hints and the alignment give. -/
def editUnions (rt : Runtime K) (data : Dict ℕ Text) (currentText : Text) (modifiedParagraphIds : Option (List ℤ)) :
    Except PyError (List ParagraphUnion) := do
  let hintedIds ← validatedModifiedIds modifiedParagraphIds ((savedParagraphs data).map SavedParagraph.paragraphId)
  alignUnions rt.getOpcodes (savedParagraphs data) currentText hintedIds

/-- What the first steps find. -/
structure Found (rt : Runtime K) (data : Dict ℕ Text) (chunks : Dict ℕ (List Uuid)) (currentText : Text)
    (modifiedParagraphIds : Option (List ℤ)) (p : Prepared) : Prop where
  paragraphData : p.paragraphData = data
  oldChunks : p.oldChunks = chunks
  unions : editUnions rt data currentText modifiedParagraphIds = .ok p.unions

section Completed

variable {w : World K} {document : Uuid} {data : Dict ℕ Text} {chunks : Dict ℕ (List Uuid)}
  {modifiedParagraphIds : Option (List ℤ)} {p : Prepared}

theorem texts_savedParagraphs (data : Dict ℕ Text) :
    ((savedParagraphs data).map SavedParagraph.text).flatten = data.values.flatten := by
  rw [savedParagraphs, map_texts_savedFrom, Dict.values]

theorem wp_check {Q : α → World K → Prop} {E : ChunkError → World K → Prop} {x : Except PyError α} :
    Eff.wp (check x) Q E w ↔ (∀ a, x = .ok a → Q a w) ∧ ∀ e, x = .error e → E (.raised e) w := by
  rw [check, Eff.wp_mapError, Eff.wp_ofExcept]

theorem wp_saveDiff (hsaved : w.documents.documents.get? document = some data)
    (hlists : w.paragraphs.documentChunks document = chunks) (hid : requiredUuid documentId "document_id" = .ok document)
    (hnames : ∀ k ∈ stepNames, k ∉ names) :
    Eff.wp (saveDiff rt documentId currentText modifiedParagraphIds)
      (fun r w' => Frame names w w' ∧
        ((r = none ∧ currentText = data.values.flatten) ∨
          ∃ p, r = some p ∧ Found rt data chunks currentText modifiedParagraphIds p)) (fun _ _ => True) w := by
  rw [saveDiff, Eff.wp_bind, Eff.wp_read, Eff.wp_bind, wp_check]
  refine ⟨fun given hgiven => ?_, fun _ _ => trivial⟩
  have hdata : given = data := by
    simp only [id, DocumentMap.getParagraphData, hid, bind, Except.bind, hsaved, Except.ok.injEq] at hgiven
    exact hgiven.symm
  subst hdata
  rw [Eff.wp_bind, wp_check]
  refine ⟨fun hintedIds hhinted => ?_, fun _ _ => trivial⟩
  rw [texts_savedParagraphs, Eff.wp_ite]
  constructor
  · intro hsame
    rw [Eff.wp_bind]
    refine Eff.wp_mono (keeps_noteOf hnames rfl (by decide) w) (fun _ w' hframe => ?_) fun _ _ _ => trivial
    exact ⟨hframe, .inl ⟨rfl, hsame⟩⟩
  · intro _
    rw [Eff.wp_bind, wp_check]
    refine ⟨fun unions hunions => ?_, fun _ _ => trivial⟩
    rw [Eff.wp_bind, wp_check]
    refine ⟨fun old hold => ?_, fun _ _ => trivial⟩
    refine ⟨Std.Refl.refl w, .inr ⟨_, rfl, rfl, ?_, ?_⟩⟩
    · simp only [id, ParagraphMap.getDocumentChunks, hid, bind, Except.bind, Except.ok.injEq] at hold
      rw [← hold, hlists]
    · rw [editUnions, hhinted]
      exact hunions

/-- The nodes are never none. -/
theorem finalNodes_ne_nil (p : Prepared) (staged : List (ℕ × List (ParagraphNode K))) : finalNodes p staged ≠ [] := by
  rw [finalNodes]
  split_ifs with hnil
  · exact List.cons_ne_nil _ _
  · exact hnil

/-- What step 6 checks of the nodes. -/
structure Renumbered (m : ParagraphMap) (document : Uuid) (currentText : Text) (nodes : List (ParagraphNode K)) : Prop where
  lossless : (nodes.map ParagraphNode.rawText).flatten = currentText
  replacement : ParagraphMap.Replacement m document (finalChunkMappings nodes)
  accepted : m.validatedDocumentReplacement document (finalChunkMappings nodes) = .ok (finalChunkMappings nodes)

theorem wp_renumber (hid : requiredUuid documentId "document_id" = .ok document)
    (staged : List (ℕ × List (ParagraphNode K))) :
    Eff.wp (renumber documentId currentText p staged)
      (fun nodes w' => w' = w ∧ nodes = finalNodes p staged ∧ Renumbered w.paragraphs document currentText nodes)
      (fun _ _ => True) w := by
  rw [renumber, Eff.wp_bind, Eff.wp_whenever]
  refine ⟨fun _ => trivial, fun hsame => ?_⟩
  rw [decide_eq_false_iff_not, not_not] at hsame
  rw [Eff.wp_bind, Eff.wp_read, Eff.wp_bind, wp_check]
  refine ⟨fun _ hvalid => ?_, fun _ _ => trivial⟩
  rw [Eff.wp_bind, wp_check]
  refine ⟨fun _ _ => ⟨rfl, rfl, ?_⟩, fun _ _ => trivial⟩
  simp only [id, ParagraphMap.validateDocumentReplacement, hid, bind, Except.bind] at hvalid
  obtain ⟨validated, hvalidated, -⟩ := bind_eq_ok_iff.mp hvalid
  obtain ⟨hreplacement, hsorted⟩ := ParagraphMap.validated_spec hvalidated
  have hkeys := Dict.keys_numbered ((finalNodes p staged).map ParagraphNode.chunkIds)
  have hascending : (finalChunkMappings (finalNodes p staged)).keys.Pairwise (· < ·) := by
    rw [finalChunkMappings, hkeys]
    exact List.pairwise_lt_range'
  have hsame' : validated = finalChunkMappings (finalNodes p staged) := by
    rw [hsorted, Dict.sorted_eq_self hascending]
    rw [finalChunkMappings, hkeys, ne_eq, List.range'_eq_nil_iff, List.length_map, List.length_eq_zero_iff]
    exact finalNodes_ne_nil p staged
  rw [hsame'] at hreplacement hvalidated
  exact ⟨hsame, hreplacement, hvalidated⟩

/-- What step 8 does to the maps. -/
structure Committed (w w' : World K) (document : Uuid) (nodes : List (ParagraphNode K)) : Prop where
  documents : w'.documents.documents = w.documents.documents.set document (finalParagraphData nodes)
  paragraphs : ∀ j, w'.paragraphs.paragraphs.get? j =
    if j.1 = document then (finalChunkMappings nodes).get? j.2 else w.paragraphs.paragraphs.get? j
  owned : w'.paragraphs.Owned
  trace : w'.outside.trace = w.outside.trace
  chunks : w'.outside.chunks = w.outside.chunks

theorem validatedReplacement_finalParagraphData {nodes : List (ParagraphNode K)} (hne : nodes ≠ []) :
    DocumentMap.validatedReplacement (finalParagraphData nodes) = .ok (finalParagraphData nodes) := by
  have hkeys := Dict.keys_numbered (nodes.map ParagraphNode.rawText)
  refine DocumentMap.validatedReplacement_ok ?_ ?_
  · rw [finalParagraphData, hkeys, List.length_range']
  · rw [finalParagraphData, hkeys, ne_eq, List.range'_eq_nil_iff, List.length_map, List.length_eq_zero_iff]
    exact hne

theorem wp_commitMaps (hid : requiredUuid documentId "document_id" = .ok document) (howned : w.paragraphs.Owned)
    {nodes : List (ParagraphNode K)} (hne : nodes ≠ []) (hnodes : Renumbered w.paragraphs document currentText nodes) :
    Eff.wp (commitMaps rt documentId nodes) (fun _ w' => Committed w w' document nodes) (fun _ _ => True) w := by
  obtain ⟨m, hrun, howned', hget⟩ := howned.replaceDocument hid hnodes.accepted
  have hdocuments : ∀ d : DocumentMap, ∀ d', d.updateParagraphs documentId (finalParagraphData nodes) = .ok d' →
      d'.documents = d.documents.set document (finalParagraphData nodes) := by
    intro d d' hd
    simp only [DocumentMap.updateParagraphs, hid, bind, Except.bind, validatedReplacement_finalParagraphData hne] at hd
    split_ifs at hd
    cases hd
    rfl
  rw [commitMaps, Eff.wp_bind]
  rw [Eff.wp, commitParagraphs, hrun]
  cases rt.faults w.outside.calls with
  | some fault => trivial
  | none =>
    dsimp only
    rw [Eff.wp, commitDocuments]
    dsimp only
    cases hfault : rt.faults (w.outside.calls + 1) with
    | some fault => cases w.documents.updateParagraphs documentId (finalParagraphData nodes) <;> trivial
    | none =>
      cases hd : w.documents.updateParagraphs documentId (finalParagraphData nodes) with
      | error e => trivial
      | ok d => exact ⟨hdocuments _ _ hd, hget, howned', rfl, rfl⟩

/-- What is recorded of step 6. -/
def renumberingCalls (p : Prepared) (nodes : List (ParagraphNode K)) : List Call :=
  let finalMappings := finalChunkMappings nodes
  let finalChunkIds := finalMappings.values.flatten.toFinset
  [.addCount (lit "final_paragraph_count") (finalParagraphData nodes).entries.length,
    .addCount (lit "final_chunk_count") finalChunkIds.card,
    .addCount (lit "new_chunk_count") (newChunks nodes).length,
    .addCount (lit "retained_chunk_count") (finalChunkIds ∩ p.existingChunkIds).card,
    .addCount (lit "updated_retained_chunk_count") (unmodifiedUpdates nodes).entries.length,
    .addCount (lit "changed_old_new_intersection_count") (p.targetedIds ∩ finalChunkIds).card,
    .setFlag (lit "unchanged_ordered_chunk_ids_retained") (outsideUnions p p.oldChunks = outsideUnions p finalMappings),
    .setFlag (lit "changed_old_chunk_ids_reused") (p.targetedIds ∩ finalChunkIds ≠ ∅),
    .setFlag (lit "changed_new_chunks_nonempty") (newChunks nodes ≠ []),
    .setFramedDigest (lit "after_paragraph_mapping") (lit "wizard-diagnostic-mapping-v1") (.ok (mappingParts finalMappings)),
    .setSample (lit "final_chunk_ids") (.ok (sortedIds finalMappings.values.flatten)) (some finalChunkIds.card)]

theorem wp_note {Q : Unit → World K → Prop} {E : ChunkError → World K → Prop} {c : Call} :
    Eff.wp (note c) Q E w ↔ Q () { w with outside := { w.outside with trace := w.outside.trace ++ [c] } } := by
  rw [note, outside, Eff.wp_zoom, ChunkStore.note, Eff.wp_update]

theorem wp_recordRenumbering {E : ChunkError → World K → Prop} (p : Prepared) (nodes : List (ParagraphNode K)) :
    Eff.wp (recordRenumbering p nodes)
      (fun _ w' => w' = { w with outside := { w.outside with trace := w.outside.trace ++ renumberingCalls p nodes } }) E w := by
  simp only [recordRenumbering, addCount, setFlag, setMappingDigest, setSample, Eff.wp_bind, wp_note, renumberingCalls,
    List.append_assoc, List.cons_append, List.nil_append]

/-- The calls touch none of the names. -/
def Silent (names : List EvidenceKey) (calls : List Call) : Prop := ∀ c ∈ calls, ∀ k ∈ c.keys, k ∉ names

/-- What a save that returns has done. -/
structure Completed (rt : Runtime K) (names : List EvidenceKey) (w w' : World K) (document : Uuid) (currentText : Text)
    (p : Prepared) (nodes : List (ParagraphNode K)) : Prop where
  staged : ∃ staged, StagedUnions rt p.existingChunkIds p.unions staged ∧ nodes = finalNodes p staged
  renumbered : Renumbered w.paragraphs document currentText nodes
  documents : w'.documents.documents = w.documents.documents.set document (finalParagraphData nodes)
  paragraphs : ∀ j, w'.paragraphs.paragraphs.get? j =
    if j.1 = document then (finalChunkMappings nodes).get? j.2 else w.paragraphs.paragraphs.get? j
  owned : w'.paragraphs.Owned
  trace : ∃ before behind, w'.outside.trace = w.outside.trace ++ (before ++ renumberingCalls p nodes ++ behind) ∧
    Silent names before ∧ Silent names behind

theorem wp_saveSteps (hid : requiredUuid documentId "document_id" = .ok document) (howned : w.paragraphs.Owned)
    (hnames : ∀ k ∈ stepNames, k ∉ names) :
    Eff.wp (saveSteps rt documentId currentText p)
      (fun _ w' => ∃ nodes, Completed rt names w w' document currentText p nodes) (fun _ _ => True) w := by
  have hassign : ∀ f, Eff.Keeps (Frame (K := K) names) (assign f) := keeps_assign
  rw [saveSteps]
  refine (hassign _).wp_bind fun _ w₁ h₁ => (keeps_deleteOldChunks hnames p).wp_bind fun _ w₂ h₂ => ?_
  refine (hassign _).wp_bind fun _ w₃ h₃ => ?_
  refine Eff.Returns.wp_bind (keeps_stageUnions (passive_frame hnames) _ _) (returns_stageUnions _ _) fun staged w₄ h₄ hstaged => ?_
  refine (keeps_noteOf hnames rfl (by decide)).wp_bind fun _ w₅ h₅ => (hassign _).wp_bind fun _ w₆ h₆ => ?_
  refine Eff.Returns.wp_bind (keeps_embedUnions (passive_frame hnames) _) (returns_embedUnions hstaged) fun staged' w₇ h₇ hstaged' => ?_
  refine (hassign _).wp_bind fun _ w₈ h₈ => ?_
  have hframe : Frame names w w₈ :=
    Trans.trans (Trans.trans (Trans.trans (Trans.trans (Trans.trans (Trans.trans (Trans.trans h₁ h₂) h₃) h₄) h₅) h₆) h₇) h₈
  rw [Eff.wp_bind]
  refine Eff.wp_mono (wp_renumber hid staged') (fun nodes w' hnodes => ?_) fun _ _ _ => trivial
  obtain ⟨rfl, rfl, hrenumbered⟩ := hnodes
  rw [Eff.wp_bind]
  refine Eff.wp_mono (wp_recordRenumbering (E := fun _ _ => True) p _) (fun _ w₉ h₉ => ?_) fun _ _ _ => trivial
  refine (hassign _).wp_bind fun _ w₁₀ h₁₀ => (keeps_insertNewChunks hnames _).wp_bind fun _ w₁₁ h₁₁ => ?_
  refine (hassign _).wp_bind fun _ w₁₂ h₁₂ => (keeps_updateRetainedChunks hnames _).wp_bind fun _ w₁₃ h₁₃ => ?_
  refine (hassign _).wp_bind fun _ w₁₄ h₁₄ => ?_
  have hframe' : Frame names w₉ w₁₄ := Trans.trans (Trans.trans (Trans.trans (Trans.trans h₁₀ h₁₁) h₁₂) h₁₃) h₁₄
  subst h₉
  rw [hframe.paragraphs] at hrenumbered
  have hsame : w₁₄.paragraphs = w.paragraphs := hframe'.paragraphs.trans hframe.paragraphs
  refine Eff.wp_mono (wp_commitMaps hid (hsame ▸ howned) (finalNodes_ne_nil p staged') (hsame ▸ hrenumbered))
    (fun _ w' hcommitted => ?_) fun _ _ _ => trivial
  obtain ⟨before, hbefore, hsilent⟩ := hframe.quiet
  obtain ⟨behind, hbehind, hsilent'⟩ := hframe'.quiet
  refine ⟨_, ⟨staged', hstaged', rfl⟩, hrenumbered, ?_, ?_, hcommitted.owned, before, behind, ?_, hsilent, hsilent'⟩
  · rw [hcommitted.documents, hframe'.documents]
    exact congrArg (fun d : DocumentMap => d.documents.set document _) hframe.documents
  · intro j
    rw [hcommitted.paragraphs, hsame]
  · rw [hcommitted.trace, hbehind]
    simp only [hbefore, List.append_assoc]

/-- A save that returns has found the text changed, and has completed its steps, or has found it unchanged. -/
theorem saveWizard_completed [DecidableEq K] {w' : World K} (hagree : Agree w document data chunks)
    (hid : requiredUuid documentId "document_id" = .ok document) (hnames : ∀ k ∈ stepNames, k ∉ names)
    (hrun : saveWizard rt documentId currentText modifiedParagraphIds w = .ok () w')
    (hchanged : currentText ≠ data.values.flatten) :
    ∃ p nodes, Found rt data chunks currentText modifiedParagraphIds p ∧
      Completed rt names w w' document currentText p nodes := by
  suffices h : Eff.wp (saveWizard rt documentId currentText modifiedParagraphIds)
      (fun _ w' => ∃ p nodes, Found rt data chunks currentText modifiedParagraphIds p ∧
        Completed rt names w w' document currentText p nodes) (fun _ _ => True) w from Eff.wp_ok h hrun
  clear hrun w'
  rw [saveWizard, Eff.wp_bind, Eff.wp_mapError]
  refine (keeps_noteOf hnames rfl (by decide)).wp_bind fun _ w₁ h₁ => ?_
  have hsaved : w₁.documents.documents.get? document = some data := by rw [h₁.documents, hagree.saved]
  have hlists : w₁.paragraphs.documentChunks document = chunks := by rw [h₁.paragraphs, hagree.documentChunks]
  rw [Eff.wp_bind]
  refine Eff.wp_mono (wp_saveDiff hsaved hlists hid hnames) (fun r w₂ h₂ => ?_) fun _ _ _ => trivial
  obtain ⟨h₂, ⟨-, hsame⟩ | ⟨p, rfl, hfound⟩⟩ := h₂
  · exact absurd hsame hchanged
  have hpassive : Passive rt (Frame names) := passive_frame hnames
  refine (keeps_recordDiff hpassive p).wp_bind fun _ w₃ h₃ => ?_
  rw [Eff.wp_pure, Eff.wp_bind, Eff.wp_mapError]
  have hsnapshots : Eff.Keeps (Frame (K := K) names) (takeSnapshots rt documentId p) := keeps_takeSnapshots p
  have hassign : ∀ f, Eff.Keeps (Frame (K := K) names) (assign f) := keeps_assign
  refine Eff.wp_mono (hsnapshots w₃) (fun snapshots w₄ h₄ => ?_) fun _ _ _ => trivial
  rw [Eff.wp_bind, Eff.wp_mapError]
  refine (keeps_noteOf hnames rfl (by decide)).wp_bind fun _ w₅ h₅ => ?_
  refine Eff.wp_mono (hassign _ w₅) (fun _ w₆ h₆ => ?_) fun _ _ _ => trivial
  have hframe : Frame names w w₆ := Trans.trans (Trans.trans (Trans.trans (Trans.trans (Trans.trans h₁ h₂) h₃) h₄) h₅) h₆
  have howned : w₆.paragraphs.Owned := by
    rw [hframe.paragraphs]
    exact hagree.owned
  rw [Eff.wp_tryExcept, Eff.wp_mapError]
  refine Eff.wp_mono (wp_saveSteps hid howned hnames) (fun _ w' hdone => ?_) fun e w' _ => ?_
  · obtain ⟨nodes, hdone⟩ := hdone
    obtain ⟨start, hstart, hsilent⟩ := hframe.quiet
    obtain ⟨before, behind, htrace, hbefore, hbehind⟩ := hdone.trace
    refine ⟨p, nodes, hfound, hdone.staged, ?_, ?_, ?_, hdone.owned, start ++ before, behind, ?_, ?_, hbehind⟩
    · have hrenumbered := hdone.renumbered
      rwa [hframe.paragraphs] at hrenumbered
    · rw [hdone.documents, hframe.documents]
    · intro j
      rw [hdone.paragraphs, hframe.paragraphs]
    · rw [htrace, hstart]
      simp only [List.append_assoc]
    · intro c hc
      rcases List.mem_append.mp hc with hc | hc
      · exact hsilent c hc
      · exact hbefore c hc
  · -- The handler raises whatever it was called for.
    rw [abandon, Eff.wp_bind]
    refine Eff.wp_mono (Eff.wp_true _ _) (fun r _ _ => ?_) fun _ _ _ => trivial
    rw [Eff.wp_bind, Eff.wp_read, Eff.wp_ite]
    exact ⟨fun _ => trivial, fun _ => trivial⟩

end Completed

end TenantRag.Save

import TenantRag.Wizard.SaveAtomicity

/-!
# The maps and the store agree

What belongs together in the two maps and the store of one user and collection type,
and why a save that returns keeps it together.

## The model

A document is consistent where its texts and its lists of chunks have the same
paragraphs, numbered from one on, the list of a paragraph has the chunks that are
stored in it, each once, and their texts in order are the text of the paragraph; it is
absent where none of the three has it. What a document is does not depend on the other
documents.

## What is proved

* `Consistent.same`, `Absent.same` — a document that is left alone stays what it is.
* `finalNodes_cases`, `filter_finalNodes` — a final node is new, or an old paragraph outside of the unions.
* `Consistent.rewritten` — records rewritten as a save does it agree with the new texts and lists.
-/

namespace TenantRag.Save

open ChunkStore (Keyed inParagraphs)

variable {K : Type}

/-! ### Agreement -/

/-- The texts of the records of some chunks, in order. -/
def storedText (records : Dict Uuid (ChunkRecord K)) (chunkIds : List Uuid) : Text :=
  (chunkIds.filterMap fun c => (records.get? c).map ChunkRecord.rawText).flatten

/-- The texts, the lists and the records of a document belong together. -/
structure Consistent (w : World K) (document : Uuid) (data : Dict ℕ Text) (chunks : Dict ℕ (List Uuid)) : Prop where
  saved : w.documents.documents.get? document = some data
  documentChunks : w.paragraphs.documentChunks document = chunks
  keys : data.keys = List.range' 1 data.keys.length
  ne_nil : data.keys ≠ []
  same : chunks.keys = data.keys
  nodup : ∀ n cs, chunks.get? n = some cs → cs.Nodup
  stored : ∀ n id, (∃ cs, chunks.get? n = some cs ∧ id ∈ cs) ↔
    ∃ r, w.outside.chunks.get? id = some r ∧ r.documentId = document ∧ r.paragraphId = n
  texts : ∀ n cs, chunks.get? n = some cs → data.get? n = some (storedText w.outside.chunks cs)

/-- There is nothing of the document. -/
structure Absent (w : World K) (document : Uuid) : Prop where
  documents : w.documents.documents.get? document = none
  paragraphs : ∀ n, w.paragraphs.paragraphs.get? (document, n) = none
  records : ∀ id r, w.outside.chunks.get? id = some r → r.documentId ≠ document

/-- Every document is consistent or absent. -/
structure Sound (w : World K) : Prop where
  keyed : Keyed w.outside.chunks
  documents : ∀ document, Absent w document ∨ ∃ data chunks, Consistent w document data chunks

/-- The texts, the lists and the records of the document are the same. -/
structure SameDocument (document : Uuid) (w w' : World K) : Prop where
  documents : w'.documents.documents.get? document = w.documents.documents.get? document
  paragraphs : ∀ n, w'.paragraphs.paragraphs.get? (document, n) = w.paragraphs.paragraphs.get? (document, n)
  records : ∀ id r, r.documentId = document → (w'.outside.chunks.get? id = some r ↔ w.outside.chunks.get? id = some r)

section Same

variable {w w' : World K} {document : Uuid} {data : Dict ℕ Text} {chunks : Dict ℕ (List Uuid)}

theorem storedText_congr {records records' : Dict Uuid (ChunkRecord K)} {chunkIds : List Uuid}
    (h : ∀ c ∈ chunkIds, (records'.get? c).map ChunkRecord.rawText = (records.get? c).map ChunkRecord.rawText) :
    storedText records' chunkIds = storedText records chunkIds := by
  rw [storedText, storedText, List.filterMap_congr h]

theorem documentChunks_congr (h : ∀ n, w'.paragraphs.paragraphs.get? (document, n) = w.paragraphs.paragraphs.get? (document, n)) :
    w'.paragraphs.documentChunks document = w.paragraphs.documentChunks document := by
  refine ParagraphMap.documentChunks_eq_of_get? (Dict.keys_sorted_pairwise _) fun n => ?_
  rw [h, ParagraphMap.get?_documentChunks]

theorem Consistent.get?_paragraphs (h : Consistent w document data chunks) (n : ℕ) :
    w.paragraphs.paragraphs.get? (document, n) = chunks.get? n := by
  rw [← h.documentChunks, ParagraphMap.get?_documentChunks]

/-- A chunk on a list is stored in the paragraph. -/
theorem Consistent.record (h : Consistent w document data chunks) {n : ℕ} {cs : List Uuid} {c : Uuid}
    (hcs : chunks.get? n = some cs) (hc : c ∈ cs) :
    ∃ r, w.outside.chunks.get? c = some r ∧ r.documentId = document ∧ r.paragraphId = n :=
  (h.stored n c).mp ⟨cs, hcs, hc⟩

/-- A document that is left alone stays consistent. -/
theorem Consistent.same_document (h : Consistent w document data chunks) (hs : SameDocument document w w') :
    Consistent w' document data chunks := by
  refine ⟨by rw [hs.documents, h.saved], ?_, h.keys, h.ne_nil, h.same, h.nodup, fun n id => ?_, fun n cs hcs => ?_⟩
  · rw [documentChunks_congr hs.paragraphs, h.documentChunks]
  · rw [h.stored]
    constructor
    · rintro ⟨r, hr, hd, hn⟩
      exact ⟨r, (hs.records id r hd).mpr hr, hd, hn⟩
    · rintro ⟨r, hr, hd, hn⟩
      exact ⟨r, (hs.records id r hd).mp hr, hd, hn⟩
  · rw [h.texts n cs hcs]
    refine congrArg some (storedText_congr fun c hc => ?_).symm
    obtain ⟨r, hr, hd, -⟩ := h.record hcs hc
    rw [hr, (hs.records c r hd).mpr hr]

/-- A document that is left alone stays absent. -/
theorem Absent.same_document (h : Absent w document) (hs : SameDocument document w w') : Absent w' document := by
  refine ⟨by rw [hs.documents, h.documents], fun n => by rw [hs.paragraphs, h.paragraphs], fun id r hr hd => ?_⟩
  exact h.records id r ((hs.records id r hd).mp hr) hd

/-- Where every other document is left alone, only the one can become something else. -/
theorem Sound.changed (h : Sound w) (hkeyed : Keyed w'.outside.chunks)
    (hdocument : Absent w' document ∨ ∃ data chunks, Consistent w' document data chunks)
    (hothers : ∀ other, other ≠ document → SameDocument other w w') : Sound w' := by
  refine ⟨hkeyed, fun other => ?_⟩
  by_cases hother : other = document
  · exact hother ▸ hdocument
  · obtain habsent | ⟨data, chunks, hconsistent⟩ := h.documents other
    · exact .inl (habsent.same_document (hothers other hother))
    · exact .inr ⟨data, chunks, hconsistent.same_document (hothers other hother)⟩

/-- Where every document is left alone, nothing changes. -/
theorem Sound.same_documents (h : Sound w) (hkeyed : Keyed w'.outside.chunks) (hs : ∀ document, SameDocument document w w') :
    Sound w' := by
  refine ⟨hkeyed, fun document => ?_⟩
  obtain habsent | ⟨data, chunks, hconsistent⟩ := h.documents document
  · exact .inl (habsent.same_document (hs document))
  · exact .inr ⟨data, chunks, hconsistent.same_document (hs document)⟩

end Same

/-! ### What the final nodes are -/

section Nodes

variable {rt : Runtime K} {p : Prepared} {staged : List (ℕ × List (ParagraphNode K))}

/-- The node of an old paragraph. -/
def keptNode (p : Prepared) (old : SavedParagraph) : ParagraphNode K :=
  ⟨old.text, (p.chunksOf old.paragraphId).map fun c => ⟨c, [], [], []⟩, some old.paragraphId⟩

@[simp] theorem chunkIds_keptNode (old : SavedParagraph) :
    (keptNode p old : ParagraphNode K).chunkIds = p.chunksOf old.paragraphId := by
  simp [keptNode, ParagraphNode.chunkIds, Function.comp_def]

/-- A new node: its chunks are new, and are its text. -/
structure NewNode (p : Prepared) (node : ParagraphNode K) : Prop where
  new : node.oldParagraphId = none
  lossless : (node.chunks.map StagedChunk.rawText).flatten = node.rawText
  fresh : ∀ c ∈ node.chunkIds, c ∉ p.existingChunkIds

theorem mem_pendingChunks {n : ℕ} {nodes : List (ParagraphNode K)} {node : ParagraphNode K} {c : StagedChunk K}
    (he : (n, nodes) ∈ staged) (hnode : node ∈ nodes) (hc : c ∈ node.chunks) : c ∈ pendingChunks staged :=
  List.mem_flatMap.mpr ⟨(n, nodes), he, List.mem_flatMap.mpr ⟨node, hnode, hc⟩⟩

theorem newNode_of_staged (h : StagedUnions rt p.existingChunkIds p.unions staged) {n : ℕ} {nodes : List (ParagraphNode K)}
    (he : (n, nodes) ∈ staged) {node : ParagraphNode K} (hnode : node ∈ nodes) : NewNode p node := by
  obtain ⟨u, -, -, hu⟩ := forall₂_right h.nodes he
  refine ⟨(hu.staged node hnode).new, (hu.staged node hnode).lossless, fun c hc => ?_⟩
  obtain ⟨chunk, hchunk, rfl⟩ := List.mem_map.mp hc
  exact h.new chunk (mem_pendingChunks he hnode hchunk)

/-- The nodes that stand for an old paragraph. -/
theorem nodesOf_cases (h : StagedUnions rt p.existingChunkIds p.unions staged) {old : SavedParagraph} (hold : old.paragraphId ≠ 0) :
    (old.paragraphId ∈ p.unionIds ∧ ∀ node ∈ nodesOf p staged old, NewNode p node) ∨
      (old.paragraphId ∉ p.unionIds ∧ nodesOf p staged old = [keptNode p old]) := by
  rw [nodesOf]
  cases hlookup : staged.lookup old.paragraphId with
  | some nodes =>
    obtain ⟨first, rest, hsplit, -⟩ := List.lookup_eq_some_iff.mp hlookup
    have he : (old.paragraphId, nodes) ∈ staged := hsplit ▸ List.mem_append_right _ List.mem_cons_self
    refine .inl ⟨?_, fun node hnode => newNode_of_staged h he hnode⟩
    obtain ⟨u, hu, hhead, -⟩ := forall₂_right h.nodes he
    refine List.mem_flatMap.mpr ⟨u, hu, ?_⟩
    cases hids : u.paragraphIds with
    | nil =>
      rw [hids] at hhead
      exact absurd hhead hold
    | cons i ids =>
      rw [hids] at hhead
      exact (show old.paragraphId = i from hhead) ▸ List.mem_cons_self
  | none =>
    dsimp only
    split_ifs with hunion
    · exact .inl ⟨hunion, fun node hnode => by cases hnode⟩
    · exact .inr ⟨hunion, rfl⟩

/-- The final nodes that are old are those of the paragraphs outside of the unions, in order. -/
theorem filter_finalNodes (h : StagedUnions rt p.existingChunkIds p.unions staged) (hids : ∀ old ∈ p.oldParagraphs, old.paragraphId ≠ 0) :
    (finalNodes p staged).filter (fun node => node.oldParagraphId.isSome) =
      (p.oldParagraphs.filter fun old => old.paragraphId ∉ p.unionIds).map (keptNode p) := by
  have hall : (p.oldParagraphs.flatMap (nodesOf p staged)).filter (fun node => node.oldParagraphId.isSome) =
      (p.oldParagraphs.filter fun old => old.paragraphId ∉ p.unionIds).map (keptNode p) := by
    generalize p.oldParagraphs = olds at hids ⊢
    induction olds with
    | nil => rfl
    | cons old olds ih =>
      rw [List.forall_mem_cons] at hids
      rw [List.flatMap_cons, List.filter_append, ih hids.2, List.filter_cons]
      obtain ⟨hunion, hnew⟩ | ⟨hunion, hkept⟩ := nodesOf_cases h hids.1
      · have hnone : (nodesOf p staged old).filter (fun node => node.oldParagraphId.isSome) = [] := by
          rw [List.filter_eq_nil_iff]
          intro node hnode
          rw [(hnew node hnode).new]
          exact Bool.false_ne_true
        simp [hnone, hunion]
      · simp [hkept, hunion, keptNode]
  rw [finalNodes]
  split_ifs with hnil
  · rw [hnil] at hall
    rw [← hall]
    rfl
  · exact hall

/-- A final node is new, or that of a paragraph outside of the unions. -/
theorem finalNodes_cases (h : StagedUnions rt p.existingChunkIds p.unions staged) (hids : ∀ old ∈ p.oldParagraphs, old.paragraphId ≠ 0)
    {node : ParagraphNode K} (hnode : node ∈ finalNodes p staged) :
    NewNode p node ∨ ∃ old ∈ p.oldParagraphs, old.paragraphId ∉ p.unionIds ∧ node = keptNode p old := by
  rw [finalNodes] at hnode
  split_ifs at hnode
  · rw [List.mem_singleton] at hnode
    subst hnode
    exact .inl ⟨rfl, rfl, fun c hc => by cases hc⟩
  · obtain ⟨old, hold, hnode⟩ := List.mem_flatMap.mp hnode
    obtain ⟨-, hnew⟩ | ⟨hunion, hkept⟩ := nodesOf_cases h (hids old hold)
    · exact .inl (hnew node hnode)
    · rw [hkept, List.mem_singleton] at hnode
      exact .inr ⟨old, hold, hunion, hnode⟩

theorem mem_finalNodes (h : StagedUnions rt p.existingChunkIds p.unions staged) (hids : ∀ old ∈ p.oldParagraphs, old.paragraphId ≠ 0)
    {old : SavedParagraph} (hold : old ∈ p.oldParagraphs) (hunion : old.paragraphId ∉ p.unionIds) :
    keptNode p old ∈ finalNodes p staged := by
  have hmem : keptNode p old ∈ (finalNodes p staged).filter (fun node => node.oldParagraphId.isSome) := by
    rw [filter_finalNodes h hids]
    exact List.mem_map_of_mem (List.mem_filter.mpr ⟨hold, by simpa using hunion⟩)
  exact (List.mem_filter.mp hmem).1

theorem mem_savedFrom {entries : List (ℕ × Text)} {offset : ℕ} {old : SavedParagraph} (h : old ∈ savedFrom offset entries) :
    (old.paragraphId, old.text) ∈ entries := by
  induction entries generalizing offset with
  | nil => cases h
  | cons e entries ih =>
    obtain ⟨n, t⟩ := e
    rcases List.mem_cons.mp h with rfl | h
    · exact List.mem_cons_self
    · exact List.mem_cons_of_mem _ (ih h)

/-- An old paragraph is one of the dictionary. -/
theorem get?_of_mem_oldParagraphs {old : SavedParagraph} (h : old ∈ p.oldParagraphs) :
    p.paragraphData.get? old.paragraphId = some old.text :=
  Dict.mem_entries_iff.mp (mem_savedFrom h)

theorem exists_oldParagraph {n : ℕ} (h : n ∈ p.paragraphData.keys) : ∃ old ∈ p.oldParagraphs, old.paragraphId = n := by
  rw [Dict.keys, ← map_ids_savedFrom _ 0] at h
  exact List.mem_map.mp h

end Nodes

/-! ### Records that are rewritten -/

/-- The record of a new chunk. -/
def newRecord (document : Uuid) (e : ℕ × StagedChunk K) : ChunkRecord K :=
  ⟨document, e.1, e.2.chunkId, e.2.rawText, e.2.lateInteraction, e.2.mmrDiversity⟩

/-- The identifiers of the new chunks have their records, the records of the unions are gone, and the others have the
numbers of the updates, or their own. -/
structure Rewritten (before after : Dict Uuid (ChunkRecord K)) (document : Uuid) (p : Prepared)
    (nodes : List (ParagraphNode K)) : Prop where
  new : ∀ e ∈ newChunks nodes, after.get? e.2.chunkId = some (newRecord document e)
  own : ∀ e ∈ newChunks nodes, ∀ r, before.get? e.2.chunkId = some r → r.documentId = document
  old : ∀ id, id ∉ newIds nodes → after.get? id =
    ((before.get? id).filter fun r => !inParagraphs document p.unionIds r).map fun r =>
      { r with paragraphId := ((unmodifiedUpdates nodes).get? id).getD r.paragraphId }

section Rewritten

variable {rt : Runtime K} {p : Prepared} {staged : List (ℕ × List (ParagraphNode K))} {nodes : List (ParagraphNode K)}
  {w w' : World K} {document : Uuid} {data : Dict ℕ Text} {chunks : Dict ℕ (List Uuid)}

theorem mem_newChunks_iff {e : ℕ × StagedChunk K} :
    e ∈ newChunks nodes ↔ ∃ i node, nodes[i]? = some node ∧ node.oldParagraphId = none ∧ e.1 = i + 1 ∧ e.2 ∈ node.chunks := by
  rw [newChunks, List.mem_flatMap]
  constructor
  · rintro ⟨⟨node, n⟩, hnode, he⟩
    rw [List.mk_mem_zipIdx_iff_le_and_getElem?_sub] at hnode
    split_ifs at he with hnew
    · obtain ⟨c, hc, rfl⟩ := List.mem_map.mp he
      exact ⟨n - 1, node, hnode.2, hnew, by have := hnode.1; dsimp only; omega, hc⟩
    · cases he
  · rintro ⟨i, node, hi, hnew, hn, hc⟩
    refine ⟨(node, i + 1), List.mk_mem_zipIdx_iff_le_and_getElem?_sub.mpr ⟨by omega, hi⟩, ?_⟩
    rw [if_pos hnew]
    exact List.mem_map.mpr ⟨e.2, hc, by rw [← hn]⟩

/-- An update has the number of the node that has the chunk. -/
theorem get?_unmodifiedUpdates {c : Uuid} {n : ℕ} (h : (unmodifiedUpdates nodes).get? c = some n) :
    ∃ i node, nodes[i]? = some node ∧ c ∈ node.chunkIds ∧ n = i + 1 := by
  suffices hloop : ∀ (start : ℕ) (updates : Dict Uuid ℕ),
      ((nodes.zipIdx start).foldl nodeUpdates updates).get? c = some n →
        (∃ i node, nodes[i]? = some node ∧ c ∈ node.chunkIds ∧ n = start + i) ∨ updates.get? c = some n by
    obtain ⟨i, node, hi, hc, hn⟩ | hnone := hloop 1 .empty h
    · exact ⟨i, node, hi, hc, by omega⟩
    · cases hnone
  clear h
  intro start updates h
  induction nodes generalizing start updates with
  | nil => exact .inr h
  | cons node nodes ih =>
    rw [List.zipIdx_cons, List.foldl_cons] at h
    obtain ⟨i, node', hi, hc, hn⟩ | hfirst := ih _ _ h
    · exact .inl ⟨i + 1, node', hi, hc, by omega⟩
    · rw [nodeUpdates] at hfirst
      cases hold : node.oldParagraphId with
      | none =>
        rw [hold] at hfirst
        exact .inr hfirst
      | some k =>
        rw [hold] at hfirst
        dsimp only at hfirst
        split_ifs at hfirst
        · rw [Dict.get?_foldl_set] at hfirst
          split_ifs at hfirst with hc
          · exact .inl ⟨0, node, rfl, hc, (Option.some.inj hfirst).symm⟩
          · exact .inr hfirst
        · exact .inr hfirst

/-- A chunk stands in one node. -/
theorem index_unique (hnodup : (finalChunkMappings nodes).values.flatten.Nodup) {i j : ℕ} {a b : ParagraphNode K} {c : Uuid}
    (hi : nodes[i]? = some a) (hj : nodes[j]? = some b) (ha : c ∈ a.chunkIds) (hb : c ∈ b.chunkIds) : i = j := by
  have hone := onePlace_of_nodup hnodup (by rw [get?_finalChunkMappings, hi]; rfl) (by rw [get?_finalChunkMappings, hj]; rfl) ha hb
  exact Nat.succ.inj hone

/-- What a document has before it is saved, and what the save prepares of it. -/
structure Saving (rt : Runtime K) (w : World K) (document : Uuid) (p : Prepared) (staged : List (ℕ × List (ParagraphNode K))) :
    Prop where
  consistent : Consistent w document p.paragraphData p.oldChunks
  prepared : StagedUnions rt p.existingChunkIds p.unions staged
  nodup : (finalChunkMappings (finalNodes p staged)).values.flatten.Nodup

theorem Saving.ids_ne_zero (h : Saving rt w document p staged) : ∀ old ∈ p.oldParagraphs, old.paragraphId ≠ 0 := by
  intro old hold hzero
  have hkey : old.paragraphId ∈ p.paragraphData.keys := Dict.mem_keys_iff.mpr ⟨_, get?_of_mem_oldParagraphs hold⟩
  rw [h.consistent.keys, List.mem_range'_1] at hkey
  omega

/-- A chunk of an old paragraph has its record there, which the rewriting renumbers. -/
theorem Saving.kept (h : Saving rt w document p staged) (hr : Rewritten w.outside.chunks w'.outside.chunks document p (finalNodes p staged))
    {i : ℕ} {old : SavedParagraph} (hi : (finalNodes p staged)[i]? = some (keptNode p old)) (hunion : old.paragraphId ∉ p.unionIds)
    {c : Uuid} (hc : c ∈ p.chunksOf old.paragraphId) :
    ∃ r, w.outside.chunks.get? c = some r ∧ r.documentId = document ∧
      w'.outside.chunks.get? c = some { r with paragraphId := i + 1 } := by
  obtain ⟨cs, hcs, hmem⟩ := mem_chunksOf.mp hc
  obtain ⟨r, hget, hd, hn⟩ := h.consistent.record hcs hmem
  have hin : c ∈ (keptNode p old : ParagraphNode K).chunkIds := by
    rw [chunkIds_keptNode]
    exact hc
  have hnotNew : c ∉ newIds (finalNodes p staged) := by
    intro hnew
    obtain ⟨node, hnode, hc'⟩ := List.mem_flatMap.mp hnew
    split_ifs at hc' with hnone
    · obtain hnew' | ⟨old', -, -, rfl⟩ := finalNodes_cases h.prepared h.ids_ne_zero hnode
      · exact hnew'.fresh c hc' (mem_chunkIdsOf.mpr ⟨_, cs, hcs, hmem⟩)
      · cases hnone
    · cases hc'
  refine ⟨r, hget, hd, ?_⟩
  have hkeep : (!inParagraphs document p.unionIds r) = true := by
    simp [inParagraphs, hn, hunion]
  rw [hr.old c hnotNew, hget, Option.filter_some, if_pos hkeep, Option.map_some]
  congr 2
  cases hupdate : (unmodifiedUpdates (finalNodes p staged)).get? c with
  | some n =>
    obtain ⟨j, node, hj, hcj, rfl⟩ := get?_unmodifiedUpdates hupdate
    rw [index_unique h.nodup hi hj hin hcj, Option.getD_some]
  | none =>
    rw [Option.getD_none, hn]
    by_contra hne
    have hkey : c ∈ (unmodifiedUpdates (finalNodes p staged)).keys :=
      mem_keys_unmodifiedUpdates.mpr ⟨i, _, _, hi, rfl, hne, hin⟩
    exact (Dict.get?_eq_none_iff.mp hupdate) hkey

/-- The records of the chunks of a final node have its number, and their texts are its text. -/
theorem Saving.node (h : Saving rt w document p staged) (hr : Rewritten w.outside.chunks w'.outside.chunks document p (finalNodes p staged))
    {i : ℕ} {node : ParagraphNode K} (hi : (finalNodes p staged)[i]? = some node) :
    (∀ c ∈ node.chunkIds, ∃ r, w'.outside.chunks.get? c = some r ∧ r.documentId = document ∧ r.paragraphId = i + 1) ∧
      storedText w'.outside.chunks node.chunkIds = node.rawText := by
  obtain hnew | ⟨old, hold, hunion, rfl⟩ := finalNodes_cases h.prepared h.ids_ne_zero (List.mem_of_getElem? hi)
  · have hrecord : ∀ c ∈ node.chunks, w'.outside.chunks.get? c.chunkId = some (newRecord document (i + 1, c)) := fun c hc =>
      hr.new (i + 1, c) (mem_newChunks_iff.mpr ⟨i, node, hi, hnew.new, rfl, hc⟩)
    constructor
    · intro c hc
      obtain ⟨chunk, hchunk, rfl⟩ := List.mem_map.mp hc
      exact ⟨_, hrecord chunk hchunk, rfl, rfl⟩
    · rw [← hnew.lossless, storedText, ParagraphNode.chunkIds, List.filterMap_map, ← List.filterMap_eq_map]
      refine congrArg List.flatten (List.filterMap_congr fun c hc => ?_)
      rw [Function.comp_apply, hrecord c hc]
      rfl
  · rw [chunkIds_keptNode]
    constructor
    · intro c hc
      obtain ⟨r, -, hd, hget⟩ := h.kept hr hi hunion hc
      exact ⟨_, hget, hd, rfl⟩
    · have hkey : old.paragraphId ∈ p.oldChunks.keys := by
        rw [h.consistent.same]
        exact Dict.mem_keys_iff.mpr ⟨_, get?_of_mem_oldParagraphs hold⟩
      obtain ⟨cs, hcs⟩ := Dict.mem_keys_iff.mp hkey
      have htext := h.consistent.texts _ cs hcs
      rw [get?_of_mem_oldParagraphs hold] at htext
      have hlist : p.chunksOf old.paragraphId = cs := by rw [Prepared.chunksOf, hcs, Option.getD_some]
      change _ = old.text
      rw [Option.some.inj htext, hlist]
      refine storedText_congr fun c hc => ?_
      obtain ⟨r, hget, -, hget'⟩ := h.kept hr hi hunion (hlist ▸ hc)
      rw [hget, hget']
      rfl

theorem exists_index {n : ℕ} {nodes : List (ParagraphNode K)} {cs : List Uuid} (h : (finalChunkMappings nodes).get? n = some cs) :
    ∃ i node, n = i + 1 ∧ nodes[i]? = some node ∧ cs = node.chunkIds := by
  cases n with
  | zero =>
    rw [finalChunkMappings, Dict.get?_numbered_zero] at h
    cases h
  | succ i =>
    rw [get?_finalChunkMappings, Option.map_eq_some_iff] at h
    obtain ⟨node, hi, rfl⟩ := h
    exact ⟨i, node, rfl, hi, rfl⟩

/-- A record of the document is one of a chunk of the final node with its number. -/
theorem Saving.mem_of_record (h : Saving rt w document p staged)
    (hr : Rewritten w.outside.chunks w'.outside.chunks document p (finalNodes p staged)) {id : Uuid} {r : ChunkRecord K}
    (hget : w'.outside.chunks.get? id = some r) (hd : r.documentId = document) :
    ∃ cs, (finalChunkMappings (finalNodes p staged)).get? r.paragraphId = some cs ∧ id ∈ cs := by
  by_cases hnew : id ∈ newIds (finalNodes p staged)
  · rw [← map_newChunks] at hnew
    obtain ⟨e, he, rfl⟩ := List.mem_map.mp hnew
    obtain ⟨i, node, hi, -, hn, hc⟩ := mem_newChunks_iff.mp he
    rw [hr.new e he] at hget
    cases hget
    refine ⟨node.chunkIds, ?_, List.mem_map_of_mem hc⟩
    change (finalChunkMappings (finalNodes p staged)).get? e.1 = _
    rw [hn, get?_finalChunkMappings, hi]
    rfl
  · have hold := hr.old id hnew
    rw [hget, eq_comm, Option.map_eq_some_iff] at hold
    obtain ⟨r₀, hfound, hsame⟩ := hold
    obtain ⟨hget₀, hout⟩ := Option.filter_eq_some_iff.mp hfound
    have hd₀ : r₀.documentId = document := by
      rw [← hd, ← hsame]
    obtain ⟨cs, hcs, hmem⟩ := (h.consistent.stored r₀.paragraphId id).mpr ⟨r₀, hget₀, hd₀, rfl⟩
    have hunion : r₀.paragraphId ∉ p.unionIds := by
      simpa [inParagraphs, hd₀] using hout
    have hkey : r₀.paragraphId ∈ p.paragraphData.keys := by
      rw [← h.consistent.same]
      exact Dict.mem_keys_iff.mpr ⟨cs, hcs⟩
    obtain ⟨old, hold, hn⟩ := exists_oldParagraph hkey
    rw [← hn] at hunion hcs
    obtain ⟨i, hi⟩ := List.mem_iff_getElem?.mp (mem_finalNodes h.prepared h.ids_ne_zero hold hunion)
    have hc : id ∈ p.chunksOf old.paragraphId := mem_chunksOf.mpr ⟨cs, hcs, hmem⟩
    obtain ⟨r₁, -, -, hget₁⟩ := h.kept hr hi hunion hc
    rw [hget] at hget₁
    cases hget₁
    refine ⟨p.chunksOf old.paragraphId, ?_, hc⟩
    change (finalChunkMappings (finalNodes p staged)).get? (i + 1) = _
    rw [get?_finalChunkMappings, hi, Option.map_some, chunkIds_keptNode]

/-- Where the records were rewritten, they agree with the new texts and lists. -/
theorem Saving.rewritten (h : Saving rt w document p staged)
    (hr : Rewritten w.outside.chunks w'.outside.chunks document p (finalNodes p staged))
    (hdocuments : w'.documents.documents.get? document = some (finalParagraphData (finalNodes p staged)))
    (hparagraphs : ∀ n, w'.paragraphs.paragraphs.get? (document, n) = (finalChunkMappings (finalNodes p staged)).get? n) :
    Consistent w' document (finalParagraphData (finalNodes p staged)) (finalChunkMappings (finalNodes p staged)) := by
  have hdata : (finalParagraphData (finalNodes p staged)).keys = List.range' 1 (finalNodes p staged).length := by
    rw [finalParagraphData, Dict.keys_numbered, List.length_map]
  have hlists : (finalChunkMappings (finalNodes p staged)).keys = List.range' 1 (finalNodes p staged).length := by
    rw [finalChunkMappings, Dict.keys_numbered, List.length_map]
  refine ⟨hdocuments, ?_, by rw [hdata, List.length_range'], ?_, by rw [hdata, hlists], fun n cs hcs => ?_, fun n id => ?_,
    fun n cs hcs => ?_⟩
  · refine ParagraphMap.documentChunks_eq_of_get? ?_ hparagraphs
    rw [hlists]
    exact List.pairwise_lt_range'
  · rw [hdata, ne_eq, List.range'_eq_nil_iff, List.length_eq_zero_iff]
    exact finalNodes_ne_nil p staged
  · exact (List.nodup_flatten.mp h.nodup).1 cs (List.mem_map.mpr ⟨(n, cs), Dict.mem_entries_iff.mpr hcs, rfl⟩)
  · constructor
    · rintro ⟨cs, hcs, hid⟩
      obtain ⟨i, node, rfl, hi, rfl⟩ := exists_index hcs
      exact (h.node hr hi).1 id hid
    · rintro ⟨r, hget, hd, rfl⟩
      exact h.mem_of_record hr hget hd
  · obtain ⟨i, node, rfl, hi, rfl⟩ := exists_index hcs
    rw [(h.node hr hi).2, finalParagraphData, Dict.get?_numbered_succ, List.getElem?_map, hi]
    rfl

/-- What is renumbered is a record of the document. -/
theorem Saving.document_of_updated (h : Saving rt w document p staged) {c : Uuid}
    (hc : c ∈ (unmodifiedUpdates (finalNodes p staged)).keys) {r : ChunkRecord K} (hget : w.outside.chunks.get? c = some r) :
    r.documentId = document := by
  obtain ⟨i, node, k, hi, hk, -, hmem⟩ := mem_keys_unmodifiedUpdates.mp hc
  obtain hnew | ⟨old, hold, -, rfl⟩ := finalNodes_cases h.prepared h.ids_ne_zero (List.mem_of_getElem? hi)
  · rw [hnew.new] at hk
    cases hk
  · rw [chunkIds_keptNode] at hmem
    obtain ⟨cs, hcs, hmem⟩ := mem_chunksOf.mp hmem
    obtain ⟨r', hget', hd, -⟩ := h.consistent.record hcs hmem
    rw [hget] at hget'
    cases hget'
    exact hd

/-- The records of the other documents are not rewritten. -/
theorem Saving.others (h : Saving rt w document p staged)
    (hr : Rewritten w.outside.chunks w'.outside.chunks document p (finalNodes p staged)) {r : ChunkRecord K}
    (hd : r.documentId ≠ document) (id : Uuid) : w'.outside.chunks.get? id = some r ↔ w.outside.chunks.get? id = some r := by
  by_cases hnew : id ∈ newIds (finalNodes p staged)
  · rw [← map_newChunks] at hnew
    obtain ⟨e, he, rfl⟩ := List.mem_map.mp hnew
    rw [hr.new e he]
    constructor
    · rintro ⟨⟩
      exact absurd rfl hd
    · intro hget
      exact absurd (hr.own e he r hget) hd
  · rw [hr.old id hnew]
    cases hget : w.outside.chunks.get? id with
    | none => exact iff_of_false (by rintro ⟨⟩) (by rintro ⟨⟩)
    | some r₀ =>
      by_cases hd₀ : r₀.documentId = document
      · -- A record of the document is gone, or stays one of the document.
        refine iff_of_false (fun hsome => hd ?_) fun hsome => hd (Option.some.inj hsome ▸ hd₀)
        obtain ⟨r₁, hfound, rfl⟩ := Option.map_eq_some_iff.mp hsome
        have hr₁ := (Option.filter_eq_some_iff.mp hfound).1
        cases hr₁
        exact hd₀
      · have hkeep : (!inParagraphs document p.unionIds r₀) = true := by simp [inParagraphs, hd₀]
        have hnone : (unmodifiedUpdates (finalNodes p staged)).get? id = none := by
          rw [Dict.get?_eq_none_iff]
          exact fun hkey => hd₀ (h.document_of_updated hkey hget)
        rw [Option.filter_some, if_pos hkeep, Option.map_some, hnone, Option.getD_none]

theorem Rewritten.keyed {before after : Dict Uuid (ChunkRecord K)} (hr : Rewritten before after document p nodes) (h : Keyed before) :
    Keyed after := by
  intro id r hget
  by_cases hnew : id ∈ newIds nodes
  · rw [← map_newChunks] at hnew
    obtain ⟨e, he, rfl⟩ := List.mem_map.mp hnew
    rw [hr.new e he] at hget
    cases hget
    rfl
  · rw [hr.old id hnew] at hget
    obtain ⟨r₀, hfound, rfl⟩ := Option.map_eq_some_iff.mp hget
    exact h id r₀ (Option.filter_eq_some_iff.mp hfound).1

/-! ### What a save keeps -/

/-- The paragraphs outside of the unions have the same texts and lists, in the same order, and the same records but for
their numbers. -/
structure KeptOutside (w w' : World K) (unionIds : List ℕ) (data data' : Dict ℕ Text) (chunks chunks' : Dict ℕ (List Uuid)) :
    Prop where
  lists : ((data.keys.filter fun n => n ∉ unionIds).map fun n => (data.get? n, chunks.get? n)).Sublist
    (data'.keys.map fun n => (data'.get? n, chunks'.get? n))
  records : ∀ n cs, n ∉ unionIds → chunks.get? n = some cs → ∀ c ∈ cs, ∃ r m, w.outside.chunks.get? c = some r ∧
    w'.outside.chunks.get? c = some { r with paragraphId := m }

/-- Dictionaries that are numbered alike, side by side. -/
theorem map_keys_numbered {α β γ : Type} (xs : List α) (f : α → β) (g : α → γ) :
    ((Dict.numbered (xs.map f)).keys.map fun n => ((Dict.numbered (xs.map f)).get? n, (Dict.numbered (xs.map g)).get? n)) =
      xs.map fun x => (some (f x), some (g x)) := by
  rw [Dict.keys_numbered, List.length_map]
  refine List.ext_getElem (by simp) fun i hi hi' => ?_
  rw [List.length_map] at hi'
  simp only [List.getElem_map, List.getElem_range', Nat.one_mul, Nat.add_comm 1 i, Dict.get?_numbered_succ, List.getElem?_map,
    List.getElem?_eq_getElem hi', Option.map_some]

/-- The old paragraphs and their lists, as nodes. -/
theorem Saving.map_kept (h : Saving rt w document p staged) :
    ((p.paragraphData.keys.filter fun n => n ∉ p.unionIds).map fun n => (p.paragraphData.get? n, p.oldChunks.get? n)) =
      ((finalNodes p staged).filter fun node => node.oldParagraphId.isSome).map
        fun node => (some node.rawText, some node.chunkIds) := by
  have hkeys : p.paragraphData.keys = p.oldParagraphs.map SavedParagraph.paragraphId := (map_ids_savedFrom _ _).symm
  rw [filter_finalNodes h.prepared h.ids_ne_zero, hkeys, List.filter_map, List.map_map, List.map_map]
  refine List.map_congr_left fun old hold => ?_
  have hmem : old ∈ p.oldParagraphs := (List.mem_filter.mp hold).1
  have hkey : old.paragraphId ∈ p.oldChunks.keys := by
    rw [h.consistent.same]
    exact Dict.mem_keys_iff.mpr ⟨_, get?_of_mem_oldParagraphs hmem⟩
  obtain ⟨cs, hcs⟩ := Dict.mem_keys_iff.mp hkey
  rw [Function.comp_apply, Function.comp_apply, get?_of_mem_oldParagraphs hmem, chunkIds_keptNode, Prepared.chunksOf, hcs,
    Option.getD_some]
  rfl

theorem Saving.keptOutside (h : Saving rt w document p staged)
    (hr : Rewritten w.outside.chunks w'.outside.chunks document p (finalNodes p staged)) :
    KeptOutside w w' p.unionIds p.paragraphData (finalParagraphData (finalNodes p staged)) p.oldChunks
      (finalChunkMappings (finalNodes p staged)) := by
  constructor
  · rw [h.map_kept, finalParagraphData, finalChunkMappings, map_keys_numbered]
    exact List.filter_sublist.map _
  · intro n cs hunion hcs c hc
    have hkey : n ∈ p.paragraphData.keys := by
      rw [← h.consistent.same]
      exact Dict.mem_keys_iff.mpr ⟨cs, hcs⟩
    obtain ⟨old, hold, rfl⟩ := exists_oldParagraph hkey
    obtain ⟨i, hi⟩ := List.mem_iff_getElem?.mp (mem_finalNodes h.prepared h.ids_ne_zero hold hunion)
    obtain ⟨r, hget, -, hget'⟩ := h.kept hr hi hunion (mem_chunksOf.mpr ⟨cs, hcs, hc⟩)
    exact ⟨r, i + 1, hget, hget'⟩

end Rewritten

end TenantRag.Save

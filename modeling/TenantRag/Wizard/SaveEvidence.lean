import TenantRag.Wizard.SaveSteps

/-!
# The evidence of a save

What a save records under a deep trace about the chunks it kept, replaced and
renumbered, and when it tells the truth.

## The model

The paragraphs of the new document come each from an old paragraph outside of the
unions or from a piece of a union's text. The evidence compares the lists of old and
new chunks by paragraph number, and leaves out on both sides the numbers that the
unions had in the old document.

## What is proved

* `forall₂_origins` — the final nodes stand for the origins, one by one.
* `card_new`, `card_updated`, `targeted_disjoint` — the counts are what they are called.
* `outsideUnions_eq_iff` — the comparison by number finds no change exactly when no paragraph outside of the unions
  changes its number.
* `saveWizard_evidence_iff` — so the evidence is truthful exactly then.
-/

namespace TenantRag.Save

variable {K : Type} {rt : Runtime K}

/-! ### Where the new paragraphs come from -/

/-- Where a paragraph of the new document comes from. -/
inductive Origin where
  /-- An old paragraph. -/
  | kept (paragraphId : ℕ)
  /-- A piece of the text of a union. -/
  | new (text : Text)
  deriving DecidableEq

/-- The paragraph is an old one. -/
def Origin.isKept : Origin → Bool
  | .kept _ => true
  | .new _ => false

/-- The old paragraph. -/
def Origin.kept? : Origin → Option ℕ
  | .kept paragraphId => some paragraphId
  | .new _ => none

/-- What stands in the place of an old paragraph. -/
def originsOf (splitter : Text → Option (List Text)) (unions : List ParagraphUnion) (paragraphId : ℕ) : List Origin :=
  match unions.find? fun u => u.paragraphIds.head? = some paragraphId with
  | some union => ((splitter union.currentText).getD []).map .new
  | none => if unions.any fun u => u.paragraphIds.contains paragraphId then [] else [.kept paragraphId]

/-- Where the paragraphs of the new document come from, in order; an empty document has one new paragraph. -/
def origins (splitter : Text → Option (List Text)) (unions : List ParagraphUnion) (paragraphIds : List ℕ) : List Origin :=
  let all := paragraphIds.flatMap (originsOf splitter unions)
  if all = [] then [.new []] else all

/-- The node stands for the origin. -/
inductive Stands (p : Prepared) : Origin → ParagraphNode K → Prop
  | kept {k : ℕ} {node : ParagraphNode K} (hunion : k ∉ p.unionIds) (hkey : k ∈ p.paragraphData.keys)
      (hid : node.oldParagraphId = some k) (hchunks : node.chunkIds = p.chunksOf k) : Stands p (.kept k) node
  | new {text : Text} {node : ParagraphNode K} (hid : node.oldParagraphId = none)
      (hnew : ∀ c ∈ node.chunkIds, c ∉ p.existingChunkIds) (hempty : node.chunkIds = [] ↔ text = []) :
      Stands p (.new text) node

/-- A staged node has chunks exactly where its text is not empty. -/
theorem StagedNode.chunkIds_eq_nil_iff {node : ParagraphNode K} (h : StagedNode rt node) :
    node.chunkIds = [] ↔ node.rawText = [] := by
  rw [ParagraphNode.chunkIds, List.map_eq_nil_iff]
  constructor
  · intro hnil
    rw [← h.lossless, hnil]
    rfl
  · intro hempty
    rw [List.eq_nil_iff_forall_not_mem]
    intro c hc
    have hblank := h.filled c hc
    have hlossless := h.lossless
    rw [hempty, List.flatten_eq_nil_iff] at hlossless
    rw [hlossless c.rawText (List.mem_map_of_mem hc)] at hblank
    cases hblank

/-- Looking for the staged nodes of a paragraph is looking for the union it is the first of. -/
theorem lookup_staged {unavailableIds : Finset Uuid} {unions : List ParagraphUnion}
    {staged : List (ℕ × List (ParagraphNode K))} (h : StagedUnions rt unavailableIds unions staged) {k : ℕ} (hk : k ≠ 0) :
    (unions.find? (fun u => u.paragraphIds.head? = some k) = none ∧ staged.lookup k = none) ∨
      ∃ u nodes, unions.find? (fun u => u.paragraphIds.head? = some k) = some u ∧ staged.lookup k = some nodes ∧
        StagedNodes rt u.currentText nodes ∧ ∀ node ∈ nodes, ∀ c ∈ node.chunks, c ∈ pendingChunks staged := by
  obtain ⟨hnodes, -, -⟩ := h
  induction hnodes with
  | nil => exact .inl ⟨rfl, rfl⟩
  | @cons u e unions staged hfirst hrest ih =>
    obtain ⟨hid, hstaged⟩ := hfirst
    obtain ⟨first, nodes⟩ := e
    dsimp only at hid hstaged
    have hhead : u.paragraphIds.head? = some k ↔ k = first := by
      rw [hid]
      cases u.paragraphIds with
      | nil => simp [hk]
      | cons i ids => simp [eq_comm]
    by_cases hfound : k = first
    · refine .inr ⟨u, nodes, ?_, ?_, hstaged, fun node hnode c hc => ?_⟩
      · rw [List.find?_cons, decide_eq_true (hhead.mpr hfound)]
      · rw [hfound, List.lookup_cons_self]
      · exact List.mem_append_left _ (List.mem_flatMap.mpr ⟨node, hnode, hc⟩)
    · have hskip : (decide (u.paragraphIds.head? = some k)) = false := decide_eq_false fun heq => hfound (hhead.mp heq)
      have hlookup : List.lookup k ((first, nodes) :: staged) = List.lookup k staged := by
        rw [List.lookup_cons, beq_false_of_ne hfound]
      rw [List.find?_cons, hskip, hlookup]
      rcases ih with ⟨hnone, hnone'⟩ | ⟨v, nodes', hv, hnodes', hstaged', hmem⟩
      · exact .inl ⟨hnone, hnone'⟩
      · exact .inr ⟨v, nodes', hv, hnodes', hstaged', fun node hnode c hc =>
          List.mem_append_right _ (hmem node hnode c hc)⟩

theorem mem_unionIds {p : Prepared} {k : ℕ} :
    k ∈ p.unionIds ↔ (p.unions.any fun u => u.paragraphIds.contains k) = true := by
  rw [Prepared.unionIds, List.mem_flatMap, List.any_eq_true]
  simp only [List.contains_iff_mem]

section Nodes

variable {p : Prepared} {staged : List (ℕ × List (ParagraphNode K))}

/-- The nodes of an old paragraph stand for what stands in its place. -/
theorem forall₂_originsOf (h : StagedUnions rt p.existingChunkIds p.unions staged) {old : SavedParagraph}
    (hold : old.paragraphId ≠ 0) (hkey : old.paragraphId ∈ p.paragraphData.keys) :
    List.Forall₂ (Stands p) (originsOf rt.paragraphSplitter p.unions old.paragraphId) (nodesOf p staged old) := by
  rcases lookup_staged h hold with ⟨hnone, hlookup⟩ | ⟨u, nodes, hfind, hlookup, hstaged, hmem⟩
  · simp only [originsOf, nodesOf, hnone, hlookup]
    by_cases hunion : old.paragraphId ∈ p.unionIds
    · rw [if_pos (mem_unionIds.mp hunion), if_pos hunion]
      exact .nil
    · rw [if_neg (fun hany => hunion (mem_unionIds.mpr hany)), if_neg hunion]
      refine .cons (.kept hunion hkey rfl ?_) .nil
      rw [ParagraphNode.chunkIds, List.map_map]
      exact List.map_id _
  · simp only [originsOf, nodesOf, hfind, hlookup, hstaged.split, Option.getD_some]
    rw [List.map_map, List.forall₂_map_left_iff, List.forall₂_same]
    intro node hnode
    have hnew := hstaged.staged node hnode
    refine .new hnew.new (fun c hc => ?_) hnew.chunkIds_eq_nil_iff
    obtain ⟨chunk, hchunk, rfl⟩ := List.mem_map.mp hc
    exact h.new chunk (hmem node hnode chunk hchunk)

/-- The final nodes stand for the origins, one by one. -/
theorem forall₂_origins (h : StagedUnions rt p.existingChunkIds p.unions staged) (hids : 0 ∉ p.paragraphData.keys) :
    List.Forall₂ (Stands p) (origins rt.paragraphSplitter p.unions p.paragraphData.keys) (finalNodes p staged) := by
  have hkeys : p.oldParagraphs.map SavedParagraph.paragraphId = p.paragraphData.keys := map_ids_savedFrom _ _
  have hall : List.Forall₂ (Stands p)
      (p.paragraphData.keys.flatMap (originsOf rt.paragraphSplitter p.unions))
      (p.oldParagraphs.flatMap (nodesOf p staged)) := by
    rw [← hkeys, List.flatMap_map]
    have hin : ∀ old ∈ p.oldParagraphs, old.paragraphId ≠ 0 ∧ old.paragraphId ∈ p.paragraphData.keys := by
      intro old hold
      have hkey : old.paragraphId ∈ p.paragraphData.keys := hkeys ▸ List.mem_map_of_mem hold
      exact ⟨fun hzero => hids (hzero ▸ hkey), hkey⟩
    clear hkeys
    generalize p.oldParagraphs = olds at hin ⊢
    induction olds with
    | nil => exact .nil
    | cons old olds ih =>
      rw [List.forall_mem_cons] at hin
      exact List.rel_append (forall₂_originsOf h hin.1.1 hin.1.2) (ih hin.2)
  simp only [origins, finalNodes]
  have hnil : p.paragraphData.keys.flatMap (originsOf rt.paragraphSplitter p.unions) = [] ↔
      p.oldParagraphs.flatMap (nodesOf p staged) = [] := by
    rw [← List.length_eq_zero_iff, hall.length_eq, List.length_eq_zero_iff]
  by_cases hempty : p.oldParagraphs.flatMap (nodesOf p staged) = []
  · rw [if_pos (hnil.mpr hempty), if_pos hempty]
    exact .cons (.new rfl (fun c hc => absurd hc List.not_mem_nil) (by simp [ParagraphNode.chunkIds])) .nil
  · rw [if_neg fun hnone => hempty (hnil.mp hnone), if_neg hempty]
    exact hall

end Nodes

/-! ### Mappings -/

/-- The chunks of a mapping. -/
def chunkIdsOf (m : Dict ℕ (List Uuid)) : Finset Uuid := m.values.flatten.toFinset

/-- The paragraph of a chunk. -/
def paragraphOf (m : Dict ℕ (List Uuid)) (c : Uuid) : Option ℕ := (m.entries.find? fun e => c ∈ e.2).map Prod.fst

/-- A chunk stands in one list only. -/
def OnePlace (m : Dict ℕ (List Uuid)) : Prop :=
  ∀ {j k : ℕ} {cs ds : List Uuid} {c : Uuid}, m.get? j = some cs → m.get? k = some ds → c ∈ cs → c ∈ ds → j = k

section Mappings

variable {m : Dict ℕ (List Uuid)} {c : Uuid} {k : ℕ}

theorem mem_chunkIdsOf : c ∈ chunkIdsOf m ↔ ∃ k cs, m.get? k = some cs ∧ c ∈ cs := by
  rw [chunkIdsOf, List.mem_toFinset, List.mem_flatten]
  constructor
  · rintro ⟨cs, hcs, hc⟩
    obtain ⟨⟨k, cs⟩, he, rfl⟩ := List.mem_map.mp hcs
    exact ⟨k, cs, Dict.mem_entries_iff.mp he, hc⟩
  · rintro ⟨k, cs, hk, hc⟩
    exact ⟨cs, List.mem_map.mpr ⟨(k, cs), Dict.mem_entries_iff.mpr hk, rfl⟩, hc⟩

theorem onePlace_of_nodup (h : m.values.flatten.Nodup) : OnePlace m := by
  intro j k cs ds c hj hk hc hd
  by_contra hne
  have hdisjoint := (List.nodup_flatten.mp h).2
  rw [Dict.values, List.pairwise_map] at hdisjoint
  have hsymm : Std.Symm fun x y : ℕ × List Uuid => x.2.Disjoint y.2 := ⟨fun _ _ hxy => hxy.symm⟩
  have hentries : (j, cs) ≠ (k, ds) := fun heq => hne (congrArg Prod.fst heq)
  exact hdisjoint.forall (Dict.mem_entries_iff.mpr hj) (Dict.mem_entries_iff.mpr hk) hentries hc hd

theorem paragraphOf_eq_some (h : OnePlace m) : paragraphOf m c = some k ↔ ∃ cs, m.get? k = some cs ∧ c ∈ cs := by
  rw [paragraphOf, Option.map_eq_some_iff]
  constructor
  · rintro ⟨⟨j, cs⟩, hfind, rfl⟩
    exact ⟨cs, Dict.mem_entries_iff.mp (List.mem_of_find?_eq_some hfind), by simpa using List.find?_some hfind⟩
  · rintro ⟨cs, hk, hc⟩
    cases hfind : m.entries.find? fun e => c ∈ e.2 with
    | none =>
      rw [List.find?_eq_none] at hfind
      exact absurd (decide_eq_true hc) (hfind (k, cs) (Dict.mem_entries_iff.mpr hk))
    | some e =>
      obtain ⟨j, ds⟩ := e
      have hd : c ∈ ds := by simpa using List.find?_some hfind
      exact ⟨(j, ds), rfl, h (Dict.mem_entries_iff.mp (List.mem_of_find?_eq_some hfind)) hk hd hc⟩

theorem values_eq_map (m : Dict ℕ (List Uuid)) : m.values = m.keys.map fun k => (m.get? k).getD [] := by
  rw [Dict.keys, List.map_map, Dict.values]
  refine List.map_congr_left fun e he => ?_
  rw [Function.comp_apply, Dict.mem_entries_iff.mp he, Option.getD_some]

end Mappings

/-! ### What the renumbering counts -/

section Counts

variable {p : Prepared} {nodes : List (ParagraphNode K)} {all : List Origin}

theorem get?_finalChunkMappings (nodes : List (ParagraphNode K)) (i : ℕ) :
    (finalChunkMappings nodes).get? (i + 1) = nodes[i]?.map ParagraphNode.chunkIds := by
  rw [finalChunkMappings, Dict.get?_numbered_succ, List.getElem?_map]

theorem mem_chunkIdsOf_final {c : Uuid} :
    c ∈ chunkIdsOf (finalChunkMappings nodes) ↔ ∃ node ∈ nodes, c ∈ node.chunkIds := by
  rw [chunkIdsOf, finalChunkMappings, Dict.values_numbered, List.mem_toFinset, List.mem_flatten]
  simp only [List.mem_map, exists_exists_and_eq_and]

theorem mem_chunksOf {c : Uuid} {k : ℕ} : c ∈ p.chunksOf k ↔ ∃ cs, p.oldChunks.get? k = some cs ∧ c ∈ cs := by
  rw [Prepared.chunksOf]
  cases p.oldChunks.get? k <;> simp

theorem exists_stands (h : List.Forall₂ (Stands p) all nodes) {i : ℕ} {node : ParagraphNode K} (hi : nodes[i]? = some node) :
    ∃ origin, all[i]? = some origin ∧ Stands p origin node := by
  induction h generalizing i with
  | nil => cases hi
  | @cons origin first all nodes hfirst hrest ih =>
    cases i with
    | zero =>
      cases hi
      exact ⟨origin, rfl, hfirst⟩
    | succ i => exact ih hi

/-- The chunks of an old paragraph are old, those of a new one are not. -/
theorem mem_existing_iff (h : List.Forall₂ (Stands p) all nodes) {node : ParagraphNode K} (hnode : node ∈ nodes) {c : Uuid}
    (hc : c ∈ node.chunkIds) : c ∈ p.existingChunkIds ↔ node.oldParagraphId ≠ none := by
  obtain ⟨i, hi⟩ := List.mem_iff_getElem?.mp hnode
  obtain ⟨origin, -, hstands⟩ := exists_stands h hi
  cases hstands with
  | kept hunion hkey hid hchunks =>
    rw [hchunks, mem_chunksOf] at hc
    exact iff_of_true (mem_chunkIdsOf.mpr ⟨_, hc⟩) (by simp [hid])
  | new hid hnew hempty => exact iff_of_false (hnew c hc) (by simp [hid])

/-- The identifiers of the new chunks. -/
def newIds (nodes : List (ParagraphNode K)) : List Uuid :=
  nodes.flatMap fun node => if node.oldParagraphId = none then node.chunkIds else []

theorem map_newChunks (nodes : List (ParagraphNode K)) :
    (newChunks nodes).map (fun e => e.2.chunkId) = newIds nodes := by
  rw [newChunks, newIds, List.map_flatMap]
  generalize 1 = start
  induction nodes generalizing start with
  | nil => rfl
  | cons node nodes ih =>
    rw [List.zipIdx_cons, List.flatMap_cons, List.flatMap_cons, ih]
    congr 1
    split_ifs
    · rw [List.map_map]
      rfl
    · rfl

theorem newIds_sublist (nodes : List (ParagraphNode K)) :
    (newIds nodes).Sublist (nodes.map ParagraphNode.chunkIds).flatten := by
  induction nodes with
  | nil => exact List.Sublist.refl _
  | cons node nodes ih =>
    rw [newIds, List.flatMap_cons, List.map_cons, List.flatten_cons]
    refine List.Sublist.append ?_ ih
    split_ifs
    · exact List.Sublist.refl _
    · exact List.nil_sublist _

theorem card_new (h : List.Forall₂ (Stands p) all nodes) (hnodup : (finalChunkMappings nodes).values.flatten.Nodup) :
    (newChunks nodes).length = (chunkIdsOf (finalChunkMappings nodes) \ chunkIdsOf p.oldChunks).card := by
  rw [finalChunkMappings, Dict.values_numbered] at hnodup
  have hids : (newIds nodes).toFinset = chunkIdsOf (finalChunkMappings nodes) \ chunkIdsOf p.oldChunks := by
    ext c
    rw [List.mem_toFinset, newIds, List.mem_flatMap, Finset.mem_sdiff, mem_chunkIdsOf_final]
    constructor
    · rintro ⟨node, hnode, hc⟩
      split_ifs at hc with hnew
      · exact ⟨⟨node, hnode, hc⟩, fun hold => (mem_existing_iff h hnode hc).mp hold hnew⟩
      · cases hc
    · rintro ⟨⟨node, hnode, hc⟩, hnot⟩
      have hnew : node.oldParagraphId = none := by
        by_contra hold
        exact hnot ((mem_existing_iff h hnode hc).mpr hold)
      exact ⟨node, hnode, by rwa [if_pos hnew]⟩
  rw [← hids, List.toFinset_card_of_nodup (hnodup.sublist (newIds_sublist nodes)), ← map_newChunks, List.length_map]

/-- No chunk of a union is used again. -/
theorem targeted_disjoint (h : List.Forall₂ (Stands p) all nodes) (hold : OnePlace p.oldChunks) :
    p.targetedIds ∩ chunkIdsOf (finalChunkMappings nodes) = ∅ := by
  rw [Finset.eq_empty_iff_forall_notMem]
  intro c hc
  rw [Finset.mem_inter, Prepared.targetedIds, Prepared.targetedChunks, List.mem_toFinset, List.mem_flatMap, mem_chunkIdsOf_final] at hc
  obtain ⟨⟨k, hk, hck⟩, node, hnode, hc⟩ := hc
  obtain ⟨cs, hcs, hmem⟩ := mem_chunksOf.mp hck
  obtain ⟨i, hi⟩ := List.mem_iff_getElem?.mp hnode
  have hexisting : c ∈ p.existingChunkIds := mem_chunkIdsOf.mpr ⟨k, cs, hcs, hmem⟩
  obtain ⟨origin, -, hstands⟩ := exists_stands h hi
  cases hstands with
  | new hid hnew hempty => exact hnew c hc hexisting
  | kept hunion hkey hid hchunks =>
    rw [hchunks] at hc
    obtain ⟨ds, hds, hmem'⟩ := mem_chunksOf.mp hc
    exact hunion (hold hcs hds hmem hmem' ▸ hk)

/-- The chunks of a node are updated where it is an old paragraph with another number. -/
theorem mem_keys_nodeUpdates {c : Uuid} {updates : Dict Uuid ℕ} {node : ParagraphNode K} {n : ℕ} :
    c ∈ (nodeUpdates updates (node, n)).keys ↔
      (∃ k, node.oldParagraphId = some k ∧ k ≠ n ∧ c ∈ node.chunkIds) ∨ c ∈ updates.keys := by
  rw [nodeUpdates]
  cases hold : node.oldParagraphId with
  | none => simp
  | some k =>
    dsimp only
    by_cases hmoved : k ≠ n
    · rw [if_pos hmoved, Dict.mem_keys_foldl_set]
      simp [hmoved]
    · rw [if_neg hmoved]
      simp_all

/-- A chunk is updated where its paragraph is an old one with another number. -/
theorem mem_keys_unmodifiedUpdates {c : Uuid} :
    c ∈ (unmodifiedUpdates nodes).keys ↔
      ∃ i node k, nodes[i]? = some node ∧ node.oldParagraphId = some k ∧ k ≠ i + 1 ∧ c ∈ node.chunkIds := by
  suffices hloop : ∀ (start : ℕ) (updates : Dict Uuid ℕ),
      c ∈ ((nodes.zipIdx start).foldl nodeUpdates updates).keys ↔
        (∃ i node k, nodes[i]? = some node ∧ node.oldParagraphId = some k ∧ k ≠ start + i ∧ c ∈ node.chunkIds) ∨
          c ∈ updates.keys by
    rw [unmodifiedUpdates, hloop]
    simp only [Dict.keys_empty, List.not_mem_nil, or_false, Nat.add_comm 1]
  intro start updates
  induction nodes generalizing start updates with
  | nil => simp
  | cons node nodes ih =>
    rw [List.zipIdx_cons, List.foldl_cons, ih, mem_keys_nodeUpdates]
    constructor
    · rintro (⟨i, n, k, hn, hk, hne, hc⟩ | ⟨k, hk, hne, hc⟩ | hc)
      · exact .inl ⟨i + 1, n, k, hn, hk, by omega, hc⟩
      · exact .inl ⟨0, node, k, rfl, hk, hne, hc⟩
      · exact .inr hc
    · rintro (⟨_ | i, n, k, hn, hk, hne, hc⟩ | hc)
      · cases hn
        exact .inr (.inl ⟨k, hk, hne, hc⟩)
      · exact .inl ⟨i, n, k, hn, hk, by omega, hc⟩
      · exact .inr (.inr hc)

theorem card_updated (h : List.Forall₂ (Stands p) all nodes) (hold : OnePlace p.oldChunks)
    (hfinal : OnePlace (finalChunkMappings nodes)) :
    (unmodifiedUpdates nodes).entries.length =
      ((chunkIdsOf (finalChunkMappings nodes) ∩ chunkIdsOf p.oldChunks).filter fun c =>
        paragraphOf p.oldChunks c ≠ paragraphOf (finalChunkMappings nodes) c).card := by
  have hids : (unmodifiedUpdates nodes).keys.toFinset =
      (chunkIdsOf (finalChunkMappings nodes) ∩ chunkIdsOf p.oldChunks).filter fun c =>
        paragraphOf p.oldChunks c ≠ paragraphOf (finalChunkMappings nodes) c := by
    -- A chunk of an old paragraph has the number of that paragraph before, and the place of its node after.
    have hplaces : ∀ {i : ℕ} {node : ParagraphNode K} {k : ℕ} {c : Uuid}, nodes[i]? = some node →
        node.oldParagraphId = some k → c ∈ node.chunkIds →
        paragraphOf p.oldChunks c = some k ∧ paragraphOf (finalChunkMappings nodes) c = some (i + 1) := by
      intro i node k c hi hk hc
      rw [paragraphOf_eq_some hold, paragraphOf_eq_some hfinal, get?_finalChunkMappings, hi]
      refine ⟨?_, node.chunkIds, rfl, hc⟩
      obtain ⟨origin, -, hstands⟩ := exists_stands h hi
      cases hstands with
      | new hid hnew hempty =>
        rw [hid] at hk
        cases hk
      | kept hunion hkey hid hchunks =>
        rw [hid] at hk
        cases hk
        exact mem_chunksOf.mp (hchunks ▸ hc)
    ext c
    rw [List.mem_toFinset, mem_keys_unmodifiedUpdates, Finset.mem_filter, Finset.mem_inter, mem_chunkIdsOf_final]
    constructor
    · rintro ⟨i, node, k, hi, hk, hmoved, hc⟩
      have hnode := List.mem_of_getElem? hi
      obtain ⟨hbefore, hafter⟩ := hplaces hi hk hc
      refine ⟨⟨⟨node, hnode, hc⟩, (mem_existing_iff h hnode hc).mpr (by simp [hk])⟩, ?_⟩
      rw [hbefore, hafter]
      simpa using hmoved
    · rintro ⟨⟨⟨node, hnode, hc⟩, hexisting⟩, hmoved⟩
      obtain ⟨i, hi⟩ := List.mem_iff_getElem?.mp hnode
      obtain ⟨k, hk⟩ := Option.ne_none_iff_exists'.mp ((mem_existing_iff h hnode hc).mp hexisting)
      obtain ⟨hbefore, hafter⟩ := hplaces hi hk hc
      refine ⟨i, node, k, hi, hk, fun heq => hmoved ?_, hc⟩
      rw [hbefore, hafter, heq]
  rw [← hids, List.toFinset_card_of_nodup (unmodifiedUpdates nodes).nodup_keys, Dict.keys, List.length_map]

end Counts

/-! ### The comparison by number -/

/-- The lists of the old paragraphs outside of the unions, in order. -/
def untouched (old : Dict ℕ (List Uuid)) (unionIds : List ℕ) : List (List Uuid) := (old.filter fun n _ => n ∉ unionIds).values

/-- The lists of the final paragraphs that hold an old chunk or come from an old paragraph, in order. -/
def reappearing (old final : Dict ℕ (List Uuid)) (all : List Origin) : List (List Uuid) :=
  ((all.zip final.values).filter fun e => e.1.isKept || e.2.any fun c => c ∈ chunkIdsOf old).map Prod.snd

/-- A number has the same paragraph before and after, or paragraphs without chunks. -/
def KeepsPlace (old : Dict ℕ (List Uuid)) (n : ℕ) : Option (List Uuid) → Option Origin → Prop
  | none, none => True
  | some cs, some (.kept k) => k = n ∨ (cs = [] ∧ old.get? k = some [])
  | some cs, some (.new text) => cs = [] ∧ text = []
  | _, _ => False

/-- No paragraph outside of the unions changes its number, but for paragraphs without chunks. -/
def KeepsPlaces (old : Dict ℕ (List Uuid)) (unionIds : List ℕ) (all : List Origin) : Prop :=
  ∀ i, i + 1 ∉ unionIds → KeepsPlace old (i + 1) (old.get? (i + 1)) all[i]?

section Comparison

variable {p : Prepared} {nodes : List (ParagraphNode K)} {all : List Origin}

theorem filterMap_originsOf (splitter : Text → Option (List Text)) (k : ℕ) :
    (originsOf splitter p.unions k).filterMap Origin.kept? =
      if k ∈ p.unionIds then [] else [k] := by
  rw [originsOf]
  cases hfind : p.unions.find? fun u => u.paragraphIds.head? = some k with
  | some u =>
    have hhead : u.paragraphIds.head? = some k := by simpa using List.find?_some hfind
    have hk : k ∈ p.unionIds :=
      List.mem_flatMap.mpr ⟨u, List.mem_of_find?_eq_some hfind, List.mem_of_mem_head? hhead⟩
    rw [if_pos hk, List.filterMap_map]
    exact List.filterMap_eq_nil_iff.mpr fun text _ => rfl
  | none =>
    dsimp only
    by_cases hk : k ∈ p.unionIds
    · rw [if_pos (mem_unionIds.mp hk), if_pos hk]
      rfl
    · rw [if_neg (fun hany => hk (mem_unionIds.mpr hany)), if_neg hk]
      rfl

/-- The old paragraphs among the origins are those outside of the unions, in order. -/
theorem filterMap_origins (splitter : Text → Option (List Text)) (ids : List ℕ) :
    (origins splitter p.unions ids).filterMap Origin.kept? =
      ids.filter fun k => k ∉ p.unionIds := by
  have hall : ∀ ids : List ℕ, (ids.flatMap (originsOf splitter p.unions)).filterMap
      Origin.kept? = ids.filter fun k => k ∉ p.unionIds := by
    intro ids
    induction ids with
    | nil => rfl
    | cons k ids ih =>
      rw [List.flatMap_cons, List.filterMap_append, ih, filterMap_originsOf, List.filter_cons]
      by_cases hk : k ∈ p.unionIds <;> simp [hk]
  simp only [origins]
  split_ifs with hempty
  · rw [← hall ids, hempty]
    rfl
  · exact hall ids

/-- The lists outside of the unions reappear, whatever becomes of their numbers. -/
theorem untouched_eq_reappearing {splitter : Text → Option (List Text)}
    (h : List.Forall₂ (Stands p) (origins splitter p.unions p.oldChunks.keys) nodes) :
    untouched p.oldChunks p.unionIds =
      reappearing p.oldChunks (finalChunkMappings nodes) (origins splitter p.unions p.oldChunks.keys) := by
  have hlists : ∀ {all : List Origin} {nodes : List (ParagraphNode K)}, List.Forall₂ (Stands p) all nodes →
      ((all.zip (nodes.map ParagraphNode.chunkIds)).filter
        fun e => e.1.isKept || e.2.any fun c => c ∈ chunkIdsOf p.oldChunks).map Prod.snd =
      (all.filterMap Origin.kept?).map p.chunksOf := by
    intro all nodes h
    induction h with
    | nil => rfl
    | cons hfirst hrest ih =>
      rw [List.map_cons, List.zip_cons_cons]
      cases hfirst with
      | kept hunion hkey hid hchunks =>
        rw [List.filter_cons_of_pos rfl, List.map_cons, ih, hchunks]
        rfl
      | new hid hnew hempty =>
        rw [List.filter_cons_of_neg, ih]
        · rfl
        · simp only [Origin.isKept, Bool.false_or, Bool.not_eq_true, List.any_eq_false, decide_eq_true_eq]
          exact hnew
  have hvalues : untouched p.oldChunks p.unionIds =
      (p.oldChunks.keys.filter fun k => k ∉ p.unionIds).map p.chunksOf := by
    rw [untouched, values_eq_map, Dict.keys_filter]
    refine List.map_congr_left fun k hk => ?_
    have hnot : k ∉ p.unionIds := by simpa using (List.mem_filter.mp hk).2
    rw [Dict.get?_filter, Prepared.chunksOf]
    cases p.oldChunks.get? k with
    | none => rfl
    | some cs => simp [Option.filter, hnot]
  rw [hvalues, reappearing, finalChunkMappings, Dict.values_numbered, hlists h, filterMap_origins]

/-- The comparison by number finds no change exactly when no paragraph outside of the unions changes its number. -/
theorem outsideUnions_eq_iff (h : List.Forall₂ (Stands p) all nodes) (hkeys : p.oldChunks.keys = p.paragraphData.keys)
    (hnumbers : p.oldChunks.keys = List.range' 1 p.oldChunks.keys.length) (hold : OnePlace p.oldChunks) :
    outsideUnions p p.oldChunks = outsideUnions p (finalChunkMappings nodes) ↔
      KeepsPlaces p.oldChunks p.unionIds all := by
  have hget : ∀ (m : Dict ℕ (List Uuid)) n, (outsideUnions p m).get? n = if n ∈ p.unionIds then none else m.get? n := by
    intro m n
    rw [outsideUnions, Dict.get?_filter]
    by_cases hn : n ∈ p.unionIds <;> cases m.get? n <;> simp [hn]
  have hascending : ∀ m : Dict ℕ (List Uuid), m.keys.Pairwise (· < ·) → (outsideUnions p m).keys.Pairwise (· < ·) := by
    intro m hm
    rw [outsideUnions, Dict.keys_filter]
    exact hm.filter _
  have hzero : p.oldChunks.get? 0 = none := by
    rw [Dict.get?_eq_none_iff, hnumbers, List.mem_range'_1]
    omega
  have hplace : ∀ i, p.oldChunks.get? (i + 1) = (finalChunkMappings nodes).get? (i + 1) ↔
      KeepsPlace p.oldChunks (i + 1) (p.oldChunks.get? (i + 1)) all[i]? := by
    intro i
    rw [get?_finalChunkMappings]
    cases hi : nodes[i]? with
    | none =>
      have hnone : all[i]? = none := by
        rw [List.getElem?_eq_none_iff, h.length_eq]
        exact List.getElem?_eq_none_iff.mp hi
      rw [hnone, Option.map_none]
      cases p.oldChunks.get? (i + 1) <;> simp [KeepsPlace]
    | some node =>
      obtain ⟨origin, horigin, hstands⟩ := exists_stands h hi
      rw [horigin, Option.map_some]
      cases hcs : p.oldChunks.get? (i + 1) with
      | none => simp [KeepsPlace]
      | some cs =>
        rw [Option.some.injEq]
        cases hstands with
        | @kept k _ hunion hkey hid hchunks =>
          obtain ⟨ds, hds⟩ := Dict.mem_keys_iff.mp (hkeys ▸ hkey)
          rw [hchunks, Prepared.chunksOf, hds, Option.getD_some, KeepsPlace, hds, Option.some.injEq]
          constructor
          · rintro rfl
            cases cs with
            | nil => exact .inr ⟨rfl, rfl⟩
            | cons c cs => exact .inl (hold hds hcs List.mem_cons_self List.mem_cons_self)
          · rintro (rfl | ⟨rfl, rfl⟩)
            · exact Option.some.inj (hcs.symm.trans hds)
            · rfl
        | new hid hnew hempty =>
          rw [KeepsPlace, ← hempty]
          constructor
          · rintro rfl
            have hnil : node.chunkIds = [] := by
              rw [List.eq_nil_iff_forall_not_mem]
              exact fun c hc => hnew c hc (mem_chunkIdsOf.mpr ⟨i + 1, _, hcs, hc⟩)
            exact ⟨hnil, hnil⟩
          · rintro ⟨rfl, hnil⟩
            exact hnil.symm
  constructor
  · intro heq i hi
    have hsame := congrArg (fun m => Dict.get? m (i + 1)) heq
    simp only [hget, if_neg hi] at hsame
    exact (hplace i).mp hsame
  · intro hkeep
    refine Dict.eq_of_pairwise (fun a b hab => lt_asymm hab) (hascending _ ?_) (hascending _ ?_) fun n => ?_
    · rw [hnumbers]
      exact List.pairwise_lt_range'
    · rw [finalChunkMappings, Dict.keys_numbered]
      exact List.pairwise_lt_range'
    · rw [hget, hget]
      split_ifs with hn
      · rfl
      · cases n with
        | zero => rw [hzero, finalChunkMappings, Dict.get?_numbered_zero]
        | succ i => exact (hplace i).mpr (hkeep i hn)

end Comparison

/-! ### The evidence -/

/-- What is recorded of the chunks tells what became of them. -/
structure Truthful (t : Trace) (old final : Dict ℕ (List Uuid)) (unionIds : List ℕ) (all : List Origin) : Prop where
  /-- The flag is set exactly where the lists of the old paragraphs outside of the unions reappear, in order. -/
  flag : t.flags.get? (lit "unchanged_ordered_chunk_ids_retained") = some true ↔
    untouched old unionIds = reappearing old final all
  /-- The chunks there are now. -/
  count : t.counts.get? (lit "final_chunk_count") = some (chunkIdsOf final).card
  /-- The chunks that were not there before. -/
  new : t.counts.get? (lit "new_chunk_count") = some (chunkIdsOf final \ chunkIdsOf old).card
  /-- The chunks that were. -/
  retained : t.counts.get? (lit "retained_chunk_count") = some (chunkIdsOf final ∩ chunkIdsOf old).card
  sum : (chunkIdsOf final).card = (chunkIdsOf final \ chunkIdsOf old).card + (chunkIdsOf final ∩ chunkIdsOf old).card
  /-- The chunks among these whose paragraph has another number. -/
  updated : t.counts.get? (lit "updated_retained_chunk_count") =
    some ((chunkIdsOf final ∩ chunkIdsOf old).filter fun c => paragraphOf old c ≠ paragraphOf final c).card
  intersection : t.counts.get? (lit "changed_old_new_intersection_count") = some 0

/-- The names of the evidence. -/
def evidenceNames : List EvidenceKey :=
  [.flag (lit "unchanged_ordered_chunk_ids_retained"), .count (lit "final_chunk_count"), .count (lit "new_chunk_count"),
    .count (lit "retained_chunk_count"), .count (lit "updated_retained_chunk_count"),
    .count (lit "changed_old_new_intersection_count")]

section Evidence

variable {w w' : World K} {document : Uuid} {documentId currentText : Text} {p : Prepared} {nodes : List (ParagraphNode K)}

theorem onePlace_documentChunks {m : ParagraphMap} (h : m.Owned) (document : Uuid) : OnePlace (m.documentChunks document) := by
  intro j k cs ds c hj hk hc hd
  rw [ParagraphMap.get?_documentChunks] at hj hk
  exact congrArg Prod.snd (h.eq_of_mem hj hk hc hd)

/-- Among calls that are silent, the calls of the renumbering are the ones that record a name. -/
theorem filter_silent {before behind middle : List Call} (hbefore : Silent evidenceNames before)
    (hbehind : Silent evidenceNames behind) {k : EvidenceKey} (hk : k ∈ evidenceNames) :
    (before ++ middle ++ behind).filter (fun c => k ∈ c.keys) = middle.filter fun c => k ∈ c.keys := by
  have hnone : ∀ calls : List Call, Silent evidenceNames calls → calls.filter (fun c => decide (k ∈ c.keys)) = [] := by
    intro calls hcalls
    rw [List.filter_eq_nil_iff]
    intro c hc hmem
    exact hcalls c hc k (of_decide_eq_true hmem) hk
  rw [List.filter_append, List.filter_append, hnone before hbefore, hnone behind hbehind, List.nil_append, List.append_nil]

/-- What a completed save has recorded. -/
theorem evidence_of_completed (sha : List ℕ → Sha256) (h : Completed rt evidenceNames w w' document currentText p nodes)
    (hfresh : w.outside.trace = []) :
    let t := Trace.fresh.observeAll sha w'.outside.trace
    t.flags.get? (lit "unchanged_ordered_chunk_ids_retained") =
        some (decide (outsideUnions p p.oldChunks = outsideUnions p (finalChunkMappings nodes))) ∧
      t.counts.get? (lit "final_chunk_count") = some (chunkIdsOf (finalChunkMappings nodes)).card ∧
      t.counts.get? (lit "new_chunk_count") = some (newChunks nodes).length ∧
      t.counts.get? (lit "retained_chunk_count") =
        some (chunkIdsOf (finalChunkMappings nodes) ∩ chunkIdsOf p.oldChunks).card ∧
      t.counts.get? (lit "updated_retained_chunk_count") = some (unmodifiedUpdates nodes).entries.length ∧
      t.counts.get? (lit "changed_old_new_intersection_count") =
        some (p.targetedIds ∩ chunkIdsOf (finalChunkMappings nodes)).card := by
  obtain ⟨before, behind, htrace, hbefore, hbehind⟩ := h.trace
  rw [hfresh, List.nil_append] at htrace
  have hcount : ∀ {name : Text} {value : ℕ}, EvidenceKey.count name ∈ evidenceNames → isRequiredText name 96 = true →
      (renumberingCalls p nodes).filter (fun c => EvidenceKey.count name ∈ c.keys) = [.addCount name value] →
      (Trace.fresh.observeAll sha w'.outside.trace).counts.get? name = some value := by
    intro name value hname hrequired hone
    refine Trace.counts_of_filter sha ?_ hrequired
    rw [htrace, filter_silent hbefore hbehind hname, hone]
  refine ⟨Trace.flags_of_filter sha ?_ (by decide), hcount (by decide) (by decide) rfl, hcount (by decide) (by decide) rfl,
    hcount (by decide) (by decide) rfl, hcount (by decide) (by decide) rfl, hcount (by decide) (by decide) rfl⟩
  rw [htrace, filter_silent hbefore hbehind (by decide)]
  rfl

/-- Of a save that returns under a fresh trace, the evidence is truthful exactly where no paragraph outside of the
unions changes its number, but for paragraphs without chunks. -/
theorem saveWizard_evidence_iff [DecidableEq K] (sha : List ℕ → Sha256) (rt : Runtime K) (documentId currentText : Text)
    (modifiedParagraphIds : Option (List ℤ)) (w w' : World K) (document : Uuid) (data : Dict ℕ Text)
    (old : Dict ℕ (List Uuid)) (unions : List ParagraphUnion) (hagree : Agree w document data old)
    (hid : requiredUuid documentId "document_id" = .ok document) (hchanged : currentText ≠ data.values.flatten)
    (hfresh : w.outside.trace = []) (hunions : editUnions rt data currentText modifiedParagraphIds = .ok unions)
    (hrun : saveWizard rt documentId currentText modifiedParagraphIds w = .ok () w') :
    Truthful (Trace.fresh.observeAll sha w'.outside.trace) old (w'.paragraphs.documentChunks document)
        (unions.flatMap ParagraphUnion.paragraphIds) (origins rt.paragraphSplitter unions data.keys) ↔
      KeepsPlaces old (unions.flatMap ParagraphUnion.paragraphIds) (origins rt.paragraphSplitter unions data.keys) := by
  have hnames : ∀ k ∈ stepNames, k ∉ evidenceNames := by decide
  obtain ⟨p, nodes, hfound, hdone⟩ := saveWizard_completed hagree hid hnames hrun hchanged
  obtain ⟨rfl, rfl, hunions'⟩ := hfound
  obtain rfl := Except.ok.inj (hunions.symm.trans hunions')
  obtain ⟨staged, hstaged, hnodes⟩ := hdone.staged
  have hzero : 0 ∉ p.paragraphData.keys := by
    rw [hagree.keys, List.mem_range'_1]
    omega
  have hstands := forall₂_origins hstaged hzero
  rw [← hnodes] at hstands
  have hold : OnePlace p.oldChunks := hagree.documentChunks ▸ onePlace_documentChunks hagree.owned document
  have hnodup := hdone.renumbered.replacement.nodup
  have hfinal : w'.paragraphs.documentChunks document = finalChunkMappings nodes := by
    refine ParagraphMap.documentChunks_eq_of_get? ?_ fun k => ?_
    · rw [finalChunkMappings, Dict.keys_numbered]
      exact List.pairwise_lt_range'
    · rw [hdone.paragraphs, if_pos rfl]
  have hnumbers : p.oldChunks.keys = List.range' 1 p.oldChunks.keys.length := by
    rw [hagree.same]
    exact hagree.keys
  have hreappear := untouched_eq_reappearing (hagree.same ▸ hstands)
  rw [hagree.same] at hreappear
  obtain ⟨hflag, hcount, hnew, hretained, hupdated, hintersection⟩ := evidence_of_completed sha hdone hfresh
  change Truthful _ _ _ p.unionIds _ ↔ KeepsPlaces p.oldChunks p.unionIds _
  rw [hfinal, ← outsideUnions_eq_iff hstands hagree.same hnumbers hold]
  constructor
  · intro h
    have hset := h.flag.mpr hreappear
    rw [hflag, Option.some.injEq, decide_eq_true_eq] at hset
    exact hset
  · intro hsame
    refine ⟨?_, hcount, ?_, hretained, ?_, ?_, ?_⟩
    · rw [hflag, decide_eq_true hsame]
      exact iff_of_true rfl hreappear
    · rw [hnew, card_new hstands hnodup]
    · exact (Finset.card_sdiff_add_card_inter _ _).symm
    · rw [hupdated, card_updated hstands hold (onePlace_of_nodup hnodup)]
    · rw [hintersection, targeted_disjoint hstands hold, Finset.card_empty]

end Evidence

/-! ### A paragraph that becomes two -/

/-- The identifier whose digits are all the same. -/
def uuidSample (d : Digit) : Uuid := ⟨List.replicate 32 d, List.length_replicate⟩

/-- A document of the two paragraphs "A" and "B". -/
def dataSample : Dict ℕ Text := .numbered [lit "A", lit "B"]

/-- Its chunks, one for each paragraph. -/
def chunksSample : Dict ℕ (List Uuid) := .numbered [[uuidSample 1], [uuidSample 2]]

/-- A stored chunk of the document. -/
def recordSample (paragraphId : ℕ) (chunkId : Uuid) (rawText : Text) : ChunkRecord ℤ :=
  ⟨uuidSample 0, paragraphId, chunkId, rawText, [List.replicate 128 1], [1]⟩

/-- The document, saved. -/
def worldSample : World ℤ where
  documents := ⟨⟨[(uuidSample 0, dataSample)], List.nodup_singleton _⟩⟩
  paragraphs := (ParagraphMap.empty.entered (uuidSample 0) (1, [uuidSample 1])).entered (uuidSample 0) (2, [uuidSample 2])
  outside :=
    { chunks := ⟨[(uuidSample 1, recordSample 1 (uuidSample 1) (lit "A")),
        (uuidSample 2, recordSample 2 (uuidSample 2) (lit "B"))], by decide⟩
      calls := 0
      trace := [] }
  progress := ⟨"", [], [], [], []⟩

/-- Providers that never fail: "CD" is two paragraphs, and every paragraph is one chunk. -/
def runtimeSample : Runtime ℤ where
  faults := fun _ => none
  getOpcodes := fun _ _ => [⟨.replace, 0, 1, 0, 2⟩, ⟨.equal, 1, 2, 2, 3⟩]
  paragraphSplitter := fun t => some (t.map fun c => [c])
  paragraphChunker := fun t => some [t]
  uuidFactory := fun n => (uuidSample (Fin.ofNat 16 n)).str
  encodeDocuments := fun texts => some (texts.map fun _ => .sequence [.ofNumbers (List.replicate 128 1)])
  embedMany := fun texts => some (texts.map fun _ => .ofNumbers [1])

/-- A hash. -/
def shaSample (_ : List ℕ) : Sha256 := ⟨List.replicate 64 0, List.length_replicate⟩

/-- The union of the edit. -/
def unionsSample : List ParagraphUnion := [⟨[1], lit "CD"⟩]

theorem agree_sample : Agree worldSample (uuidSample 0) dataSample chunksSample := by
  refine ⟨by decide +kernel, by decide +kernel, by decide +kernel, by decide +kernel, ?_⟩
  apply ParagraphMap.Owned.entered
  · apply ParagraphMap.Owned.empty.entered
    · rfl
    · exact List.nodup_singleton _
    · exact fun _ _ => rfl
  · decide +kernel
  · exact List.nodup_singleton _
  · decide +kernel

/-- The world a run that returns ends in. -/
def returned {ε : Type} : EStateM.Result ε (World ℤ) Unit → Option (World ℤ)
  | .ok () w => some w
  | .error _ _ => none

theorem exists_ok_of_returned {ε : Type} {r : EStateM.Result ε (World ℤ) Unit} {β : Type} {f : World ℤ → β} {b : β}
    (h : (returned r).map f = some b) : ∃ w, r = .ok () w ∧ f w = b := by
  cases r with
  | ok u w => exact ⟨w, rfl, Option.some.inj h⟩
  | error e w => cases h

theorem saveWizard_evidence_iff_sample :
    ∃ w', saveWizard runtimeSample (uuidSample 0).str (lit "CDB") none worldSample = .ok () w' ∧
      (Truthful (Trace.fresh.observeAll shaSample w'.outside.trace) chunksSample
          (w'.paragraphs.documentChunks (uuidSample 0)) [1]
          (origins runtimeSample.paragraphSplitter unionsSample dataSample.keys) ↔
        KeepsPlaces chunksSample [1] (origins runtimeSample.paragraphSplitter unionsSample dataSample.keys)) := by
  have hrun : (returned (saveWizard runtimeSample (uuidSample 0).str (lit "CDB") none worldSample)).map (fun _ => ()) =
      some () := by
    decide +kernel
  obtain ⟨w', hw', -⟩ := exists_ok_of_returned hrun
  obtain ⟨unions, hunions, rfl⟩ := exists_ok_of_toOption (f := id)
    (show (editUnions runtimeSample dataSample (lit "CDB") none).toOption.map id = some unionsSample by decide +kernel)
  exact ⟨w', hw', saveWizard_evidence_iff shaSample runtimeSample (uuidSample 0).str (lit "CDB") none worldSample w'
    (uuidSample 0) dataSample chunksSample unionsSample agree_sample (requiredUuid_str _ _) (by decide) rfl hunions hw'⟩

/-- The list of "B" reappears, but under the number 3, where the evidence looks for it under the number 2. -/
theorem saveWizard_evidence_untruthful :
    ∃ w', saveWizard runtimeSample (uuidSample 0).str (lit "CDB") none worldSample = .ok () w' ∧
      Agree worldSample (uuidSample 0) dataSample chunksSample ∧
      editUnions runtimeSample dataSample (lit "CDB") none = .ok unionsSample ∧
      ¬ Truthful (Trace.fresh.observeAll shaSample w'.outside.trace) chunksSample
        (w'.paragraphs.documentChunks (uuidSample 0)) [1]
        (origins runtimeSample.paragraphSplitter unionsSample dataSample.keys) := by
  have hrun : (returned (saveWizard runtimeSample (uuidSample 0).str (lit "CDB") none worldSample)).map (fun w =>
      ((Trace.fresh.observeAll shaSample w.outside.trace).flags.get? (lit "unchanged_ordered_chunk_ids_retained"),
        w.paragraphs.documentChunks (uuidSample 0))) =
      some (some false, .numbered [[uuidSample 6], [uuidSample 8], [uuidSample 2]]) := by
    decide +kernel
  obtain ⟨w', hw', hfinal⟩ := exists_ok_of_returned hrun
  obtain ⟨hflag, hchunks⟩ := Prod.mk.inj hfinal
  obtain ⟨unions, hunions, rfl⟩ := exists_ok_of_toOption (f := id)
    (show (editUnions runtimeSample dataSample (lit "CDB") none).toOption.map id = some unionsSample by decide +kernel)
  refine ⟨w', hw', agree_sample, hunions, fun h => ?_⟩
  have hreappear : untouched chunksSample [1] = reappearing chunksSample
      (.numbered [[uuidSample 6], [uuidSample 8], [uuidSample 2]])
      (origins runtimeSample.paragraphSplitter unionsSample dataSample.keys) := by
    decide +kernel
  have htrue := h.flag.mpr (hchunks ▸ hreappear)
  rw [hflag] at htrue
  cases htrue

end TenantRag.Save

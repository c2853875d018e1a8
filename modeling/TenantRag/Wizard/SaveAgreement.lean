import TenantRag.Wizard.Agreement

/-!
# A save keeps the maps and the store together

What the steps of a save have done to the records where they all return, and what a save
that returns or fails has done to its document and to the others.

## What is proved

* `wp_saveSteps_rewritten` — the steps rewrite the records, and enter the texts and lists of the final nodes.
* `elsewhere_saveWizard` — however a save ends, the maps keep the other documents.
* `wp_saveWizard_saved` — a document that was saved is consistent, has the text asked for and keeps what lies outside
  of the unions; a save that fails, and is compensated, leaves every document alone.
-/

namespace TenantRag

/-- The store and the maps read a document identifier alike. -/
theorem uuidText_eq_requiredUuid {documentId : Text} {document document' : Uuid} {name name' : String}
    (h : Weaviate.uuidText documentId name = .ok document) (h' : requiredUuid documentId name' = .ok document') :
    document = document' := by
  rw [Weaviate.uuidText] at h
  split_ifs at h
  cases hid : Uuid.ofText documentId with
  | none =>
    rw [hid] at h
    cases h
  | some u =>
    rw [hid] at h
    cases h
    rw [requiredUuid] at h'
    cases hraw : requiredIdentifier documentId name' with
    | error e =>
      rw [hraw] at h'
      cases h'
    | ok raw =>
      rw [hraw] at h'
      obtain rfl := requiredIdentifier_eq hraw
      dsimp only at h'
      cases hid' : Uuid.ofText (strip documentId) with
      | none =>
        rw [hid'] at h'
        cases h'
      | some v =>
        rw [hid'] at h'
        cases h'
        exact Uuid.ofText_strip hid hid'

namespace Save

open ChunkStore (Keyed inParagraphs)

variable {K : Type} {rt : Runtime K} {documentId currentText : Text} {modifiedParagraphIds : Option (List ℤ)} {document : Uuid}
  {p : Prepared} {w : World K}

/-! ### The records of the steps -/

theorem inParagraphs_append (paragraphIds more : List ℕ) (r : ChunkRecord K) :
    inParagraphs document (paragraphIds ++ more) r = (inParagraphs document paragraphIds r || inParagraphs document more r) := by
  rw [inParagraphs, inParagraphs, inParagraphs, ← Bool.and_or_distrib_left]
  congr 1
  simp

/-- Where step 3 returns, the records of the unions are gone. -/
theorem wp_deleteOldChunks_done (hid : requiredUuid documentId "document_id" = .ok document) :
    Eff.wp (deleteOldChunks rt documentId p)
      (fun _ w' => ∀ id, w'.outside.chunks.get? id =
        (w.outside.chunks.get? id).filter fun r => !inParagraphs document p.unionIds r) (fun _ _ => True) w := by
  have hloop : Eff.wp (deleteOldChunks rt documentId p) (fun _ w' => ∀ id, w'.outside.chunks.get? id =
      (w.outside.chunks.get? id).filter fun r => !inParagraphs document (p.unions.flatMap ParagraphUnion.paragraphIds) r)
      (fun _ _ => True) w := by
    refine Eff.wp_forEach (E := fun _ _ => True) (I := fun done _ (w' : World K) => ∀ id, w'.outside.chunks.get? id =
      (w.outside.chunks.get? id).filter fun r => !inParagraphs document (done.flatMap ParagraphUnion.paragraphIds) r)
      (fun id => ?_) fun done u rest t ht => ?_
    · cases w.outside.chunks.get? id <;> simp [inParagraphs, Option.filter]
    · rw [Eff.wp_bind, outside, Eff.wp_zoom]
      refine Eff.wp_mono (ChunkStore.wp_deleteByParagraphs documentId u.paragraphIds) (fun deletion o ho => ?_)
        fun _ _ _ => trivial
      obtain ⟨document', hdocument, ho⟩ := ho
      obtain rfl := uuidText_eq_requiredUuid hdocument hid
      simp only [addCount, setSample, Eff.wp_bind, wp_note]
      intro id
      rw [ho, ht, Option.filter_filter]
      refine congrArg (Option.filter · _) (funext fun r => ?_)
      rw [List.flatMap_append, inParagraphs_append, Bool.not_or, List.flatMap_singleton]
  exact hloop

/-- Where step 7a returns, the new chunks have their records, and no other record changed. -/
theorem wp_insertNewChunks_done (hid : requiredUuid documentId "document_id" = .ok document) (nodes : List (ParagraphNode K)) :
    Eff.wp (insertNewChunks rt documentId nodes)
      (fun _ w' => (∀ e ∈ newChunks nodes, w.outside.chunks.get? e.2.chunkId = none ∧
          w'.outside.chunks.get? e.2.chunkId = some (newRecord document e)) ∧
        ∀ id ∉ newIds nodes, w'.outside.chunks.get? id = w.outside.chunks.get? id) (fun _ _ => True) w := by
  rw [← map_newChunks]
  refine Eff.wp_forEach (E := fun _ _ => True) (I := fun done _ (w' : World K) =>
    (∀ e ∈ done, w.outside.chunks.get? e.2.chunkId = none ∧ w'.outside.chunks.get? e.2.chunkId = some (newRecord document e)) ∧
      ∀ id ∉ done.map (fun e => e.2.chunkId), w'.outside.chunks.get? id = w.outside.chunks.get? id)
    ⟨fun e he => (by cases he), fun _ _ => rfl⟩ fun done e rest t ht => ?_
  obtain ⟨hdone, hrest⟩ := ht
  simp only [assign, setFlag, addCount, Eff.wp_bind, Eff.wp_update, wp_note, outside, Eff.wp_zoom]
  refine Eff.wp_mono (ChunkStore.wp_insertChunk documentId e.1 e.2.chunkId e.2.rawText e.2.lateInteraction e.2.mmrDiversity)
    (fun _ o ho => ?_) fun _ _ _ => trivial
  obtain ⟨document', hdocument, hnone, ho⟩ := ho
  obtain rfl := uuidText_eq_requiredUuid hdocument hid
  have hnone : t.outside.chunks.get? e.2.chunkId = none := hnone
  have hget : ∀ id, o.chunks.get? id = if e.2.chunkId = id then some (newRecord document' e) else t.outside.chunks.get? id := by
    intro id
    rw [ho, Dict.get?_set]
    rfl
  have hnew : e.2.chunkId ∉ done.map fun e => e.2.chunkId := by
    intro hmem
    obtain ⟨e', he', hsame⟩ := List.mem_map.mp hmem
    have hfound := (hdone e' he').2
    rw [hsame, hnone] at hfound
    cases hfound
  constructor
  · intro e' he'
    rcases List.mem_append.mp he' with he' | he'
    · refine ⟨(hdone e' he').1, ?_⟩
      rw [hget, if_neg, (hdone e' he').2]
      intro hsame
      exact hnew (hsame ▸ List.mem_map.mpr ⟨e', he', rfl⟩)
    · obtain rfl := List.mem_singleton.mp he'
      exact ⟨(hrest _ hnew).symm.trans hnone, by rw [hget, if_pos rfl]⟩
  · intro id hmem
    rw [List.map_append, List.mem_append, not_or] at hmem
    rw [hget, if_neg fun hsame => hmem.2 (by rw [← hsame]; exact List.mem_singleton.mpr rfl), hrest id hmem.1]

/-- Where step 7b returns, the retained chunks have their numbers, and no other record changed. -/
theorem wp_updateRetainedChunks_done (nodes : List (ParagraphNode K)) :
    Eff.wp (updateRetainedChunks rt nodes)
      (fun _ w' => (∀ id ∉ (unmodifiedUpdates nodes).keys, w'.outside.chunks.get? id = w.outside.chunks.get? id) ∧
        ∀ id n, (unmodifiedUpdates nodes).get? id = some n → ∃ r, w.outside.chunks.get? id = some r ∧
          w'.outside.chunks.get? id = some { r with paragraphId := n }) (fun _ _ => True) w := by
  rw [updateRetainedChunks, Eff.wp_whenever]
  constructor
  · intro _
    rw [Eff.wp_bind, assign, Eff.wp_update, Eff.wp_tryExcept]
    simp only [setFlag, addCount, Eff.wp_bind, assign, Eff.wp_update, wp_note, outside, Eff.wp_zoom]
    refine Eff.wp_mono (ChunkStore.wp_updateParagraphIds (unmodifiedUpdates nodes).entries) (fun _ o ho => ?_) fun e _ _ => ?_
    · refine Eff.wp_mono (ChunkStore.wp_verifyParagraphIds _) (fun _ o' ho' => ⟨fun id hid => ?_, fun id n hn => ?_⟩) fun e _ _ => ?_
      · rw [ho']
        exact ho.1 id hid
      · obtain ⟨r, hr, hset⟩ := ho.2 (Dict.nodup_keys _) (id, n) (Dict.mem_entries_iff.mpr hn)
        refine ⟨r, hr, ?_⟩
        rw [ho']
        exact hset
      · cases e <;> trivial
    · cases e <;> trivial
  · intro hnil
    rw [decide_eq_false_iff_not, not_not] at hnil
    refine ⟨fun _ _ => rfl, fun id n hn => ?_⟩
    rw [← Dict.mem_entries_iff, hnil] at hn
    cases hn

/-! ### The steps together -/

/-- What the steps have done where they all return. -/
structure Returned (rt : Runtime K) (w w' : World K) (document : Uuid) (currentText : Text) (p : Prepared)
    (staged : List (ℕ × List (ParagraphNode K))) : Prop where
  prepared : StagedUnions rt p.existingChunkIds p.unions staged
  lossless : ((finalNodes p staged).map ParagraphNode.rawText).flatten = currentText
  replacement : ParagraphMap.Replacement w.paragraphs document (finalChunkMappings (finalNodes p staged))
  documents : w'.documents.documents = w.documents.documents.set document (finalParagraphData (finalNodes p staged))
  paragraphs : ∀ j, w'.paragraphs.paragraphs.get? j =
    if j.1 = document then (finalChunkMappings (finalNodes p staged)).get? j.2 else w.paragraphs.paragraphs.get? j
  records : Rewritten w.outside.chunks w'.outside.chunks document p (finalNodes p staged)

theorem documents_of_updateParagraphs (hid : requiredUuid documentId "document_id" = .ok document) {d d' : DocumentMap}
    {nodes : List (ParagraphNode K)} (hne : nodes ≠ [])
    (h : d.updateParagraphs documentId (finalParagraphData nodes) = .ok d') :
    d'.documents = d.documents.set document (finalParagraphData nodes) := by
  simp only [DocumentMap.updateParagraphs, hid, bind, Except.bind, validatedReplacement_finalParagraphData hne] at h
  split_ifs at h
  cases h
  rfl

theorem keeps_documents_commitParagraphs (m : Eff ParagraphMap PyError Unit) :
    Eff.Keeps (fun w w' : World K => w'.documents = w.documents) (commitParagraphs rt m) := by
  intro w
  rw [Eff.wp, commitParagraphs]
  cases rt.faults w.outside.calls <;> cases m w.paragraphs <;> rfl

/-- Where step 8 returns, the maps have the final nodes, and the records are the same. -/
theorem wp_commitMaps_done (hid : requiredUuid documentId "document_id" = .ok document) {nodes : List (ParagraphNode K)}
    (hne : nodes ≠ []) (hnodes : Renumbered w.paragraphs document currentText nodes) :
    Eff.wp (commitMaps rt documentId nodes)
      (fun _ w' => w'.documents.documents = w.documents.documents.set document (finalParagraphData nodes) ∧
        (∀ j, w'.paragraphs.paragraphs.get? j =
          if j.1 = document then (finalChunkMappings nodes).get? j.2 else w.paragraphs.paragraphs.get? j) ∧
        w'.outside.chunks = w.outside.chunks) (fun _ _ => True) w := by
  rw [commitMaps, Eff.wp_bind]
  refine Eff.wp_mono (Eff.wp_and (wp_commitParagraphs _) (keeps_documents_commitParagraphs _ w)) (fun _ w₁ h₁ => ?_)
    fun _ _ _ => trivial
  obtain ⟨⟨hrun, hchunks, -⟩, hdocuments⟩ := h₁
  obtain ⟨validated, hvalidated, hget⟩ := Eff.wp_ok (ParagraphMap.wp_replaceDocument hid _ _) hrun
  rw [hnodes.accepted] at hvalidated
  cases hvalidated
  refine Eff.wp_mono (wp_commitDocuments _) (fun _ w₂ h₂ => ⟨?_, fun j => ?_, ?_⟩) fun _ _ _ => trivial
  · rw [documents_of_updateParagraphs hid hne h₂.1, hdocuments]
  · rw [h₂.2.1, hget]
  · rw [h₂.2.2.1, hchunks]

/-- What is updated is an old chunk. -/
theorem existing_of_updated {staged : List (ℕ × List (ParagraphNode K))} (hstaged : StagedUnions rt p.existingChunkIds p.unions staged)
    (hids : ∀ old ∈ p.oldParagraphs, old.paragraphId ≠ 0) {c : Uuid} (hc : c ∈ (unmodifiedUpdates (finalNodes p staged)).keys) :
    c ∈ p.existingChunkIds := by
  obtain ⟨i, node, k, hi, hk, -, hmem⟩ := mem_keys_unmodifiedUpdates.mp hc
  obtain hnew | ⟨old, -, -, rfl⟩ := finalNodes_cases hstaged hids (List.mem_of_getElem? hi)
  · rw [hnew.new] at hk
    cases hk
  · rw [chunkIds_keptNode] at hmem
    obtain ⟨cs, hcs, hmem⟩ := mem_chunksOf.mp hmem
    exact mem_chunkIdsOf.mpr ⟨_, cs, hcs, hmem⟩

/-- The three steps that change records rewrite them. -/
theorem rewritten_of_steps {staged : List (ℕ × List (ParagraphNode K))} (hstaged : StagedUnions rt p.existingChunkIds p.unions staged)
    (hids : ∀ old ∈ p.oldParagraphs, old.paragraphId ≠ 0) {before deleted inserted after : Dict Uuid (ChunkRecord K)}
    (hdeleted : ∀ id, deleted.get? id = (before.get? id).filter fun r => !inParagraphs document p.unionIds r)
    (hinserted : (∀ e ∈ newChunks (finalNodes p staged), deleted.get? e.2.chunkId = none ∧
        inserted.get? e.2.chunkId = some (newRecord document e)) ∧
      ∀ id ∉ newIds (finalNodes p staged), inserted.get? id = deleted.get? id)
    (hafter : (∀ id ∉ (unmodifiedUpdates (finalNodes p staged)).keys, after.get? id = inserted.get? id) ∧
      ∀ id n, (unmodifiedUpdates (finalNodes p staged)).get? id = some n → ∃ r, inserted.get? id = some r ∧
        after.get? id = some { r with paragraphId := n }) : Rewritten before after document p (finalNodes p staged) := by
  refine ⟨fun e he => ?_, fun e he r hr => ?_, fun id hid => ?_⟩
  · obtain ⟨i, node, hi, hnone, -, hc⟩ := mem_newChunks_iff.mp he
    have hnotOld : e.2.chunkId ∉ p.existingChunkIds := by
      obtain hnew | ⟨old, -, -, rfl⟩ := finalNodes_cases hstaged hids (List.mem_of_getElem? hi)
      · exact hnew.fresh _ (List.mem_map_of_mem hc)
      · cases hnone
    rw [hafter.1 _ fun hkey => hnotOld (existing_of_updated hstaged hids hkey), (hinserted.1 e he).2]
  · have hgone := (hinserted.1 e he).1
    rw [hdeleted, hr, Option.filter_some] at hgone
    split_ifs at hgone with hin
    simp only [inParagraphs, Bool.not_and, Bool.or_eq_true, Bool.not_eq_true', decide_eq_false_iff_not, not_or, not_not] at hin
    exact hin.1
  · cases hupdate : (unmodifiedUpdates (finalNodes p staged)).get? id with
    | none =>
      rw [hafter.1 id (Dict.get?_eq_none_iff.mp hupdate), hinserted.2 id hid, hdeleted]
      simp
    | some n =>
      obtain ⟨r, hr, hset⟩ := hafter.2 id n hupdate
      rw [hinserted.2 id hid, hdeleted] at hr
      rw [hset, hr]
      rfl

/-- Where the steps of a save return, they have rewritten the records, and entered the final nodes. -/
theorem wp_saveSteps_rewritten (hid : requiredUuid documentId "document_id" = .ok document)
    (hids : ∀ old ∈ p.oldParagraphs, old.paragraphId ≠ 0) :
    Eff.wp (saveSteps rt documentId currentText p) (fun _ w' => ∃ staged, Returned rt w w' document currentText p staged)
      (fun _ _ => True) w := by
  have hpassive : Passive rt Still := passive_still
  have hstage : ∀ name, Eff.Keeps (Still (K := K)) (stage name) := still_stage
  have hnames : ∀ k ∈ stepNames, k ∉ ([] : List EvidenceKey) := fun _ _ => List.not_mem_nil
  rw [saveSteps]
  refine (hstage _).wp_bind fun _ w₁ h₁ => ?_
  rw [Eff.wp_bind]
  refine Eff.wp_mono (Eff.wp_and (wp_deleteOldChunks_done hid) (keeps_deleteOldChunks hnames p w₁)) (fun _ w₂ h₂ => ?_)
    fun _ _ _ => trivial
  obtain ⟨hdeleted, hframe₂⟩ := h₂
  refine (hstage _).wp_bind fun _ w₃ h₃ => ?_
  refine Eff.Returns.wp_bind (keeps_stageUnions hpassive _ _) (returns_stageUnions _ _) fun staged w₄ h₄ hstaged => ?_
  refine (still_note _).wp_bind fun _ w₅ h₅ => (hstage _).wp_bind fun _ w₆ h₆ => ?_
  refine Eff.Returns.wp_bind (keeps_embedUnions hpassive _) (returns_embedUnions hstaged) fun staged' w₇ h₇ hstaged' => ?_
  refine (hstage _).wp_bind fun _ w₈ h₈ => ?_
  have hw₈ : Still w₂ w₈ := Trans.trans (Trans.trans (Trans.trans (Trans.trans (Trans.trans h₃ h₄) h₅) h₆) h₇) h₈
  rw [Eff.wp_bind]
  refine Eff.wp_mono (wp_renumber hid staged') (fun nodes w' hnodes => ?_) fun _ _ _ => trivial
  obtain ⟨rfl, rfl, hrenumbered⟩ := hnodes
  refine (still_recordRenumbering _).wp_bind fun _ w₉ h₉ => (hstage _).wp_bind fun _ w₁₀ h₁₀ => ?_
  have hw₁₀ : Still w₂ w₁₀ := Trans.trans (Trans.trans hw₈ h₉) h₁₀
  rw [Eff.wp_bind]
  refine Eff.wp_mono (Eff.wp_and (wp_insertNewChunks_done hid _) (keeps_insertNewChunks hnames _ w₁₀)) (fun _ w₁₁ h₁₁ => ?_)
    fun _ _ _ => trivial
  obtain ⟨hinserted, hframe₁₁⟩ := h₁₁
  refine (hstage _).wp_bind fun _ w₁₂ h₁₂ => ?_
  rw [Eff.wp_bind]
  refine Eff.wp_mono (Eff.wp_and (wp_updateRetainedChunks_done _) (keeps_updateRetainedChunks hnames _ w₁₂)) (fun _ w₁₃ h₁₃ => ?_)
    fun _ _ _ => trivial
  obtain ⟨hupdated, hframe₁₃⟩ := h₁₃
  refine (hstage _).wp_bind fun _ w₁₄ h₁₄ => ?_
  have hparagraphs : w₁₄.paragraphs = w.paragraphs := by
    rw [h₁₄.paragraphs, hframe₁₃.paragraphs, h₁₂.paragraphs, hframe₁₁.paragraphs, hw₁₀.paragraphs, hframe₂.paragraphs,
      h₁.paragraphs]
  have hdocuments : w₁₄.documents = w.documents := by
    rw [h₁₄.documents, hframe₁₃.documents, h₁₂.documents, hframe₁₁.documents, hw₁₀.documents, hframe₂.documents, h₁.documents]
  rw [hw₈.paragraphs, hframe₂.paragraphs, h₁.paragraphs] at hrenumbered
  refine Eff.wp_mono (wp_commitMaps_done hid (finalNodes_ne_nil p staged') (hparagraphs ▸ hrenumbered)) (fun _ w' hdone => ?_)
    fun _ _ _ => trivial
  obtain ⟨hdone, hlists, hchunks⟩ := hdone
  refine ⟨staged', hstaged', hrenumbered.lossless, hrenumbered.replacement, ?_, fun j => ?_, ?_⟩
  · rw [hdone, hdocuments]
  · rw [hlists, hparagraphs]
  · rw [h₁.chunks] at hdeleted
    rw [hw₁₀.chunks] at hinserted
    rw [h₁₂.chunks] at hupdated
    rw [hchunks, h₁₄.chunks]
    exact rewritten_of_steps hstaged' hids hdeleted hinserted hupdated

/-! ### The other documents in the maps -/

/-- The maps have the same texts and lists of the other documents. -/
structure Elsewhere (document : Uuid) (w w' : World K) : Prop where
  documents : ∀ d, d ≠ document → w'.documents.documents.get? d = w.documents.documents.get? d
  paragraphs : ParagraphMap.Elsewhere document w.paragraphs w'.paragraphs

instance : Std.Refl (Elsewhere (K := K) document) := ⟨fun _ => ⟨fun _ _ => rfl, fun _ _ => rfl⟩⟩

instance : IsTrans (World K) (Elsewhere document) where
  trans _ _ _ h h' :=
    ⟨fun d hd => (h'.documents d hd).trans (h.documents d hd), fun j hj => (h'.paragraphs j hj).trans (h.paragraphs j hj)⟩

section Elsewhere

variable {α : Type}

theorem elsewhere_outside (m : Eff (Outside K) ChunkError α) : Eff.Keeps (Elsewhere document) (outside m) := by
  intro w
  rw [outside, Eff.wp_zoom]
  exact Eff.wp_mono (Eff.wp_true m _) (fun _ _ _ => ⟨fun _ _ => rfl, fun _ _ => rfl⟩) fun _ _ _ => ⟨fun _ _ => rfl, fun _ _ => rfl⟩

theorem elsewhere_assign (f : Progress → Progress) : Eff.Keeps (Elsewhere (K := K) document) (assign f) :=
  Eff.Keeps.update fun _ => ⟨fun _ _ => rfl, fun _ _ => rfl⟩

theorem elsewhere_note (c : Call) : Eff.Keeps (Elsewhere (K := K) document) (note c) := elsewhere_outside _

theorem passive_elsewhere : Passive rt (Elsewhere document) := ⟨fun _ => elsewhere_outside _, fun _ _ => elsewhere_outside _⟩

theorem elsewhere_commitParagraphs {m : Eff ParagraphMap PyError Unit} (hm : Eff.Keeps (ParagraphMap.Elsewhere document) m) :
    Eff.Keeps (Elsewhere document) (commitParagraphs rt m) := by
  have hmix : ∀ {fault : Fault} {m m' : ParagraphMap}, ParagraphMap.Elsewhere document m m' →
      ∀ j, j.1 ≠ document → (Dict.mix fault.appliedTo m.paragraphs m'.paragraphs).get? j = m.paragraphs.get? j := by
    intro fault m m' h j hj
    rw [Dict.get?_mix, h j hj, ite_self]
  intro w
  have hw := hm w.paragraphs
  unfold Eff.wp at hw
  rw [Eff.wp, commitParagraphs]
  cases hfault : rt.faults w.outside.calls with
  | none =>
    cases hrun : m w.paragraphs with
    | ok u m' =>
      rw [hrun] at hw
      exact ⟨fun _ _ => rfl, hw⟩
    | error e m' =>
      rw [hrun] at hw
      exact ⟨fun _ _ => rfl, hw⟩
  | some fault =>
    cases hrun : m w.paragraphs with
    | ok u m' =>
      rw [hrun] at hw
      exact ⟨fun _ _ => rfl, hmix hw⟩
    | error e m' =>
      rw [hrun] at hw
      exact ⟨fun _ _ => rfl, hmix hw⟩

theorem elsewhere_commitDocuments {f : DocumentMap → Except PyError DocumentMap}
    (hf : ∀ m m', f m = .ok m' → ∀ d, d ≠ document → m'.documents.get? d = m.documents.get? d) :
    Eff.Keeps (Elsewhere (K := K) document) (commitDocuments rt f) := by
  intro w
  rw [Eff.wp, commitDocuments]
  cases hrun : f w.documents with
  | ok m' =>
    cases hfault : rt.faults w.outside.calls with
    | none => exact ⟨hf _ _ hrun, fun _ _ => rfl⟩
    | some fault =>
      refine ⟨fun d hd => ?_, fun _ _ => rfl⟩
      change (Dict.mix fault.applied w.documents.documents m'.documents).get? d = _
      rw [Dict.get?_mix, hf _ _ hrun d hd, ite_self]
  | error e => cases rt.faults w.outside.calls <;> exact ⟨fun _ _ => rfl, fun _ _ => rfl⟩

theorem elsewhere_replaceDocument (hid : requiredUuid documentId "document_id" = .ok document) (chunks : Dict ℕ (List Uuid)) :
    Eff.Keeps (Elsewhere (K := K) document) (commitParagraphs rt (ParagraphMap.replaceDocument documentId chunks)) :=
  elsewhere_commitParagraphs (ParagraphMap.elsewhere_replaceDocument hid chunks)

theorem elsewhere_updateParagraphs (hid : requiredUuid documentId "document_id" = .ok document) (data : Dict ℕ Text) :
    Eff.Keeps (Elsewhere (K := K) document) (commitDocuments rt fun m => m.updateParagraphs documentId data) := by
  refine elsewhere_commitDocuments fun m m' h d hd => ?_
  simp only [DocumentMap.updateParagraphs, hid, bind, Except.bind] at h
  split_ifs at h
  cases hvalid : DocumentMap.validatedReplacement data with
  | error e =>
    rw [hvalid] at h
    cases h
  | ok validated =>
    rw [hvalid] at h
    cases h
    exact Dict.get?_set_ne _ _ (Ne.symm hd)

theorem elsewhere_restoreDocument (hid : requiredUuid documentId "document_id" = .ok document) (data : Dict ℕ Text) :
    Eff.Keeps (Elsewhere (K := K) document) (commitDocuments rt fun m => m.restoreDocument documentId data) := by
  refine elsewhere_commitDocuments fun m m' h d hd => ?_
  simp only [DocumentMap.restoreDocument, hid, bind, Except.bind] at h
  cases hvalid : DocumentMap.validatedReplacement data with
  | error e =>
    rw [hvalid] at h
    cases h
  | ok validated =>
    rw [hvalid] at h
    cases h
    exact Dict.get?_set_ne _ _ (Ne.symm hd)

theorem keeps_attempt {σ ε : Type} {R : σ → σ → Prop} [Std.Refl R] [IsTrans σ R] {m : Eff σ ε Unit} (hm : Eff.Keeps R m) :
    Eff.Keeps R (attempt m) :=
  (hm.bind fun _ => Eff.Keeps.pure _).tryExcept fun _ => Eff.Keeps.pure _

theorem elsewhere_saveSteps (hid : requiredUuid documentId "document_id" = .ok document) :
    Eff.Keeps (Elsewhere document) (saveSteps rt documentId currentText p) := by
  have hpassive : Passive rt (Elsewhere document) := passive_elsewhere
  refine (elsewhere_assign _).bind fun _ => Eff.Keeps.bind (Eff.Keeps.forEach fun u _ => ?_) fun _ => ?_
  · refine (elsewhere_outside _).bind fun deletion => ?_
    exact (elsewhere_note _).bind fun _ => (elsewhere_note _).bind fun _ => elsewhere_note _
  refine (elsewhere_assign _).bind fun _ => (keeps_stageUnions hpassive _ _).bind fun staged => ?_
  refine (elsewhere_note _).bind fun _ => (elsewhere_assign _).bind fun _ => ?_
  refine (keeps_embedUnions hpassive _).bind fun staged' => (elsewhere_assign _).bind fun _ => Eff.Keeps.bind ?_ fun nodes => ?_
  · refine (keeps_fail _).whenever.bind fun _ => (Eff.Keeps.read id).bind fun w => ?_
    exact (keeps_check _).bind fun _ => (keeps_check _).bind fun _ => Eff.Keeps.pure _
  refine Eff.Keeps.bind ?_ fun _ => (elsewhere_assign _).bind fun _ => Eff.Keeps.bind (Eff.Keeps.forEach fun e _ => ?_) fun _ => ?_
  · refine (elsewhere_note _).bind fun _ => (elsewhere_note _).bind fun _ => (elsewhere_note _).bind fun _ => ?_
    refine (elsewhere_note _).bind fun _ => (elsewhere_note _).bind fun _ => (elsewhere_note _).bind fun _ => ?_
    refine (elsewhere_note _).bind fun _ => (elsewhere_note _).bind fun _ => (elsewhere_note _).bind fun _ => ?_
    exact (elsewhere_note _).bind fun _ => elsewhere_note _
  · refine (elsewhere_assign _).bind fun _ => (elsewhere_note _).bind fun _ => (elsewhere_outside _).bind fun _ => ?_
    exact (elsewhere_assign _).bind fun _ => elsewhere_note _
  refine (elsewhere_assign _).bind fun _ => Eff.Keeps.bind (Eff.Keeps.whenever ((elsewhere_assign _).bind fun _ => ?_)) fun _ => ?_
  · refine Eff.Keeps.tryExcept ?_ fun error => ?_
    · refine (elsewhere_note _).bind fun _ => (elsewhere_outside _).bind fun _ => (elsewhere_assign _).bind fun _ => ?_
      exact (elsewhere_note _).bind fun _ => elsewhere_outside _
    · cases error with
      | raised e => exact (Eff.Keeps.pure _).bind fun _ => Eff.Keeps.raise _
      | partialUpdate completed failed => exact (elsewhere_assign _).bind fun _ => Eff.Keeps.raise _
  refine (elsewhere_assign _).bind fun _ => ?_
  exact (elsewhere_replaceDocument hid _).bind fun _ => elsewhere_updateParagraphs hid _

/-- A step of the recovery that may be skipped. -/
theorem keeps_phase_unless {σ ε β : Type} {R : σ → σ → Prop} [Std.Refl R] [IsTrans σ R] {c : Prop} [Decidable c]
    {m : Eff σ ε Unit} {k : Option ε → Eff σ ε β} (hm : Eff.Keeps R m) (hk : ∀ r, Eff.Keeps R (k r)) :
    Eff.Keeps R (if c then (pure none >>= k) else (attempt m >>= k)) :=
  ((Eff.Keeps.pure none).bind hk).ite ((keeps_attempt hm).bind hk)

theorem elsewhere_recoverSave [DecidableEq K] (hid : requiredUuid documentId "document_id" = .ok document)
    (snapshots : List (ChunkRecord K)) : Eff.Keeps (Elsewhere document) (recoverSave rt documentId p snapshots) := by
  refine (Eff.Keeps.read _).bind fun progress => ?_
  refine keeps_phase_unless ((elsewhere_outside _).bind fun _ => elsewhere_outside _) fun updating => ?_
  refine keeps_phase_unless ((elsewhere_outside _).bind fun _ => Eff.Keeps.pure _) fun deleting => ?_
  refine keeps_phase_unless (elsewhere_outside _) fun restoring => ?_
  refine (keeps_attempt (elsewhere_replaceDocument hid _)).bind fun replacing => ?_
  exact (keeps_attempt (elsewhere_restoreDocument hid _)).bind fun _ => Eff.Keeps.pure _

theorem elsewhere_abandon [DecidableEq K] (hid : requiredUuid documentId "document_id" = .ok document)
    (snapshots : List (ChunkRecord K)) : Eff.Keeps (Elsewhere document) (abandon rt documentId p snapshots) := by
  refine ((elsewhere_recoverSave hid snapshots).mapError _).bind fun r => (Eff.Keeps.read _).bind fun progress => ?_
  exact (Eff.Keeps.raise _).ite (Eff.Keeps.raise _)

theorem elsewhere_saveDiff : Eff.Keeps (Elsewhere document) (saveDiff rt documentId currentText modifiedParagraphIds) := by
  refine (Eff.Keeps.read id).bind fun w => (keeps_check _).bind fun data => (keeps_check _).bind fun ids => ?_
  refine ((elsewhere_note _).bind fun _ => Eff.Keeps.pure _).ite ((keeps_check _).bind fun unions => ?_)
  exact (keeps_check _).bind fun old => Eff.Keeps.pure _

/-- However a save ends, the maps keep the other documents. -/
theorem elsewhere_saveWizard [DecidableEq K] (hid : requiredUuid documentId "document_id" = .ok document) :
    Eff.Keeps (Elsewhere document) (saveWizard rt documentId currentText modifiedParagraphIds) := by
  have hpassive : Passive rt (Elsewhere document) := passive_elsewhere
  refine Eff.Keeps.bind ((Eff.Keeps.bind (elsewhere_note _) fun _ => ?_).mapError _) fun prepared => ?_
  · refine elsewhere_saveDiff.bind fun prepared => ?_
    cases prepared with
    | none => exact Eff.Keeps.pure _
    | some p => exact (keeps_recordDiff hpassive p).bind fun _ => Eff.Keeps.pure _
  cases prepared with
  | none => exact Eff.Keeps.pure _
  | some p =>
    refine Eff.Keeps.bind (Eff.Keeps.mapError ?_ _) fun snapshots => ?_
    · refine Eff.Keeps.bind (Eff.Keeps.collect fun u _ => elsewhere_outside _) fun snapshots => ?_
      exact (keeps_fail _).whenever.bind fun _ => Eff.Keeps.pure _
    refine Eff.Keeps.bind (((elsewhere_note _).bind fun _ => elsewhere_assign _).mapError _) fun _ => ?_
    exact ((elsewhere_saveSteps hid).mapError _).tryExcept fun _ => elsewhere_abandon hid snapshots

end Elsewhere

/-! ### What a save has done -/

section Ending

variable {w' : World K} {data : Dict ℕ Text} {chunks : Dict ℕ (List Uuid)}

/-- A save that returned: the document is consistent and has the text asked for, and either it was left alone or what
lies outside of the unions was kept; the other documents were left alone. -/
structure SavedAs (rt : Runtime K) (w w' : World K) (document : Uuid) (data : Dict ℕ Text) (chunks : Dict ℕ (List Uuid))
    (currentText : Text) (modifiedParagraphIds : Option (List ℤ)) : Prop where
  keyed : Keyed w'.outside.chunks
  consistent : ∃ data' chunks', Consistent w' document data' chunks' ∧ data'.values.flatten = currentText ∧
    (SameDocument document w w' ∨ ∃ unions, editUnions rt data currentText modifiedParagraphIds = .ok unions ∧
      KeptOutside w w' (unions.flatMap ParagraphUnion.paragraphIds) data data' chunks chunks')
  others : ∀ other, other ≠ document → SameDocument other w w'

theorem Still.same_document (h : Still w w') (document : Uuid) : SameDocument document w w' :=
  ⟨by rw [h.documents], fun _ => by rw [h.paragraphs], fun _ _ _ => by rw [h.chunks]⟩

theorem Consistent.storeAgrees (h : Consistent w document data chunks) (hkeyed : Keyed w.outside.chunks) :
    StoreAgrees w.outside.chunks document chunks :=
  ⟨hkeyed, h.stored⟩

/-- What the steps have left is a save that returned. -/
theorem Returned.savedAs {staged : List (ℕ × List (ParagraphNode K))} (h : Returned rt w w' document currentText p staged)
    (hconsistent : Consistent w document data chunks) (hkeyed : Keyed w.outside.chunks)
    (hfound : Found rt data chunks currentText modifiedParagraphIds p) :
    SavedAs rt w w' document data chunks currentText modifiedParagraphIds := by
  obtain ⟨rfl, rfl, hunions⟩ := hfound
  have hsaving : Saving rt w document p staged := ⟨hconsistent, h.prepared, h.replacement.nodup⟩
  have hlists : ∀ n, w'.paragraphs.paragraphs.get? (document, n) = (finalChunkMappings (finalNodes p staged)).get? n := by
    intro n
    rw [h.paragraphs, if_pos rfl]
  refine ⟨h.records.keyed hkeyed, ⟨_, _, hsaving.rewritten h.records ?_ hlists, ?_, .inr ⟨_, hunions, ?_⟩⟩, fun other hother => ?_⟩
  · rw [h.documents, Dict.get?_set_self]
  · rw [finalParagraphData, Dict.values_numbered, h.lossless]
  · exact hsaving.keptOutside h.records
  · refine ⟨?_, fun n => ?_, fun id r hr => ?_⟩
    · rw [h.documents, Dict.get?_set_ne _ _ (Ne.symm hother)]
    · rw [h.paragraphs, if_neg hother]
    · exact hsaving.others h.records (hr.symm ▸ hother) id

/-- A document that is restored is the same, and so are the others where the maps kept them. -/
theorem Restored.same_documents (h : Restored w.outside.chunks document data chunks w')
    (hconsistent : Consistent w document data chunks) (helse : Elsewhere document w w') (d : Uuid) : SameDocument d w w' := by
  by_cases hd : d = document
  · subst hd
    refine ⟨by rw [h.saved, hconsistent.saved], fun n => ?_, fun id r _ => by rw [h.records]⟩
    rw [hconsistent.get?_paragraphs, ← h.documentChunks, ParagraphMap.get?_documentChunks]
  · exact ⟨helse.documents d hd, fun n => helse.paragraphs (d, n) hd, fun id r _ => by rw [h.records]⟩

/-- A save of a consistent document that returns has saved it; one that fails, and says that its recovery had no
errors, has left every document alone. -/
theorem wp_saveWizard_saved [DecidableEq K] (hconsistent : Consistent w document data chunks) (hkeyed : Keyed w.outside.chunks)
    (hfresh : FreshIds rt w.outside.chunks document) (hid : requiredUuid documentId "document_id" = .ok document) :
    Eff.wp (saveWizard rt documentId currentText modifiedParagraphIds)
      (fun _ w' => SavedAs rt w w' document data chunks currentText modifiedParagraphIds)
      (fun e w' => e.unresolved = false → Keyed w'.outside.chunks ∧ ∀ d, SameDocument d w w') w := by
  have hrun : Eff.wp (saveWizard rt documentId currentText modifiedParagraphIds)
      (fun _ w' => SavedAs rt w w' document data chunks currentText modifiedParagraphIds)
      (fun e w' => e.unresolved = false → Restored w.outside.chunks document data chunks w') w := by
    refine wp_saveWizard hconsistent.saved hconsistent.documentChunks hconsistent.keys hconsistent.ne_nil hconsistent.same
      (hconsistent.storeAgrees hkeyed) hfresh hid (fun w' hstill htext => ?_) fun p w₁ hfound hdocuments hparagraphs hchunks => ?_
    · have hsame := hstill.same_document
      refine ⟨?_, ⟨data, chunks, hconsistent.same_document (hsame document), htext.symm, .inl (hsame document)⟩,
        fun other _ => hsame other⟩
      rw [hstill.chunks]
      exact hkeyed
    · have hids : ∀ old ∈ p.oldParagraphs, old.paragraphId ≠ 0 := by
        intro old hold hzero
        have hkey : old.paragraphId ∈ p.paragraphData.keys := Dict.mem_keys_iff.mpr ⟨_, get?_of_mem_oldParagraphs hold⟩
        rw [hfound.paragraphData, hconsistent.keys, List.mem_range'_1] at hkey
        omega
      refine Eff.wp_mono (wp_saveSteps_rewritten hid hids) (fun _ w' hdone => ?_) fun _ _ _ => trivial
      obtain ⟨staged, hdone⟩ := hdone
      have hreturned : Returned rt w w' document currentText p staged := by
        refine ⟨hdone.prepared, hdone.lossless, ?_, ?_, fun j => ?_, ?_⟩
        · rw [← hparagraphs]
          exact hdone.replacement
        · rw [hdone.documents, hdocuments]
        · rw [hdone.paragraphs, hparagraphs]
        · rw [← hchunks]
          exact hdone.records
      exact hreturned.savedAs hconsistent hkeyed hfound
  refine Eff.wp_mono (Eff.wp_and hrun (elsewhere_saveWizard hid w)) (fun _ w' h => h.1) fun e w' h hresolved => ?_
  have hdone := h.1 hresolved
  exact ⟨fun id r hr => hkeyed id r (by rw [← hdone.records, hr]), hdone.same_documents hconsistent h.2⟩

/-- A save of a document that the maps do not have changes nothing. -/
theorem still_saveWizard_of_missing [DecidableEq K] {e : PyError} (h : w.documents.getParagraphData documentId = .error e) :
    Eff.wp (saveWizard rt documentId currentText modifiedParagraphIds) (fun _ _ => False)
      (fun e' w' => e' = .raised (.raised e) ∧ Still w w') w := by
  rw [saveWizard, Eff.wp_bind, Eff.wp_mapError, setFlag, Eff.wp_bind, wp_note, Eff.wp_bind, saveDiff, Eff.wp_bind, Eff.wp_read,
    Eff.wp_bind, wp_check, id]
  constructor
  · intro data hdata
    rw [h] at hdata
    cases hdata
  · intro e' he'
    rw [h] at he'
    cases he'
    exact ⟨rfl, rfl, rfl, rfl, rfl, rfl⟩

end Ending

end Save

end TenantRag

import TenantRag.Weaviate.ChunkEffects
import TenantRag.Wizard.SaveEvidence

/-!
# A failed save changes nothing

`_recover_save` of `backend/wizard/save.py`, against every way in which the steps before
it can have failed.

## The model

What a failed save leaves is described per identifier, by the three lists that the
handler reads: nothing stands under an identifier that was deleted, something or nothing
under one whose insertion was attempted, and the record in another paragraph under one
whose renumbering was. Every step keeps the description, whether it returns or raises,
and each step of the recovery empties one of the lists.

## What is proved

* `wp_saveSteps_recoverable` — however steps 3 to 8 fail, what they leave is as described.
* `wp_recoverSave` — a recovery without errors has undone it.
* `saveWizard_atomic` — a save that raises `WizardSaveError` has changed nothing.
-/

namespace TenantRag

variable {K α : Type}

/-! ### What is left to undo -/

namespace ChunkStore

variable {faults : ℕ → Option Fault} {o : Outside K} {before after : Dict Uuid (ChunkRecord K)} {deleted inserted retained : List Uuid}

/-- Under each identifier stands what stood there before, or what the attempts on the three lists have left. -/
def Undoable (before after : Dict Uuid (ChunkRecord K)) (deleted inserted retained : List Uuid) : Prop :=
  ∀ id, after.get? id = before.get? id ∨ (id ∈ deleted ∧ after.get? id = none) ∨
    (id ∈ inserted ∧ ∀ r, after.get? id = some r → r.chunkId = id) ∨
    id ∈ retained ∧ ∃ r n, before.get? id = some r ∧ after.get? id = some { r with paragraphId := n }

theorem Undoable.refl : Undoable before before deleted inserted retained := fun _ => .inl rfl

theorem Undoable.mono {deleted' inserted' retained' : List Uuid} (h : Undoable before after deleted inserted retained)
    (hd : deleted ⊆ deleted') (hi : inserted ⊆ inserted') (hr : retained ⊆ retained') :
    Undoable before after deleted' inserted' retained' := by
  intro id
  obtain hsame | ⟨hid, hgone⟩ | ⟨hid, hkeyed⟩ | ⟨hid, hmoved⟩ := h id
  · exact .inl hsame
  · exact .inr (.inl ⟨hd hid, hgone⟩)
  · exact .inr (.inr (.inl ⟨hi hid, hkeyed⟩))
  · exact .inr (.inr (.inr ⟨hr hid, hmoved⟩))

/-- Where the lists are empty there is nothing to undo. -/
theorem Undoable.get?_eq (h : Undoable before after [] [] []) (id : Uuid) : after.get? id = before.get? id := by
  obtain hsame | ⟨hid, -⟩ | ⟨hid, -⟩ | ⟨hid, -⟩ := h id
  · exact hsame
  all_goals cases hid

/-- A deletion of records whose identifiers are on the list. -/
theorem Undoable.deleteByParagraphs (h : Undoable before o.chunks deleted inserted retained) (hinserted : inserted = [])
    (hretained : retained = []) {documentId : Text} {paragraphIds : List ℕ}
    (hdeleted : ∀ document, Weaviate.uuidText documentId "document_id" = .ok document → ∀ id r, before.get? id = some r →
      inParagraphs document paragraphIds r = true → id ∈ deleted) :
    Eff.wp (deleteByParagraphs faults documentId paragraphIds) (fun _ o' => Undoable before o'.chunks deleted inserted retained)
      (fun _ o' => Undoable before o'.chunks deleted inserted retained) o := by
  subst hinserted hretained
  have hgone : ∀ document id r, Weaviate.uuidText documentId "document_id" = .ok document → o.chunks.get? id = some r →
      inParagraphs document paragraphIds r = true → id ∈ deleted := by
    intro document id r hdocument hr hin
    obtain hsame | ⟨hid, -⟩ | ⟨hid, -⟩ | ⟨hid, -⟩ := h id
    · exact hdeleted document hdocument id r (hsame ▸ hr) hin
    · exact hid
    all_goals cases hid
  refine Eff.wp_mono (wp_deleteByParagraphs documentId paragraphIds) (fun _ o' h' id => ?_) fun _ o' h' id => ?_
  · obtain ⟨document, hdocument, h'⟩ := h'
    cases hr : o.chunks.get? id with
    | none =>
      have hnone : o'.chunks.get? id = o.chunks.get? id := by rw [h', hr]; rfl
      rw [hnone]
      exact h id
    | some r =>
      by_cases hin : inParagraphs document paragraphIds r = true
      · exact .inr (.inl ⟨hgone document id r hdocument hr hin, by rw [h', hr]; simp [hin]⟩)
      · have hkept : o'.chunks.get? id = o.chunks.get? id := by rw [h', hr]; simp [hin]
        rw [hkept]
        exact h id
  · obtain hsame | ⟨document, r, hdocument, hr, hin, hnone⟩ := h' id
    · rw [hsame]
      exact h id
    · exact .inr (.inl ⟨hgone document id r hdocument hr hin, hnone⟩)

/-- An insertion under an identifier on the list. -/
theorem Undoable.insertChunk (h : Undoable before o.chunks deleted inserted retained) {chunkId : Uuid}
    (hid : chunkId ∈ inserted) (documentId : Text) (paragraphId : ℕ) (rawText : Text) (multiVector : List (List K))
    (diversityVector : List K) :
    Eff.wp (insertChunk faults documentId paragraphId chunkId rawText multiVector diversityVector)
      (fun _ o' => Undoable before o'.chunks deleted inserted retained)
      (fun _ o' => Undoable before o'.chunks deleted inserted retained) o := by
  refine Eff.wp_mono (wp_insertChunk documentId paragraphId chunkId rawText multiVector diversityVector)
    (fun _ o' h' id => ?_) fun _ o' h' id => ?_
  · obtain ⟨document, -, -, h'⟩ := h'
    rw [h', Dict.get?_set]
    split_ifs with hsame
    · subst hsame
      exact .inr (.inr (.inl ⟨hid, fun r hr => by cases hr; rfl⟩))
    · exact h id
  · obtain hsame | ⟨rfl, r, hr, hset⟩ := h' id
    · rw [hsame]
      exact h id
    · refine .inr (.inr (.inl ⟨hid, fun r' hr' => ?_⟩))
      rw [hset] at hr'
      cases hr'
      exact hr

/-- Updates that return have renumbered the records. -/
theorem renumberedAt_of_updated {updates : List (Uuid × ℕ)} (hnodup : (updates.map Prod.fst).Nodup)
    (h : (∀ id ∉ updates.map Prod.fst, after.get? id = before.get? id) ∧
      ((updates.map Prod.fst).Nodup → ∀ u ∈ updates, ∃ r, before.get? u.1 = some r ∧
        after.get? u.1 = some { r with paragraphId := u.2 })) (id : Uuid) :
    RenumberedAt updates id (before.get? id) (after.get? id) := by
  by_cases hid : id ∈ updates.map Prod.fst
  · obtain ⟨u, hu, rfl⟩ := List.mem_map.mp hid
    obtain ⟨r, hr, hset⟩ := h.2 hnodup u hu
    exact .inr ⟨r, u.2, hu, hr, hset⟩
  · exact .inl (h.1 id hid)

/-- An update of records on the list. -/
theorem Undoable.updateParagraphIds (h : Undoable before o.chunks deleted inserted retained) {updates : List (Uuid × ℕ)}
    (hnodup : (updates.map Prod.fst).Nodup) (hretained : ∀ c ∈ updates.map Prod.fst, c ∈ retained) :
    Eff.wp (updateParagraphIds faults updates) (fun _ o' => Undoable before o'.chunks deleted inserted retained)
      (fun _ o' => Undoable before o'.chunks deleted inserted retained) o := by
  have hat : ∀ o' : Outside K, (∀ id, RenumberedAt updates id (o.chunks.get? id) (o'.chunks.get? id)) →
      Undoable before o'.chunks deleted inserted retained := by
    intro o' h' id
    obtain hsame | ⟨r, n, hu, hr, hset⟩ := h' id
    · rw [hsame]
      exact h id
    · have hid : id ∈ retained := hretained id (List.mem_map.mpr ⟨(id, n), hu, rfl⟩)
      obtain hsame | ⟨-, hnone⟩ | ⟨hins, hkeyed⟩ | ⟨-, r₀, n₀, hr₀, hmoved⟩ := h id
      · exact .inr (.inr (.inr ⟨hid, r, n, hsame ▸ hr, hset⟩))
      · rw [hr] at hnone
        cases hnone
      · refine .inr (.inr (.inl ⟨hins, fun r' hr' => ?_⟩))
        rw [hset] at hr'
        cases hr'
        exact hkeyed r hr
      · rw [hr] at hmoved
        cases hmoved
        exact .inr (.inr (.inr ⟨hid, r₀, n, hr₀, hset⟩))
  exact Eff.wp_mono (wp_updateParagraphIds updates) (fun _ o' h' => hat o' (renumberedAt_of_updated hnodup h'))
    fun _ o' h' => hat o' h'

/-! ### Undoing it -/

/-- The old numbers are written back. -/
theorem Undoable.updateBack (h : Undoable before o.chunks deleted inserted retained) {updates : List (Uuid × ℕ)}
    (hkeys : updates.map Prod.fst = retained) (hnodup : retained.Nodup)
    (hold : ∀ u ∈ updates, ∃ r, before.get? u.1 = some r ∧ r.paragraphId = u.2) :
    Eff.wp (ChunkStore.updateParagraphIds faults updates) (fun _ o' => Undoable before o'.chunks deleted inserted [])
      (fun _ _ => True) o := by
  refine Eff.wp_mono (wp_updateParagraphIds updates) (fun _ o' h' id => ?_) fun _ _ _ => trivial
  rw [hkeys] at h'
  by_cases hid : id ∈ retained
  · rw [← hkeys] at hid
    obtain ⟨u, hu, rfl⟩ := List.mem_map.mp hid
    obtain ⟨r, hr, hset⟩ := h'.2 hnodup u hu
    obtain ⟨r₀, hr₀, hn⟩ := hold u hu
    obtain hsame | ⟨-, hnone⟩ | ⟨hins, hkeyed⟩ | ⟨-, r₁, n, hr₁, hmoved⟩ := h u.1
    · rw [hr, hr₀] at hsame
      cases hsame
      exact .inl (by rw [hset, hr₀, ← hn])
    · rw [hr] at hnone
      cases hnone
    · refine .inr (.inr (.inl ⟨hins, fun r' hr' => ?_⟩))
      rw [hset] at hr'
      cases hr'
      exact hkeyed r hr
    · rw [hr₀] at hr₁
      cases hr₁
      rw [hr] at hmoved
      cases hmoved
      exact .inl (by rw [hset, hr₀, ← hn])
  · rw [h'.1 id hid]
    obtain hsame | hgone | hins | ⟨hret, -⟩ := h id
    · exact .inl hsame
    · exact .inr (.inl hgone)
    · exact .inr (.inr (.inl hins))
    · exact absurd hret hid

/-- What was inserted is deleted. -/
theorem Undoable.deleteBack (h : Undoable before o.chunks deleted inserted []) (hkeyed : Keyed before)
    (hnew : ∀ id ∈ inserted, before.get? id = none) :
    Eff.wp (deleteChunks faults inserted) (fun _ o' => Undoable before o'.chunks deleted [] []) (fun _ _ => True) o := by
  refine Eff.wp_mono (wp_deleteChunks inserted) (fun _ o' h' id => ?_) fun _ _ _ => trivial
  rw [h']
  cases hr : o.chunks.get? id with
  | none =>
    obtain hsame | ⟨hid, -⟩ | ⟨hid, -⟩ | ⟨hid, -⟩ := h id
    · exact .inl (by rw [← hsame, hr]; rfl)
    · exact .inr (.inl ⟨hid, rfl⟩)
    · exact .inl (by rw [hnew id hid]; rfl)
    · cases hid
  | some r =>
    obtain hsame | ⟨-, hnone⟩ | ⟨hid, hkey⟩ | ⟨hid, -⟩ := h id
    · rw [hr] at hsame
      have hout : r.chunkId ∉ inserted := by
        intro hin
        rw [hkeyed id r hsame.symm] at hin
        rw [hnew id hin] at hsame
        cases hsame
      exact .inl (by rw [← hsame]; simp [hout])
    · rw [hr] at hnone
      cases hnone
    · refine .inl ?_
      rw [hnew id hid]
      simp [hkey r hr, hid]
    · cases hid

/-- The snapshots are stored again. -/
theorem Undoable.restoreBack [DecidableEq K] {records : List (ChunkRecord K)}
    (h : Undoable before o.chunks (records.map ChunkRecord.chunkId) [] [])
    (hrecords : ∀ r ∈ records, before.get? r.chunkId = some r) :
    Eff.wp (restoreChunks faults records) (fun _ o' => Undoable before o'.chunks [] [] []) (fun _ _ => True) o := by
  refine Eff.wp_mono (wp_restoreChunks records) (fun _ o' h' id => .inl ?_) fun _ _ _ => trivial
  by_cases hid : id ∈ records.map ChunkRecord.chunkId
  · obtain ⟨r, hr, rfl⟩ := List.mem_map.mp hid
    rw [h'.1 r hr, hrecords r hr]
  · rw [h'.2 id hid]
    obtain hsame | ⟨hdel, -⟩ | ⟨hins, -⟩ | ⟨hret, -⟩ := h id
    · exact hsame
    · exact absurd hdel hid
    · cases hins
    · cases hret

end ChunkStore

namespace Save

open ChunkStore (Keyed Undoable inParagraphs)

variable {rt : Runtime K} {documentId currentText : Text} {modifiedParagraphIds : Option (List ℤ)} {document : Uuid}
  {data : Dict ℕ Text} {chunks : Dict ℕ (List Uuid)} {p : Prepared} {snapshots : List (ChunkRecord K)}
  {before : Dict Uuid (ChunkRecord K)} {w : World K}

/-! ### Standing still -/

/-- The maps, the records and the identifiers attempted are the same. -/
structure Still (w w' : World K) : Prop where
  documents : w'.documents = w.documents
  paragraphs : w'.paragraphs = w.paragraphs
  chunks : w'.outside.chunks = w.outside.chunks
  inserted : w'.progress.attemptedInsertIds = w.progress.attemptedInsertIds
  retained : w'.progress.attemptedRetainedIds = w.progress.attemptedRetainedIds

instance : Std.Refl (Still (K := K)) := ⟨fun _ => ⟨rfl, rfl, rfl, rfl, rfl⟩⟩

instance : IsTrans (World K) Still where
  trans _ _ _ h h' :=
    ⟨h'.documents.trans h.documents, h'.paragraphs.trans h.paragraphs, h'.chunks.trans h.chunks,
      h'.inserted.trans h.inserted, h'.retained.trans h.retained⟩

theorem still_note (c : Call) : Eff.Keeps (Still (K := K)) (note c) := fun _ => ⟨rfl, rfl, rfl, rfl, rfl⟩

theorem still_inject (f : ℕ → α) : Eff.Keeps Still (inject rt f) := by
  intro w
  rw [inject, outside, Eff.wp_zoom]
  exact Eff.wp_mono (ChunkStore.wp_answer _) (fun _ _ h => ⟨rfl, rfl, h.2, rfl, rfl⟩) fun _ _ h => ⟨rfl, rfl, h, rfl, rfl⟩

theorem still_assign {f : Progress → Progress} (hi : ∀ q, (f q).attemptedInsertIds = q.attemptedInsertIds)
    (hr : ∀ q, (f q).attemptedRetainedIds = q.attemptedRetainedIds) : Eff.Keeps (Still (K := K)) (assign f) :=
  Eff.Keeps.update fun w => ⟨rfl, rfl, rfl, hi w.progress, hr w.progress⟩

theorem still_stage (name : String) : Eff.Keeps (Still (K := K)) (stage name) := still_assign (fun _ => rfl) fun _ => rfl

theorem passive_still : Passive rt Still := ⟨still_inject, fun _ _ => still_note _⟩

theorem still_saveDiff : Eff.Keeps Still (saveDiff rt documentId currentText modifiedParagraphIds) := by
  refine (Eff.Keeps.read id).bind fun w => (keeps_check _).bind fun data => (keeps_check _).bind fun hinted => ?_
  refine Eff.Keeps.ite ((still_note _).bind fun _ => Eff.Keeps.pure _) ?_
  exact (keeps_check _).bind fun unions => (keeps_check _).bind fun old => Eff.Keeps.pure _

theorem still_renumber (staged : List (ℕ × List (ParagraphNode K))) :
    Eff.Keeps Still (renumber documentId currentText p staged) := by
  refine (keeps_fail _).whenever.bind fun _ => (Eff.Keeps.read id).bind fun w => ?_
  exact (keeps_check _).bind fun _ => (keeps_check _).bind fun _ => Eff.Keeps.pure _

theorem still_recordRenumbering (nodes : List (ParagraphNode K)) : Eff.Keeps Still (recordRenumbering p nodes) := by
  intro w
  refine Eff.wp_mono (wp_recordRenumbering p nodes) (fun _ w' h => ?_) fun _ _ h => h
  rw [h]
  exact ⟨rfl, rfl, rfl, rfl, rfl⟩

/-! ### Snapshots -/

/-- The snapshots have the records of the unions, as they stand in the store. -/
structure Snapshots (documentId : Text) (p : Prepared) (before : Dict Uuid (ChunkRecord K))
    (snapshots : List (ChunkRecord K)) : Prop where
  found : ∀ r ∈ snapshots, before.get? r.chunkId = some r
  all : ∀ document, Weaviate.uuidText documentId "document_id" = .ok document → ∀ u ∈ p.unions, ∀ id r,
    before.get? id = some r → inParagraphs document u.paragraphIds r = true → id ∈ snapshots.map ChunkRecord.chunkId

theorem wp_takeSnapshots (p : Prepared) :
    Eff.wp (takeSnapshots rt documentId p)
      (fun snapshots w' => Still w w' ∧ Snapshots documentId p w.outside.chunks snapshots) (fun _ w' => Still w w') w := by
  rw [takeSnapshots, Eff.wp_bind]
  refine Eff.wp_mono (Eff.wp_collect (I := Still w) (E := fun _ => Still w) (P := fun u records =>
    (∀ r ∈ records, w.outside.chunks.get? r.chunkId = some r) ∧ ∀ document,
      Weaviate.uuidText documentId "document_id" = .ok document → ∀ id r, w.outside.chunks.get? id = some r →
        inParagraphs document u.paragraphIds r = true → id ∈ records.map ChunkRecord.chunkId)
    (Std.Refl.refl w) fun u _ t ht => ?_) (fun parts w' hparts => ?_) fun _ _ h => h
  · rw [outside, Eff.wp_zoom]
    refine Eff.wp_mono (ChunkStore.wp_snapshotByParagraphs documentId u.paragraphIds) (fun records o h => ?_) fun _ o h => ?_
    · rw [ht.chunks] at h
      exact ⟨⟨ht.documents, ht.paragraphs, h.1, ht.inserted, ht.retained⟩, h.2⟩
    · exact ⟨ht.documents, ht.paragraphs, h.trans ht.chunks, ht.inserted, ht.retained⟩
  · obtain ⟨hstill, hparts⟩ := hparts
    rw [Eff.wp_bind, Eff.wp_whenever]
    refine ⟨fun _ => hstill, fun _ => ⟨hstill, fun r hr => ?_, fun d hd u hu id r hr hin => ?_⟩⟩
    · obtain ⟨records, hrecords, hr⟩ := List.mem_flatten.mp hr
      obtain ⟨u, -, hfound, -⟩ := forall₂_right hparts hrecords
      exact hfound r hr
    · obtain ⟨records, hrecords, -, hall⟩ := forall₂_left hparts hu
      obtain ⟨s, hs, hid⟩ := List.mem_map.mp (hall d hd id r hr hin)
      exact List.mem_map.mpr ⟨s, List.mem_flatten.mpr ⟨records, hrecords, hs⟩, hid⟩

/-! ### New chunks -/

/-- The factory has answered the identifier. -/
def Drawn (rt : Runtime K) (id : Uuid) : Prop := ∃ n, Uuid.ofText (rt.uuidFactory n) = some id

theorem drawn_newChunkUuid (unavailableIds : Finset Uuid) : Eff.Returns (Drawn rt) (newChunkUuid rt unavailableIds) := by
  refine Eff.Returns.bind (returns_inject _) fun value hvalue => ?_
  obtain ⟨n, rfl⟩ := hvalue
  cases hid : Uuid.ofText (rt.uuidFactory n) with
  | none => exact Eff.Returns.raise _
  | some id =>
    dsimp only
    split_ifs
    · exact Eff.Returns.raise _
    · exact Eff.Returns.pure ⟨n, hid⟩

theorem drawn_stageChunks (texts : List Text) (unavailableIds : Finset Uuid) :
    Eff.Returns (fun r => ∀ c ∈ r.1, Drawn rt c.chunkId) (stageChunks rt unavailableIds texts) := by
  induction texts generalizing unavailableIds with
  | nil => exact Eff.Returns.pure (by simp)
  | cons t texts ih =>
    rw [stageChunks]
    refine Eff.Returns.bind_any fun _ => Eff.Returns.bind (drawn_newChunkUuid unavailableIds) fun c hc => ?_
    exact Eff.Returns.bind (ih _) fun r hr => Eff.Returns.pure (List.forall_mem_cons.mpr ⟨hc, hr⟩)

theorem drawn_stageParagraphs (texts : List Text) (unavailableIds : Finset Uuid) :
    Eff.Returns (fun r => ∀ c ∈ r.1.flatMap ParagraphNode.chunks, Drawn rt c.chunkId) (stageParagraphs rt unavailableIds texts) := by
  induction texts generalizing unavailableIds with
  | nil => exact Eff.Returns.pure (by simp)
  | cons t texts ih =>
    rw [stageParagraphs]
    refine Eff.Returns.bind_any fun raw => Eff.Returns.bind_any fun chunks => Eff.Returns.bind_any fun _ => ?_
    refine Eff.Returns.bind (drawn_stageChunks chunks unavailableIds) fun staged hstaged => ?_
    exact Eff.Returns.bind (ih _) fun r hr => Eff.Returns.pure (List.forall_mem_append.mpr ⟨hstaged, hr⟩)

theorem drawn_stageUnions (unions : List ParagraphUnion) (unavailableIds : Finset Uuid) :
    Eff.Returns (fun staged => ∀ c ∈ pendingChunks staged, Drawn rt c.chunkId) (stageUnions rt unavailableIds unions) := by
  induction unions generalizing unavailableIds with
  | nil => exact Eff.Returns.pure (by simp [pendingChunks])
  | cons u unions ih =>
    rw [stageUnions]
    refine Eff.Returns.bind_any fun raw => Eff.Returns.bind_any fun pieces => Eff.Returns.bind_any fun _ => ?_
    refine Eff.Returns.bind (drawn_stageParagraphs pieces unavailableIds) fun staged hstaged => ?_
    exact Eff.Returns.bind (ih _) fun r hr => Eff.Returns.pure (List.forall_mem_append.mpr ⟨hstaged, hr⟩)

/-- Step 5 changes no identifier. -/
theorem returns_ids_embedUnions (staged : List (ℕ × List (ParagraphNode K))) :
    Eff.Returns (fun staged' => (pendingChunks staged').map StagedChunk.chunkId = (pendingChunks staged).map StagedChunk.chunkId)
      (embedUnions rt staged) := by
  refine Eff.Returns.bind_any fun vectors => Eff.Returns.pure ?_
  simp [pendingChunks, List.flatMap_map, List.map_flatMap, Function.comp_def]

/-- What is inserted was staged. -/
theorem mem_newChunks {staged : List (ℕ × List (ParagraphNode K))} {e : ℕ × StagedChunk K}
    (h : e ∈ newChunks (finalNodes p staged)) : e.2 ∈ pendingChunks staged := by
  obtain ⟨⟨node, n⟩, hnode, he⟩ := List.mem_flatMap.mp h
  split_ifs at he with hnew
  · obtain ⟨c, hc, rfl⟩ := List.mem_map.mp he
    have hmem : node ∈ finalNodes p staged := List.fst_mem_of_mem_zipIdx hnode
    rw [finalNodes] at hmem
    split_ifs at hmem
    · rw [List.mem_singleton] at hmem
      subst hmem
      cases hc
    · obtain ⟨old, -, hmem⟩ := List.mem_flatMap.mp hmem
      rw [nodesOf] at hmem
      cases hlookup : staged.lookup old.paragraphId with
      | some nodes =>
        rw [hlookup] at hmem
        obtain ⟨first, rest, hsplit, -⟩ := List.lookup_eq_some_iff.mp hlookup
        refine List.mem_flatMap.mpr ⟨(old.paragraphId, nodes), ?_, List.mem_flatMap.mpr ⟨node, hmem, hc⟩⟩
        rw [hsplit]
        exact List.mem_append_right _ List.mem_cons_self
      | none =>
        rw [hlookup] at hmem
        dsimp only at hmem
        split_ifs at hmem
        · cases hmem
        · rw [List.mem_singleton] at hmem
          subst hmem
          cases hnew
  · cases he

/-! ### Retained chunks -/

/-- Where a chunk has an old paragraph, it is on the list of it. -/
theorem mem_of_oldParagraphByChunk {c : Uuid} {n : ℕ} (h : p.oldParagraphByChunk.get? c = some n) :
    ∃ cs, p.oldChunks.get? n = some cs ∧ c ∈ cs := by
  suffices hloop : ∀ (entries : List (ℕ × List Uuid)) (d : Dict Uuid ℕ),
      (entries.foldl (fun d e => e.2.foldl (fun d c => d.set c e.1) d) d).get? c = some n →
        (∃ e ∈ entries, e.1 = n ∧ c ∈ e.2) ∨ d.get? c = some n by
    obtain ⟨⟨k, cs⟩, he, rfl, hc⟩ | hnone := hloop _ _ h
    · exact ⟨cs, Dict.mem_entries_iff.mp he, hc⟩
    · cases hnone
  intro entries
  induction entries with
  | nil => exact fun d h => .inr h
  | cons e entries ih =>
    intro d h
    obtain ⟨e', he', hn⟩ | hd := ih _ h
    · exact .inl ⟨e', List.mem_cons_of_mem e he', hn⟩
    · rw [Dict.get?_foldl_set] at hd
      split_ifs at hd with hc
      · exact .inl ⟨e, List.mem_cons_self, Option.some.inj hd, hc⟩
      · exact .inr hd

/-- A chunk on a list has an old paragraph. -/
theorem exists_oldParagraphByChunk {c : Uuid} {n : ℕ} {cs : List Uuid} (hcs : p.oldChunks.get? n = some cs) (hc : c ∈ cs) :
    ∃ k, p.oldParagraphByChunk.get? c = some k := by
  suffices hloop : ∀ (entries : List (ℕ × List Uuid)) (d : Dict Uuid ℕ),
      (∃ e ∈ entries, c ∈ e.2) ∨ (d.get? c).isSome →
        ((entries.foldl (fun d e => e.2.foldl (fun d c => d.set c e.1) d) d).get? c).isSome from
    Option.isSome_iff_exists.mp (hloop _ _ (.inl ⟨(n, cs), Dict.mem_entries_iff.mpr hcs, hc⟩))
  intro entries
  induction entries with
  | nil =>
    rintro d (⟨e, he, -⟩ | hd)
    · cases he
    · exact hd
  | cons e entries ih =>
    intro d h
    refine ih _ ?_
    rw [Dict.get?_foldl_set]
    obtain ⟨e', he', hmem⟩ | hd := h
    · rcases List.mem_cons.mp he' with rfl | he'
      · exact .inr (by rw [if_pos hmem]; rfl)
      · exact .inl ⟨e', he', hmem⟩
    · refine .inr ?_
      split_ifs
      · rfl
      · exact hd

/-- A node that is an old paragraph has its chunks. -/
theorem chunkIds_of_old {staged : List (ℕ × List (ParagraphNode K))} (hstaged : ∀ e ∈ staged, ∀ node ∈ e.2, node.oldParagraphId = none)
    {node : ParagraphNode K} (hnode : node ∈ finalNodes p staged) {n : ℕ} (hn : node.oldParagraphId = some n) :
    node.chunkIds = p.chunksOf n := by
  rw [finalNodes] at hnode
  split_ifs at hnode
  · rw [List.mem_singleton] at hnode
    subst hnode
    cases hn
  · obtain ⟨old, -, hnode⟩ := List.mem_flatMap.mp hnode
    rw [nodesOf] at hnode
    cases hlookup : staged.lookup old.paragraphId with
    | some nodes =>
      rw [hlookup] at hnode
      obtain ⟨first, rest, hsplit, -⟩ := List.lookup_eq_some_iff.mp hlookup
      have hnew := hstaged (old.paragraphId, nodes) (hsplit ▸ List.mem_append_right _ List.mem_cons_self) node hnode
      rw [hn] at hnew
      cases hnew
    | none =>
      rw [hlookup] at hnode
      dsimp only at hnode
      split_ifs at hnode
      · cases hnode
      · rw [List.mem_singleton] at hnode
        subst hnode
        cases hn
        simp [ParagraphNode.chunkIds, Function.comp_def]

/-! ### The steps that are guarded -/

/-- The store and the lists of a document agree: a record of the document is on the list of its paragraph, and what is
on a list is stored in the paragraph. -/
structure StoreAgrees (before : Dict Uuid (ChunkRecord K)) (document : Uuid) (chunks : Dict ℕ (List Uuid)) : Prop where
  keyed : Keyed before
  stored : ∀ n id, (∃ cs, chunks.get? n = some cs ∧ id ∈ cs) ↔
    ∃ r, before.get? id = some r ∧ r.documentId = document ∧ r.paragraphId = n

/-- The factory answers no identifier under which another document has a record. -/
def FreshIds (rt : Runtime K) (before : Dict Uuid (ChunkRecord K)) (document : Uuid) : Prop :=
  ∀ id, Drawn rt id → ∀ r, before.get? id = some r → r.documentId = document

/-- What a recovery needs to know of the state it starts in. -/
structure Recoverable (before : Dict Uuid (ChunkRecord K)) (p : Prepared) (snapshots : List (ChunkRecord K))
    (w : World K) : Prop where
  undoable : Undoable before w.outside.chunks (snapshots.map ChunkRecord.chunkId) w.progress.attemptedInsertIds
    w.progress.attemptedRetainedIds
  new : ∀ id ∈ w.progress.attemptedInsertIds, before.get? id = none
  retained : ∀ c ∈ w.progress.attemptedRetainedIds, ∃ r, before.get? c = some r ∧
    p.oldParagraphByChunk.get? c = some r.paragraphId
  nodup : w.progress.attemptedRetainedIds.Nodup

theorem Recoverable.still {w' : World K} (h : Recoverable before p snapshots w) (hs : Still w w') :
    Recoverable before p snapshots w' := by
  refine ⟨?_, ?_, ?_, ?_⟩
  · rw [hs.chunks, hs.inserted, hs.retained]
    exact h.undoable
  · rw [hs.inserted]
    exact h.new
  · rw [hs.retained]
    exact h.retained
  · rw [hs.retained]
    exact h.nodup

/-- The world with other records. -/
theorem Recoverable.outside {o : Outside K} (h : Recoverable before p snapshots w)
    (ho : Undoable before o.chunks (snapshots.map ChunkRecord.chunkId) w.progress.attemptedInsertIds
      w.progress.attemptedRetainedIds) : Recoverable before p snapshots { w with outside := o } :=
  ⟨ho, h.new, h.retained, h.nodup⟩

/-- Nothing was inserted or renumbered so far. -/
structure Unwritten (w : World K) : Prop where
  inserted : w.progress.attemptedInsertIds = []
  retained : w.progress.attemptedRetainedIds = []

theorem Unwritten.still {w' : World K} (h : Unwritten w) (hs : Still w w') : Unwritten w' :=
  ⟨hs.inserted.trans h.inserted, hs.retained.trans h.retained⟩

theorem wp_deleteOldChunks_recoverable (hsnapshots : Snapshots documentId p before snapshots)
    (h : Recoverable before p snapshots w) (hu : Unwritten w) :
    Eff.wp (deleteOldChunks rt documentId p) (fun _ w' => Recoverable before p snapshots w' ∧ Unwritten w')
      (fun _ w' => Recoverable before p snapshots w') w := by
  refine Eff.wp_forEach_mem (I := fun w' => Recoverable before p snapshots w' ∧ Unwritten w') ⟨h, hu⟩ fun u hmem t ht => ?_
  obtain ⟨ht, htu⟩ := ht
  rw [Eff.wp_bind, outside, Eff.wp_zoom]
  refine Eff.wp_mono (ht.undoable.deleteByParagraphs htu.inserted htu.retained fun d hd id r => hsnapshots.all d hd u hmem id r)
    (fun deletion o ho => ?_) fun _ o ho => ht.outside ho
  exact ⟨(ht.outside ho).still ⟨rfl, rfl, rfl, rfl, rfl⟩, ⟨htu.inserted, htu.retained⟩⟩

theorem wp_insertNewChunks_recoverable {nodes : List (ParagraphNode K)}
    (hnew : ∀ e ∈ newChunks nodes, before.get? e.2.chunkId = none) (h : Recoverable before p snapshots w)
    (hr : w.progress.attemptedRetainedIds = []) :
    Eff.wp (insertNewChunks rt documentId nodes)
      (fun _ w' => Recoverable before p snapshots w' ∧ w'.progress.attemptedRetainedIds = [])
      (fun _ w' => Recoverable before p snapshots w') w := by
  refine Eff.wp_forEach_mem (I := fun w' => Recoverable before p snapshots w' ∧ w'.progress.attemptedRetainedIds = []) ⟨h, hr⟩
    fun e he t ht => ?_
  obtain ⟨ht, htr⟩ := ht
  rw [Eff.wp_bind, assign, Eff.wp_update]
  set t₁ : World K := { t with progress :=
    { t.progress with attemptedInsertIds := t.progress.attemptedInsertIds ++ [e.2.chunkId] } }
  have ht₁ : Recoverable before p snapshots t₁ := by
    refine ⟨ht.undoable.mono (List.Subset.refl _) (List.subset_append_left _ _) (List.Subset.refl _), ?_, ht.retained, ht.nodup⟩
    intro id hid
    rcases List.mem_append.mp hid with hid | hid
    · exact ht.new id hid
    · rw [List.mem_singleton.mp hid]
      exact hnew e he
  refine (still_note _).wp_bind_or (fun _ t' h' => ht₁.still h') fun _ t₂ h₂ => ?_
  have ht₂ : Recoverable before p snapshots t₂ := ht₁.still h₂
  have hin : e.2.chunkId ∈ t₂.progress.attemptedInsertIds := by
    rw [h₂.inserted]
    exact List.mem_append_right _ (List.mem_singleton.mpr rfl)
  rw [Eff.wp_bind, outside, Eff.wp_zoom]
  refine Eff.wp_mono (ht₂.undoable.insertChunk hin documentId e.1 e.2.rawText e.2.lateInteraction e.2.mmrDiversity)
    (fun _ o ho => ?_) fun _ o ho => ht₂.outside ho
  exact ⟨(ht₂.outside ho).still ⟨rfl, rfl, rfl, rfl, rfl⟩, h₂.retained.trans htr⟩

theorem wp_updateRetainedChunks_recoverable {nodes : List (ParagraphNode K)}
    (hold : ∀ c ∈ (unmodifiedUpdates nodes).keys, ∃ r, before.get? c = some r ∧
      p.oldParagraphByChunk.get? c = some r.paragraphId)
    (h : Recoverable before p snapshots w) (hr : w.progress.attemptedRetainedIds = []) :
    Eff.wp (updateRetainedChunks rt nodes) (fun _ w' => Recoverable before p snapshots w')
      (fun _ w' => Recoverable before p snapshots w') w := by
  rw [updateRetainedChunks, Eff.wp_whenever]
  refine ⟨fun _ => ?_, fun _ => h⟩
  rw [Eff.wp_bind, assign, Eff.wp_update, Eff.wp_tryExcept]
  set w₁ : World K := { w with progress :=
    { w.progress with attemptedRetainedIds := w.progress.attemptedRetainedIds ++ (unmodifiedUpdates nodes).keys } }
  have hids : w₁.progress.attemptedRetainedIds = (unmodifiedUpdates nodes).keys := by
    change w.progress.attemptedRetainedIds ++ _ = _
    rw [hr, List.nil_append]
  have h₁ : Recoverable before p snapshots w₁ := by
    refine ⟨h.undoable.mono (List.Subset.refl _) (List.Subset.refl _) (List.subset_append_left _ _), h.new, ?_, ?_⟩
    · rw [hids]
      exact hold
    · rw [hids]
      exact Dict.nodup_keys _
  suffices hbody : Eff.wp (do
      setFlag "weaviate_mutation_executed" true
      outside (ChunkStore.updateParagraphIds rt.faults (unmodifiedUpdates nodes).entries)
      assign fun progress => { progress with updatedRetainedIds := progress.updatedRetainedIds ++ (unmodifiedUpdates nodes).keys }
      addCount "weaviate_metadata_update_count" (unmodifiedUpdates nodes).entries.length
      outside (ChunkStore.verifyParagraphIds rt.faults (unmodifiedUpdates nodes).entries))
      (fun _ => Recoverable before p snapshots) (fun _ => Recoverable before p snapshots) w₁ by
    refine Eff.wp_mono hbody (fun _ _ h => h) fun error t ht => ?_
    cases error with
    | raised e => exact ht
    | partialUpdate completed failed => exact ht.still ⟨rfl, rfl, rfl, rfl, rfl⟩
  refine (still_note _).wp_bind_or (fun _ t ht => h₁.still ht) fun _ w₂ h₂ => ?_
  have hw₂ : Recoverable before p snapshots w₂ := h₁.still h₂
  rw [Eff.wp_bind, outside, Eff.wp_zoom]
  refine Eff.wp_mono (hw₂.undoable.updateParagraphIds (Dict.nodup_keys _) fun c hc => ?_) (fun _ o ho => ?_)
    fun _ o ho => hw₂.outside ho
  · rw [h₂.retained, hids]
    exact hc
  · rw [Eff.wp_bind, assign, Eff.wp_update]
    set w₃ : World K := { w₂ with
      outside := o
      progress := { w₂.progress with updatedRetainedIds := w₂.progress.updatedRetainedIds ++ (unmodifiedUpdates nodes).keys } }
    have hw₃ : Recoverable before p snapshots w₃ := (hw₂.outside ho).still ⟨rfl, rfl, rfl, rfl, rfl⟩
    refine (still_note _).wp_bind_or (fun _ t ht => hw₃.still ht) fun _ w₅ h₅ => ?_
    rw [outside, Eff.wp_zoom]
    have hw₅ : Recoverable before p snapshots w₅ := hw₃.still h₅
    exact Eff.wp_mono (ChunkStore.wp_verifyParagraphIds _) (fun _ o ho => hw₅.still ⟨rfl, rfl, ho, rfl, rfl⟩)
      fun _ o ho => hw₅.still ⟨rfl, rfl, ho, rfl, rfl⟩

/-- A commit of the paragraphs changes the paragraph map only. -/
theorem wp_commitParagraphs (m : Eff ParagraphMap PyError Unit) :
    Eff.wp (commitParagraphs rt m)
      (fun _ w' => m w.paragraphs = .ok () w'.paragraphs ∧ w'.outside.chunks = w.outside.chunks ∧ w'.progress = w.progress)
      (fun _ w' => w'.outside.chunks = w.outside.chunks ∧ w'.progress = w.progress) w := by
  rw [Eff.wp, commitParagraphs]
  cases rt.faults w.outside.calls with
  | none =>
    cases hm : m w.paragraphs with
    | ok u p' => exact ⟨rfl, rfl, rfl⟩
    | error e p' => exact ⟨rfl, rfl⟩
  | some fault => cases m w.paragraphs <;> exact ⟨rfl, rfl⟩

/-- A commit of a document changes the document map only. -/
theorem wp_commitDocuments (f : DocumentMap → Except PyError DocumentMap) :
    Eff.wp (commitDocuments rt f)
      (fun _ w' => f w.documents = .ok w'.documents ∧ w'.paragraphs = w.paragraphs ∧ w'.outside.chunks = w.outside.chunks ∧
        w'.progress = w.progress)
      (fun _ w' => w'.outside.chunks = w.outside.chunks ∧ w'.progress = w.progress) w := by
  rw [Eff.wp, commitDocuments]
  cases rt.faults w.outside.calls with
  | none =>
    cases hf : f w.documents with
    | ok d => exact ⟨rfl, rfl, rfl, rfl⟩
    | error e => exact ⟨rfl, rfl⟩
  | some fault => cases f w.documents <;> exact ⟨rfl, rfl⟩

theorem Recoverable.committed {w' : World K} (h : Recoverable before p snapshots w)
    (hc : w'.outside.chunks = w.outside.chunks) (hp : w'.progress = w.progress) : Recoverable before p snapshots w' := by
  obtain ⟨hundo, hnew, hretained, hnodup⟩ := h
  refine ⟨?_, ?_, ?_, ?_⟩
  · rw [hc, hp]
    exact hundo
  · rw [hp]
    exact hnew
  · rw [hp]
    exact hretained
  · rw [hp]
    exact hnodup

theorem wp_commitMaps_recoverable (h : Recoverable before p snapshots w) (nodes : List (ParagraphNode K)) :
    Eff.wp (commitMaps rt documentId nodes) (fun _ _ => True) (fun _ w' => Recoverable before p snapshots w') w := by
  rw [commitMaps, Eff.wp_bind]
  refine Eff.wp_mono (wp_commitParagraphs _) (fun _ w₁ h₁ => ?_) fun _ w₁ h₁ => h.committed h₁.1 h₁.2
  have hw₁ : Recoverable before p snapshots w₁ := h.committed h₁.2.1 h₁.2.2
  exact Eff.wp_mono (wp_commitDocuments _) (fun _ _ _ => trivial) fun _ w₂ h₂ => hw₁.committed h₂.1 h₂.2

/-- A new chunk has no record. -/
theorem get?_of_drawn (hstore : StoreAgrees before document p.oldChunks) (hfresh : FreshIds rt before document) {id : Uuid}
    (hid : Drawn rt id) (hnew : id ∉ p.existingChunkIds) : before.get? id = none := by
  cases hr : before.get? id with
  | none => rfl
  | some r =>
    obtain ⟨cs, hcs, hmem⟩ := (hstore.stored r.paragraphId id).mpr ⟨r, hr, hfresh id hid r hr, rfl⟩
    exact absurd (mem_chunkIdsOf.mpr ⟨_, cs, hcs, hmem⟩) hnew

/-- A chunk that is renumbered has a record, in the paragraph that a recovery writes back. -/
theorem record_of_updated (hstore : StoreAgrees before document p.oldChunks) {staged : List (ℕ × List (ParagraphNode K))}
    (hstaged : ∀ e ∈ staged, ∀ node ∈ e.2, node.oldParagraphId = none) {c : Uuid}
    (hc : c ∈ (unmodifiedUpdates (finalNodes p staged)).keys) :
    ∃ r, before.get? c = some r ∧ p.oldParagraphByChunk.get? c = some r.paragraphId := by
  obtain ⟨i, node, k, hi, hk, -, hmem⟩ := mem_keys_unmodifiedUpdates.mp hc
  rw [chunkIds_of_old hstaged (List.mem_of_getElem? hi) hk] at hmem
  obtain ⟨cs, hcs, hmem⟩ := mem_chunksOf.mp hmem
  obtain ⟨n, hn⟩ := exists_oldParagraphByChunk hcs hmem
  obtain ⟨r, hr, -, rfl⟩ := (hstore.stored n c).mp (mem_of_oldParagraphByChunk hn)
  exact ⟨r, hr, hn⟩

/-- However steps 3 to 8 fail, a recovery can start from what they leave. -/
theorem wp_saveSteps_recoverable (hstore : StoreAgrees before document p.oldChunks) (hfresh : FreshIds rt before document)
    (hsnapshots : Snapshots documentId p before snapshots) (h : Recoverable before p snapshots w) (hu : Unwritten w) :
    Eff.wp (saveSteps rt documentId currentText p) (fun _ _ => True) (fun _ w' => Recoverable before p snapshots w') w := by
  have hpassive : Passive rt Still := passive_still
  have hstage : ∀ name, Eff.Keeps (Still (K := K)) (stage name) := still_stage
  rw [saveSteps]
  refine (hstage _).wp_bind_or (fun _ t ht => h.still ht) fun _ w₁ h₁ => ?_
  rw [Eff.wp_bind]
  refine Eff.wp_mono (wp_deleteOldChunks_recoverable hsnapshots (h.still h₁) (hu.still h₁)) (fun _ w₂ h₂ => ?_) fun _ _ h => h
  obtain ⟨h₂, hu₂⟩ := h₂
  refine (hstage _).wp_bind_or (fun _ t ht => h₂.still ht) fun _ w₃ h₃ => ?_
  refine Eff.Returns.wp_bind_or (keeps_stageUnions hpassive _ _) ((returns_stageUnions _ _).and (drawn_stageUnions _ _))
    (fun _ t ht => h₂.still (Trans.trans h₃ ht)) fun staged w₄ h₄ hstaged => ?_
  obtain ⟨hstaged, hdrawn⟩ := hstaged
  refine (still_note _).wp_bind_or (fun _ t ht => h₂.still (Trans.trans (Trans.trans h₃ h₄) ht)) fun _ w₅ h₅ => ?_
  have hw₅ : Still w₂ w₅ := Trans.trans (Trans.trans h₃ h₄) h₅
  refine (hstage _).wp_bind_or (fun _ t ht => h₂.still (Trans.trans hw₅ ht)) fun _ w₆ h₆ => ?_
  refine Eff.Returns.wp_bind_or (keeps_embedUnions hpassive _) ((returns_embedUnions hstaged).and (returns_ids_embedUnions _))
    (fun _ t ht => h₂.still (Trans.trans (Trans.trans hw₅ h₆) ht)) fun staged' w₇ h₇ hstaged' => ?_
  obtain ⟨hstaged', hids⟩ := hstaged'
  have hw₇ : Still w₂ w₇ := Trans.trans (Trans.trans hw₅ h₆) h₇
  refine (hstage _).wp_bind_or (fun _ t ht => h₂.still (Trans.trans hw₇ ht)) fun _ w₈ h₈ => ?_
  have hnodes : Eff.Returns (· = finalNodes p staged') (renumber documentId currentText p staged') := by
    refine Eff.Returns.bind_any fun _ => Eff.Returns.bind_any fun _ => Eff.Returns.bind_any fun _ => ?_
    exact Eff.Returns.bind_any fun _ => Eff.Returns.pure rfl
  refine Eff.Returns.wp_bind_or (still_renumber staged') hnodes
    (fun _ t ht => h₂.still (Trans.trans (Trans.trans hw₇ h₈) ht)) fun nodes w₉ h₉ hnodes => ?_
  subst hnodes
  have hw₉ : Still w₂ w₉ := Trans.trans (Trans.trans hw₇ h₈) h₉
  refine (still_recordRenumbering _).wp_bind_or (fun _ t ht => h₂.still (Trans.trans hw₉ ht)) fun _ w₁₀ h₁₀ => ?_
  refine (hstage _).wp_bind_or (fun _ t ht => h₂.still (Trans.trans (Trans.trans hw₉ h₁₀) ht)) fun _ w₁₁ h₁₁ => ?_
  have hw₁₁ : Still w₂ w₁₁ := Trans.trans (Trans.trans hw₉ h₁₀) h₁₁
  have hnew : ∀ e ∈ newChunks (finalNodes p staged'), before.get? e.2.chunkId = none := by
    intro e he
    have hpending := mem_newChunks he
    have hmem : e.2.chunkId ∈ (pendingChunks staged).map StagedChunk.chunkId := by
      rw [← hids]
      exact List.mem_map_of_mem hpending
    obtain ⟨c, hc, hid⟩ := List.mem_map.mp hmem
    exact get?_of_drawn hstore hfresh (hid ▸ hdrawn c hc) (hstaged'.new e.2 hpending)
  rw [Eff.wp_bind]
  refine Eff.wp_mono (wp_insertNewChunks_recoverable hnew (h₂.still hw₁₁) (hu₂.still hw₁₁).retained) (fun _ w₁₂ h₁₂ => ?_)
    fun _ _ h => h
  obtain ⟨h₁₂, hr₁₂⟩ := h₁₂
  refine (hstage _).wp_bind_or (fun _ t ht => h₁₂.still ht) fun _ w₁₃ h₁₃ => ?_
  have hnone : ∀ e ∈ staged', ∀ node ∈ e.2, node.oldParagraphId = none := by
    intro e he node hnode
    obtain ⟨u, -, -, hu⟩ := forall₂_right hstaged'.nodes he
    exact (hu.staged node hnode).new
  rw [Eff.wp_bind]
  refine Eff.wp_mono (wp_updateRetainedChunks_recoverable (fun c hc => record_of_updated hstore hnone hc) (h₁₂.still h₁₃)
    (h₁₃.retained.trans hr₁₂)) (fun _ w₁₄ h₁₄ => ?_) fun _ _ h => h
  refine (hstage _).wp_bind_or (fun _ t ht => h₁₄.still ht) fun _ w₁₅ h₁₅ => ?_
  exact wp_commitMaps_recoverable (h₁₄.still h₁₅) _

/-! ### The recovery -/

/-- A step of the recovery, where the steps before it had no errors, and what follows it. -/
theorem wp_phase {σ ε β : Type} (done : Prop) {m : Eff σ ε Unit} {k : Option ε → Eff σ ε β} (P : σ → Prop)
    {Q : β → σ → Prop} {E : ε → σ → Prop} {s : σ} (hrun : done → Eff.wp m (fun _ => P) (fun _ _ => True) s)
    (hrest : ∀ r t, (done ∧ r = none → P t) → Eff.wp (k r) Q E t) : Eff.wp (attempt m >>= k) Q E s := by
  rw [Eff.wp_bind, attempt, Eff.wp_tryExcept, Eff.wp_bind]
  by_cases hdone : done
  · refine Eff.wp_mono (hrun hdone) (fun _ t ht => hrest none t fun _ => ht) fun e t _ => hrest (some e) t fun hnone => ?_
    cases hnone.2
  · exact Eff.wp_mono (Eff.wp_true m s) (fun _ t _ => hrest none t fun hnone => absurd hnone.1 hdone)
      fun e t _ => hrest (some e) t fun hnone => absurd hnone.1 hdone

/-- A step of the recovery that may be skipped. -/
theorem wp_phase_unless {σ ε β : Type} {c : Prop} (done : Prop) [Decidable c] {m : Eff σ ε Unit} {k : Option ε → Eff σ ε β}
    (P : σ → Prop) {Q : β → σ → Prop} {E : ε → σ → Prop} {s : σ} (hskip : done → c → P s)
    (hrun : done → ¬c → Eff.wp m (fun _ => P) (fun _ _ => True) s)
    (hrest : ∀ r t, (done ∧ r = none → P t) → Eff.wp (k r) Q E t) :
    Eff.wp (if c then (pure none >>= k) else (attempt m >>= k)) Q E s := by
  rw [Eff.wp_ite]
  exact ⟨fun hc => hrest none s fun hdone => hskip hdone.1 hc, fun hc => wp_phase done P (fun hdone => hrun hdone hc) hrest⟩

theorem map_fst_filterMap {β γ : Type} {f : β → Option γ} {ids : List β} (h : ∀ c ∈ ids, ∃ n, f c = some n) :
    (ids.filterMap fun c => (f c).map (c, ·)).map Prod.fst = ids := by
  induction ids with
  | nil => rfl
  | cons c ids ih =>
    rw [List.forall_mem_cons] at h
    obtain ⟨n, hn⟩ := h.1
    rw [List.filterMap_cons, hn, Option.map_some, List.map_cons, ih h.2]

/-- The first step of the recovery. -/
theorem wp_writeBack (h : Recoverable before p snapshots w) :
    Eff.wp (do
        outside (ChunkStore.updateParagraphIds rt.faults
          (w.progress.attemptedRetainedIds.filterMap fun c => (p.oldParagraphByChunk.get? c).map (c, ·)))
        outside (ChunkStore.verifyParagraphIds rt.faults
          (w.progress.attemptedRetainedIds.filterMap fun c => (p.oldParagraphByChunk.get? c).map (c, ·))))
      (fun _ w' => Undoable before w'.outside.chunks (snapshots.map ChunkRecord.chunkId) w.progress.attemptedInsertIds [])
      (fun _ _ => True) w := by
  rw [Eff.wp_bind, outside, Eff.wp_zoom]
  refine Eff.wp_mono (h.undoable.updateBack (map_fst_filterMap fun c hc => ?_) h.nodup fun u hu => ?_) (fun _ o ho => ?_)
    fun _ _ _ => trivial
  · obtain ⟨r, -, hr⟩ := h.retained c hc
    exact ⟨_, hr⟩
  · obtain ⟨c, hc, hu⟩ := List.mem_filterMap.mp hu
    obtain ⟨r, hr, hold⟩ := h.retained c hc
    rw [hold, Option.map_some, Option.some.injEq] at hu
    subst hu
    exact ⟨r, hr, rfl⟩
  · rw [outside, Eff.wp_zoom]
    refine Eff.wp_mono (ChunkStore.wp_verifyParagraphIds _) (fun _ o' ho' => ?_) fun _ _ _ => trivial
    rw [ho']
    exact ho

/-- The records, the text and the lists of the document are those given. -/
structure Restored (before : Dict Uuid (ChunkRecord K)) (document : Uuid) (data : Dict ℕ Text) (chunks : Dict ℕ (List Uuid))
    (w : World K) : Prop where
  records : ∀ id, w.outside.chunks.get? id = before.get? id
  saved : w.documents.documents.get? document = some data
  documentChunks : w.paragraphs.documentChunks document = chunks

/-- A paragraph map whose document was replaced has what was asked for. -/
theorem documentChunks_of_replaced {m m' : ParagraphMap} (hid : requiredUuid documentId "document_id" = .ok document)
    (hne : chunks.keys ≠ []) (hascending : chunks.keys.Pairwise (· < ·))
    (h : ParagraphMap.replaceDocument documentId chunks m = .ok () m') : m'.documentChunks document = chunks := by
  obtain ⟨validated, hvalidated, hget⟩ := Eff.wp_ok (ParagraphMap.wp_replaceDocument hid chunks m) h
  have hsame : validated = chunks := by
    rw [(ParagraphMap.validated_spec hvalidated).2 hne, Dict.sorted_eq_self hascending]
  subst hsame
  refine ParagraphMap.documentChunks_eq_of_get? hascending fun k => ?_
  rw [hget, if_pos rfl]

theorem get?_of_restored {d d' : DocumentMap} (hid : requiredUuid documentId "document_id" = .ok document)
    (hkeys : data.keys = List.range' 1 data.keys.length) (hne : data.keys ≠ [])
    (h : d.restoreDocument documentId data = .ok d') : d'.documents.get? document = some data := by
  simp only [DocumentMap.restoreDocument, hid, bind, Except.bind, DocumentMap.validatedReplacement_ok hkeys hne,
    Except.ok.injEq] at h
  rw [← h, Dict.get?_set_self]

/-- A recovery without errors has undone what the steps had left. -/
theorem wp_recoverSave [DecidableEq K] {E : ChunkError → World K → Prop}
    (hid : requiredUuid documentId "document_id" = .ok document)
    (hkeys : p.paragraphData.keys = List.range' 1 p.paragraphData.keys.length) (hne : p.paragraphData.keys ≠ [])
    (hsame : p.oldChunks.keys = p.paragraphData.keys) (hkeyed : Keyed before) (hfound : ∀ r ∈ snapshots, before.get? r.chunkId = some r)
    (h : Recoverable before p snapshots w) :
    Eff.wp (recoverSave rt documentId p snapshots)
      (fun r w' => r.1 = [] → Restored before document p.paragraphData p.oldChunks w') E w := by
  have hascending : p.oldChunks.keys.Pairwise (· < ·) := by
    rw [hsame, hkeys]
    exact List.pairwise_lt_range'
  rw [recoverSave, Eff.wp_bind, Eff.wp_read]
  dsimp only
  -- The list of each step is empty where the step has no error, or is skipped.
  refine wp_phase_unless True
    (fun w' => Undoable before w'.outside.chunks (snapshots.map ChunkRecord.chunkId) w.progress.attemptedInsertIds [])
    (fun _ hnil => ?_) (fun _ _ => wp_writeBack h) fun updating w₁ h₁ => ?_
  · have hundo := h.undoable
    rwa [hnil] at hundo
  refine wp_phase_unless (True ∧ updating = none)
    (fun w' => Undoable before w'.outside.chunks (snapshots.map ChunkRecord.chunkId) [] [])
    (fun hdone hnil => ?_) (fun hdone _ => ?_) fun deleting w₂ h₂ => ?_
  · have hundo := h₁ hdone
    rwa [hnil] at hundo
  · rw [Eff.wp_bind, outside, Eff.wp_zoom]
    exact (h₁ hdone).deleteBack hkeyed h.new
  refine wp_phase_unless ((True ∧ updating = none) ∧ deleting = none)
    (fun w' => Undoable before w'.outside.chunks [] [] [])
    (fun hdone hnil => ?_) (fun hdone _ => ?_) fun restoring w₃ h₃ => ?_
  · have hundo := h₂ hdone
    rwa [hnil] at hundo
  · rw [outside, Eff.wp_zoom]
    exact (h₂ hdone).restoreBack hfound
  refine wp_phase (((True ∧ updating = none) ∧ deleting = none) ∧ restoring = none)
    (fun w' => Undoable before w'.outside.chunks [] [] [] ∧ w'.paragraphs.documentChunks document = p.oldChunks)
    (fun hdone => ?_) fun replacing w₄ h₄ => ?_
  · refine Eff.wp_mono (wp_commitParagraphs _) (fun _ w' h' => ⟨?_, ?_⟩) fun _ _ _ => trivial
    · rw [h'.2.1]
      exact h₃ hdone
    · exact documentChunks_of_replaced hid (hsame ▸ hne) hascending h'.1
  refine wp_phase ((((True ∧ updating = none) ∧ deleting = none) ∧ restoring = none) ∧ replacing = none)
    (fun w' => Restored before document p.paragraphData p.oldChunks w') (fun hdone => ?_) fun documents w₅ h₅ => ?_
  · refine Eff.wp_mono (wp_commitDocuments _) (fun _ w' h' => ⟨fun id => ?_, ?_, ?_⟩) fun _ _ _ => trivial
    · rw [h'.2.2.1]
      exact (h₄ hdone).1.get?_eq id
    · exact get?_of_restored hid hkeys hne h'.1
    · rw [h'.2.1]
      exact (h₄ hdone).2
  · intro hnone
    simp only [List.filterMap_eq_nil_iff, List.mem_cons, List.not_mem_nil, or_false, forall_eq_or_imp, forall_eq, id] at hnone
    exact h₅ ⟨⟨⟨⟨⟨trivial, hnone.1⟩, hnone.2.1⟩, hnone.2.2.1⟩, hnone.2.2.2.1⟩, hnone.2.2.2.2⟩

/-- The save says that its recovery had errors. -/
def SaveError.unresolved : SaveError → Bool
  | .recovery .. => true
  | _ => false

/-- Where the handler does not say that the recovery had errors, the recovery had none. -/
theorem wp_abandon [DecidableEq K] {Q : Unit → World K → Prop} (hid : requiredUuid documentId "document_id" = .ok document)
    (hkeys : p.paragraphData.keys = List.range' 1 p.paragraphData.keys.length) (hne : p.paragraphData.keys ≠ [])
    (hsame : p.oldChunks.keys = p.paragraphData.keys) (hkeyed : Keyed before) (hfound : ∀ r ∈ snapshots, before.get? r.chunkId = some r)
    (h : Recoverable before p snapshots w) :
    Eff.wp (abandon rt documentId p snapshots) Q
      (fun e w' => e.unresolved = false → Restored before document p.paragraphData p.oldChunks w') w := by
  rw [abandon, Eff.wp_bind, Eff.wp_mapError]
  refine Eff.wp_mono (wp_recoverSave (E := fun _ _ => False) hid hkeys hne hsame hkeyed hfound h) (fun r w' hrestored => ?_)
    fun e _ hfalse => hfalse.elim
  obtain ⟨recoveryErrors, unresolved⟩ := r
  rw [Eff.wp_bind, Eff.wp_read, Eff.wp_ite]
  refine ⟨fun _ hresolved => ?_, fun hnone _ => ?_⟩
  · cases hresolved
  · exact hrestored (not_not.mp hnone)

/-- A save that raises without errors of its recovery has changed nothing; one that returns does what its steps do, or
nothing where the text is the saved one. -/
theorem wp_saveWizard [DecidableEq K] {Q : World K → Prop} (hsaved : w.documents.documents.get? document = some data)
    (hlists : w.paragraphs.documentChunks document = chunks) (hkeys : data.keys = List.range' 1 data.keys.length)
    (hne : data.keys ≠ []) (hsame : chunks.keys = data.keys) (hstore : StoreAgrees w.outside.chunks document chunks)
    (hfresh : FreshIds rt w.outside.chunks document) (hid : requiredUuid documentId "document_id" = .ok document)
    (hnoop : ∀ w', Still w w' → currentText = data.values.flatten → Q w')
    (hsteps : ∀ (p : Prepared) (w₁ : World K), Found rt data chunks currentText modifiedParagraphIds p → w₁.documents = w.documents →
      w₁.paragraphs = w.paragraphs → w₁.outside.chunks = w.outside.chunks →
      Eff.wp (saveSteps rt documentId currentText p) (fun _ => Q) (fun _ _ => True) w₁) :
    Eff.wp (saveWizard rt documentId currentText modifiedParagraphIds) (fun _ => Q)
      (fun e w' => e.unresolved = false → Restored w.outside.chunks document data chunks w') w := by
  have hpassive : Passive rt Still := passive_still
  have hrestored : ∀ {w₁ : World K}, Still w w₁ → Restored w.outside.chunks document data chunks w₁ := by
    intro w₁ h₁
    refine ⟨fun id => by rw [h₁.chunks], ?_, ?_⟩
    · rw [h₁.documents, hsaved]
    · rw [h₁.paragraphs, hlists]
  rw [saveWizard, Eff.wp_bind, Eff.wp_mapError]
  refine (still_note _).wp_bind_or (fun e t ht _ => hrestored ht) fun _ w₁ h₁ => ?_
  have hsaved₁ : w₁.documents.documents.get? document = some data := by rw [h₁.documents, hsaved]
  have hlists₁ : w₁.paragraphs.documentChunks document = chunks := by rw [h₁.paragraphs, hlists]
  have hnames : ∀ k ∈ stepNames, k ∉ ([] : List EvidenceKey) := fun _ _ => List.not_mem_nil
  rw [Eff.wp_bind]
  refine Eff.wp_mono (Eff.wp_and (wp_saveDiff hsaved₁ hlists₁ hid hnames) (still_saveDiff w₁))
    (fun r w₂ h₂ => ?_) fun e t ht _ => hrestored (Trans.trans h₁ ht.2)
  obtain ⟨⟨-, ⟨rfl, htext⟩ | ⟨p, rfl, hfound⟩⟩, h₂⟩ := h₂
  · exact hnoop w₂ (Trans.trans h₁ h₂) htext
  have hw₂ : Still w w₂ := Trans.trans h₁ h₂
  refine (keeps_recordDiff hpassive p).wp_bind_or (fun e t ht _ => hrestored (Trans.trans hw₂ ht)) fun _ w₃ h₃ => ?_
  have hw₃ : Still w w₃ := Trans.trans hw₂ h₃
  rw [Eff.wp_pure, Eff.wp_bind, Eff.wp_mapError]
  refine Eff.wp_mono (wp_takeSnapshots p) (fun snapshots w₄ h₄ => ?_) fun e t ht _ => hrestored (Trans.trans hw₃ ht)
  obtain ⟨h₄, hsnapshots⟩ := h₄
  rw [hw₃.chunks] at hsnapshots
  have hw₄ : Still w w₄ := Trans.trans hw₃ h₄
  rw [Eff.wp_bind, Eff.wp_mapError]
  refine (still_note _).wp_bind_or (fun e t ht _ => hrestored (Trans.trans hw₄ ht)) fun _ w₅ h₅ => ?_
  rw [assign, Eff.wp_update, Eff.wp_tryExcept, Eff.wp_mapError]
  have hw₅ : Still w w₅ := Trans.trans hw₄ h₅
  have hstart : Recoverable w.outside.chunks p snapshots { w₅ with progress := ⟨"step_3", [], [], [], []⟩ } := by
    refine ⟨?_, (fun _ h => by cases h), (fun _ h => by cases h), List.nodup_nil⟩
    change Undoable w.outside.chunks w₅.outside.chunks _ _ _
    rw [hw₅.chunks]
    exact Undoable.refl
  have hreturned := hsteps p { w₅ with progress := ⟨"step_3", [], [], [], []⟩ } hfound hw₅.documents hw₅.paragraphs hw₅.chunks
  obtain ⟨hdata, hchunks, -⟩ := hfound
  subst hdata hchunks
  refine Eff.wp_mono (Eff.wp_and hreturned (wp_saveSteps_recoverable hstore hfresh hsnapshots hstart ⟨rfl, rfl⟩))
    (fun _ _ h => h.1) fun e t ht => ?_
  exact wp_abandon hid hkeys hne hsame hstore.keyed hsnapshots.found ht.2

/-- A save that raises `WizardSaveError`, whichever of its calls have failed and with whatever parts of their changes
made, has changed neither the records nor the text nor the lists of the document. -/
theorem saveWizard_atomic [DecidableEq K] (rt : Runtime K) (documentId currentText : Text)
    (modifiedParagraphIds : Option (List ℤ)) (w w' : World K) (document : Uuid) (data : Dict ℕ Text)
    (chunks : Dict ℕ (List Uuid)) (report : SaveReport) (hagree : Agree w document data chunks)
    (hstore : StoreAgrees w.outside.chunks document chunks) (hne : data.keys ≠ [])
    (hfresh : FreshIds rt w.outside.chunks document) (hid : requiredUuid documentId "document_id" = .ok document)
    (hrun : saveWizard rt documentId currentText modifiedParagraphIds w = .error (.save report) w') :
    (∀ id, w'.outside.chunks.get? id = w.outside.chunks.get? id) ∧
      w'.documents.documents.get? document = some data ∧ w'.paragraphs.documentChunks document = chunks := by
  have h : Eff.wp (saveWizard rt documentId currentText modifiedParagraphIds) (fun _ _ => True)
      (fun e w' => e.unresolved = false → Restored w.outside.chunks document data chunks w') w :=
    wp_saveWizard hagree.saved hagree.documentChunks hagree.keys hne hagree.same hstore hfresh hid (fun _ _ _ => trivial)
      fun p w₁ _ _ _ _ => Eff.wp_true _ _
  obtain ⟨hrecords, hsaved, hlists⟩ := Eff.wp_error h hrun rfl
  exact ⟨hrecords, hsaved, hlists⟩

/-! ### A commit that fails after it was made -/

/-- The providers of the sample, where the commit of the paragraphs raises with all of its change made. -/
def failingSample : Runtime ℤ :=
  { runtimeSample with
    faults := fun n =>
      if n = 15 then some ⟨⟨⟨.otherException, "unavailable"⟩, rfl⟩, fun _ => true, fun _ => true⟩ else none }

/-- The report of a save that raises `WizardSaveError`, and the world it leaves. -/
def reported : EStateM.Result SaveError (World ℤ) Unit → Option (SaveReport × World ℤ)
  | .error (.save report) w => some (report, w)
  | _ => none

theorem reported_eq_some {r : EStateM.Result SaveError (World ℤ) Unit} {report : SaveReport} {w : World ℤ}
    (h : reported r = some (report, w)) : r = .error (.save report) w := by
  cases r with
  | ok u w' => cases h
  | error e w' =>
    cases e with
    | save report' =>
      cases h
      rfl
    | raised e => cases h
    | recovery r u e => cases h

theorem mem_records_sample {id : Uuid} {r : ChunkRecord ℤ} :
    worldSample.outside.chunks.get? id = some r ↔
      (id = uuidSample 1 ∧ r = recordSample 1 (uuidSample 1) (lit "A")) ∨
        (id = uuidSample 2 ∧ r = recordSample 2 (uuidSample 2) (lit "B")) := by
  rw [← Dict.mem_entries_iff]
  simp [worldSample]

theorem mem_lists_sample {n : ℕ} {cs : List Uuid} :
    chunksSample.get? n = some cs ↔ (n = 1 ∧ cs = [uuidSample 1]) ∨ (n = 2 ∧ cs = [uuidSample 2]) := by
  rw [← Dict.mem_entries_iff]
  change (n, cs) ∈ [(1, [uuidSample 1]), (2, [uuidSample 2])] ↔ _
  simp

theorem storeAgrees_sample : StoreAgrees worldSample.outside.chunks (uuidSample 0) chunksSample := by
  constructor
  · intro id r hr
    obtain ⟨rfl, rfl⟩ | ⟨rfl, rfl⟩ := mem_records_sample.mp hr <;> rfl
  · intro n id
    simp only [mem_records_sample, mem_lists_sample]
    constructor
    · rintro ⟨cs, ⟨rfl, rfl⟩ | ⟨rfl, rfl⟩, hid⟩
      · exact ⟨_, .inl ⟨List.mem_singleton.mp hid, rfl⟩, rfl, rfl⟩
      · exact ⟨_, .inr ⟨List.mem_singleton.mp hid, rfl⟩, rfl, rfl⟩
    · rintro ⟨r, ⟨rfl, rfl⟩ | ⟨rfl, rfl⟩, -, rfl⟩
      · exact ⟨_, .inl ⟨rfl, rfl⟩, List.mem_singleton.mpr rfl⟩
      · exact ⟨_, .inr ⟨rfl, rfl⟩, List.mem_singleton.mpr rfl⟩

theorem freshIds_sample (rt : Runtime ℤ) : FreshIds rt worldSample.outside.chunks (uuidSample 0) := by
  intro id _ r hr
  obtain ⟨-, rfl⟩ | ⟨-, rfl⟩ := mem_records_sample.mp hr <;> rfl

/-- The new lists were in place, and the old ones are again. -/
theorem saveWizard_atomic_sample :
    ∃ report w', saveWizard failingSample (uuidSample 0).str (lit "CDB") none worldSample = .error (.save report) w' ∧
      report.failedStage = "step_8" ∧ (∀ id, w'.outside.chunks.get? id = worldSample.outside.chunks.get? id) ∧
      w'.documents.documents.get? (uuidSample 0) = some dataSample ∧
      w'.paragraphs.documentChunks (uuidSample 0) = chunksSample := by
  have hrun : (reported (saveWizard failingSample (uuidSample 0).str (lit "CDB") none worldSample)).map
      (fun r => r.1.failedStage) = some "step_8" := by
    decide +kernel
  obtain ⟨⟨report, w'⟩, hreported, hstage⟩ := Option.map_eq_some_iff.mp hrun
  have hw' := reported_eq_some hreported
  exact ⟨report, w', hw', hstage, saveWizard_atomic failingSample (uuidSample 0).str (lit "CDB") none worldSample w'
    (uuidSample 0) dataSample chunksSample report agree_sample storeAgrees_sample (by decide)
    (freshIds_sample _) (requiredUuid_str _ _) hw'⟩

end Save

end TenantRag

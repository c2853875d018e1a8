import TenantRag.Foundations.Result
import TenantRag.Weaviate.ChunkStore

/-!
# What the store of chunks does to the records

Each operation of the store, from the records before it to the records after it, where
it returns and where it raises on the way.

## What is proved

* `wp_deleteByParagraphs`, `wp_insertChunk`, `wp_updateParagraphIds` and the others — where an operation returns it
  has made all of its change, and where it raises, a part of it.
* `wp_snapshotByParagraphs`, `wp_verifyParagraphIds` — reading changes nothing.
* `wp_restoreChunks` — where a restoration returns, the records are there again.
-/

namespace TenantRag.ChunkStore

variable {K α : Type} {faults : ℕ → Option Fault} {o : Outside K}

/-- A record stands under its own identifier. -/
def Keyed (chunks : Dict Uuid (ChunkRecord K)) : Prop := ∀ id r, chunks.get? id = some r → r.chunkId = id

theorem Keyed.filter {chunks : Dict Uuid (ChunkRecord K)} (h : Keyed chunks) (p : ChunkRecord K → Bool) :
    Keyed (chunks.filter fun _ r => p r) := by
  intro id r hr
  rw [Dict.get?_filter] at hr
  exact h id r (Option.mem_filter_iff.mp hr).1

theorem Keyed.set {chunks : Dict Uuid (ChunkRecord K)} (h : Keyed chunks) (r : ChunkRecord K) :
    Keyed (chunks.set r.chunkId r) := by
  intro id r' hr'
  rw [Dict.get?_set] at hr'
  split_ifs at hr' with hid
  · rw [← Option.some.inj hr', hid]
  · exact h id r' hr'

/-! ### Calls -/

theorem wp_note {c : Call} {Q : Unit → Outside K → Prop} {E : ChunkError → Outside K → Prop} :
    Eff.wp (note c) Q E o ↔ Q () { o with trace := o.trace ++ [c] } := Iff.rfl

theorem wp_check {x : Except PyError α} {Q : α → Outside K → Prop} {E : ChunkError → Outside K → Prop} :
    Eff.wp (check x) Q E o ↔ (∀ a, x = .ok a → Q a o) ∧ ∀ e, x = .error e → E (.raised e) o := by
  rw [check, Eff.wp_mapError, Eff.wp_ofExcept]

theorem wp_answer (f : Outside K → α) :
    Eff.wp (answer faults f) (fun a o' => a = f o ∧ o'.chunks = o.chunks) (fun _ o' => o'.chunks = o.chunks) o := by
  rw [Eff.wp, answer]
  cases faults o.calls with
  | none => exact ⟨rfl, rfl⟩
  | some fault => rfl

theorem wp_external (change : Dict Uuid (ChunkRecord K) → Dict Uuid (ChunkRecord K)) :
    Eff.wp (external faults change) (fun _ o' => o'.chunks = change o.chunks)
      (fun _ o' => Dict.Mixed o.chunks (change o.chunks) o'.chunks) o := by
  rw [Eff.wp, external]
  cases faults o.calls with
  | none => rfl
  | some fault => exact Dict.mixed_mix _ _ _

/-! ### Reading -/

theorem wp_fetchRecordsByIds (ids : List Uuid) :
    Eff.wp (fetchRecordsByIds faults ids)
      (fun records o' => o'.chunks = o.chunks ∧
        (ids.filterMap fun id => (o.chunks.get? id).map (id, ·)).mapM snapshotRecord = .ok records)
      (fun _ o' => o'.chunks = o.chunks) o := by
  rw [fetchRecordsByIds]
  split_ifs with hids
  · exact ⟨rfl, by rw [hids]; rfl⟩
  · rw [Eff.wp_bind]
    refine Eff.wp_mono (wp_answer _) (fun objects o' ho' => ?_) fun _ _ ho' => ho'
    obtain ⟨rfl, ho'⟩ := ho'
    rw [wp_check]
    exact ⟨fun records hrecords => ⟨ho', hrecords⟩, fun _ _ => ho'⟩

theorem snapshotRecord_ok {object : Uuid × ChunkRecord K} {r : ChunkRecord K} (h : snapshotRecord object = .ok r) :
    r = object.2 ∧ object.1 = r.chunkId := by
  rw [snapshotRecord] at h
  split_ifs at h with hcheck hid
  cases h
  exact ⟨rfl, not_not.mp hid⟩

/-- What is fetched stands in the store. -/
theorem mem_fetched {chunks : Dict Uuid (ChunkRecord K)} {ids : List Uuid} {records : List (ChunkRecord K)}
    (h : (ids.filterMap fun id => (chunks.get? id).map (id, ·)).mapM snapshotRecord = .ok records) {r : ChunkRecord K} :
    r ∈ records ↔ r.chunkId ∈ ids ∧ chunks.get? r.chunkId = some r := by
  rw [mapM_eq_ok_iff] at h
  constructor
  · intro hr
    obtain ⟨object, hobject, hread⟩ := forall₂_right h hr
    obtain ⟨id, hid, hsome⟩ := List.mem_filterMap.mp hobject
    obtain ⟨r', hr', rfl⟩ := Option.map_eq_some_iff.mp hsome
    obtain ⟨rfl, hkey⟩ := snapshotRecord_ok hread
    dsimp only at hkey hr'
    rw [← hkey]
    exact ⟨hid, hr'⟩
  · rintro ⟨hid, hr⟩
    have hobject : (r.chunkId, r) ∈ ids.filterMap fun id => (chunks.get? id).map (id, ·) :=
      List.mem_filterMap.mpr ⟨r.chunkId, hid, by rw [hr]; rfl⟩
    obtain ⟨r', hr', hread⟩ := forall₂_left h hobject
    obtain ⟨rfl, -⟩ := snapshotRecord_ok hread
    exact hr'

theorem wp_snapshot (filter : ChunkRecord K → Bool) :
    Eff.wp (snapshot faults filter)
      (fun records o' => o'.chunks = o.chunks ∧
        (∀ r ∈ records, o.chunks.get? r.chunkId = some r ∧ filter r = true) ∧
        ∀ id r, o.chunks.get? id = some r → filter r = true → id ∈ records.map ChunkRecord.chunkId)
      (fun _ o' => o'.chunks = o.chunks) o := by
  have hfound : ∀ id, id ∈ (o.chunks.filter fun _ r => filter r).keys ↔ ∃ r, o.chunks.get? id = some r ∧ filter r = true := by
    intro id
    rw [Dict.mem_keys_iff]
    simp only [Dict.get?_filter, Option.filter_eq_some_iff]
  rw [snapshot, Eff.wp_bind, discoverIds]
  refine Eff.wp_mono (wp_answer _) (fun objectIds o' ho' => ?_) fun _ _ ho' => ho'
  obtain ⟨rfl, ho'⟩ := ho'
  rw [Eff.wp_bind]
  refine Eff.wp_mono (wp_fetchRecordsByIds _) (fun records o'' hrecords => ?_) fun _ _ ho'' => ho''.trans ho'
  obtain ⟨ho'', hrecords⟩ := hrecords
  rw [ho'] at hrecords
  rw [Eff.wp_ite]
  refine ⟨fun _ => ho''.trans ho', fun hall => ⟨ho''.trans ho', fun r hr => ?_, fun id r hr hfilter => ?_⟩⟩
  · obtain ⟨hid, hr⟩ := (mem_fetched hrecords).mp hr
    obtain ⟨r', hr', hfilter⟩ := (hfound _).mp hid
    rw [hr] at hr'
    cases hr'
    exact ⟨hr, hfilter⟩
  · rw [Bool.not_eq_true, List.any_eq_false] at hall
    simpa using hall id ((hfound id).mpr ⟨r, hr, hfilter⟩)

/-- A snapshot has the records of the paragraphs, and changes nothing. -/
theorem wp_snapshotByParagraphs (documentId : Text) (paragraphIds : List ℕ) :
    Eff.wp (snapshotByParagraphs faults documentId paragraphIds)
      (fun records o' => o'.chunks = o.chunks ∧ (∀ r ∈ records, o.chunks.get? r.chunkId = some r) ∧
        ∀ document, Weaviate.uuidText documentId "document_id" = .ok document → ∀ id r, o.chunks.get? id = some r →
          inParagraphs document paragraphIds r = true → id ∈ records.map ChunkRecord.chunkId)
      (fun _ o' => o'.chunks = o.chunks) o := by
  rw [snapshotByParagraphs, Eff.wp_bind, wp_check]
  refine ⟨fun document hdocument => ?_, fun _ _ => rfl⟩
  rw [Eff.wp_bind, wp_check]
  refine ⟨fun _ _ => ?_, fun _ _ => rfl⟩
  rw [Eff.wp_ite]
  constructor
  · intro hnil
    refine ⟨rfl, (fun r hr => by cases hr), fun d _ id r _ hin => ?_⟩
    rw [hnil, inParagraphs] at hin
    simp at hin
  · intro _
    rw [Eff.wp_bind]
    refine Eff.wp_mono (wp_snapshot _) (fun records o' hrecords => ?_) fun _ _ ho' => ho'
    obtain ⟨ho', hmem, hall⟩ := hrecords
    rw [Eff.wp_ite]
    refine ⟨fun _ => ho', fun _ => ⟨ho', fun r hr => (hmem r hr).1, fun d hd id r hr hin => ?_⟩⟩
    rw [hdocument] at hd
    cases hd
    exact hall id r hr hin

/-- A snapshot has the records of the document, and changes nothing. -/
theorem wp_snapshotByDocument (documentId : Text) :
    Eff.wp (snapshotByDocument faults documentId)
      (fun records o' => o'.chunks = o.chunks ∧ (∀ r ∈ records, o.chunks.get? r.chunkId = some r) ∧
        ∀ document, Weaviate.uuidText documentId "document_id" = .ok document → ∀ id r, o.chunks.get? id = some r →
          r.documentId = document → id ∈ records.map ChunkRecord.chunkId)
      (fun _ o' => o'.chunks = o.chunks) o := by
  rw [snapshotByDocument, Eff.wp_bind, wp_check]
  refine ⟨fun document hdocument => ?_, fun _ _ => rfl⟩
  rw [Eff.wp_bind]
  refine Eff.wp_mono (wp_snapshot _) (fun records o' hrecords => ?_) fun _ _ ho' => ho'
  obtain ⟨ho', hmem, hall⟩ := hrecords
  rw [Eff.wp_ite]
  refine ⟨fun _ => ho', fun _ => ⟨ho', fun r hr => (hmem r hr).1, fun d hd id r hr hrd => ?_⟩⟩
  rw [hdocument] at hd
  cases hd
  exact hall id r hr (by simpa using hrd)

theorem wp_verifyParagraphIds (expected : List (Uuid × ℕ)) :
    Eff.wp (verifyParagraphIds faults expected) (fun _ o' => o'.chunks = o.chunks) (fun _ o' => o'.chunks = o.chunks) o := by
  rw [verifyParagraphIds, Eff.wp_bind, wp_check]
  refine ⟨fun _ _ => ?_, fun _ _ => rfl⟩
  rw [Eff.wp_bind]
  refine Eff.wp_mono (wp_fetchRecordsByIds _) (fun records o' hrecords => ?_) fun _ _ ho' => ho'
  rw [Eff.wp_ite, Eff.wp_ite]
  exact ⟨fun _ => hrecords.1, fun _ => ⟨fun _ => hrecords.1, fun _ => hrecords.1⟩⟩

/-! ### Deleting -/

theorem wp_verifiedDelete (filter : ChunkRecord K → Bool) :
    Eff.wp (verifiedDelete faults filter) (fun _ o' => o'.chunks = o.chunks.filter fun _ r => !filter r)
      (fun _ o' => Dict.Mixed o.chunks (o.chunks.filter fun _ r => !filter r) o'.chunks) o := by
  rw [verifiedDelete, Eff.wp_bind, wp_note, Eff.wp_bind, Eff.wp_read, Eff.wp_bind]
  refine Eff.wp_mono (wp_external _) (fun _ o₁ h₁ => ?_) fun _ _ h₁ => h₁
  simp only [Eff.wp_bind, wp_note, discoverIds]
  refine Eff.wp_mono (wp_answer _) (fun remaining o₂ h₂ => ?_) fun _ o₂ h₂ => ?_
  · rw [Eff.wp_bind, wp_note, Eff.wp_bind, wp_note, Eff.wp_bind, Eff.wp_whenever]
    exact ⟨fun _ => .right (h₂.2.trans h₁), fun _ => h₂.2.trans h₁⟩
  · exact .right (h₂.trans h₁)

/-- A deletion removes records of the paragraphs, all of them where it returns. -/
theorem wp_deleteByParagraphs (documentId : Text) (paragraphIds : List ℕ) :
    Eff.wp (deleteByParagraphs faults documentId paragraphIds)
      (fun _ o' => ∃ document, Weaviate.uuidText documentId "document_id" = .ok document ∧
        ∀ id, o'.chunks.get? id = (o.chunks.get? id).filter fun r => !inParagraphs document paragraphIds r)
      (fun _ o' => ∀ id, o'.chunks.get? id = o.chunks.get? id ∨
        ∃ document r, Weaviate.uuidText documentId "document_id" = .ok document ∧ o.chunks.get? id = some r ∧
          inParagraphs document paragraphIds r = true ∧ o'.chunks.get? id = none) o := by
  rw [deleteByParagraphs, Eff.wp_bind, wp_check]
  refine ⟨fun document hdocument => ?_, fun _ _ id => .inl rfl⟩
  rw [Eff.wp_bind, wp_check]
  refine ⟨fun _ _ => ?_, fun _ _ id => .inl rfl⟩
  rw [Eff.wp_ite]
  constructor
  · intro hnil
    refine ⟨document, hdocument, fun id => ?_⟩
    rw [hnil]
    cases o.chunks.get? id with
    | none => rfl
    | some r => simp [inParagraphs, Option.filter]
  · intro _
    refine Eff.wp_mono (wp_verifiedDelete _) (fun _ o' ho' => ⟨document, hdocument, fun id => ?_⟩) fun _ o' ho' id => ?_
    · rw [ho', Dict.get?_filter]
    · obtain hsame | hgone := ho' id
      · exact .inl hsame
      · rw [Dict.get?_filter] at hgone
        cases hr : o.chunks.get? id with
        | none =>
          rw [hr] at hgone
          exact .inl hgone
        | some r =>
          rw [hr, Option.filter_some] at hgone
          split_ifs at hgone with hin
          · exact .inl hgone
          · exact .inr ⟨document, r, hdocument, rfl, by simpa using hin, hgone⟩

/-- A deletion removes records of the document, all of them where it returns. -/
theorem wp_deleteByDocument (documentId : Text) :
    Eff.wp (deleteByDocument faults documentId)
      (fun _ o' => ∃ document, Weaviate.uuidText documentId "document_id" = .ok document ∧
        ∀ id, o'.chunks.get? id = (o.chunks.get? id).filter fun r => r.documentId ≠ document)
      (fun _ o' => ∀ id, o'.chunks.get? id = o.chunks.get? id ∨
        ∃ document r, Weaviate.uuidText documentId "document_id" = .ok document ∧ o.chunks.get? id = some r ∧
          r.documentId = document ∧ o'.chunks.get? id = none) o := by
  rw [deleteByDocument, Eff.wp_bind, wp_check]
  refine ⟨fun document hdocument => ?_, fun _ _ id => .inl rfl⟩
  refine Eff.wp_mono (wp_verifiedDelete _) (fun _ o' ho' => ⟨document, hdocument, fun id => ?_⟩) fun _ o' ho' id => ?_
  · rw [ho', Dict.get?_filter]
    simp
  · obtain hsame | hgone := ho' id
    · exact .inl hsame
    · rw [Dict.get?_filter] at hgone
      cases hr : o.chunks.get? id with
      | none =>
        rw [hr] at hgone
        exact .inl hgone
      | some r =>
        rw [hr, Option.filter_some] at hgone
        split_ifs at hgone with hin
        · exact .inl hgone
        · exact .inr ⟨document, r, hdocument, rfl, by simpa using hin, hgone⟩

theorem wp_deleteChunks (chunkIds : List Uuid) :
    Eff.wp (deleteChunks faults chunkIds)
      (fun _ o' => ∀ id, o'.chunks.get? id = (o.chunks.get? id).filter fun r => r.chunkId ∉ chunkIds) (fun _ _ => True) o := by
  rw [deleteChunks, Eff.wp_ite]
  constructor
  · rintro rfl
    exact fun id => by cases o.chunks.get? id <;> simp [Option.filter]
  · intro _
    refine Eff.wp_mono (wp_verifiedDelete _) (fun _ o' ho' id => ?_) fun _ _ _ => trivial
    rw [ho', Dict.get?_filter]
    simp

/-! ### Writing -/

/-- An insertion of a record, which may have been stored where it raises. -/
theorem wp_insertChunk (documentId : Text) (paragraphId : ℕ) (chunkId : Uuid) (rawText : Text)
    (multiVector : List (List K)) (diversityVector : List K) :
    Eff.wp (insertChunk faults documentId paragraphId chunkId rawText multiVector diversityVector)
      (fun _ o' => ∃ document, Weaviate.uuidText documentId "document_id" = .ok document ∧
        o.chunks.get? chunkId = none ∧
        o'.chunks = o.chunks.set chunkId ⟨document, paragraphId, chunkId, rawText, multiVector, diversityVector⟩)
      (fun _ o' => ∀ id, o'.chunks.get? id = o.chunks.get? id ∨
        id = chunkId ∧ ∃ r : ChunkRecord K, r.chunkId = chunkId ∧ o'.chunks.get? id = some r) o := by
  rw [insertChunk, Eff.wp_bind, wp_check]
  refine ⟨fun document hdocument => ?_, fun _ _ id => .inl rfl⟩
  dsimp only
  rw [Eff.wp_bind, wp_check]
  refine ⟨fun _ _ => ?_, fun _ _ id => .inl rfl⟩
  rw [insertRecord, Eff.wp_bind, Eff.wp_read, Eff.wp_ite]
  constructor
  · intro _
    rw [Eff.wp_bind]
    exact Eff.wp_mono (wp_answer _) (fun _ o' ho' id => .inl (by rw [ho'.2])) fun _ o' ho' id => .inl (by rw [ho'])
  · intro hnew
    refine Eff.wp_mono (wp_external _) (fun _ o' ho' => ⟨document, hdocument, ?_, ho'⟩) fun _ o' ho' id => ?_
    · exact Option.not_isSome_iff_eq_none.mp hnew
    · obtain hsame | hset := ho' id
      · exact .inl hsame
      · rw [Dict.get?_set] at hset
        split_ifs at hset with hid
        · exact .inr ⟨hid.symm, _, rfl, hset⟩
        · exact .inl hset

/-! ### Renumbering -/

theorem wp_updateParagraphId (u : Uuid × ℕ) :
    Eff.wp (updateParagraphId faults u)
      (fun _ o' => ∃ r, o.chunks.get? u.1 = some r ∧ o'.chunks = o.chunks.set u.1 { r with paragraphId := u.2 })
      (fun _ o' => ∀ id, o'.chunks.get? id = o.chunks.get? id ∨
        id = u.1 ∧ ∃ r, o.chunks.get? id = some r ∧ o'.chunks.get? id = some { r with paragraphId := u.2 }) o := by
  rw [updateParagraphId, Eff.wp_bind, Eff.wp_read]
  cases hr : o.chunks.get? u.1 with
  | none =>
    simp only [id, hr]
    rw [Eff.wp_bind]
    exact Eff.wp_mono (wp_answer _) (fun _ o' ho' id => .inl (by rw [ho'.2])) fun _ o' ho' id => .inl (by rw [ho'])
  | some r =>
    simp only [id, hr]
    refine Eff.wp_mono (wp_external _) (fun _ o' ho' => ⟨r, rfl, ho'⟩) fun _ o' ho' id => ?_
    obtain hsame | hset := ho' id
    · exact .inl hsame
    · rw [Dict.get?_set] at hset
      split_ifs at hset with hid
      · subst hid
        exact .inr ⟨rfl, r, hr, hset⟩
      · exact .inl hset

/-- Under the identifier stands what stood there, or the same in another paragraph that the updates say. -/
def RenumberedAt (updates : List (Uuid × ℕ)) (id : Uuid) (before behind : Option (ChunkRecord K)) : Prop :=
  behind = before ∨ ∃ r n, (id, n) ∈ updates ∧ before = some r ∧ behind = some { r with paragraphId := n }

theorem RenumberedAt.behind {u : Uuid × ℕ} {updates : List (Uuid × ℕ)} {id : Uuid} {first second third : Option (ChunkRecord K)}
    (h : RenumberedAt [u] id first second) (h' : RenumberedAt updates id second third) :
    RenumberedAt (u :: updates) id first third := by
  obtain rfl | ⟨r, n, hu, hfirst, rfl⟩ := h
  · obtain rfl | ⟨r, n, hn, hfirst, hthird⟩ := h'
    · exact .inl rfl
    · exact .inr ⟨r, n, List.mem_cons_of_mem u hn, hfirst, hthird⟩
  · rw [List.mem_singleton] at hu
    obtain rfl | ⟨r', n', hn', hsecond, rfl⟩ := h'
    · exact .inr ⟨r, n, hu ▸ List.mem_cons_self, hfirst, rfl⟩
    · cases hsecond
      exact .inr ⟨r, n', List.mem_cons_of_mem u hn', hfirst, rfl⟩

theorem wp_updateLoop (updates : List (Uuid × ℕ)) (completed : List Uuid) :
    Eff.wp (updateLoop faults completed updates)
      (fun _ o' => (∀ id ∉ updates.map Prod.fst, o'.chunks.get? id = o.chunks.get? id) ∧
        ((updates.map Prod.fst).Nodup → ∀ u ∈ updates, ∃ r, o.chunks.get? u.1 = some r ∧
          o'.chunks.get? u.1 = some { r with paragraphId := u.2 }))
      (fun _ o' => ∀ id, RenumberedAt updates id (o.chunks.get? id) (o'.chunks.get? id)) o := by
  induction updates generalizing o completed with
  | nil => exact ⟨fun _ _ => rfl, fun _ u hu => by cases hu⟩
  | cons u updates ih =>
    rw [updateLoop, Eff.wp_bind, Eff.wp_tryExcept]
    refine Eff.wp_mono (wp_updateParagraphId u) (fun _ o₁ h₁ => ?_) fun _ o₁ h₁ id => ?_
    · obtain ⟨r, hr, h₁⟩ := h₁
      have hat : ∀ id, o₁.chunks.get? id = if u.1 = id then some { r with paragraphId := u.2 } else o.chunks.get? id :=
        fun id => by rw [h₁, Dict.get?_set]
      refine Eff.wp_mono (ih _) (fun _ o₂ h₂ => ⟨fun id hid => ?_, fun hnodup => ?_⟩) fun _ o₂ h₂ id => ?_
      · rw [List.map_cons, List.mem_cons, not_or] at hid
        rw [h₂.1 id hid.2, hat, if_neg (Ne.symm hid.1)]
      · obtain ⟨hnew, hnodup⟩ := List.nodup_cons.mp hnodup
        refine List.forall_mem_cons.mpr ⟨⟨r, hr, ?_⟩, fun v hv => ?_⟩
        · rw [h₂.1 u.1 hnew, hat, if_pos rfl]
        · obtain ⟨r', hr', hv'⟩ := h₂.2 hnodup v hv
          rw [hat, if_neg (fun hsame : u.1 = v.1 => hnew (by rw [hsame]; exact List.mem_map_of_mem hv))] at hr'
          exact ⟨r', hr', hv'⟩
      · refine RenumberedAt.behind (u := u) ?_ (h₂ id)
        rw [hat]
        split_ifs with hid
        · subst hid
          exact .inr ⟨r, u.2, List.mem_singleton.mpr rfl, hr, rfl⟩
        · exact .inl rfl
    · obtain hsame | ⟨rfl, r, hr, hset⟩ := h₁ id
      · exact .inl hsame
      · exact .inr ⟨r, u.2, List.mem_cons_self, hr, hset⟩

/-- An update renumbers each of the records, or raises having renumbered some. -/
theorem wp_updateParagraphIds (updates : List (Uuid × ℕ)) :
    Eff.wp (updateParagraphIds faults updates)
      (fun _ o' => (∀ id ∉ updates.map Prod.fst, o'.chunks.get? id = o.chunks.get? id) ∧
        ((updates.map Prod.fst).Nodup → ∀ u ∈ updates, ∃ r, o.chunks.get? u.1 = some r ∧
          o'.chunks.get? u.1 = some { r with paragraphId := u.2 }))
      (fun _ o' => ∀ id, RenumberedAt updates id (o.chunks.get? id) (o'.chunks.get? id)) o := by
  rw [updateParagraphIds, Eff.wp_bind, wp_check]
  exact ⟨fun _ _ => wp_updateLoop updates [], fun _ _ _ => .inl rfl⟩

/-! ### Restoring -/

/-- A restoration that returns has found or stored every record, and nothing else. -/
theorem wp_restoreChunks [DecidableEq K] (records : List (ChunkRecord K)) :
    Eff.wp (restoreChunks faults records)
      (fun _ o' => (∀ r ∈ records, o'.chunks.get? r.chunkId = some r) ∧
        ∀ id ∉ records.map ChunkRecord.chunkId, o'.chunks.get? id = o.chunks.get? id) (fun _ _ => True) o := by
  rw [restoreChunks, Eff.wp_bind, wp_check]
  refine ⟨fun _ _ => ?_, fun _ _ => trivial⟩
  dsimp only
  rw [Eff.wp_ite]
  refine ⟨fun _ => trivial, fun _ => ?_⟩
  rw [Eff.wp_bind]
  refine Eff.wp_mono (wp_fetchRecordsByIds _) (fun existing o₁ h₁ => ?_) fun _ _ _ => trivial
  rw [Eff.wp_ite]
  refine ⟨fun _ => trivial, fun _ => ?_⟩
  rw [Eff.wp_bind]
  have hloop : Eff.wp (Eff.forEach (fun r : ChunkRecord K => insertChunk faults r.documentId.str r.paragraphId r.chunkId r.rawText
      r.lateInteraction r.mmrDiversity) (records.filter fun r => r.chunkId ∉ existing.map ChunkRecord.chunkId))
      (fun _ o' => ∀ id ∉ records.map ChunkRecord.chunkId, o'.chunks.get? id = o₁.chunks.get? id) (fun _ _ => True) o₁ := by
    refine Eff.wp_forEach_mem (I := fun o' : Outside K => ∀ id ∉ records.map ChunkRecord.chunkId,
      o'.chunks.get? id = o₁.chunks.get? id) (fun _ _ => rfl) fun r hr o₂ h₂ => ?_
    refine Eff.wp_mono (wp_insertChunk _ _ _ _ _ _) (fun _ o₃ h₃ id hid => ?_) fun _ _ _ => trivial
    obtain ⟨document, -, -, h₃⟩ := h₃
    rw [h₃, Dict.get?_set, if_neg, h₂ id hid]
    rintro rfl
    exact hid (List.mem_map_of_mem (List.mem_filter.mp hr).1)
  refine Eff.wp_mono hloop (fun _ o₂ h₂ => ?_) fun _ _ _ => trivial
  rw [Eff.wp_bind]
  refine Eff.wp_mono (wp_fetchRecordsByIds _) (fun verified o₃ h₃ => ?_) fun _ _ _ => trivial
  rw [Eff.wp_ite]
  refine ⟨fun _ => trivial, fun hverified => ?_⟩
  rw [not_not] at hverified
  subst hverified
  refine ⟨fun r hr => ?_, fun id hid => ?_⟩
  · rw [h₃.1]
    exact ((mem_fetched h₃.2).mp hr).2
  · rw [h₃.1, h₂ id hid, h₁.1]

end TenantRag.ChunkStore

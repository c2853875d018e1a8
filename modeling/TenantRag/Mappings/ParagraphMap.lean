import TenantRag.Foundations.Dict
import TenantRag.Foundations.Effect
import TenantRag.Foundations.Result
import TenantRag.Mappings.Common

/-!
# Paragraphs and their chunks

`backend/mappings/paragraph_map.py`: the ordered chunks of each paragraph of one user
and collection type, in memory, with an index from chunks to the paragraphs that own
them. A document is replaced as a whole: its paragraphs are removed one by one with
their owners, and the new ones are entered.

## The model

A paragraph is known by its document and its number. The index is data of its own, so
that a removal can find it out of step and raise.

## What is proved

* `validated_spec` — what a replacement is checked for.
* `Owned.replaceDocument` — where the index is the inverse of the lists, a replacement that is accepted does not raise,
  leaves the index the inverse, and changes the one document.
* `Owned.deleteDocument` — so does a deletion.
* `wp_replaceDocument`, `wp_deleteDocument` — what a replacement or deletion that returns has done to the lists, whatever
  the index.
* `elsewhere_replaceDocument`, `elsewhere_deleteDocument` — however they end, the other documents keep their lists.
* `documentChunks_eq_of_get?` — what a document is read back as.
-/

namespace TenantRag

/-- `ParagraphKey`: a document and a paragraph number. -/
abbrev ParagraphKey := Uuid × ℕ

/-- `ParagraphMap`, for a validated user and collection type. -/
structure ParagraphMap where
  /-- `_paragraphs`. -/
  paragraphs : Dict ParagraphKey (List Uuid)
  /-- `_chunk_owners`. -/
  chunkOwners : Dict Uuid ParagraphKey

namespace ParagraphMap

/-- The chunks of the paragraphs of a document, by number. -/
def documentChunks (m : ParagraphMap) (document : Uuid) : Dict ℕ (List Uuid) :=
  Dict.sorted
    { entries := (m.paragraphs.entries.filter fun e => e.1.1 = document).map fun e => (e.1.2, e.2)
      nodupKeys := by
        rw [List.map_map]
        refine List.Nodup.map_on (fun x hx y hy hxy => ?_)
          ((List.Nodup.of_map _ m.paragraphs.nodupKeys).filter _)
        rw [List.mem_filter, decide_eq_true_eq] at hx hy
        refine List.inj_on_of_nodup_map m.paragraphs.nodupKeys hx.1 hy.1 ?_
        exact Prod.ext (hx.2.trans hy.2.symm) hxy }

/-- `get_document_chunks(document_id)`. -/
def getDocumentChunks (m : ParagraphMap) (documentId : Text) : Except PyError (Dict ℕ (List Uuid)) := do
  let document ← requiredUuid documentId "document_id"
  .ok (m.documentChunks document)

/-- The loop of `_validated_document_replacement`, with the chunks seen so far. -/
def seenChunks : List Uuid → List (ℕ × List Uuid) → Except PyError (List Uuid)
  | seen, [] => .ok seen
  | seen, (paragraphId, chunkIds) :: rest =>
      if paragraphId = 0 then .error (valueError "paragraph_id must be greater than zero")
      else if ¬ chunkIds.Nodup then .error (valueError "chunk_ids must not contain duplicates")
      else if chunkIds.any (· ∈ seen) then .error (valueError "a chunk_id cannot belong to multiple paragraphs")
      else seenChunks (seen ++ chunkIds) rest

/-- `{1: []}`. -/
def emptyChunks : Dict ℕ (List Uuid) := ⟨[(1, [])], by decide⟩

/-- `_validated_document_replacement(document, paragraph_chunks)`. -/
def validatedDocumentReplacement (m : ParagraphMap) (document : Uuid) (paragraphChunks : Dict ℕ (List Uuid)) :
    Except PyError (Dict ℕ (List Uuid)) := do
  let seen ← seenChunks [] paragraphChunks.entries
  if paragraphChunks.keys ≠ [] ∧ !isSequential paragraphChunks.keys then
    .error (valueError "paragraph IDs must be sequential from 1 through N")
  else if seen.any fun c => (m.chunkOwners.get? c).any fun owner => owner.1 ≠ document then
    .error (valueError "chunk already belongs to paragraph")
  else if paragraphChunks.keys = [] then .ok emptyChunks
  else .ok paragraphChunks.sorted

/-- `validate_document_replacement(document_id, paragraph_chunks)`. -/
def validateDocumentReplacement (m : ParagraphMap) (documentId : Text) (paragraphChunks : Dict ℕ (List Uuid)) :
    Except PyError Unit := do
  let document ← requiredUuid documentId "document_id"
  let _ ← m.validatedDocumentReplacement document paragraphChunks
  .ok ()

/-- `del self._chunk_owners[chunk_id]`. -/
def disown (chunkId : Uuid) : Eff ParagraphMap PyError Unit := do
  let m ← .read id
  if m.chunkOwners.contains chunkId then .update fun m => { m with chunkOwners := m.chunkOwners.erase chunkId }
  else .raise (keyError "chunk_id")

/-- `for chunk_id in self._paragraphs.pop(key): del self._chunk_owners[chunk_id]`. -/
def popParagraph (key : ParagraphKey) : Eff ParagraphMap PyError Unit := do
  let m ← .read id
  match m.paragraphs.get? key with
  | none => .raise (keyError "paragraph_key")
  | some chunkIds =>
      .update fun m => { m with paragraphs := m.paragraphs.erase key }
      .forEach disown chunkIds

/-- A paragraph is entered, with the owners of its chunks. -/
def enterParagraph (document : Uuid) (paragraph : ℕ × List Uuid) : Eff ParagraphMap PyError Unit :=
  .update fun m =>
    { m with
      paragraphs := m.paragraphs.set (document, paragraph.1) paragraph.2
      chunkOwners := paragraph.2.foldl (fun owners c => owners.set c (document, paragraph.1)) m.chunkOwners }

/-- The keys of the paragraphs of a document. -/
def documentKeys (m : ParagraphMap) (document : Uuid) : List ParagraphKey := m.paragraphs.keys.filter fun k => k.1 = document

/-- `replace_document(document_id, paragraph_chunks)`. -/
def replaceDocument (documentId : Text) (paragraphChunks : Dict ℕ (List Uuid)) : Eff ParagraphMap PyError Unit := do
  let document ← .ofExcept (requiredUuid documentId "document_id")
  let m ← .read id
  let validated ← .ofExcept (m.validatedDocumentReplacement document paragraphChunks)
  .forEach popParagraph (m.documentKeys document)
  .forEach (enterParagraph document) validated.entries

/-- `delete_document(document_id)`. -/
def deleteDocument (documentId : Text) : Eff ParagraphMap PyError Unit := do
  let document ← .ofExcept (requiredUuid documentId "document_id")
  let m ← .read id
  .forEach popParagraph (m.documentKeys document)

/-! ### Reading a document -/

theorem get?_documentChunks (m : ParagraphMap) (document : Uuid) (k : ℕ) :
    (m.documentChunks document).get? k = m.paragraphs.get? (document, k) := by
  ext chunkIds
  rw [documentChunks, Dict.get?_sorted, ← Dict.mem_entries_iff, ← Dict.mem_entries_iff, List.mem_map]
  constructor
  · rintro ⟨⟨⟨d, j⟩, cs⟩, hmem, heq⟩
    rw [List.mem_filter, decide_eq_true_eq] at hmem
    obtain ⟨hmem, rfl⟩ := hmem
    cases heq
    exact hmem
  · intro h
    exact ⟨((document, k), chunkIds), List.mem_filter.mpr ⟨h, by simp⟩, rfl⟩

/-- Where the paragraphs of a document are those of a dictionary in order, the document is read back as it. -/
theorem documentChunks_eq_of_get? {m : ParagraphMap} {document : Uuid} {d : Dict ℕ (List Uuid)}
    (hd : d.keys.Pairwise (· < ·)) (h : ∀ k, m.paragraphs.get? (document, k) = d.get? k) : m.documentChunks document = d := by
  refine Dict.eq_of_pairwise (fun a b hab => lt_asymm hab) (Dict.keys_sorted_pairwise _) hd fun k => ?_
  rw [get?_documentChunks, h]

/-! ### What a replacement is checked for -/

theorem seenChunks_ok {seen all : List Uuid} {entries : List (ℕ × List Uuid)} (h : seenChunks seen entries = .ok all)
    (hseen : seen.Nodup) :
    all = seen ++ (entries.map Prod.snd).flatten ∧ all.Nodup ∧ ∀ e ∈ entries, e.1 ≠ 0 := by
  induction entries generalizing seen with
  | nil =>
    cases h
    simpa using hseen
  | cons e entries ih =>
    obtain ⟨k, cs⟩ := e
    rw [seenChunks] at h
    split_ifs at h with hzero hnodup hshared
    have happend : (seen ++ cs).Nodup := by
      refine List.nodup_append.mpr ⟨hseen, hnodup, ?_⟩
      rintro c hc d hd rfl
      exact hshared (List.any_eq_true.mpr ⟨c, hd, by simpa using hc⟩)
    obtain ⟨hall, hall', hpositive⟩ := ih h happend
    refine ⟨by rw [hall, List.map_cons, List.flatten_cons, List.append_assoc], hall', ?_⟩
    exact List.forall_mem_cons.mpr ⟨hzero, hpositive⟩

/-- A dictionary of chunks that may become a document. -/
structure Replacement (m : ParagraphMap) (document : Uuid) (validated : Dict ℕ (List Uuid)) : Prop where
  keys : validated.keys = List.range' 1 validated.keys.length
  ne_nil : validated.keys ≠ []
  nodup : validated.values.flatten.Nodup
  owner : ∀ c ∈ validated.values.flatten, ∀ key, m.chunkOwners.get? c = some key → key.1 = document

theorem values_sorted_perm {ν : Type} (d : Dict ℕ ν) : d.sorted.values.Perm d.values :=
  (List.perm_insertionSort _ _).map Prod.snd

theorem replacement_emptyChunks (m : ParagraphMap) (document : Uuid) : Replacement m document emptyChunks := by
  refine ⟨rfl, List.cons_ne_nil _ _, List.nodup_nil, ?_⟩
  intro c hc
  cases hc

/-- A dictionary with sequential numbers, whose chunks stand once and belong to no other document, may become the
document once it is sorted. -/
theorem replacement_sorted {m : ParagraphMap} {document : Uuid} {d : Dict ℕ (List Uuid)} (hne : d.keys ≠ [])
    (hsequential : ¬ (d.keys ≠ [] ∧ !isSequential d.keys)) (hnodup : d.values.flatten.Nodup)
    (howner : ¬ (d.values.flatten.any fun c => (m.chunkOwners.get? c).any fun owner => owner.1 ≠ document)) :
    Replacement m document d.sorted := by
  have hseq : isSequential d.keys = true := by
    by_contra hnot
    exact hsequential ⟨hne, by simpa using hnot⟩
  have hkeys := keys_sorted_of_isSequential hseq
  have hperm := (values_sorted_perm d).flatten
  refine ⟨by rw [hkeys, List.length_range'], ?_, hperm.nodup_iff.mpr hnodup, ?_⟩
  · rw [hkeys, ne_eq, List.range'_eq_nil_iff, List.length_eq_zero_iff]
    exact hne
  · intro c hc key hkey
    by_contra hother
    exact howner (List.any_eq_true.mpr ⟨c, hperm.mem_iff.mp hc, by simp [hkey, hother]⟩)

/-- What is accepted may become the document, and is what was asked for. -/
theorem validated_spec {m : ParagraphMap} {document : Uuid} {chunks validated : Dict ℕ (List Uuid)}
    (h : m.validatedDocumentReplacement document chunks = .ok validated) :
    Replacement m document validated ∧ (chunks.keys ≠ [] → validated = chunks.sorted) := by
  rw [validatedDocumentReplacement, bind_eq_ok_iff] at h
  obtain ⟨seen, hseen, h⟩ := h
  obtain ⟨hall, hnodup, -⟩ := seenChunks_ok hseen List.nodup_nil
  rw [List.nil_append] at hall
  subst hall
  split_ifs at h with hsequential howner hempty
  · cases h
    exact ⟨replacement_emptyChunks m document, fun hne => absurd hempty hne⟩
  · cases h
    exact ⟨replacement_sorted hempty hsequential hnodup howner, fun _ => rfl⟩

/-! ### What a replacement leaves, whatever the index -/

theorem keeps_disown (c : Uuid) : Eff.Keeps (fun m m' : ParagraphMap => m'.paragraphs = m.paragraphs) (disown c) := by
  intro m
  rw [disown, Eff.wp_bind, Eff.wp_read, Eff.wp_ite]
  exact ⟨fun _ => rfl, fun _ => rfl⟩

/-- Where a paragraph is removed, it is removed from the paragraphs, and no other is. -/
theorem wp_popParagraph (key : ParagraphKey) (m : ParagraphMap) :
    Eff.wp (popParagraph key) (fun _ m' => ∀ j, m'.paragraphs.get? j = if j = key then none else m.paragraphs.get? j)
      (fun _ _ => True) m := by
  rw [popParagraph, Eff.wp_bind, Eff.wp_read]
  cases hkey : m.paragraphs.get? key with
  | none =>
    simp only [id, hkey]
    trivial
  | some chunkIds =>
    simp only [id, hkey]
    rw [Eff.wp_bind, Eff.wp_update]
    refine Eff.wp_forEach_mem (I := fun m' : ParagraphMap => ∀ j, m'.paragraphs.get? j =
      if j = key then none else m.paragraphs.get? j) (fun j => ?_) fun c _ t ht => ?_
    · rw [Dict.get?_erase]
      simp only [eq_comm]
    · refine Eff.wp_mono (keeps_disown c t) (fun _ t' ht' j => ?_) fun _ _ _ => trivial
      rw [ht', ht]

/-- Where the paragraphs of a document are removed, it has none, and the others have their own. -/
theorem wp_popDocument (document : Uuid) (m : ParagraphMap) :
    Eff.wp (Eff.forEach popParagraph (m.documentKeys document))
      (fun _ m' => ∀ j, m'.paragraphs.get? j = if j.1 = document then none else m.paragraphs.get? j) (fun _ _ => True) m := by
  refine Eff.wp_mono (Eff.wp_forEach (E := fun _ _ => True) (I := fun done _ m' => ∀ j, m'.paragraphs.get? j =
    if j ∈ done then none else m.paragraphs.get? j) (fun j => by simp) fun done key rest t ht => ?_)
    (fun _ m' hm' j => ?_) fun _ _ _ => trivial
  · refine Eff.wp_mono (wp_popParagraph key t) (fun _ t' ht' j => ?_) fun _ _ _ => trivial
    rw [ht', ht]
    by_cases hj : j = key
    · simp [hj]
    · simp [hj]
  · rw [hm']
    by_cases hj : j.1 = document
    · rw [if_pos hj]
      split_ifs with hmem
      · rfl
      · refine Dict.get?_eq_none_iff.mpr fun hkey => hmem ?_
        rw [documentKeys, List.mem_filter, decide_eq_true_eq]
        exact ⟨hkey, hj⟩
    · rw [if_neg hj, if_neg]
      rw [documentKeys, List.mem_filter, decide_eq_true_eq]
      exact fun hmem => hj hmem.2

/-- Where a replacement does not raise, the document has the paragraphs that were accepted, and the others have their
own. -/
theorem wp_replaceDocument {documentId : Text} {document : Uuid} (hid : requiredUuid documentId "document_id" = .ok document)
    (chunks : Dict ℕ (List Uuid)) (m : ParagraphMap) :
    Eff.wp (replaceDocument documentId chunks)
      (fun _ m' => ∃ validated, m.validatedDocumentReplacement document chunks = .ok validated ∧
        ∀ j, m'.paragraphs.get? j = if j.1 = document then validated.get? j.2 else m.paragraphs.get? j)
      (fun _ _ => True) m := by
  rw [replaceDocument, hid, Eff.wp_bind, Eff.wp_ofExcept_ok, Eff.wp_bind, Eff.wp_read, Eff.wp_bind, Eff.wp_ofExcept]
  refine ⟨fun validated hvalidated => ?_, fun _ _ => trivial⟩
  rw [Eff.wp_bind]
  refine Eff.wp_mono (wp_popDocument document m) (fun _ m₁ h₁ => ?_) fun _ _ _ => trivial
  refine Eff.wp_mono (Eff.wp_forEach (E := fun _ _ => True) (I := fun done rest m' => done ++ rest = validated.entries ∧
    ∀ j, m'.paragraphs.get? j = if j.1 = document then Dict.lookup j.2 done else m.paragraphs.get? j) ⟨rfl, fun j => ?_⟩
    fun done e rest t ht => ?_) (fun _ m' hm' => ⟨validated, hvalidated, fun j => hm'.2 j⟩) fun _ _ _ => trivial
  · rw [h₁]
    rfl
  · obtain ⟨hentries, ht⟩ := ht
    refine ⟨by rw [List.append_assoc]; exact hentries, fun j => ?_⟩
    obtain ⟨d, n⟩ := j
    have hnew : Dict.lookup e.1 done = none := by
      have hnodup := validated.nodupKeys
      rw [← hentries, List.map_append, List.map_cons, List.nodup_append] at hnodup
      rw [Dict.lookup_eq_none_iff]
      exact fun hmem => hnodup.2.2 e.1 hmem e.1 List.mem_cons_self rfl
    simp only [Dict.get?_set, ht, Prod.mk.injEq, Dict.lookup_append]
    by_cases hd : d = document
    · by_cases hn : e.1 = n
      · subst hn
        simp [hd, Dict.lookup, hnew]
      · simp [hd, hn, Dict.lookup]
    · simp [hd, Ne.symm hd]

/-- Where a deletion does not raise, the document has no paragraphs, and the others have their own. -/
theorem wp_deleteDocument {documentId : Text} {document : Uuid} (hid : requiredUuid documentId "document_id" = .ok document)
    (m : ParagraphMap) :
    Eff.wp (deleteDocument documentId)
      (fun _ m' => ∀ j, m'.paragraphs.get? j = if j.1 = document then none else m.paragraphs.get? j) (fun _ _ => True) m := by
  rw [deleteDocument, hid, Eff.wp_bind, Eff.wp_ofExcept_ok, Eff.wp_bind, Eff.wp_read]
  exact wp_popDocument document m

/-- The paragraphs of the other documents are the same. -/
def Elsewhere (document : Uuid) (m m' : ParagraphMap) : Prop := ∀ j, j.1 ≠ document → m'.paragraphs.get? j = m.paragraphs.get? j

instance (document : Uuid) : Std.Refl (Elsewhere document) := ⟨fun _ _ _ => rfl⟩

instance (document : Uuid) : IsTrans ParagraphMap (Elsewhere document) where
  trans _ _ _ h h' j hj := (h' j hj).trans (h j hj)

theorem elsewhere_popParagraph {document : Uuid} {key : ParagraphKey} (hkey : key.1 = document) :
    Eff.Keeps (Elsewhere document) (popParagraph key) := by
  refine (Eff.Keeps.read id).bind fun m => ?_
  cases m.paragraphs.get? key with
  | none => exact Eff.Keeps.raise _
  | some chunkIds =>
    refine Eff.Keeps.bind (Eff.Keeps.update fun m j hj => ?_) fun _ => Eff.Keeps.forEach fun c _ => ?_
    · exact Dict.get?_erase_ne _ fun heq => hj (by rw [← heq, hkey])
    · refine (Eff.Keeps.read id).bind fun m => Eff.Keeps.ite (Eff.Keeps.update fun m j _ => rfl) (Eff.Keeps.raise _)

theorem elsewhere_popDocument (document : Uuid) (m : ParagraphMap) :
    Eff.Keeps (Elsewhere document) (Eff.forEach popParagraph (m.documentKeys document)) :=
  Eff.Keeps.forEach fun key hkey => elsewhere_popParagraph (by
    rw [documentKeys, List.mem_filter, decide_eq_true_eq] at hkey
    exact hkey.2)

/-- However a replacement ends, it does not change the other documents. -/
theorem elsewhere_replaceDocument {documentId : Text} {document : Uuid}
    (hid : requiredUuid documentId "document_id" = .ok document) (chunks : Dict ℕ (List Uuid)) :
    Eff.Keeps (Elsewhere document) (replaceDocument documentId chunks) := by
  intro m
  rw [replaceDocument, hid, Eff.wp_bind, Eff.wp_ofExcept_ok]
  refine ((Eff.Keeps.read id).bind fun m => (Eff.Keeps.ofExcept _).bind fun validated => ?_) m
  refine (elsewhere_popDocument document m).bind fun _ => Eff.Keeps.forEach fun e _ => Eff.Keeps.update fun m j hj => ?_
  exact Dict.get?_set_ne _ _ fun heq => hj (by rw [← heq])

/-- However a deletion ends, it does not change the other documents. -/
theorem elsewhere_deleteDocument {documentId : Text} {document : Uuid}
    (hid : requiredUuid documentId "document_id" = .ok document) :
    Eff.Keeps (Elsewhere document) (deleteDocument documentId) := by
  intro m
  rw [deleteDocument, hid, Eff.wp_bind, Eff.wp_ofExcept_ok]
  exact ((Eff.Keeps.read id).bind fun m => elsewhere_popDocument document m) m

/-! ### The owner index -/

/-- The index is the exact inverse of the lists, which have no duplicates. -/
structure Owned (m : ParagraphMap) : Prop where
  /-- A chunk is owned by the paragraph whose list holds it. -/
  owner_iff : ∀ c k, m.chunkOwners.get? c = some k ↔ ∃ cs, m.paragraphs.get? k = some cs ∧ c ∈ cs
  /-- No list holds a chunk twice. -/
  nodup : ∀ k cs, m.paragraphs.get? k = some cs → cs.Nodup

/-- The map without paragraphs. -/
def empty : ParagraphMap := ⟨.empty, .empty⟩

theorem Owned.empty : Owned ParagraphMap.empty := by
  constructor
  · intro c k
    simp [ParagraphMap.empty]
  · intro k cs h
    simp [ParagraphMap.empty] at h

/-- Without an owner a chunk is in no list. -/
theorem Owned.not_mem {m : ParagraphMap} (h : Owned m) {c : Uuid} (hc : m.chunkOwners.get? c = none) {k : ParagraphKey}
    {cs : List Uuid} (hk : m.paragraphs.get? k = some cs) : c ∉ cs := by
  intro hmem
  have howned := (h.owner_iff c k).mpr ⟨cs, hk, hmem⟩
  rw [hc] at howned
  cases howned

/-- A chunk stands in one paragraph only. -/
theorem Owned.eq_of_mem {m : ParagraphMap} (h : Owned m) {c : Uuid} {j k : ParagraphKey} {cs ds : List Uuid}
    (hj : m.paragraphs.get? j = some cs) (hk : m.paragraphs.get? k = some ds) (hc : c ∈ cs) (hd : c ∈ ds) : j = k := by
  have howner := (h.owner_iff c j).mpr ⟨cs, hj, hc⟩
  rw [(h.owner_iff c k).mpr ⟨ds, hk, hd⟩] at howner
  exact (Option.some.inj howner).symm

/-- The map without a paragraph and the owners of its chunks. -/
def without (m : ParagraphMap) (k : ParagraphKey) (cs : List Uuid) : ParagraphMap where
  paragraphs := m.paragraphs.erase k
  chunkOwners := cs.foldl (fun d c => d.erase c) m.chunkOwners

theorem Owned.without {m : ParagraphMap} (h : Owned m) {k : ParagraphKey} {cs : List Uuid}
    (hk : m.paragraphs.get? k = some cs) : Owned (m.without k cs) := by
  constructor
  · intro c j
    simp only [ParagraphMap.without, Dict.get?_foldl_erase, Dict.get?_erase]
    constructor
    · intro hc
      split_ifs at hc with hmem
      obtain ⟨ds, hj, hds⟩ := (h.owner_iff c j).mp hc
      refine ⟨ds, ?_, hds⟩
      rw [if_neg, hj]
      rintro rfl
      rw [hk] at hj
      exact hmem (Option.some.inj hj ▸ hds)
    · rintro ⟨ds, hj, hds⟩
      split_ifs at hj with hkj
      rw [if_neg, (h.owner_iff c j).mpr ⟨ds, hj, hds⟩]
      exact fun hmem => hkj (h.eq_of_mem hk hj hmem hds)
  · intro j ds hj
    simp only [ParagraphMap.without, Dict.get?_erase] at hj
    split_ifs at hj
    exact h.nodup j ds hj

theorem forEach_disown (cs : List Uuid) (m : ParagraphMap) (hnodup : cs.Nodup)
    (hall : ∀ c ∈ cs, m.chunkOwners.contains c = true) :
    Eff.forEach disown cs m = .ok () { m with chunkOwners := cs.foldl (fun d c => d.erase c) m.chunkOwners } := by
  induction cs generalizing m with
  | nil => rfl
  | cons c cs ih =>
    obtain ⟨hc, hnodup⟩ := List.nodup_cons.mp hnodup
    have hfirst : disown c m = .ok () { m with chunkOwners := m.chunkOwners.erase c } := by
      simp only [disown, bind, EStateM.bind, Eff.read, id]
      rw [if_pos (hall c List.mem_cons_self)]
      rfl
    simp only [Eff.forEach, bind, EStateM.bind, hfirst]
    rw [ih _ hnodup]
    · rfl
    · intro d hd
      rw [Dict.contains_iff, Dict.mem_keys_erase, ← Dict.contains_iff]
      exact ⟨fun hdc => hc (hdc ▸ hd), hall d (List.mem_cons_of_mem _ hd)⟩

theorem Owned.popParagraph_eq {m : ParagraphMap} (h : Owned m) {k : ParagraphKey} {cs : List Uuid}
    (hk : m.paragraphs.get? k = some cs) : popParagraph k m = .ok () (m.without k cs) := by
  have hall : ∀ c ∈ cs, m.chunkOwners.contains c = true := by
    intro c hc
    rw [Dict.contains_iff, Dict.mem_keys_iff]
    exact ⟨k, (h.owner_iff c k).mpr ⟨cs, hk, hc⟩⟩
  have hrest := forEach_disown cs { m with paragraphs := m.paragraphs.erase k } (h.nodup k cs hk) hall
  simp only [popParagraph, bind, EStateM.bind, Eff.read, id, hk, Eff.update, hrest]
  rfl

/-- The paragraphs of a list of keys are removed. -/
theorem Owned.forEach_popParagraph {m : ParagraphMap} (h : Owned m) {ks : List ParagraphKey} (hnodup : ks.Nodup)
    (hin : ∀ k ∈ ks, k ∈ m.paragraphs.keys) :
    ∃ m', Eff.forEach popParagraph ks m = .ok () m' ∧ Owned m' ∧
      ∀ j, m'.paragraphs.get? j = if j ∈ ks then none else m.paragraphs.get? j := by
  induction ks generalizing m with
  | nil => exact ⟨m, rfl, h, fun j => by simp⟩
  | cons k ks ih =>
    rw [List.forall_mem_cons] at hin
    obtain ⟨hk, hnodup⟩ := List.nodup_cons.mp hnodup
    obtain ⟨cs, hcs⟩ := Dict.mem_keys_iff.mp hin.1
    have hin' : ∀ j ∈ ks, j ∈ (m.without k cs).paragraphs.keys := fun j hj =>
      Dict.mem_keys_erase.mpr ⟨fun heq => hk (heq ▸ hj), hin.2 j hj⟩
    obtain ⟨m', hrun, howned, hget⟩ := ih (h.without hcs) hnodup hin'
    refine ⟨m', ?_, howned, fun j => ?_⟩
    · simp only [Eff.forEach, bind, EStateM.bind, h.popParagraph_eq hcs, hrun]
    · rw [hget]
      simp only [ParagraphMap.without, Dict.get?_erase, List.mem_cons]
      by_cases hjk : k = j
      · simp [hjk]
      · simp [hjk, Ne.symm hjk]

/-- The map with one more paragraph. -/
def entered (m : ParagraphMap) (document : Uuid) (paragraph : ℕ × List Uuid) : ParagraphMap where
  paragraphs := m.paragraphs.set (document, paragraph.1) paragraph.2
  chunkOwners := paragraph.2.foldl (fun owners c => owners.set c (document, paragraph.1)) m.chunkOwners

theorem Owned.entered {m : ParagraphMap} (h : Owned m) {document : Uuid} {k : ℕ} {cs : List Uuid}
    (hk : m.paragraphs.get? (document, k) = none) (hnodup : cs.Nodup) (hcs : ∀ c ∈ cs, m.chunkOwners.get? c = none) :
    Owned (m.entered document (k, cs)) := by
  constructor
  · intro c j
    simp only [ParagraphMap.entered, Dict.get?_foldl_set, Dict.get?_set]
    by_cases hc : c ∈ cs
    · rw [if_pos hc]
      constructor
      · rintro ⟨⟩
        exact ⟨cs, if_pos rfl, hc⟩
      · rintro ⟨ds, hj, hds⟩
        split_ifs at hj with hkj
        · rw [hkj]
        · exact absurd hds (h.not_mem (hcs c hc) hj)
    · rw [if_neg hc, h.owner_iff]
      by_cases hkj : (document, k) = j
      · subst hkj
        simp [hk, hc]
      · simp [hkj]
  · intro j ds hj
    simp only [ParagraphMap.entered, Dict.get?_set] at hj
    split_ifs at hj
    · cases hj
      exact hnodup
    · exact h.nodup j ds hj

/-- Paragraphs are entered that are not there, with chunks that have no owner. -/
theorem Owned.forEach_enterParagraph {m : ParagraphMap} (h : Owned m) {document : Uuid} {entries : List (ℕ × List Uuid)}
    (hkeys : (entries.map Prod.fst).Nodup) (habsent : ∀ e ∈ entries, m.paragraphs.get? (document, e.1) = none)
    (hnodup : (entries.map Prod.snd).flatten.Nodup)
    (hfree : ∀ c ∈ (entries.map Prod.snd).flatten, m.chunkOwners.get? c = none) :
    ∃ m', Eff.forEach (enterParagraph document) entries m = .ok () m' ∧ Owned m' ∧
      ∀ j, m'.paragraphs.get? j =
        if j.1 = document then (Dict.lookup j.2 entries).or (m.paragraphs.get? j) else m.paragraphs.get? j := by
  induction entries generalizing m with
  | nil => exact ⟨m, rfl, h, fun j => by simp [Dict.lookup]⟩
  | cons e entries ih =>
    obtain ⟨k, cs⟩ := e
    rw [List.map_cons, List.nodup_cons] at hkeys
    rw [List.forall_mem_cons] at habsent
    rw [List.map_cons, List.flatten_cons] at hnodup hfree
    obtain ⟨hcs, hrest, hapart⟩ := List.nodup_append.mp hnodup
    have hfirst := h.entered habsent.1 hcs fun c hc => hfree c (List.mem_append_left _ hc)
    have habsent' : ∀ e ∈ entries, (m.entered document (k, cs)).paragraphs.get? (document, e.1) = none := by
      intro e he
      have hne : (document, k) ≠ (document, e.1) := by
        intro heq
        simp only [Prod.mk.injEq, true_and] at heq
        exact hkeys.1 (List.mem_map.mpr ⟨e, he, heq.symm⟩)
      rw [ParagraphMap.entered, Dict.get?_set_ne _ _ hne]
      exact habsent.2 e he
    have hfree' : ∀ c ∈ (entries.map Prod.snd).flatten, (m.entered document (k, cs)).chunkOwners.get? c = none := by
      intro c hc
      rw [ParagraphMap.entered, Dict.get?_foldl_set, if_neg fun hmem => hapart c hmem c hc rfl]
      exact hfree c (List.mem_append_right _ hc)
    obtain ⟨m', hrun, howned, hget⟩ := ih hfirst hkeys.2 habsent' hrest hfree'
    refine ⟨m', ?_, howned, fun j => ?_⟩
    · simp only [Eff.forEach, bind, EStateM.bind, enterParagraph, Eff.update]
      exact hrun
    · rw [hget]
      obtain ⟨d, i⟩ := j
      simp only [ParagraphMap.entered, Dict.get?_set, Dict.lookup, Prod.mk.injEq]
      by_cases hd : d = document
      · subst hd
        by_cases hi : k = i
        · subst hi
          have hnone : Dict.lookup k entries = none := Dict.lookup_eq_none_iff.mpr hkeys.1
          simp [hnone]
        · simp [hi]
      · simp [hd, Ne.symm hd]

theorem mem_documentKeys {m : ParagraphMap} {document : Uuid} {k : ParagraphKey} :
    k ∈ m.documentKeys document ↔ k ∈ m.paragraphs.keys ∧ k.1 = document := by
  rw [documentKeys, List.mem_filter, decide_eq_true_eq]

theorem Owned.forEach_documentKeys {m : ParagraphMap} (h : Owned m) (document : Uuid) :
    ∃ m', Eff.forEach popParagraph (m.documentKeys document) m = .ok () m' ∧ Owned m' ∧
      ∀ j, m'.paragraphs.get? j = if j.1 = document then none else m.paragraphs.get? j := by
  have hnodup : (m.documentKeys document).Nodup := m.paragraphs.nodupKeys.filter _
  obtain ⟨m', hrun, howned, hget⟩ := h.forEach_popParagraph hnodup fun k hk => (mem_documentKeys.mp hk).1
  refine ⟨m', hrun, howned, fun j => ?_⟩
  rw [hget]
  by_cases hj : j.1 = document
  · rw [if_pos hj]
    split_ifs with hmem
    · rfl
    · exact Dict.get?_eq_none_iff.mpr fun hkey => hmem (mem_documentKeys.mpr ⟨hkey, hj⟩)
  · rw [if_neg hj, if_neg fun hmem => hj (mem_documentKeys.mp hmem).2]

/-- Where the paragraphs of a document are removed and those of a replacement entered, nothing raises, and the index
stays the inverse. -/
theorem Owned.replaced {m : ParagraphMap} (h : Owned m) {document : Uuid} {validated : Dict ℕ (List Uuid)}
    (hreplacement : Replacement m document validated) :
    ∃ m₁ m', Eff.forEach popParagraph (m.documentKeys document) m = .ok () m₁ ∧
      Eff.forEach (enterParagraph document) validated.entries m₁ = .ok () m' ∧ Owned m' ∧
      ∀ j, m'.paragraphs.get? j = if j.1 = document then validated.get? j.2 else m.paragraphs.get? j := by
  obtain ⟨m₁, hpop, howned, hget⟩ := h.forEach_documentKeys document
  have habsent : ∀ e ∈ validated.entries, m₁.paragraphs.get? (document, e.1) = none := fun e _ => by
    rw [hget, if_pos rfl]
  have hfree : ∀ c ∈ validated.values.flatten, m₁.chunkOwners.get? c = none := by
    -- A chunk that is owned still is owned by another document, which the check excludes.
    intro c hc
    cases howner : m₁.chunkOwners.get? c with
    | none => rfl
    | some key =>
      obtain ⟨cs, hcs, hmem⟩ := (howned.owner_iff c key).mp howner
      rw [hget] at hcs
      split_ifs at hcs with hkey
      exact absurd (hreplacement.owner c hc key ((h.owner_iff c key).mpr ⟨cs, hcs, hmem⟩)) hkey
  obtain ⟨m', hrun, howned', hget'⟩ := howned.forEach_enterParagraph validated.nodupKeys habsent hreplacement.nodup hfree
  refine ⟨m₁, m', hpop, hrun, howned', fun j => ?_⟩
  rw [hget', hget]
  split_ifs with hj
  · exact Option.or_none
  · rfl

/-- A replacement that is accepted does not raise, keeps the index the inverse, and changes the one document. -/
theorem Owned.replaceDocument {m : ParagraphMap} (h : Owned m) {documentId : Text} {document : Uuid}
    {chunks validated : Dict ℕ (List Uuid)} (hid : requiredUuid documentId "document_id" = .ok document)
    (hvalidated : m.validatedDocumentReplacement document chunks = .ok validated) :
    ∃ m', ParagraphMap.replaceDocument documentId chunks m = .ok () m' ∧ Owned m' ∧
      ∀ j, m'.paragraphs.get? j = if j.1 = document then validated.get? j.2 else m.paragraphs.get? j := by
  obtain ⟨m₁, m', hpop, hrun, howned, hget⟩ := h.replaced (validated_spec hvalidated).1
  refine ⟨m', ?_, howned, hget⟩
  simp only [ParagraphMap.replaceDocument, hid, Eff.ofExcept, bind, EStateM.bind, pure, EStateM.pure, Eff.read, id,
    hvalidated, hpop, hrun]

/-- A deletion does not raise, keeps the index the inverse, and removes the one document. -/
theorem Owned.deleteDocument {m : ParagraphMap} (h : Owned m) {documentId : Text} {document : Uuid}
    (hid : requiredUuid documentId "document_id" = .ok document) :
    ∃ m', ParagraphMap.deleteDocument documentId m = .ok () m' ∧ Owned m' ∧
      ∀ j, m'.paragraphs.get? j = if j.1 = document then none else m.paragraphs.get? j := by
  obtain ⟨m', hpop, howned, hget⟩ := h.forEach_documentKeys document
  refine ⟨m', ?_, howned, hget⟩
  simp only [ParagraphMap.deleteDocument, hid, Eff.ofExcept, bind, EStateM.bind, pure, EStateM.pure, Eff.read, id, hpop]

end ParagraphMap

end TenantRag

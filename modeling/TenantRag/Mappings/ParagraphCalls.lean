import TenantRag.Mappings.ParagraphMap

/-!
# Calls on the paragraph map

The operations of `backend/mappings/paragraph_map.py` as they are called: with any
objects for arguments, which they check first, one call after another, whether a call
raises or not.

## The model

An object is what `isinstance` tells apart. A mapping is what its `items()` gives, which
need not have distinct keys. A call leaves the state it ended in, also where it raised.

## What is proved

* `replaceDocument_typed` — with arguments of the right types, a replacement is that of the typed model.
* `Owned.call` — where the index is the inverse of the lists, a call keeps it so; one that
  raises changes nothing, and raises a `KeyError` only where the paragraph to delete is
  not there.
* `after_calls` — the same, of all calls after one another from the empty map.
-/

namespace TenantRag

/-- A Python object, as far as the checks tell objects apart. -/
inductive PyObject where
  /-- A `str`. -/
  | text (value : Text)
  /-- A `bool`, which is an `int` as well. -/
  | bool (value : Bool)
  /-- Another `int`. -/
  | int (value : ℤ)
  /-- A `list`. -/
  | list (items : List PyObject)
  /-- A `tuple`. -/
  | tuple (items : List PyObject)
  /-- A `Mapping`, by its `items()`. -/
  | mapping (items : List (PyObject × PyObject))
  /-- Any other object. -/
  | other

namespace PyObject

/-- `required_uuid(value, name)`. -/
def requiredUuid (value : PyObject) (name : String) : Except PyError Uuid :=
  match value with
  | .text t => TenantRag.requiredUuid t name
  | _ => .error (typeError s!"{name} must be a string")

/-- `positive_paragraph_id(value)`. -/
def positiveParagraphId : PyObject → Except PyError ℕ
  | .int n => TenantRag.positiveParagraphId n
  | _ => .error (typeError "paragraph_id must be an integer")

/-- `_validated_paragraph_key(paragraph_key)`. -/
def validatedParagraphKey : PyObject → Except PyError ParagraphKey
  | .tuple [documentId, paragraphId] => do
      let document ← documentId.requiredUuid "document_id"
      let paragraph ← paragraphId.positiveParagraphId
      .ok (document, paragraph)
  | _ => .error (typeError "paragraph_key must be a (document_id, paragraph_id) tuple")

/-- `[required_uuid(item, "chunk_id") for item in chunk_ids]`, of what must be a list. -/
def requiredChunkIds (message : String) : PyObject → Except PyError (List Uuid)
  | .list items => items.mapM fun item => item.requiredUuid "chunk_id"
  | _ => .error (typeError message)

end PyObject

namespace ParagraphMap

/-- `self._chunk_owners[chunk_id] = key`. -/
def own (key : ParagraphKey) (chunkId : Uuid) : Eff ParagraphMap PyError Unit :=
  .update fun m => { m with chunkOwners := m.chunkOwners.set chunkId key }

namespace Untyped

/-- `set_chunks(paragraph_key, chunk_ids)`. -/
def setChunks (paragraphKey chunkIds : PyObject) : Eff ParagraphMap PyError Unit := do
  let key ← .ofExcept paragraphKey.validatedParagraphKey
  let validated ← .ofExcept (chunkIds.requiredChunkIds "chunk_ids must be a list")
  .whenever (!decide validated.Nodup) (.raise (valueError "chunk_ids must not contain duplicates"))
  let m ← .read id
  .whenever (validated.any fun c => (m.chunkOwners.get? c).any fun owner => owner ≠ key)
    (.raise (valueError "chunk already belongs to paragraph"))
  .forEach (fun c => .whenever (c ∉ validated) (disown c)) ((m.paragraphs.get? key).getD [])
  .forEach (own key) validated
  .update fun m => { m with paragraphs := m.paragraphs.set key validated }

/-- A turn of the loop of `_validated_document_replacement`: the paragraphs and the chunks seen so far. -/
def replacementTurn (acc : Dict ℕ (List Uuid) × List Uuid) (item : PyObject × PyObject) :
    Except PyError (Dict ℕ (List Uuid) × List Uuid) := do
  let paragraphId ← item.1.positiveParagraphId
  let chunkIds ← item.2.requiredChunkIds "each paragraph chunk collection must be a list"
  if ¬ chunkIds.Nodup then .error (valueError "chunk_ids must not contain duplicates")
  else if chunkIds.any (· ∈ acc.2) then .error (valueError "a chunk_id cannot belong to multiple paragraphs")
  else .ok (acc.1.set paragraphId chunkIds, acc.2 ++ chunkIds)

/-- `_validated_document_replacement(document, paragraph_chunks)`. -/
def validatedDocumentReplacement (m : ParagraphMap) (document : Uuid) : PyObject → Except PyError (Dict ℕ (List Uuid))
  | .mapping items => do
      let (validated, seen) ← items.foldlM replacementTurn (.empty, [])
      if validated.keys ≠ [] ∧ !isSequential validated.keys then
        .error (valueError "paragraph IDs must be sequential from 1 through N")
      else if seen.any fun c => (m.chunkOwners.get? c).any fun owner => owner.1 ≠ document then
        .error (valueError "chunk already belongs to paragraph")
      else if validated.keys = [] then .ok emptyChunks
      else .ok validated.sorted
  | _ => .error (typeError "paragraph_chunks must be a mapping")

/-- `replace_document(document_id, paragraph_chunks)`. -/
def replaceDocument (documentId paragraphChunks : PyObject) : Eff ParagraphMap PyError Unit := do
  let document ← .ofExcept (documentId.requiredUuid "document_id")
  let m ← .read id
  let validated ← .ofExcept (validatedDocumentReplacement m document paragraphChunks)
  .forEach popParagraph (m.documentKeys document)
  .forEach (enterParagraph document) validated.sorted.entries

/-- `delete_paragraph(paragraph_key)`. -/
def deleteParagraph (paragraphKey : PyObject) : Eff ParagraphMap PyError Unit := do
  let key ← .ofExcept paragraphKey.validatedParagraphKey
  popParagraph key

/-- `delete_document(document_id)`. -/
def deleteDocument (documentId : PyObject) : Eff ParagraphMap PyError Unit := do
  let document ← .ofExcept (documentId.requiredUuid "document_id")
  let m ← .read id
  .forEach popParagraph (m.documentKeys document)

end Untyped

/-- A call of an operation that changes the map, with any arguments. -/
inductive Call where
  /-- `set_chunks(paragraph_key, chunk_ids)`. -/
  | setChunks (paragraphKey chunkIds : PyObject)
  /-- `replace_document(document_id, paragraph_chunks)`. -/
  | replaceDocument (documentId paragraphChunks : PyObject)
  /-- `delete_paragraph(paragraph_key)`. -/
  | deleteParagraph (paragraphKey : PyObject)
  /-- `delete_document(document_id)`. -/
  | deleteDocument (documentId : PyObject)

/-- What a call does. -/
def Call.run : Call → Eff ParagraphMap PyError Unit
  | .setChunks paragraphKey chunkIds => Untyped.setChunks paragraphKey chunkIds
  | .replaceDocument documentId paragraphChunks => Untyped.replaceDocument documentId paragraphChunks
  | .deleteParagraph paragraphKey => Untyped.deleteParagraph paragraphKey
  | .deleteDocument documentId => Untyped.deleteDocument documentId

/-- The map that a call leaves, also where it raised. -/
def Call.left (m : ParagraphMap) (call : Call) : ParagraphMap :=
  match call.run m with
  | .ok _ t => t
  | .error _ t => t

/-- The map after calls, one after another. -/
def after (m : ParagraphMap) (calls : List Call) : ParagraphMap := calls.foldl Call.left m

/-! ### Checks -/

/-- A check that raises no `KeyError`. -/
def Keyless {α : Type} (x : Except PyError α) : Prop := ∀ e, x = .error e → e.kind ≠ .keyError

theorem Keyless.ok {α : Type} (a : α) : Keyless (.ok a) := by
  intro e h
  cases h

theorem Keyless.error {α : Type} {e : PyError} (h : e.kind ≠ .keyError) : Keyless (.error e : Except PyError α) := by
  rintro e' ⟨⟩
  exact h

theorem Keyless.bind {α β : Type} {x : Except PyError α} {f : α → Except PyError β} (hx : Keyless x)
    (hf : ∀ a, Keyless (f a)) : Keyless (x >>= f) := by
  cases x with
  | ok a => exact hf a
  | error e => exact Keyless.error (hx e rfl)

theorem Keyless.mapM {α β : Type} {f : α → Except PyError β} (hf : ∀ a, Keyless (f a)) (l : List α) : Keyless (l.mapM f) := by
  induction l with
  | nil => exact Keyless.ok []
  | cons a l ih =>
    rw [List.mapM_cons]
    exact (hf a).bind fun b => ih.bind fun bs => Keyless.ok (b :: bs)

theorem Keyless.foldlM {α β : Type} {f : β → α → Except PyError β} (hf : ∀ b a, Keyless (f b a)) (l : List α) (b : β) :
    Keyless (l.foldlM f b) := by
  induction l generalizing b with
  | nil => exact Keyless.ok b
  | cons a l ih =>
    rw [List.foldlM_cons]
    exact (hf b a).bind ih

theorem keyless_requiredUuid (value : PyObject) (name : String) : Keyless (value.requiredUuid name) := by
  cases value with
  | text t =>
    unfold PyObject.requiredUuid TenantRag.requiredUuid requiredIdentifier
    dsimp only
    intro e h
    split at h
    · rename_i e' he
      split_ifs at he
      cases he
      cases h
      exact ExcClass.noConfusion
    · split at h
      · cases h
        exact ExcClass.noConfusion
      · cases h
  | _ => exact Keyless.error ExcClass.noConfusion

theorem keyless_positiveParagraphId (value : PyObject) : Keyless value.positiveParagraphId := by
  cases value with
  | int n =>
    unfold PyObject.positiveParagraphId TenantRag.positiveParagraphId
    dsimp only
    split_ifs
    · exact Keyless.error ExcClass.noConfusion
    · exact Keyless.ok _
  | _ => exact Keyless.error ExcClass.noConfusion

theorem keyless_requiredChunkIds (message : String) (value : PyObject) : Keyless (value.requiredChunkIds message) := by
  cases value with
  | list items => exact Keyless.mapM (fun item => keyless_requiredUuid item "chunk_id") items
  | _ => exact Keyless.error ExcClass.noConfusion

theorem keyless_validatedParagraphKey (value : PyObject) : Keyless value.validatedParagraphKey := by
  unfold PyObject.validatedParagraphKey
  split
  · exact (keyless_requiredUuid _ _).bind fun document => (keyless_positiveParagraphId _).bind fun k => Keyless.ok (document, k)
  · exact Keyless.error ExcClass.noConfusion

namespace Untyped

theorem keyless_replacementTurn (acc : Dict ℕ (List Uuid) × List Uuid) (item : PyObject × PyObject) :
    Keyless (replacementTurn acc item) := by
  refine (keyless_positiveParagraphId item.1).bind fun k => (keyless_requiredChunkIds _ item.2).bind fun cs => ?_
  split_ifs
  · exact Keyless.error ExcClass.noConfusion
  · exact Keyless.ok _
  · exact Keyless.error ExcClass.noConfusion

theorem keyless_validatedDocumentReplacement (m : ParagraphMap) (document : Uuid) (chunks : PyObject) :
    Keyless (validatedDocumentReplacement m document chunks) := by
  cases chunks with
  | mapping items =>
    refine (Keyless.foldlM keyless_replacementTurn items (.empty, [])).bind fun acc => ?_
    obtain ⟨validated, seen⟩ := acc
    dsimp only
    split_ifs
    · exact Keyless.error ExcClass.noConfusion
    · exact Keyless.error ExcClass.noConfusion
    · exact Keyless.ok _
    · exact Keyless.ok _
  | _ => exact Keyless.error ExcClass.noConfusion

/-! ### What a replacement is checked for -/

/-- The paragraphs collected so far hold chunks that were seen, each once. -/
structure Collected (acc : Dict ℕ (List Uuid) × List Uuid) : Prop where
  seen : ∀ k cs, acc.1.get? k = some cs → ∀ c ∈ cs, c ∈ acc.2
  nodup : ∀ k cs, acc.1.get? k = some cs → cs.Nodup
  apart : ∀ j k cs ds, acc.1.get? j = some cs → acc.1.get? k = some ds → ∀ c ∈ cs, c ∈ ds → j = k

theorem Collected.turn {acc acc' : Dict ℕ (List Uuid) × List Uuid} {item : PyObject × PyObject} (h : Collected acc)
    (hturn : replacementTurn acc item = .ok acc') : Collected acc' := by
  obtain ⟨paragraphs, seen⟩ := acc
  rw [replacementTurn, bind_eq_ok_iff] at hturn
  obtain ⟨i, -, hturn⟩ := hturn
  rw [bind_eq_ok_iff] at hturn
  obtain ⟨fresh, -, hturn⟩ := hturn
  split_ifs at hturn with hnodup hshared
  cases hturn
  have hfresh : ∀ c ∈ fresh, c ∉ seen := by
    intro c hc hmem
    exact hshared (List.any_eq_true.mpr ⟨c, hc, by simpa using hmem⟩)
  -- What stands under a number is the new list, or a list that stood there before.
  have hcases : ∀ k cs, (paragraphs.set i fresh).get? k = some cs →
      i = k ∧ fresh = cs ∨ i ≠ k ∧ paragraphs.get? k = some cs := by
    intro k cs hk
    rw [Dict.get?_set] at hk
    split_ifs at hk with hik
    · exact .inl ⟨hik, Option.some.inj hk⟩
    · exact .inr ⟨hik, hk⟩
  refine ⟨fun k cs hk c hc => ?_, fun k cs hk => ?_, fun j k cs ds hj hk c hc hd => ?_⟩
  · obtain ⟨-, rfl⟩ | ⟨-, hold⟩ := hcases k cs hk
    · exact List.mem_append_right _ hc
    · exact List.mem_append_left _ (h.seen k cs hold c hc)
  · obtain ⟨-, rfl⟩ | ⟨-, hold⟩ := hcases k cs hk
    · exact hnodup
    · exact h.nodup k cs hold
  · obtain ⟨rfl, rfl⟩ | ⟨-, hold⟩ := hcases j cs hj
    · obtain ⟨hik, -⟩ | ⟨-, hold'⟩ := hcases k ds hk
      · exact hik
      · exact absurd (h.seen k ds hold' c hd) (hfresh c hc)
    · obtain ⟨rfl, rfl⟩ | ⟨-, hold'⟩ := hcases k ds hk
      · exact absurd (h.seen j cs hold c hc) (hfresh c hd)
      · exact h.apart j k cs ds hold hold' c hc hd

theorem Collected.nodup_flatten {acc : Dict ℕ (List Uuid) × List Uuid} (h : Collected acc) : acc.1.values.flatten.Nodup := by
  refine List.nodup_flatten.mpr ⟨fun cs hcs => ?_, ?_⟩
  · obtain ⟨⟨k, cs⟩, hmem, rfl⟩ := List.mem_map.mp hcs
    exact h.nodup k cs (Dict.mem_entries_iff.mp hmem)
  · refine List.pairwise_map.mpr ((List.pairwise_map.mp acc.1.nodupKeys).imp_of_mem ?_)
    intro e f he hf hne c hc hd
    exact hne (h.apart e.1 f.1 e.2 f.2 (Dict.mem_entries_iff.mp he) (Dict.mem_entries_iff.mp hf) c hc hd)

theorem Collected.mem_seen {acc : Dict ℕ (List Uuid) × List Uuid} (h : Collected acc) {c : Uuid}
    (hc : c ∈ acc.1.values.flatten) : c ∈ acc.2 := by
  obtain ⟨cs, hcs, hc⟩ := List.mem_flatten.mp hc
  obtain ⟨⟨k, cs⟩, hmem, rfl⟩ := List.mem_map.mp hcs
  exact h.seen k cs (Dict.mem_entries_iff.mp hmem) c hc

/-- What is accepted may become the document. -/
theorem validated_replacement {m : ParagraphMap} {document : Uuid} {chunks : PyObject} {validated : Dict ℕ (List Uuid)}
    (h : validatedDocumentReplacement m document chunks = .ok validated) : Replacement m document validated := by
  unfold validatedDocumentReplacement at h
  split at h
  · rename_i items
    rw [bind_eq_ok_iff] at h
    obtain ⟨acc, hacc, h⟩ := h
    have hempty : Collected (Dict.empty, []) := by
      constructor <;> simp
    have hcollected : Collected acc := foldlM_preserves (fun _ _ _ _ hb hturn => hb.turn hturn) hempty hacc
    obtain ⟨collected, seen⟩ := acc
    dsimp only at h
    split_ifs at h with hsequential howner hnone
    · cases h
      exact replacement_emptyChunks m document
    · cases h
      refine replacement_sorted hnone hsequential hcollected.nodup_flatten fun hany => howner ?_
      obtain ⟨c, hc, hother⟩ := List.any_eq_true.mp hany
      exact List.any_eq_true.mpr ⟨c, hcollected.mem_seen hc, hother⟩
  · cases h

/-! ### Arguments of the right types -/

/-- A dictionary of chunks, as an object. -/
def chunksObject (chunks : Dict ℕ (List Uuid)) : PyObject :=
  .mapping (chunks.entries.map fun e => (.int e.1, .list (e.2.map fun c => .text c.str)))

theorem replacementTurn_typed (acc : Dict ℕ (List Uuid) × List Uuid) (k : ℕ) (cs : List Uuid) :
    replacementTurn acc (.int k, .list (cs.map fun c => .text c.str)) =
      if k = 0 then .error (valueError "paragraph_id must be greater than zero")
      else if ¬ cs.Nodup then .error (valueError "chunk_ids must not contain duplicates")
      else if cs.any (· ∈ acc.2) then .error (valueError "a chunk_id cannot belong to multiple paragraphs")
      else .ok (acc.1.set k cs, acc.2 ++ cs) := by
  have hchunks : PyObject.requiredChunkIds "each paragraph chunk collection must be a list"
      (.list (cs.map fun c => .text c.str)) = .ok cs := by
    rw [PyObject.requiredChunkIds, List.mapM_map]
    exact (mapM_ok fun c _ => requiredUuid_str c "chunk_id").trans (congrArg Except.ok (List.map_id cs))
  rw [replacementTurn, hchunks]
  by_cases hk : k = 0
  · subst hk
    rfl
  · have hpositive : PyObject.positiveParagraphId (.int k) = .ok k := by
      simp [PyObject.positiveParagraphId, TenantRag.positiveParagraphId, hk]
    rw [hpositive, if_neg hk]
    rfl

theorem foldlM_replacementTurn (entries : List (ℕ × List Uuid)) (d : Dict ℕ (List Uuid)) (seen : List Uuid) :
    (entries.map fun e => ((.int e.1, .list (e.2.map fun c => .text c.str)) : PyObject × PyObject)).foldlM
        replacementTurn (d, seen) =
      (seenChunks seen entries).map fun all => (entries.foldl (fun d e => d.set e.1 e.2) d, all) := by
  induction entries generalizing d seen with
  | nil => rfl
  | cons e entries ih =>
    obtain ⟨k, cs⟩ := e
    rw [List.map_cons, List.foldlM_cons, replacementTurn_typed, seenChunks]
    split_ifs with hzero hnodup hshared
    · rfl
    · rfl
    · exact ih (d.set k cs) (seen ++ cs)
    · rfl

theorem validatedDocumentReplacement_typed (m : ParagraphMap) (document : Uuid) (chunks : Dict ℕ (List Uuid)) :
    validatedDocumentReplacement m document (chunksObject chunks) = m.validatedDocumentReplacement document chunks := by
  have hentries : chunks.entries.foldl (fun d e => d.set e.1 e.2) Dict.empty = chunks :=
    Dict.ext_entries (Dict.entries_foldl_set chunks.entries Dict.empty chunks.nodupKeys)
  rw [chunksObject, validatedDocumentReplacement, foldlM_replacementTurn, hentries,
    ParagraphMap.validatedDocumentReplacement]
  cases seenChunks [] chunks.entries <;> rfl

/-- With arguments of the right types, a replacement is that of the typed model. -/
theorem replaceDocument_typed (documentId : Text) (chunks : Dict ℕ (List Uuid)) :
    replaceDocument (.text documentId) (chunksObject chunks) = ParagraphMap.replaceDocument documentId chunks := by
  have hid : (PyObject.text documentId).requiredUuid "document_id" = requiredUuid documentId "document_id" := rfl
  funext m
  simp only [replaceDocument, ParagraphMap.replaceDocument, hid, validatedDocumentReplacement_typed, bind, EStateM.bind,
    Eff.read]
  cases requiredUuid documentId "document_id" with
  | error e => rfl
  | ok document =>
    simp only [Eff.ofExcept, pure, EStateM.pure]
    cases hvalidated : m.validatedDocumentReplacement document chunks with
    | error e => simp [Eff.raise, hvalidated]
    | ok validated =>
      have hsorted : validated.sorted = validated := Dict.sorted_eq_self (by
        rw [(validated_spec hvalidated).1.keys]
        exact List.pairwise_lt_range')
      simp [hvalidated, EStateM.pure, hsorted]

/-- So is a deletion. -/
theorem deleteDocument_typed (documentId : Text) :
    deleteDocument (.text documentId) = ParagraphMap.deleteDocument documentId := rfl

end Untyped

/-! ### One call -/

/-- A call that raised without a change, and no `KeyError`. -/
def Refused (m : ParagraphMap) (e : PyError) (t : ParagraphMap) : Prop := t = m ∧ e.kind ≠ .keyError

theorem wp_check {α : Type} {x : Except PyError α} {f : α → Eff ParagraphMap PyError Unit} {Q : Unit → ParagraphMap → Prop}
    {E : PyError → ParagraphMap → Prop} {m : ParagraphMap} (hx : Keyless x) (hE : ∀ e, e.kind ≠ .keyError → E e m)
    (hf : ∀ a, x = .ok a → Eff.wp (f a) Q E m) : Eff.wp (.ofExcept x >>= f) Q E m := by
  rw [Eff.wp_bind, Eff.wp_ofExcept]
  exact ⟨hf, fun e he => hE e (hx e he)⟩

theorem forEach_own (key : ParagraphKey) (cs : List Uuid) (m : ParagraphMap) :
    Eff.forEach (own key) cs m =
      .ok () { m with chunkOwners := cs.foldl (fun owners c => owners.set c key) m.chunkOwners } := by
  induction cs generalizing m with
  | nil => rfl
  | cons c cs ih =>
    simp only [Eff.forEach, bind, EStateM.bind, own, Eff.update, List.foldl_cons]
    exact ih _

/-- The map where a paragraph has other chunks. -/
def rechunked (m : ParagraphMap) (key : ParagraphKey) (validated : List Uuid) : ParagraphMap where
  paragraphs := m.paragraphs.set key validated
  chunkOwners := validated.foldl (fun owners c => owners.set c key)
    ((((m.paragraphs.get? key).getD []).filter fun c => c ∉ validated).foldl (fun d c => d.erase c) m.chunkOwners)

theorem Owned.rechunked {m : ParagraphMap} (h : Owned m) {key : ParagraphKey} {validated : List Uuid}
    (hnodup : validated.Nodup) (howner : ∀ c ∈ validated, ∀ k, m.chunkOwners.get? c = some k → k = key) :
    Owned (m.rechunked key validated) := by
  constructor
  · intro c k
    simp only [ParagraphMap.rechunked, Dict.get?_foldl_set, Dict.get?_foldl_erase, Dict.get?_set, List.mem_filter,
      decide_eq_true_eq]
    by_cases hc : c ∈ validated
    · rw [if_pos hc]
      constructor
      · rintro ⟨⟩
        exact ⟨validated, if_pos rfl, hc⟩
      · rintro ⟨cs, hcs, hmem⟩
        split_ifs at hcs with hkey
        · rw [hkey]
        · rw [howner c hc k ((h.owner_iff c k).mpr ⟨cs, hcs, hmem⟩)]
    · rw [if_neg hc]
      have hprevious : c ∈ (m.paragraphs.get? key).getD [] ↔ m.chunkOwners.get? c = some key := by
        rw [h.owner_iff]
        cases m.paragraphs.get? key <;> simp
      by_cases hkey : key = k
      · -- The paragraph itself no longer holds the chunk.
        subst hkey
        simp only [if_true, Option.some.injEq, exists_eq_left', hc, hprevious, not_false_eq_true, and_true, iff_false]
        split_ifs with howned
        · exact not_false
        · exact howned
      · simp only [if_neg hkey]
        rw [← h.owner_iff]
        split_ifs with howned
        · rw [hprevious.mp howned.1, Option.some.injEq]
          exact iff_of_false not_false hkey
        · exact Iff.rfl
  · intro k cs hk
    simp only [ParagraphMap.rechunked, Dict.get?_set] at hk
    split_ifs at hk
    · cases hk
      exact hnodup
    · exact h.nodup k cs hk

theorem Owned.setChunks {m : ParagraphMap} (h : Owned m) (paragraphKey chunkIds : PyObject) :
    Eff.wp (Untyped.setChunks paragraphKey chunkIds) (fun _ t => Owned t) (Refused m) m := by
  refine wp_check (keyless_validatedParagraphKey _) (fun e he => ⟨rfl, he⟩) fun key _ => ?_
  refine wp_check (keyless_requiredChunkIds _ _) (fun e he => ⟨rfl, he⟩) fun validated _ => ?_
  rw [Eff.wp_bind, Eff.wp_whenever]
  refine ⟨fun _ => ⟨rfl, ExcClass.noConfusion⟩, fun hnodup => ?_⟩
  rw [Eff.wp_bind, Eff.wp_read, Eff.wp_bind, Eff.wp_whenever]
  refine ⟨fun _ => ⟨rfl, ExcClass.noConfusion⟩, fun howner => ?_⟩
  have hnodup : validated.Nodup := by simpa using hnodup
  have howner : ∀ c ∈ validated, ∀ k, m.chunkOwners.get? c = some k → k = key := by
    intro c hc k hk
    by_contra hne
    rw [List.any_eq_false] at howner
    exact howner c hc (by simp [hk, hne])
  have hprevious : (((m.paragraphs.get? key).getD []).filter fun c => decide (c ∉ validated)).Nodup := by
    refine List.Nodup.filter _ ?_
    cases hk : m.paragraphs.get? key with
    | none => exact List.nodup_nil
    | some cs => exact h.nodup key cs hk
  have hdisown := forEach_disown _ m hprevious fun c hc => by
    obtain ⟨cs, hcs⟩ : ∃ cs, m.paragraphs.get? key = some cs := by
      cases hk : m.paragraphs.get? key with
      | none => simp [hk] at hc
      | some cs => exact ⟨cs, rfl⟩
    rw [hcs] at hc
    rw [Dict.contains_iff, Dict.mem_keys_iff]
    exact ⟨key, (h.owner_iff c key).mpr ⟨cs, hcs, (List.mem_filter.mp hc).1⟩⟩
  rw [id, Eff.forEach_whenever, Eff.wp_bind, Eff.wp_of_ok hdisown, Eff.wp_bind, Eff.wp_of_ok (forEach_own _ _ _), Eff.wp_update]
  exact h.rechunked hnodup howner

theorem Owned.replaceDocumentUntyped {m : ParagraphMap} (h : Owned m) (documentId paragraphChunks : PyObject) :
    Eff.wp (Untyped.replaceDocument documentId paragraphChunks) (fun _ t => Owned t) (Refused m) m := by
  refine wp_check (keyless_requiredUuid _ _) (fun e he => ⟨rfl, he⟩) fun document _ => ?_
  rw [Eff.wp_bind, Eff.wp_read]
  refine wp_check (Untyped.keyless_validatedDocumentReplacement _ _ _) (fun e he => ⟨rfl, he⟩) fun validated hvalidated => ?_
  have hreplacement := Untyped.validated_replacement hvalidated
  have hsorted : validated.sorted = validated := Dict.sorted_eq_self (by
    rw [hreplacement.keys]
    exact List.pairwise_lt_range')
  obtain ⟨m₁, m', hpop, henter, howned, -⟩ := h.replaced hreplacement
  rw [hsorted, id, Eff.wp_bind, Eff.wp_of_ok hpop, Eff.wp_of_ok henter]
  exact howned

theorem Owned.deleteDocumentUntyped {m : ParagraphMap} (h : Owned m) (documentId : PyObject) :
    Eff.wp (Untyped.deleteDocument documentId) (fun _ t => Owned t) (Refused m) m := by
  refine wp_check (keyless_requiredUuid _ _) (fun e he => ⟨rfl, he⟩) fun document _ => ?_
  obtain ⟨m', hpop, howned, -⟩ := h.forEach_documentKeys document
  rw [Eff.wp_bind, Eff.wp_read, id, Eff.wp_of_ok hpop]
  exact howned

theorem Owned.deleteParagraph {m : ParagraphMap} (h : Owned m) (paragraphKey : PyObject) :
    Eff.wp (Untyped.deleteParagraph paragraphKey) (fun _ t => Owned t)
      (fun e t => t = m ∧ (e.kind = .keyError →
        ∃ key, paragraphKey.validatedParagraphKey = .ok key ∧ m.paragraphs.get? key = none)) m := by
  refine wp_check (keyless_validatedParagraphKey _) (fun e he => ⟨rfl, fun hkey => absurd hkey he⟩) fun key hkey => ?_
  cases hget : m.paragraphs.get? key with
  | none =>
    have hraises : popParagraph key m = .error (keyError "paragraph_key") m := by
      simp only [popParagraph, bind, EStateM.bind, Eff.read, id, hget]
      rfl
    rw [Eff.wp_of_error hraises]
    exact ⟨rfl, fun _ => ⟨key, hkey, hget⟩⟩
  | some cs =>
    rw [Eff.wp_of_ok (h.popParagraph_eq hget)]
    exact h.without hget

/-- A call keeps the index the inverse. One that raises changes nothing, and raises a `KeyError` only where the
paragraph to delete is not there. -/
theorem Owned.call {m : ParagraphMap} (h : Owned m) (call : Call) :
    Eff.wp call.run (fun _ t => Owned t)
      (fun e t => t = m ∧ (e.kind = .keyError → ∃ paragraphKey key, call = .deleteParagraph paragraphKey ∧
        paragraphKey.validatedParagraphKey = .ok key ∧ m.paragraphs.get? key = none)) m := by
  have hrefused : ∀ e t, Refused m e t → t = m ∧ (e.kind = .keyError → ∃ paragraphKey key,
      call = .deleteParagraph paragraphKey ∧ paragraphKey.validatedParagraphKey = .ok key ∧
        m.paragraphs.get? key = none) := fun e t ht => ⟨ht.1, fun hkey => absurd hkey ht.2⟩
  cases call with
  | setChunks paragraphKey chunkIds => exact Eff.wp_mono (h.setChunks paragraphKey chunkIds) (fun _ _ ht => ht) hrefused
  | replaceDocument documentId paragraphChunks =>
    exact Eff.wp_mono (h.replaceDocumentUntyped documentId paragraphChunks) (fun _ _ ht => ht) hrefused
  | deleteDocument documentId => exact Eff.wp_mono (h.deleteDocumentUntyped documentId) (fun _ _ ht => ht) hrefused
  | deleteParagraph paragraphKey =>
    refine Eff.wp_mono (h.deleteParagraph paragraphKey) (fun _ _ ht => ht) fun e t ht => ⟨ht.1, fun hkey => ?_⟩
    obtain ⟨key, hvalid, habsent⟩ := ht.2 hkey
    exact ⟨paragraphKey, key, rfl, hvalid, habsent⟩

/-! ### All calls -/

theorem Owned.left {m : ParagraphMap} (h : Owned m) (call : Call) : Owned (call.left m) := by
  have hcall := h.call call
  unfold Call.left
  cases hrun : call.run m with
  | ok u t => exact Eff.wp_ok hcall hrun
  | error e t =>
    obtain ⟨rfl, -⟩ := Eff.wp_error hcall hrun
    exact h

theorem Owned.after {m : ParagraphMap} (h : Owned m) (calls : List Call) : Owned (m.after calls) := by
  induction calls generalizing m with
  | nil => exact h
  | cons call calls ih => exact ih (h.left call)

/-- The chunks of all paragraphs, each as often as it stands in them. -/
def allChunks (m : ParagraphMap) : List Uuid := m.paragraphs.values.flatten

theorem mem_allChunks {m : ParagraphMap} {c : Uuid} :
    c ∈ m.allChunks ↔ ∃ k cs, m.paragraphs.get? k = some cs ∧ c ∈ cs := by
  rw [allChunks, List.mem_flatten]
  constructor
  · rintro ⟨cs, hcs, hc⟩
    obtain ⟨⟨k, cs⟩, hmem, rfl⟩ := List.mem_map.mp hcs
    exact ⟨k, cs, Dict.mem_entries_iff.mp hmem, hc⟩
  · rintro ⟨k, cs, hk, hc⟩
    exact ⟨cs, List.mem_map.mpr ⟨(k, cs), Dict.mem_entries_iff.mpr hk, rfl⟩, hc⟩

theorem Owned.nodup_allChunks {m : ParagraphMap} (h : Owned m) : m.allChunks.Nodup := by
  refine List.nodup_flatten.mpr ⟨fun cs hcs => ?_, ?_⟩
  · obtain ⟨⟨k, cs⟩, hmem, rfl⟩ := List.mem_map.mp hcs
    exact h.nodup k cs (Dict.mem_entries_iff.mp hmem)
  · refine List.pairwise_map.mpr ((List.pairwise_map.mp m.paragraphs.nodupKeys).imp_of_mem ?_)
    intro e f he hf hne c hc hd
    exact hne (h.eq_of_mem (Dict.mem_entries_iff.mp he) (Dict.mem_entries_iff.mp hf) hc hd)

/-- After any calls on an empty map, whether they raised or not, a chunk has an owner exactly where it stands in the
lists once, its owner is the paragraph it stands in, and no chunk stands in the lists twice; and a call that raises
there leaves the map as it is, with a `KeyError` only for a paragraph to delete that is not there. -/
theorem after_calls (calls : List Call) :
    (∀ c, c ∈ (empty.after calls).chunkOwners.keys ↔ (empty.after calls).allChunks.count c = 1) ∧
    (∀ c k, (empty.after calls).chunkOwners.get? c = some k ↔ ∃ cs, (empty.after calls).paragraphs.get? k = some cs ∧ c ∈ cs) ∧
    (empty.after calls).allChunks.Nodup ∧
    ∀ call e m', Call.run call (empty.after calls) = .error e m' → m' = empty.after calls ∧
      (e.kind = .keyError → ∃ paragraphKey key, call = .deleteParagraph paragraphKey ∧
        paragraphKey.validatedParagraphKey = .ok key ∧ (empty.after calls).paragraphs.get? key = none) := by
  have howned := Owned.empty.after calls
  generalize empty.after calls = m at howned ⊢
  refine ⟨fun c => ?_, howned.owner_iff, howned.nodup_allChunks, fun call e m' hrun => Eff.wp_error (howned.call call) hrun⟩
  rw [Dict.mem_keys_iff, howned.nodup_allChunks.count]
  constructor
  · rintro ⟨k, hk⟩
    obtain ⟨cs, hcs, hc⟩ := (howned.owner_iff c k).mp hk
    exact if_pos (mem_allChunks.mpr ⟨k, cs, hcs, hc⟩)
  · intro hcount
    split_ifs at hcount with hmem
    obtain ⟨k, cs, hcs, hc⟩ := mem_allChunks.mp hmem
    exact ⟨k, (howned.owner_iff c k).mpr ⟨cs, hcs, hc⟩⟩

end ParagraphMap

end TenantRag

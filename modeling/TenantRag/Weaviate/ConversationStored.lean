import TenantRag.Foundations.Result
import TenantRag.Weaviate.ConversationWrite
import TenantRag.Weaviate.Isolation

/-!
# What the application stores of a conversation

The collection that calls of `ConversationCollection.insert` fill. Whatever calls
returned, each segment of each of them has its record in the collection, and there is no
other: a record is that of a segment of a call, under the id derived from its
conversation and its index, with its text, that of the conversation and the vectors.

## What is proved

* `prepareInsert_ok` — an accepted call has a record for each of its segments, in order.
* `insertConversation_ok` — a call that returned stored its records, under new ids.
* `StoredConversations.rows`, `StoredConversations.origin` — the records of a collection
  that calls filled are those of the segments of the calls.
* `StoredConversations.wellFormed` — every one of them satisfies what the readers check.
-/

namespace TenantRag

variable {K : Type} {uuid5 : Uuid → Text → Uuid} {userId : Text}

/-- The record that a call stores for its segment at an index. -/
structure SegmentRecord.Of (uuid5 : Uuid → Text → Uuid) (userId : Text) (args : ConversationInsert K) (i : ℕ)
    (r : SegmentRecord K) : Prop where
  /-- It is of the user. -/
  owner : r.userId = userId
  /-- It is of the conversation. -/
  conversation : Weaviate.uuidText args.conversationId "conversation_id" = .ok r.conversationId
  /-- Its index. -/
  index : r.segmentIndex = i
  /-- Its id is derived from its conversation and its index. -/
  identity : r.segmentId = uuid5 r.conversationId (segmentName r.segmentIndex)
  /-- It has the text of the conversation. -/
  rawText : r.rawText = args.rawText
  /-- It has the text of the segment. -/
  segmentText : args.segmentTexts[i]? = some r.segmentText
  /-- It has the vectors of the segment. -/
  lateInteraction : ∃ m, args.segmentVectors[i]? = some m ∧ multiVectorValues "segment multi-vector" m = .ok r.lateInteraction
  /-- It has the vector of the conversation. -/
  mmrDiversity : vectorValues "diversity_vector" args.diversityVector = .ok r.mmrDiversity

/-- The texts of a call that `insert` accepts. -/
structure ConversationInsert.Accepted (args : ConversationInsert K) : Prop where
  /-- The text is not blank. -/
  text : isBlank args.rawText = false
  /-- Nor is any segment. -/
  segments : ∀ t ∈ args.segmentTexts, isBlank t = false
  /-- The segments are the text. -/
  whole : args.segmentTexts.flatten = args.rawText

theorem getElem?_segmentRecords (canonicalId : Uuid) (rawText : Text) (diversity : List K) (index : ℕ)
    (segments : List (Text × List (List K))) (i : ℕ) :
    (segmentRecords uuid5 userId canonicalId rawText diversity index segments)[i]? = segments[i]?.map fun s =>
      ⟨userId, canonicalId, uuid5 canonicalId (segmentName (index + i)), index + i, rawText, s.1, s.2, diversity⟩ := by
  induction segments generalizing index i with
  | nil => rfl
  | cons s segments ih =>
    rw [segmentRecords]
    cases i with
    | zero => rfl
    | succ i =>
      rw [List.getElem?_cons_succ, List.getElem?_cons_succ, ih (index + 1) i, Nat.add_right_comm, Nat.add_assoc]

/-- An accepted call has one record for each segment, in the order of the segments. -/
theorem prepareInsert_ok {args : ConversationInsert K} {canonicalId : Uuid} {records : List (SegmentRecord K)}
    (h : prepareInsert uuid5 userId args = .ok (canonicalId, records)) :
    args.Accepted ∧ (∀ (i : ℕ) t, args.segmentTexts[i]? = some t → ∃ r, records[i]? = some r) ∧
      ∀ (i : ℕ) r, records[i]? = some r → r.Of uuid5 userId args i := by
  obtain ⟨conversationId, hconversation, h⟩ := bind_eq_ok_iff.mp h
  obtain ⟨rawText, htext, h⟩ := bind_eq_ok_iff.mp h
  obtain ⟨segments, hsegments, h⟩ := bind_eq_ok_iff.mp h
  obtain ⟨hraw, hblank⟩ := requiredText_eq_ok_iff.mp htext
  cases hraw
  obtain ⟨hsame, hnotBlank⟩ : segments = args.segmentTexts.map id ∧ ∀ t ∈ args.segmentTexts, isBlank t = false := by
    refine mapM_eq_ok_map (fun t t' ht => ?_) hsegments
    obtain ⟨heq, hblank⟩ := requiredText_eq_ok_iff.mp ht
    cases heq
    exact ⟨rfl, hblank⟩
  rw [List.map_id] at hsame
  subst hsame
  split_ifs at h with hflatten
  obtain ⟨vectors, hvectors, h⟩ := bind_eq_ok_iff.mp h
  split_ifs at h with hlength hdimension
  obtain ⟨diversity, hdiversity, h⟩ := bind_eq_ok_iff.mp h
  cases h
  rw [Bool.or_eq_true, not_or] at hflatten
  have hwhole : args.segmentTexts.flatten = args.rawText := by simpa using hflatten.2
  have haligned : vectors.length = args.segmentTexts.length := not_not.mp hlength
  have hrows := mapM_eq_ok_iff.mp hvectors
  refine ⟨⟨hblank, hnotBlank, hwhole⟩, fun i t ht => ?_, fun i r hr => ?_⟩
  · have hi : i < vectors.length := haligned.symm ▸ (List.getElem?_eq_some_iff.mp ht).1
    have hpair : (args.segmentTexts.zip vectors)[i]? = some (t, vectors[i]) :=
      List.getElem?_zip_eq_some.mpr ⟨ht, List.getElem?_eq_getElem hi⟩
    rw [getElem?_segmentRecords, hpair]
    exact ⟨_, rfl⟩
  · rw [getElem?_segmentRecords, Nat.zero_add] at hr
    obtain ⟨⟨t, vector⟩, hpair, rfl⟩ := Option.map_eq_some_iff.mp hr
    obtain ⟨ht, hvector⟩ := List.getElem?_zip_eq_some.mp hpair
    obtain ⟨hi, rfl⟩ := List.getElem?_eq_some_iff.mp hvector
    have hj : i < args.segmentVectors.length := hrows.length_eq ▸ hi
    exact ⟨rfl, hconversation, rfl, rfl, rfl, ht, ⟨_, List.getElem?_eq_getElem hj, hrows.get hj hi⟩, hdiversity⟩

/-- A call that returned stored the records it prepared, under ids that were new. -/
theorem insertConversation_ok {args : ConversationInsert K} {b : ConversationStorage} {store store' : ConversationStore K}
    {id : Uuid} (h : insertConversation uuid5 userId args b store = .ok id store') :
    ∃ canonicalId records, prepareInsert uuid5 userId args = .ok (canonicalId, records) ∧ Added store records store' := by
  rw [insertConversation] at h
  cases hprepare : prepareInsert uuid5 userId args with
  | error e =>
    rw [hprepare] at h
    cases h
  | ok p =>
    obtain ⟨canonicalId, records⟩ := p
    rw [hprepare] at h
    refine ⟨canonicalId, records, rfl, ?_⟩
    have hahead : Ahead store ⟨store, []⟩ := ⟨fun _ _ => rfl, by simp, by simp⟩
    have hspec := writeSegments_spec (planned b records) ⟨store, []⟩ hahead
    simp only [writeConversation] at h
    cases hrun : writeSegments (planned b records) ⟨store, []⟩ with
    | error e w =>
      rw [hrun] at h
      dsimp only at h
      split at h <;> cases h
    | ok a w =>
      rw [hrun] at h
      cases h
      obtain ⟨hstore, hnodup, hnew, -⟩ := Eff.wp_ok hspec hrun
      change w.store = _ at hstore
      rw [hstore]
      exact added_planned hnodup fun id hid => (hnew id hid).2

/-! ### The collection -/

/-- The collection after calls that returned, the last of them first. -/
inductive StoredConversations (uuid5 : Uuid → Text → Uuid) (userId : Text) :
    List (ConversationInsert K) → ConversationStore K → Prop where
  /-- Before any call. -/
  | empty : StoredConversations uuid5 userId [] .empty
  /-- After one more. -/
  | insert {calls : List (ConversationInsert K)} {store store' : ConversationStore K} {args : ConversationInsert K}
      {b : ConversationStorage} {id : Uuid} (stored : StoredConversations uuid5 userId calls store)
      (returned : insertConversation uuid5 userId args b store = .ok id store') :
      StoredConversations uuid5 userId (args :: calls) store'

variable {calls : List (ConversationInsert K)} {store : ConversationStore K}

/-- A record of the collection is under its id, and is that of a segment of an accepted call. -/
theorem StoredConversations.origin (h : StoredConversations uuid5 userId calls store) {id : Uuid} {r : SegmentRecord K}
    (hr : store.get? id = some r) :
    r.segmentId = id ∧ ∃ args ∈ calls, args.Accepted ∧ ∃ i, r.Of uuid5 userId args i := by
  induction h with
  | empty => cases hr
  | insert stored returned ih =>
    obtain ⟨canonicalId, records, hprepare, hadded⟩ := insertConversation_ok returned
    by_cases hid : id ∈ records.map SegmentRecord.segmentId
    · obtain ⟨s, hs, rfl⟩ := List.mem_map.mp hid
      rw [hadded.stored s hs] at hr
      cases hr
      obtain ⟨haccepted, -, hof⟩ := prepareInsert_ok hprepare
      obtain ⟨i, hi⟩ := List.mem_iff_getElem?.mp hs
      exact ⟨rfl, _, List.mem_cons_self, haccepted, i, hof i _ hi⟩
    · rw [hadded.others id hid] at hr
      obtain ⟨hsame, args, hargs, horigin⟩ := ih hr
      exact ⟨hsame, args, List.mem_cons_of_mem _ hargs, horigin⟩

/-- Every segment of every call is in the collection. -/
theorem StoredConversations.rows (h : StoredConversations uuid5 userId calls store) {args : ConversationInsert K}
    (hargs : args ∈ calls) {i : ℕ} {t : Text} (ht : args.segmentTexts[i]? = some t) :
    ∃ r, store.get? r.segmentId = some r ∧ r.Of uuid5 userId args i := by
  induction h with
  | empty => cases hargs
  | insert stored returned ih =>
    obtain ⟨canonicalId, records, hprepare, hadded⟩ := insertConversation_ok returned
    rcases List.mem_cons.mp hargs with rfl | hargs
    · obtain ⟨-, hrecord, hof⟩ := prepareInsert_ok hprepare
      obtain ⟨r, hr⟩ := hrecord i t ht
      exact ⟨r, hadded.stored r (List.mem_of_getElem? hr), hof i r hr⟩
    · -- its id was stored before, so that the later call did not write under it
      obtain ⟨r, hr, hof⟩ := ih hargs
      have hother : r.segmentId ∉ records.map SegmentRecord.segmentId := by
        intro hmem
        obtain ⟨s, hs, hsame⟩ := List.mem_map.mp hmem
        have hnone := hadded.new s hs
        rw [hsame, hr] at hnone
        cases hnone
      exact ⟨r, (hadded.others _ hother).trans hr, hof⟩

/-! ### What the readers check -/

/-- A segment as the readers want it. -/
structure SegmentRecord.WellFormed (uuid5 : Uuid → Text → Uuid) (userId : Text) (r : SegmentRecord K) : Prop where
  /-- It is of the user. -/
  owner : r.userId = userId
  /-- Its id is derived from its conversation and its index. -/
  identity : r.segmentId = uuid5 r.conversationId (segmentName r.segmentIndex)
  /-- The text of the conversation is not blank. -/
  text : isBlank r.rawText = false
  /-- Nor is that of the segment. -/
  segment : isBlank r.segmentText = false
  /-- The segment is a part of the text. -/
  inText : r.segmentText <:+: r.rawText
  /-- The vector has the dimension of the collection. -/
  dimension : r.mmrDiversity.length = mmrDiversityVectorDimension

/-- The diversity vector of a call has the dimension of the collection. -/
def ConversationInsert.Dimensioned (args : ConversationInsert K) : Prop :=
  ∀ xs, vectorValues "diversity_vector" args.diversityVector = .ok xs → xs.length = mmrDiversityVectorDimension

theorem infix_flatten_of_mem {α : Type} {l : List α} {ls : List (List α)} (h : l ∈ ls) : l <:+: ls.flatten := by
  obtain ⟨before, behind, rfl⟩ := List.append_of_mem h
  exact ⟨before.flatten, behind.flatten, by simp⟩

theorem SegmentRecord.Of.wellFormed {args : ConversationInsert K} {i : ℕ} {r : SegmentRecord K}
    (h : r.Of uuid5 userId args i) (haccepted : args.Accepted) (hdimension : args.Dimensioned) :
    r.WellFormed uuid5 userId := by
  have hsegment := List.mem_of_getElem? h.segmentText
  refine ⟨h.owner, h.identity, ?_, haccepted.segments _ hsegment, ?_, hdimension _ h.mmrDiversity⟩
  · rw [h.rawText]
    exact haccepted.text
  · rw [h.rawText, ← haccepted.whole]
    exact infix_flatten_of_mem hsegment

/-- Every record of a collection that calls filled is well formed. -/
theorem StoredConversations.wellFormed (h : StoredConversations uuid5 userId calls store)
    (hdimension : ∀ args ∈ calls, args.Dimensioned) {id : Uuid} {r : SegmentRecord K} (hr : store.get? id = some r) :
    r.WellFormed uuid5 userId := by
  obtain ⟨-, args, hargs, haccepted, i, hof⟩ := h.origin hr
  exact hof.wellFormed haccepted (hdimension args hargs)

end TenantRag

import TenantRag.Rag.Normalization

/-!
# Quarantine is exact

What `_normalized_candidates` keeps, said of the list of results as a whole and of each
item in it, whichever branch the scan took when it met the item.

## What is proved

* `conversationQuarantined_iff` — a conversation is quarantined when some item of it is bad.
* `normalizedCandidates_bad` — a bad item takes its conversation with it and nothing else.
* `quarantine_exact` — the candidates of each kind of collection.
-/

namespace TenantRag

variable {uuid5 : Uuid → Text → Uuid}

/-- The conversation of an item, where its canonical id can be read as one. -/
def conversationOf (r : RawResult) : Option Uuid :=
  match parseResult .conversations r with
  | .malformed k => k
  | .fields c => some c.canonicalId

/-- No other item with valid fields has the object id of this one. -/
def Unshared (T : CollectionType) (results : List RawResult) (c : SearchResult) : Prop :=
  countOf (fieldsOf T results) c.objectId = 1

/-- Something is wrong with a segment: its fields are not valid, its index and its object id do not
belong together, or another item has its object id. -/
def BadSegment (uuid5 : Uuid → Text → Uuid) (results : List RawResult) (r : RawResult) : Prop :=
  match validFields .conversations r with
  | none => True
  | some c => segmentIdentity uuid5 c = none ∨ ¬ Unshared .conversations results c

instance (T : CollectionType) (results : List RawResult) : DecidablePred (Unshared T results) := fun c => by
  unfold Unshared
  infer_instance

instance (results : List RawResult) : DecidablePred (BadSegment uuid5 results) := fun r => by
  unfold BadSegment
  split <;> infer_instance

/-! ### One item -/

theorem validFields_eq_some_iff {T : CollectionType} {r : RawResult} {c : SearchResult} :
    validFields T r = some c ↔ parseResult T r = .fields c := by
  rw [validFields]
  cases parseResult T r with
  | malformed k => simp
  | fields c' => simp

theorem conversationOf_eq {r : RawResult} {c : SearchResult} (h : validFields .conversations r = some c) :
    conversationOf r = some c.canonicalId := by
  rw [conversationOf, validFields_eq_some_iff.mp h]

theorem conversationOf_malformed {r : RawResult} (h : validFields .conversations r = none) :
    conversationOf r = namedConversation .conversations r := by
  rw [validFields] at h
  rw [conversationOf, namedConversation]
  cases hparse : parseResult .conversations r with
  | malformed k => rfl
  | fields c =>
    rw [hparse] at h
    cases h

theorem namedConversation_eq_none {r : RawResult} {c : SearchResult} (h : validFields .conversations r = some c) :
    namedConversation .conversations r = none := by
  rw [namedConversation, validFields_eq_some_iff.mp h]

theorem badSegment_malformed {results : List RawResult} {r : RawResult} (h : validFields .conversations r = none) :
    BadSegment uuid5 results r := by
  rw [BadSegment, h]
  trivial

theorem badSegment_fields {results : List RawResult} {r : RawResult} {c : SearchResult}
    (h : validFields .conversations r = some c) :
    BadSegment uuid5 results r ↔ segmentIdentity uuid5 c = none ∨ ¬ Unshared .conversations results c := by
  rw [BadSegment, h]

theorem mem_fieldsOf {T : CollectionType} {results : List RawResult} {c : SearchResult} :
    c ∈ fieldsOf T results ↔ ∃ r ∈ results, validFields T r = some c :=
  List.mem_filterMap

/-- One of the items has its object id, so it is shared exactly when two have it. -/
theorem not_unshared_iff {T : CollectionType} {results : List RawResult} {c : SearchResult}
    (h : c ∈ fieldsOf T results) : ¬ Unshared T results c ↔ 2 ≤ countOf (fieldsOf T results) c.objectId := by
  have hpos := countOf_pos h
  rw [Unshared]
  omega

/-- A conversation is quarantined when some item of it is bad. -/
theorem conversationQuarantined_iff {results : List RawResult} {k : Uuid} :
    ConversationQuarantined uuid5 .conversations results k ↔
      ∃ r ∈ results, conversationOf r = some k ∧ BadSegment uuid5 results r := by
  constructor
  · rintro (hnamed | ⟨-, c, hc, rfl, hbad⟩)
    · obtain ⟨r, hr, hk⟩ := List.mem_filterMap.mp hnamed
      have hnone : validFields .conversations r = none := by
        cases hfields : validFields .conversations r with
        | none => rfl
        | some c =>
          rw [namedConversation_eq_none hfields] at hk
          cases hk
      exact ⟨r, hr, (conversationOf_malformed hnone).trans hk, badSegment_malformed hnone⟩
    · obtain ⟨r, hr, hfields⟩ := mem_fieldsOf.mp hc
      refine ⟨r, hr, conversationOf_eq hfields, (badSegment_fields hfields).mpr ?_⟩
      rcases hbad with hcount | hinvalid
      · exact .inr ((not_unshared_iff hc).mpr hcount)
      · rw [ValidIdentity, if_pos rfl, not_not] at hinvalid
        exact .inl hinvalid
  · rintro ⟨r, hr, hk, hbad⟩
    cases hfields : validFields .conversations r with
    | none =>
      rw [conversationOf_malformed hfields] at hk
      exact .inl (List.mem_filterMap.mpr ⟨r, hr, hk⟩)
    | some c =>
      have hc : c ∈ fieldsOf .conversations results := mem_fieldsOf.mpr ⟨r, hr, hfields⟩
      rw [conversationOf_eq hfields] at hk
      refine .inr ⟨rfl, c, hc, Option.some.inj hk, ?_⟩
      rcases (badSegment_fields hfields).mp hbad with hidentity | hshared
      · refine .inr ?_
        rw [ValidIdentity, if_pos rfl, not_not]
        exact hidentity
      · exact .inl ((not_unshared_iff hc).mp hshared)

/-! ### All items -/

/-- In a collection of chunks a candidate is its own canonical object, and alone with its object id. -/
theorem kept_chunk {T : CollectionType} (hT : T ≠ .conversations) {results : List RawResult} {c : SearchResult}
    (hc : c ∈ fieldsOf T results) :
    Kept uuid5 T results c ↔ c.canonicalId = c.objectId ∧ Unshared T results c := by
  constructor
  · intro hkept
    obtain ⟨hidentity, hcount⟩ := hkept.valid hc
    rw [ValidIdentity, if_neg hT] at hidentity
    exact ⟨hidentity, hcount⟩
  · rintro ⟨hidentity, hcount⟩
    have hvalid {x : SearchResult} (hx : x ∈ fieldsOf T results) (hid : x.objectId = c.objectId) :
        ValidIdentity uuid5 T x := by
      -- the item is the only one with its object id
      have hmem : x.objectId ∈ (fieldsOf T results).map SearchResult.objectId := List.mem_map_of_mem hx
      obtain ⟨i, hi, rfl⟩ := List.mem_iff_getElem.mp hx
      obtain ⟨j, hj, rfl⟩ := List.mem_iff_getElem.mp hc
      have hij : i = j := by
        by_contra hne
        have htwo : 2 ≤ countOf (fieldsOf T results) (fieldsOf T results)[j].objectId := by
          rw [countOf, ← List.duplicate_iff_two_le_count, List.duplicate_iff_exists_distinct_get]
          rcases Nat.lt_or_gt_of_ne hne with hlt | hlt
          · exact ⟨⟨i, by simpa using hi⟩, ⟨j, by simpa using hj⟩, hlt, by simp [hid], by simp⟩
          · exact ⟨⟨j, by simpa using hj⟩, ⟨i, by simpa using hi⟩, hlt, by simp, by simp [hid]⟩
        rw [Unshared] at hcount
        omega
      subst hij
      rw [ValidIdentity, if_neg hT]
      exact hidentity
    refine ⟨?_, ?_⟩
    · rintro (htwo | ⟨-, x, hx, hid, hinvalid⟩)
      · rw [Unshared] at hcount
        omega
      · exact hinvalid (hvalid hx hid)
    · rintro (hnamed | ⟨hconversations, -⟩)
      · obtain ⟨r, -, hk⟩ := List.mem_filterMap.mp hnamed
        cases r with
        | other => cases hk
        | result o k t i =>
          rw [namedConversation, parseResult, if_neg hT] at hk
          split at hk
          · rename_i k' hparse
            split at hparse
            · split at hparse
              · cases hparse
              · cases hparse
                cases hk
            · cases hparse
              cases hk
          · cases hk
      · exact hT hconversations

/-- A segment is a candidate when no item of its conversation is bad. -/
theorem kept_segment {results : List RawResult} {c : SearchResult} (hc : c ∈ fieldsOf .conversations results) :
    Kept uuid5 .conversations results c ↔
      ∀ r ∈ results, conversationOf r = some c.canonicalId → ¬ BadSegment uuid5 results r := by
  have hquarantined := @conversationQuarantined_iff uuid5 results c.canonicalId
  constructor
  · rintro ⟨-, hconversation⟩ r hr hk hbad
    exact hconversation (hquarantined.mpr ⟨r, hr, hk, hbad⟩)
  · intro h
    obtain ⟨r, hr, hfields⟩ := mem_fieldsOf.mp hc
    have hgood := h r hr (conversationOf_eq hfields)
    rw [badSegment_fields hfields, not_or, not_not] at hgood
    refine ⟨?_, fun hq => ?_⟩
    · rintro (htwo | ⟨hT, -⟩)
      · have hone : countOf (fieldsOf .conversations results) c.objectId = 1 := hgood.2
        omega
      · exact hT rfl
    · obtain ⟨r', hr', hk, hbad⟩ := hquarantined.mp hq
      exact h r' hr' hk hbad

/-! ### One bad item -/

section Insert

variable {a b : List RawResult} {r : RawResult}

theorem fieldsOf_lists (T : CollectionType) (a b : List RawResult) :
    fieldsOf T (a ++ b) = fieldsOf T a ++ fieldsOf T b := by
  rw [fieldsOf, List.filterMap_append]
  rfl

theorem fieldsOf_insert (T : CollectionType) (a b : List RawResult) (r : RawResult) :
    fieldsOf T (a ++ r :: b) = fieldsOf T a ++ ((validFields T r).toList ++ fieldsOf T b) := by
  rw [fieldsOf_lists, fieldsOf, fieldsOf, List.filterMap_cons]
  cases validFields T r <;> rfl

/-- An item is as it was when another one with an object id of its own is added. -/
theorem badSegment_insert {x : RawResult} (hx : x ∈ a ++ b)
    (hown : ∀ c, validFields .conversations r = some c → ∀ y ∈ fieldsOf .conversations (a ++ b), y.objectId ≠ c.objectId) :
    BadSegment uuid5 (a ++ r :: b) x ↔ BadSegment uuid5 (a ++ b) x := by
  cases hfields : validFields .conversations x with
  | none => exact iff_of_true (badSegment_malformed hfields) (badSegment_malformed hfields)
  | some y =>
    have hy : y ∈ fieldsOf .conversations (a ++ b) := mem_fieldsOf.mpr ⟨x, hx, hfields⟩
    have hcount : countOf (fieldsOf .conversations (a ++ r :: b)) y.objectId =
        countOf (fieldsOf .conversations (a ++ b)) y.objectId := by
      rw [fieldsOf_insert, fieldsOf_lists]
      cases hr : validFields .conversations r with
      | none => rfl
      | some c =>
        have hne : c.objectId ≠ y.objectId := (hown c hr y hy).symm
        simp [countOf, hne]
    rw [badSegment_fields hfields, badSegment_fields hfields, Unshared, Unshared, hcount]

/-- A bad item takes the segments of its conversation with it, wherever it stands, and nothing else. -/
theorem normalizedCandidates_bad {k : Uuid} (hk : conversationOf r = some k) (hbad : BadSegment uuid5 (a ++ r :: b) r)
    (hown : ∀ c, validFields .conversations r = some c → ∀ y ∈ fieldsOf .conversations (a ++ b), y.objectId ≠ c.objectId) :
    normalizedCandidates uuid5 .conversations (a ++ r :: b) =
      (normalizedCandidates uuid5 .conversations (a ++ b)).filter fun c => c.canonicalId ≠ k := by
  have hmem : ∀ x, x ∈ a ++ r :: b ↔ x = r ∨ x ∈ a ++ b := by
    intro x
    rw [List.mem_append, List.mem_cons, List.mem_append]
    exact or_left_comm
  have hkept : ∀ c ∈ fieldsOf .conversations (a ++ b),
      Kept uuid5 .conversations (a ++ r :: b) c ↔ c.canonicalId ≠ k ∧ Kept uuid5 .conversations (a ++ b) c := by
    intro c hc
    have hin : c ∈ fieldsOf .conversations (a ++ r :: b) := by
      obtain ⟨x, hx, hfields⟩ := mem_fieldsOf.mp hc
      exact mem_fieldsOf.mpr ⟨x, (hmem x).mpr (.inr hx), hfields⟩
    rw [kept_segment hin, kept_segment hc]
    constructor
    · intro h
      refine ⟨fun heq => h r ((hmem r).mpr (.inl rfl)) (by rw [hk, heq]) hbad, fun x hx hconversation => ?_⟩
      rw [← badSegment_insert hx hown]
      exact h x ((hmem x).mpr (.inr hx)) hconversation
    · rintro ⟨hne, h⟩ x hx hconversation
      rcases (hmem x).mp hx with rfl | hx
      · rw [hk] at hconversation
        exact absurd (Option.some.inj hconversation).symm hne
      · rw [badSegment_insert hx hown]
        exact h x hx hconversation
  have hfilter : (fieldsOf .conversations (a ++ r :: b)).filter (fun c => Kept uuid5 .conversations (a ++ r :: b) c) =
      (fieldsOf .conversations (a ++ b)).filter fun c => Kept uuid5 .conversations (a ++ r :: b) c := by
    rw [fieldsOf_insert, fieldsOf_lists]
    cases hr : validFields .conversations r with
    | none => rfl
    | some c =>
      have hin : c ∈ fieldsOf .conversations (a ++ r :: b) := mem_fieldsOf.mpr ⟨r, (hmem r).mpr (.inl rfl), hr⟩
      have hnot : ¬ Kept uuid5 .conversations (a ++ r :: b) c := fun h =>
        (kept_segment hin).mp h r ((hmem r).mpr (.inl rfl)) (conversationOf_eq hr) hbad
      rw [List.filter_append, List.filter_append, List.filter_append, Option.toList_some, List.filter_singleton]
      simp [hnot]
  rw [normalizedCandidates_eq, normalizedCandidates_eq, hfilter, List.filter_filter]
  refine List.filter_congr fun c hc => ?_
  rw [Bool.eq_iff_iff, Bool.and_eq_true, decide_eq_true_eq, decide_eq_true_eq, decide_eq_true_eq]
  exact hkept c hc

end Insert

/-- **Quarantine is exact**: for knowledge and policy the candidates are the items with valid fields that
are their own canonical objects and alone with their object id, for conversations those of whose
conversation no item is bad, in the order of the results; and one bad item takes its conversation with
it wherever it stands, and nothing else, unless another item has its object id. -/
theorem quarantine_exact (uuid5 : Uuid → Text → Uuid) (results : List RawResult) :
    (∀ T, T ≠ .conversations → normalizedCandidates uuid5 T results =
      (fieldsOf T results).filter fun c => c.canonicalId = c.objectId ∧ Unshared T results c) ∧
    (normalizedCandidates uuid5 .conversations results = (fieldsOf .conversations results).filter fun c =>
      ∀ r ∈ results, conversationOf r = some c.canonicalId → ¬ BadSegment uuid5 results r) ∧
    ∀ a r b k, results = a ++ r :: b → conversationOf r = some k → BadSegment uuid5 results r →
      (∀ c, validFields .conversations r = some c →
        ∀ y ∈ fieldsOf .conversations (a ++ b), y.objectId ≠ c.objectId) →
      normalizedCandidates uuid5 .conversations results =
        (normalizedCandidates uuid5 .conversations (a ++ b)).filter fun c => c.canonicalId ≠ k := by
  refine ⟨fun T hT => ?_, ?_, ?_⟩
  · rw [normalizedCandidates_eq]
    exact List.filter_congr fun c hc => decide_eq_decide.mpr (kept_chunk hT hc)
  · rw [normalizedCandidates_eq]
    exact List.filter_congr fun c hc => decide_eq_decide.mpr (kept_segment hc)
  · rintro a r b k rfl hk hbad hown
    exact normalizedCandidates_bad hk hbad hown

end TenantRag

import TenantRag.Weaviate.Isolation
import Mathlib.Data.List.Perm.Basic

/-!
# Hydration is one-to-one

What `hydrate_mmr_head` returns for a request, whatever objects the response holds and
in whatever order.

## What is proved

* `hydrateObject_quarantineReason` — when the checks accept an object.
* `Verdicts.next`, `Verdicts.foldlM` — what the loop has decided about each request.
* `hydration_exact` — an entry is accepted exactly when one object with its id passes the checks.
-/

namespace TenantRag

variable {K : Type} {W : CollectionWrapper} {userId : Text}

/-- The object has this id. -/
def StoredObject.hasId (id : Uuid) (o : StoredObject K) : Bool := Uuid.ofText o.uuid.toStr = some id

/-- The vector that is stored under the requested name. -/
def RawVectors.requested : RawVectors K → Option (RawVector K)
  | .none => Option.none
  | .plain v => some v
  | .named vs => vs.lookup mmrDiversityVectorName

/-- The index of a segment, where it is one. -/
def readIndex (value : PyValue) : PyValue :=
  match value.natural? with
  | none => .none
  | some n => .int n

/-- The properties of an object pass the checks for the candidate. -/
structure StoredObject.Passes (W : CollectionWrapper) (userId : Text) (c : SearchResult) (o : StoredObject K) : Prop where
  /-- They are a mapping, the user's, with the candidate's business id and canonical id. -/
  identity : ∃ ps, o.properties = some ps ∧ ps.get (lit "user_id") = .str userId ∧
    Uuid.ofText (ps.get W.idProperty).toStr = some c.objectId ∧
    Uuid.ofText (ps.get W.canonicalIdProperty).toStr = some c.canonicalId
  /-- They have the candidate's index. -/
  index : ∀ ps name, o.properties = some ps → W.segmentIndexProperty = some name →
    (readIndex (ps.get name)).same c.segmentIndex = true
  /-- They have a text, where one is hydrated. -/
  text : ∀ ps, o.properties = some ps → W.hydrateRawText = true →
    ∃ t, ps.get (lit "raw_text") = .str t ∧ isBlank t = false

/-! ### One object -/

theorem vectorItems_eq_ok_iff {name : String} {items : List (VectorItem K)} {xs : List K} :
    vectorItems name items = .ok xs ↔ items = xs.map .number := by
  constructor
  · intro h
    induction items generalizing xs with
    | nil =>
      cases h
      rfl
    | cons item items ih =>
      cases item with
      | number x =>
        rw [vectorItems, map_eq_ok_iff] at h
        obtain ⟨ys, hys, rfl⟩ := h
        rw [List.map_cons, ih hys]
      | bool => cases h
      | notFinite => cases h
      | notNumber => cases h
  · rintro rfl
    exact vectorItems_numbers name xs

theorem vectorValues_eq_ok_iff {name : String} {v : RawVector K} {xs : List K} :
    vectorValues name v = .ok xs ↔ v = .ofNumbers xs ∧ xs ≠ [] := by
  constructor
  · intro h
    refine ⟨?_, vectorValues_ne_nil h⟩
    cases v with
    | notSequence => cases h
    | sequence items =>
      rw [vectorValues] at h
      split at h
      · cases h
      · cases h
      · rename_i x ys hitems
        cases h
        rw [vectorItems_eq_ok_iff.mp hitems, RawVector.ofNumbers]
  · rintro ⟨rfl, hne⟩
    exact vectorValues_numbers name hne

/-- The checks of `_result_vector` on the vector under the requested name. -/
theorem resultVector_requested {v : RawVectors K} {selected : RawVector K} (h : v.requested = some selected) :
    resultVector v =
      match vectorValues "MMR-diversity vector" selected with
      | .error _ => .error (weaviateResponseError "result contains a malformed MMR vector")
      | .ok xs =>
          if xs.length ≠ mmrDiversityVectorDimension then
            .error (weaviateResponseError "result MMR-diversity vector must have exactly 768 dimensions")
          else .ok xs := by
  cases v with
  | none => cases h
  | plain v =>
    cases h
    rfl
  | named vs =>
    rw [RawVectors.requested] at h
    rw [resultVector.eq_def]
    simp only [h]
    rfl

theorem resultVector_none {v : RawVectors K} (h : v.requested = none) : ∃ e, resultVector v = .error e := by
  cases v with
  | none => exact ⟨_, rfl⟩
  | plain v => cases h
  | named vs =>
    rw [RawVectors.requested] at h
    rw [resultVector.eq_def]
    simp only [h]
    exact ⟨_, rfl⟩

/-- A vector is accepted when it is the requested one, finite, and of the configured dimension. -/
theorem resultVector_eq_ok_iff {v : RawVectors K} {xs : List K} :
    resultVector v = .ok xs ↔ v.requested = some (.ofNumbers xs) ∧ xs.length = mmrDiversityVectorDimension := by
  cases hrequested : v.requested with
  | none =>
    obtain ⟨e, he⟩ := resultVector_none hrequested
    simp [he]
  | some selected =>
    rw [resultVector_requested hrequested, Option.some.injEq]
    constructor
    · intro h
      split at h
      · cases h
      · rename_i ys hys
        split_ifs at h with hlength
        cases h
        exact ⟨(vectorValues_eq_ok_iff.mp hys).1, not_not.mp hlength⟩
    · rintro ⟨rfl, hlength⟩
      have hne : xs ≠ [] := by
        rintro rfl
        cases hlength
      rw [vectorValues_eq_ok_iff.mpr ⟨rfl, hne⟩]
      exact if_neg (not_not.mpr hlength)

/-- The checks on the object, the only one with its id. -/
def StoredObject.verdict (W : CollectionWrapper) (c : SearchResult) (o : StoredObject K) : HydratedSearchResult K :=
  match o.properties with
  | none => c.quarantined "hydration_properties_not_mapping"
  | some ps =>
      match ps.get (lit "user_id") with
      | .str _ => hydrateObject W c ps o.vector
      | _ => c.quarantined "invalid_hydration_user_id"

/-- `segment_index` of an object, where the collection has one. -/
def CollectionWrapper.indexOf (W : CollectionWrapper) (ps : Properties) : PyValue :=
  match W.segmentIndexProperty with
  | none => .none
  | some name => readIndex (ps.get name)

/-- The checks in their order. -/
theorem hydrateObject_eq (c : SearchResult) (ps : Properties) (v : RawVectors K) :
    hydrateObject W c ps v =
      if (resultUuid (ps.get W.idProperty) "business id").toOption ≠ some c.objectId then
        c.quarantined "hydration_business_uuid_mismatch"
      else if (resultUuid (ps.get W.canonicalIdProperty) "canonical id").toOption ≠ some c.canonicalId then
        c.quarantined "hydration_canonical_uuid_mismatch"
      else if W.segmentIndexProperty.isSome ∧ (W.indexOf ps).same c.segmentIndex = false then
        c.quarantined "hydration_segment_index_mismatch"
      else if W.hydrateRawText then
        match requiredText (ps.get (lit "raw_text")) "raw_text" with
        | .error _ => { c.quarantined "malformed_canonical_text" with segmentIndex := W.indexOf ps }
        | .ok rawText =>
            ⟨c.objectId, c.canonicalId, (resultVector v).toOption, some rawText, W.indexOf ps, none⟩
      else ⟨c.objectId, c.canonicalId, (resultVector v).toOption, none, W.indexOf ps, none⟩ :=
  rfl

/-- When the checks of `hydrate_mmr_head` accept an object of the user. -/
theorem hydrateObject_quarantineReason {c : SearchResult} {ps : Properties} {v : RawVectors K} :
    (hydrateObject W c ps v).quarantineReason = none ↔
      Uuid.ofText (ps.get W.idProperty).toStr = some c.objectId ∧
        Uuid.ofText (ps.get W.canonicalIdProperty).toStr = some c.canonicalId ∧
        (∀ name, W.segmentIndexProperty = some name → (readIndex (ps.get name)).same c.segmentIndex = true) ∧
        (W.hydrateRawText = true → ∃ t, ps.get (lit "raw_text") = .str t ∧ isBlank t = false) := by
  have hindex : (W.segmentIndexProperty.isSome ∧ (W.indexOf ps).same c.segmentIndex = false) ↔
      ¬ ∀ name, W.segmentIndexProperty = some name → (readIndex (ps.get name)).same c.segmentIndex = true := by
    rw [CollectionWrapper.indexOf]
    cases W.segmentIndexProperty with
    | none => simp
    | some name => simp
  rw [hydrateObject_eq]
  simp only [ne_eq, toOption_eq_some_iff, resultUuid_eq_ok_iff, hindex]
  split_ifs with hid hcanonical hsame hraw
  · cases htext : requiredText (ps.get (lit "raw_text")) "raw_text" with
    | error e =>
      have hnone : ¬ ∃ t, ps.get (lit "raw_text") = .str t ∧ isBlank t = false := by
        rintro ⟨t, ht⟩
        rw [requiredText_eq_ok_iff.mpr ht] at htext
        cases htext
      simp only [SearchResult.quarantined, reduceCtorEq, false_iff]
      exact fun h => hnone (h.2.2.2 hraw)
    | ok t => exact iff_of_true rfl ⟨hid, hcanonical, hsame, fun _ => ⟨t, requiredText_eq_ok_iff.mp htext⟩⟩
  · exact iff_of_true rfl ⟨hid, hcanonical, hsame, fun h => absurd h hraw⟩
  · exact iff_of_false (by simp [SearchResult.quarantined]) fun h => hsame h.2.2.1
  · exact iff_of_false (by simp [SearchResult.quarantined]) fun h => hcanonical h.2.1
  · exact iff_of_false (by simp [SearchResult.quarantined]) fun h => hid h.1

/-- The vector of an object that is accepted. -/
theorem hydrateObject_diversityVector {c : SearchResult} {ps : Properties} {v : RawVectors K}
    (h : (hydrateObject W c ps v).quarantineReason = none) :
    (hydrateObject W c ps v).diversityVector = (resultVector v).toOption := by
  rw [hydrateObject_eq] at h ⊢
  split_ifs at h ⊢
  · cases h
  · cases h
  · cases h
  · cases htext : requiredText (ps.get (lit "raw_text")) "raw_text" with
    | error e =>
      rw [htext] at h
      cases h
    | ok t => rfl
  · rfl

theorem hydrateObject_objectId {c : SearchResult} {ps : Properties} {v : RawVectors K} :
    (hydrateObject W c ps v).objectId = c.objectId := by
  rw [hydrateObject_eq]
  split_ifs
  · rfl
  · rfl
  · rfl
  · cases requiredText (ps.get (lit "raw_text")) "raw_text" <;> rfl
  · rfl

/-! ### The loop -/

/-- The loop does not stop at the object: its id is one of the requested, and no other user owns it. -/
def Acceptable (userId : Text) (expected : Dict Uuid SearchResult) (o : StoredObject K) : Prop :=
  ∃ id c, Uuid.ofText o.uuid.toStr = some id ∧ expected.get? id = some c ∧
    ∀ ps owner, o.properties = some ps → ps.get (lit "user_id") = .str owner → owner = userId

theorem verdict_objectId {c : SearchResult} {o : StoredObject K} : (o.verdict W c).objectId = c.objectId := by
  rw [StoredObject.verdict]
  cases o.properties with
  | none => rfl
  | some ps =>
    dsimp only
    split
    · exact hydrateObject_objectId
    · rfl

/-- An object that is the only one with its id is accepted when its properties pass the checks. -/
theorem verdict_quarantineReason {expected : Dict Uuid SearchResult} {c : SearchResult} {o : StoredObject K}
    (h : Acceptable userId expected o) : (o.verdict W c).quarantineReason = none ↔ o.Passes W userId c := by
  obtain ⟨id, c', -, -, howner⟩ := h
  rw [StoredObject.verdict]
  cases hps : o.properties with
  | none =>
    refine iff_of_false (by simp [SearchResult.quarantined]) fun hpass => ?_
    obtain ⟨ps, hsome, -⟩ := hpass.identity
    rw [hps] at hsome
    cases hsome
  | some ps =>
    dsimp only
    split
    · rename_i owner hstr
      obtain rfl := howner ps owner hps hstr
      rw [hydrateObject_quarantineReason]
      constructor
      · rintro ⟨hbusiness, hcanonical, hindex, htext⟩
        refine ⟨⟨ps, hps, hstr, hbusiness, hcanonical⟩, fun ps' name hps' => ?_, fun ps' hps' => ?_⟩
        · cases hps.symm.trans hps'
          exact hindex name
        · cases hps.symm.trans hps'
          exact htext
      · rintro ⟨⟨ps', hps', -, hbusiness, hcanonical⟩, hindex, htext⟩
        cases hps.symm.trans hps'
        exact ⟨hbusiness, hcanonical, fun name => hindex ps name hps, htext ps hps⟩
    · rename_i hstr
      refine iff_of_false (by simp [SearchResult.quarantined]) fun hpass => ?_
      obtain ⟨ps', hps', howner', -⟩ := hpass.identity
      cases hps.symm.trans hps'
      exact hstr userId howner'

theorem verdict_diversityVector {c : SearchResult} {o : StoredObject K} (h : (o.verdict W c).quarantineReason = none) :
    (o.verdict W c).diversityVector = (resultVector o.vector).toOption := by
  rw [StoredObject.verdict] at h ⊢
  cases hps : o.properties with
  | none =>
    rw [hps] at h
    cases h
  | some ps =>
    rw [hps] at h
    dsimp only at h ⊢
    split at h
    · exact hydrateObject_diversityVector h
    · cases h

/-- A turn sets the entry of the object's id: to its verdict, or to a quarantine where there is one already. -/
theorem hydrateNext_acceptable {expected : Dict Uuid SearchResult} (hydrated : Dict Uuid (HydratedSearchResult K))
    {o : StoredObject K} {id : Uuid} {c : SearchResult} (hid : Uuid.ofText o.uuid.toStr = some id)
    (hc : expected.get? id = some c)
    (howner : ∀ ps owner, o.properties = some ps → ps.get (lit "user_id") = .str owner → owner = userId) :
    ∃ e, hydrateNext W userId expected hydrated o = .ok (hydrated.set id e) ∧ e.objectId = c.objectId ∧
      (hydrated.get? id = none → e = o.verdict W c) ∧ (hydrated.get? id ≠ none → e.quarantineReason ≠ none) := by
  have huuid : resultUuid o.uuid "object UUID" = .ok id := resultUuid_eq_ok_iff.mpr hid
  simp only [hydrateNext, huuid, hc]
  cases hps : o.properties with
  | none =>
    refine ⟨_, rfl, rfl, fun _ => ?_, fun _ => by simp [SearchResult.quarantined]⟩
    rw [StoredObject.verdict, hps]
  | some ps =>
    dsimp only
    split
    · rename_i owner hstr
      rw [if_neg (not_not.mpr (howner ps owner hps hstr))]
      by_cases hcontains : hydrated.contains id = true
      · rw [if_pos hcontains]
        refine ⟨_, rfl, rfl, fun hnone => ?_, fun _ => by simp [SearchResult.quarantined]⟩
        rw [Dict.contains_iff, Dict.mem_keys_iff, hnone] at hcontains
        simp at hcontains
      · rw [if_neg hcontains]
        refine ⟨_, rfl, hydrateObject_objectId, fun _ => ?_, fun hsome => ?_⟩
        · rw [StoredObject.verdict, hps]
          simp only [hstr]
        · rw [Dict.contains_iff, Dict.mem_keys_iff] at hcontains
          exact absurd (Option.ne_none_iff_exists'.mp hsome) hcontains
    · rename_i hstr
      refine ⟨_, rfl, rfl, fun _ => ?_, fun _ => by simp [SearchResult.quarantined]⟩
      rw [StoredObject.verdict, hps]
      dsimp only
      split
      · rename_i owner howner'
        exact absurd howner' (hstr owner)
      · rfl

/-- A turn that is taken is taken on an acceptable object. -/
theorem acceptable_of_hydrateNext {expected : Dict Uuid SearchResult}
    {hydrated hydrated' : Dict Uuid (HydratedSearchResult K)} {o : StoredObject K}
    (h : hydrateNext W userId expected hydrated o = .ok hydrated') : Acceptable userId expected o := by
  unfold hydrateNext at h
  split at h
  · cases h
  rename_i id hid
  split at h
  · cases h
  rename_i c hc
  refine ⟨id, c, resultUuid_eq_ok_iff.mp hid, hc, fun ps owner hps howner => ?_⟩
  by_contra hne
  simp only [hps, howner] at h
  rw [if_pos hne] at h
  cases h

/-- What the loop has decided about each request: nothing before the first object with its id, the verdict
about that object after it, and a quarantine after the second. -/
def Verdicts (W : CollectionWrapper) (expected : Dict Uuid SearchResult) (seen : List (StoredObject K))
    (hydrated : Dict Uuid (HydratedSearchResult K)) : Prop :=
  ∀ id c, expected.get? id = some c →
    match seen.filter (StoredObject.hasId id) with
    | [] => hydrated.get? id = none
    | [o] => hydrated.get? id = some (o.verdict W c)
    | _ :: _ :: _ => ∃ e, hydrated.get? id = some e ∧ e.objectId = c.objectId ∧ e.quarantineReason ≠ none

theorem hasId_iff {id : Uuid} {o : StoredObject K} : o.hasId id = true ↔ Uuid.ofText o.uuid.toStr = some id := by
  rw [StoredObject.hasId, decide_eq_true_eq]

/-- A turn keeps the decisions about the other requests and makes one about its own. -/
theorem Verdicts.next {expected : Dict Uuid SearchResult} {seen : List (StoredObject K)}
    {hydrated hydrated' : Dict Uuid (HydratedSearchResult K)} {o : StoredObject K}
    (hv : Verdicts W expected seen hydrated) (h : hydrateNext W userId expected hydrated o = .ok hydrated') :
    Verdicts W expected (seen ++ [o]) hydrated' := by
  obtain ⟨id, c, hid, hc, howner⟩ := acceptable_of_hydrateNext h
  obtain ⟨e, hnext, hobject, hfirst, hagain⟩ := hydrateNext_acceptable (W := W) hydrated hid hc howner
  rw [hnext] at h
  cases h
  intro id' c' hc'
  rw [List.filter_append]
  by_cases hsame : id = id'
  · subst hsame
    obtain rfl : c' = c := Option.some.inj (hc'.symm.trans hc)
    have hone : [o].filter (StoredObject.hasId id) = [o] := by rw [List.filter_singleton, hasId_iff.mpr hid]; rfl
    have hprevious := hv id c' hc'
    rw [hone, Dict.get?_set_self]
    cases hseen : seen.filter (StoredObject.hasId id) with
    | nil =>
      rw [hseen] at hprevious
      rw [hfirst hprevious]
      rfl
    | cons x xs =>
      rw [hseen] at hprevious
      have hsome : hydrated.get? id ≠ none := by
        cases xs with
        | nil => simp only [hprevious]; exact Option.some_ne_none _
        | cons y ys =>
          obtain ⟨e', he', -⟩ := hprevious
          simp [he']
      cases xs with
      | nil => exact ⟨e, rfl, hobject, hagain hsome⟩
      | cons y ys => exact ⟨e, rfl, hobject, hagain hsome⟩
  · have hnone : [o].filter (StoredObject.hasId id') = [] := by
      rw [List.filter_singleton, StoredObject.hasId, hid]
      simp [hsame]
    rw [hnone, List.append_nil, Dict.get?_set_ne _ _ hsame]
    exact hv id' c' hc'

/-- The loop, from the decisions it begins with. -/
theorem Verdicts.foldlM {expected : Dict Uuid SearchResult} {seen rest : List (StoredObject K)}
    {hydrated hydrated' : Dict Uuid (HydratedSearchResult K)} (hv : Verdicts W expected seen hydrated)
    (h : rest.foldlM (hydrateNext W userId expected) hydrated = .ok hydrated') :
    Verdicts W expected (seen ++ rest) hydrated' ∧ ∀ o ∈ rest, Acceptable userId expected o := by
  induction rest generalizing seen hydrated with
  | nil =>
    cases h
    rw [List.append_nil]
    exact ⟨hv, by simp⟩
  | cons o rest ih =>
    rw [List.foldlM_cons, bind_eq_ok_iff] at h
    obtain ⟨t, ht, h⟩ := h
    obtain ⟨hverdicts, hrest⟩ := ih (hv.next ht) h
    rw [List.append_assoc, List.singleton_append] at hverdicts
    exact ⟨hverdicts, List.forall_mem_cons.mpr ⟨acceptable_of_hydrateNext ht, hrest⟩⟩

/-- The loop ends where every object is acceptable. -/
theorem foldlM_acceptable {expected : Dict Uuid SearchResult} {objects : List (StoredObject K)}
    (h : ∀ o ∈ objects, Acceptable userId expected o) (hydrated : Dict Uuid (HydratedSearchResult K)) :
    ∃ hydrated', objects.foldlM (hydrateNext W userId expected) hydrated = .ok hydrated' := by
  induction objects generalizing hydrated with
  | nil => exact ⟨hydrated, rfl⟩
  | cons o objects ih =>
    obtain ⟨⟨id, c, hid, hc, howner⟩, hrest⟩ := List.forall_mem_cons.mp h
    obtain ⟨e, hnext, -⟩ := hydrateNext_acceptable (W := W) hydrated hid hc howner
    obtain ⟨hydrated', hloop⟩ := ih hrest (hydrated.set id e)
    exact ⟨hydrated', by rw [List.foldlM_cons, hnext]; exact hloop⟩

theorem verdicts_nil (expected : Dict Uuid SearchResult) :
    Verdicts W expected ([] : List (StoredObject K)) .empty := fun _ _ _ => rfl

/-! ### The entries -/

/-- What an entry says about the objects of the response. -/
structure HydratedSearchResult.Exact (W : CollectionWrapper) (userId : Text) (objects : List (StoredObject K))
    (c : SearchResult) (e : HydratedSearchResult K) : Prop where
  /-- It is the candidate's. -/
  objectId : e.objectId = c.objectId
  /-- It is accepted when exactly one object has the id and that one passes the checks. -/
  accepted : e.quarantineReason = none ↔
    ∃ o, objects.filter (StoredObject.hasId c.objectId) = [o] ∧ o.Passes W userId c
  /-- Its vector is the stored one, where that is finite and of the configured dimension. -/
  vector : e.quarantineReason = none → ∀ o ∈ objects, o.hasId c.objectId = true → ∀ xs,
    e.diversityVector = some xs ↔ o.vector.requested = some (.ofNumbers xs) ∧ xs.length = mmrDiversityVectorDimension

theorem entry_exact {expected : Dict Uuid SearchResult} {objects : List (StoredObject K)}
    {hydrated : Dict Uuid (HydratedSearchResult K)} (hv : Verdicts W expected objects hydrated)
    (hacceptable : ∀ o ∈ objects, Acceptable userId expected o) {c : SearchResult}
    (hc : expected.get? c.objectId = some c) :
    ((hydrated.get? c.objectId).getD (c.quarantined "missing_hydration_object")).Exact W userId objects c := by
  have hverdict := hv c.objectId c hc
  cases hfound : objects.filter (StoredObject.hasId c.objectId) with
  | nil =>
    simp only [hfound] at hverdict
    rw [hverdict]
    refine ⟨rfl, iff_of_false (by simp [SearchResult.quarantined]) ?_, fun h => ?_⟩
    · rintro ⟨o, ho, -⟩
      rw [hfound] at ho
      cases ho
    · simp [SearchResult.quarantined] at h
  | cons o rest =>
    have ho : o ∈ objects := (List.mem_filter.mp (hfound ▸ List.mem_cons_self)).1
    cases rest with
    | nil =>
      simp only [hfound] at hverdict
      rw [hverdict, Option.getD_some]
      have hiff := verdict_quarantineReason (W := W) (c := c) (hacceptable o ho)
      refine ⟨verdict_objectId, hiff.trans ⟨fun h => ⟨o, hfound, h⟩, ?_⟩, fun h o' ho' hid' xs => ?_⟩
      · rintro ⟨o', ho', hpass⟩
        rw [hfound] at ho'
        cases ho'
        exact hpass
      · have hmem : o' ∈ objects.filter (StoredObject.hasId c.objectId) := List.mem_filter.mpr ⟨ho', hid'⟩
        rw [hfound] at hmem
        obtain rfl := List.mem_singleton.mp hmem
        rw [verdict_diversityVector h, toOption_eq_some_iff, resultVector_eq_ok_iff]
    | cons o' rest =>
      simp only [hfound] at hverdict
      obtain ⟨e, he, hobject, hreason⟩ := hverdict
      rw [he, Option.getD_some]
      refine ⟨hobject, iff_of_false hreason ?_, fun h => absurd h hreason⟩
      rintro ⟨x, hx, -⟩
      rw [hfound] at hx
      cases hx

/-- The dictionary of the candidates has each of them. -/
theorem expectedCandidates_get? {cs : List SearchResult} {expected : Dict Uuid SearchResult}
    (h : expectedCandidates W cs .empty = .ok expected) {c : SearchResult} (hc : c ∈ cs) :
    expected.get? c.objectId = some c := by
  obtain ⟨hkeys, hget⟩ := expectedCandidates_spec h
  rw [Dict.keys_empty, List.nil_append] at hkeys
  have hnodup : (cs.map SearchResult.objectId).Nodup := by
    rw [← hkeys]
    exact expected.nodup_keys
  have hmem : c.objectId ∈ expected.keys := by
    rw [hkeys]
    exact List.mem_map_of_mem hc
  obtain ⟨c', hc'⟩ := Dict.mem_keys_iff.mp hmem
  rcases hget c.objectId c' hc' with hnone | ⟨hin, hid⟩
  · cases hnone
  · rw [List.inj_on_of_nodup_map hnodup hin hc hid] at hc'
    exact hc'

/-- **Hydration is one-to-one and exact**: what is returned has an entry for each candidate, in the order of
the request, that says exactly what the response holds about it; and for the same objects in another order
the same entries are accepted. -/
theorem hydration_exact {fetch : List Uuid → Except PyError (Option (List (StoredObject K)))}
    {candidates : List SearchResult} (hne : candidates ≠ []) {results : List (HydratedSearchResult K)}
    (h : hydrateMmrHead W userId fetch candidates = .ok results) :
    ∃ objects, fetch (candidates.map SearchResult.objectId) = .ok (some objects) ∧
      List.Forall₂ (fun c e => e.Exact W userId objects c) candidates results ∧
      ∀ objects', objects'.Perm objects →
        ∃ results', hydrateMmrHead W userId (fun _ => .ok (some objects')) candidates = .ok results' ∧
          List.Forall₂ (fun e e' => e.quarantineReason = none ↔ e'.quarantineReason = none) results results' := by
  have hempty : ¬ candidates.isEmpty = true := by simpa using hne
  rw [hydrateMmrHead, if_neg hempty] at h
  obtain ⟨expected, hexpected, h⟩ := bind_eq_ok_iff.mp h
  obtain ⟨objects, hobjects, h⟩ := bind_eq_ok_iff.mp h
  obtain ⟨hkeys, -⟩ := expectedCandidates_spec hexpected
  rw [Dict.keys_empty, List.nil_append] at hkeys
  rw [hkeys] at hobjects
  cases objects with
  | none => cases h
  | some objects =>
    simp only [hydratedResults] at h
    cases hloop : objects.foldlM (hydrateNext W userId expected) .empty with
    | error e =>
      rw [hloop] at h
      cases h
    | ok hydrated =>
      rw [hloop] at h
      cases h
      obtain ⟨hverdicts, hacceptable⟩ := (verdicts_nil expected).foldlM hloop
      rw [List.nil_append] at hverdicts
      have hexact : ∀ c ∈ candidates,
          ((hydrated.get? c.objectId).getD (c.quarantined "missing_hydration_object")).Exact W userId objects c :=
        fun c hc => entry_exact hverdicts hacceptable (expectedCandidates_get? hexpected hc)
      refine ⟨objects, hobjects, ?_, fun objects' hperm => ?_⟩
      · rw [List.forall₂_map_right_iff]
        exact List.forall₂_same.mpr hexact
      · have hacceptable' : ∀ o ∈ objects', Acceptable userId expected o := fun o ho =>
          hacceptable o (hperm.mem_iff.mp ho)
        obtain ⟨hydrated', hloop'⟩ := foldlM_acceptable (W := W) hacceptable' .empty
        obtain ⟨hverdicts', -⟩ := (verdicts_nil expected).foldlM hloop'
        rw [List.nil_append] at hverdicts'
        have hrun : hydrateMmrHead W userId (fun _ => .ok (some objects')) candidates =
            .ok (candidates.map fun c => (hydrated'.get? c.objectId).getD (c.quarantined "missing_hydration_object")) := by
          rw [hydrateMmrHead, if_neg hempty]
          refine bind_eq_ok_iff.mpr ⟨expected, hexpected, bind_eq_ok_iff.mpr ⟨some objects', rfl, ?_⟩⟩
          simp only [hydratedResults, hloop']
        refine ⟨_, hrun, ?_⟩
        rw [List.forall₂_map_right_iff, List.forall₂_map_left_iff]
        refine List.forall₂_same.mpr fun c hc => ?_
        have hexact' := entry_exact hverdicts' hacceptable' (expectedCandidates_get? hexpected hc)
        rw [(hexact c hc).accepted, hexact'.accepted]
        have hfilter := hperm.filter (StoredObject.hasId c.objectId)
        constructor
        · rintro ⟨o, ho, hpass⟩
          rw [ho] at hfilter
          exact ⟨o, List.perm_singleton.mp hfilter, hpass⟩
        · rintro ⟨o, ho, hpass⟩
          rw [ho] at hfilter
          exact ⟨o, List.perm_singleton.mp hfilter.symm, hpass⟩

/-- A chunk of the user without its vector. -/
def hydratedSample : StoredObject ℕ where
  uuid := .str (Uuid.ofNat 1).str
  properties := some [(lit "user_id", .str (lit "alice")), (lit "chunk_id", .uuid (Uuid.ofNat 1))]
  vector := .named []

/-- A response with one of two requested chunks. -/
theorem hydration_exact_sample :
    let requested : List SearchResult := [⟨Uuid.ofNat 2, Uuid.ofNat 2, lit "b", .none⟩, ⟨Uuid.ofNat 1, Uuid.ofNat 1, lit "a", .none⟩]
    ∃ results, hydrateMmrHead chunkWrapper (lit "alice") (fun _ => .ok (some [hydratedSample])) requested = .ok results ∧
      results.map (fun e => e.quarantineReason) = [some "missing_hydration_object", none] ∧
      List.Forall₂ (fun c e => e.Exact chunkWrapper (lit "alice") [hydratedSample] c) requested results := by
  intro requested
  obtain ⟨results, hrun, hreasons⟩ := exists_ok_of_toOption (x := hydrateMmrHead chunkWrapper (lit "alice")
    (fun _ => .ok (some [hydratedSample])) requested) (f := fun rs => rs.map fun e => e.quarantineReason)
    (c := [some "missing_hydration_object", none]) (by decide +kernel)
  obtain ⟨objects, hobjects, hexact, -⟩ := hydration_exact (List.cons_ne_nil _ _) hrun
  cases hobjects
  exact ⟨results, hrun, hreasons, hexact⟩

end TenantRag

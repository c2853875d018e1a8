import TenantRag.Rag.RetrievalIsolation
import TenantRag.Rag.Selection
import TenantRag.Weaviate.ConversationStored

/-!
# What is written of a conversation is read back

The writer of a conversation's segments and the four layers that read them each have
their own idea of the format: property names, derived ids, the segment in the text, the
dimension of the vector. They agree: a segment of a collection that `insert` filled is
never quarantined.

## The model

Storage answers a search with objects for any segments of the collection, and a fetch
with objects for the ids; an identifier among the properties may come back as a `UUID`
or as its text. The norm of a vector is what is computed of it, which for a vector of
very small numbers is zero.

## What is proved

* `hybridSearchResults_found` — a search returns every segment that storage answers.
* `normalizedCandidates_found` — each of them is a candidate.
* `hydrateMmrHead_stored` — each that is fetched is hydrated with its text and vector.
* `conversation_read` — from the response of the search to the pool for MMR nothing is
  quarantined, and MMR can use the vectors whose norms are positive.
* `vanishing_vector_unusable` — it cannot use every vector that is not zero.
-/

namespace TenantRag

variable {K : Type} {uuid5 : Uuid → Text → Uuid} {userId : Text}

/-! ### Objects for segments -/

/-- The value is the identifier, as a `UUID` or as its text. -/
def PyValue.Names (v : PyValue) (u : Uuid) : Prop := v = .uuid u ∨ v = .str u.str

/-- The properties that a search and a fetch both return. -/
structure SegmentRecord.Identified (r : SegmentRecord K) (o : StoredObject K) (ps : Properties) : Prop where
  /-- The object's identifier. -/
  uuid : o.uuid.Names r.segmentId
  /-- Its properties. -/
  properties : o.properties = some ps
  /-- `user_id`. -/
  userId : ps.lookup (lit "user_id") = some (.str r.userId)
  /-- `conversation_id`. -/
  conversationId : ∃ v, ps.lookup (lit "conversation_id") = some v ∧ v.Names r.conversationId
  /-- `segment_id`. -/
  segmentId : ∃ v, ps.lookup (lit "segment_id") = some v ∧ v.Names r.segmentId
  /-- `segment_index`. -/
  segmentIndex : ps.lookup (lit "segment_index") = some (.int r.segmentIndex)

/-- An object of the response of a search. -/
def SegmentRecord.Searched (r : SegmentRecord K) (o : StoredObject K) : Prop :=
  ∃ ps, r.Identified o ps ∧ ps.lookup (lit "segment_text") = some (.str r.segmentText)

/-- An object of the response of a fetch. -/
def SegmentRecord.Fetched (r : SegmentRecord K) (o : StoredObject K) : Prop :=
  ∃ ps vs, r.Identified o ps ∧ ps.lookup (lit "raw_text") = some (.str r.rawText) ∧ o.vector = .named vs ∧
    vs.lookup mmrDiversityVectorName = some (.ofNumbers r.mmrDiversity)

/-- The result of a search for a segment. -/
def SegmentRecord.found (r : SegmentRecord K) : SearchResult :=
  ⟨r.segmentId, r.conversationId, r.segmentText, .int r.segmentIndex⟩

/-- The hydrated result for a segment. -/
def SegmentRecord.hydrated (r : SegmentRecord K) : HydratedSearchResult K :=
  ⟨r.segmentId, r.conversationId, some r.mmrDiversity, some r.rawText, .int r.segmentIndex, none⟩

theorem Properties.get_of_lookup {ps : Properties} {name : Text} {v : PyValue} (h : ps.lookup name = some v) :
    ps.get name = v.normalized := by
  rw [Properties.get, h, Option.getD_some]

theorem PyValue.Names.ofText_toStr {v : PyValue} {u : Uuid} (h : v.Names u) : Uuid.ofText v.toStr = some u := by
  rcases h with rfl | rfl
  · exact Uuid.ofText_str u
  · exact Uuid.ofText_str u

theorem PyValue.Names.ofText_normalized {v : PyValue} {u : Uuid} (h : v.Names u) :
    Uuid.ofText v.normalized.toStr = some u := by
  rcases h with rfl | rfl
  · exact Uuid.ofText_str u
  · exact Uuid.ofText_str u

/-- An object for a segment of the user is one of the user's, under its business id. -/
theorem SegmentRecord.Identified.backs {r : SegmentRecord K} {o : StoredObject K} {ps : Properties}
    (h : r.Identified o ps) (howner : r.userId = userId) : o.Backs conversationWrapper userId ps r.segmentId := by
  obtain ⟨v, hv, hnames⟩ := h.segmentId
  refine ⟨h.properties, ?_, h.uuid.ofText_toStr, ?_⟩
  · rw [Properties.get_of_lookup h.userId, howner]
    rfl
  · change Uuid.ofText (ps.get (lit "segment_id")).toStr = _
    rw [Properties.get_of_lookup hv]
    exact hnames.ofText_normalized

theorem SegmentRecord.Identified.canonical {r : SegmentRecord K} {o : StoredObject K} {ps : Properties}
    (h : r.Identified o ps) :
    Uuid.ofText (ps.get conversationWrapper.canonicalIdProperty).toStr = some r.conversationId := by
  obtain ⟨v, hv, hnames⟩ := h.conversationId
  change Uuid.ofText (ps.get (lit "conversation_id")).toStr = _
  rw [Properties.get_of_lookup hv]
  exact hnames.ofText_normalized

/-! ### The search -/

section Search

/-- A search reads each object for a segment as the segment's result. -/
theorem SegmentRecord.Searched.reads {r : SegmentRecord K} {o : StoredObject K} (h : r.Searched o)
    (hr : r.WellFormed uuid5 userId) : readObject conversationWrapper userId o = .ok (.result r.found) := by
  obtain ⟨ps, hps, htext⟩ := h
  rw [readObject_eq_result_iff]
  refine ⟨ps, hps.backs hr.owner, hps.canonical, ?_, hr.segment, ?_⟩
  · change ps.get (lit "segment_text") = _
    rw [Properties.get_of_lookup htext]
    rfl
  · change ∃ n, (ps.get (lit "segment_index")).natural? = some n ∧ _
    rw [Properties.get_of_lookup hps.segmentIndex]
    exact ⟨r.segmentIndex, rfl, rfl⟩

/-- Results under new ids are added one by one. -/
theorem foldlM_found {rs : List (SegmentRecord K)} {objs : List (StoredObject K)} {s : HybridScan}
    (hobjs : List.Forall₂ SegmentRecord.Searched rs objs) (hrs : ∀ r ∈ rs, r.WellFormed uuid5 userId)
    (hids : (rs.map SegmentRecord.segmentId).Nodup) (hnew : ∀ r ∈ rs, r.segmentId ∉ s.seenObjectIds) :
    ∃ seen, objs.foldlM (HybridScan.next conversationWrapper userId) s =
      .ok { s with results := s.results ++ rs.map SegmentRecord.found, seenObjectIds := seen } := by
  induction hobjs generalizing s with
  | nil => exact ⟨s.seenObjectIds, by simp [pure, Except.pure]⟩
  | @cons r o rs objs hread _ ih =>
    obtain ⟨hr, hrs⟩ := List.forall_mem_cons.mp hrs
    obtain ⟨hfirst, hnew⟩ := List.forall_mem_cons.mp hnew
    rw [List.map_cons, List.nodup_cons] at hids
    have hnext : HybridScan.next conversationWrapper userId s o =
        .ok { s with results := s.results ++ [r.found], seenObjectIds := insert r.segmentId s.seenObjectIds } := by
      rw [HybridScan.next, hread.reads hr]
      exact if_neg hfirst
    have hlater : ∀ r' ∈ rs, r'.segmentId ∉ insert r.segmentId s.seenObjectIds := by
      intro r' hr' hin
      rcases Finset.mem_insert.mp hin with heq | hin
      · exact hids.1 (heq ▸ List.mem_map_of_mem hr')
      · exact hnew r' hr' hin
    let next : HybridScan :=
      { s with results := s.results ++ [r.found], seenObjectIds := insert r.segmentId s.seenObjectIds }
    obtain ⟨seen, hseen⟩ := ih (s := next) hrs hids.2 hlater
    refine ⟨seen, ?_⟩
    rw [List.foldlM_cons, hnext]
    refine hseen.trans ?_
    rw [List.map_cons, ← List.singleton_append, ← List.append_assoc]

/-- A search returns every segment that storage answers, in its order. -/
theorem hybridSearchResults_found {rs : List (SegmentRecord K)} {objs : List (StoredObject K)}
    (hobjs : List.Forall₂ SegmentRecord.Searched rs objs) (hrs : ∀ r ∈ rs, r.WellFormed uuid5 userId)
    (hids : (rs.map SegmentRecord.segmentId).Nodup) :
    hybridSearchResults conversationWrapper userId (some objs) = .ok (rs.map SegmentRecord.found) := by
  obtain ⟨seen, hseen⟩ := foldlM_found (s := ⟨[], ∅, ∅, ∅⟩) hobjs hrs hids (by simp)
  rw [hybridSearchResults]
  simp only [hseen]
  simp

/-! ### Candidates -/

theorem fieldsOf_found {rs : List (SegmentRecord K)} (hrs : ∀ r ∈ rs, r.WellFormed uuid5 userId) :
    fieldsOf .conversations ((rs.map SegmentRecord.found).map SearchResult.raw) = rs.map SegmentRecord.found := by
  induction rs with
  | nil => rfl
  | cons r rs ih =>
    obtain ⟨hr, hrs⟩ := List.forall_mem_cons.mp hrs
    have hfields : validFields .conversations r.found.raw = some r.found := by
      rw [validFields, parseResult_raw hr.segment]
    rw [List.map_cons, List.map_cons, fieldsOf, List.filterMap_cons, hfields]
    exact congrArg (r.found :: ·) (ih hrs)

theorem namedConversations_found {rs : List (SegmentRecord K)} (hrs : ∀ r ∈ rs, r.WellFormed uuid5 userId) :
    ((rs.map SegmentRecord.found).map SearchResult.raw).filterMap (namedConversation .conversations) = [] := by
  rw [List.filterMap_eq_nil_iff]
  intro x hx
  obtain ⟨y, hy, rfl⟩ := List.mem_map.mp hx
  obtain ⟨r, hr, rfl⟩ := List.mem_map.mp hy
  rw [namedConversation, parseResult_raw (hrs r hr).segment]

/-- The two modules derive one name from an index. -/
theorem retrievalSegmentName_eq (n : ℕ) : retrievalSegmentName n = segmentName n := rfl

theorem segmentIdentity_found {r : SegmentRecord K} (hr : r.WellFormed uuid5 userId) :
    segmentIdentity uuid5 r.found = some r.segmentIndex := by
  have hderived : r.found.objectId = uuid5 r.found.canonicalId (retrievalSegmentName r.segmentIndex) := by
    rw [retrievalSegmentName_eq]
    exact hr.identity
  rw [segmentIdentity]
  exact if_pos hderived

/-- Every segment found is a candidate. -/
theorem normalizedCandidates_found {rs : List (SegmentRecord K)} (hrs : ∀ r ∈ rs, r.WellFormed uuid5 userId)
    (hids : (rs.map SegmentRecord.segmentId).Nodup) :
    normalizedCandidates uuid5 .conversations ((rs.map SegmentRecord.found).map SearchResult.raw) =
      rs.map SegmentRecord.found := by
  have hcount : ∀ c ∈ rs.map SegmentRecord.found, countOf (rs.map SegmentRecord.found) c.objectId = 1 := by
    intro c hc
    rw [countOf, List.map_map]
    exact List.count_eq_one_of_mem hids (by
      rw [← List.map_map]
      exact List.mem_map_of_mem hc)
  have hvalid : ∀ c ∈ rs.map SegmentRecord.found, ValidIdentity uuid5 .conversations c := by
    intro c hc
    obtain ⟨r, hr, rfl⟩ := List.mem_map.mp hc
    rw [ValidIdentity, if_pos rfl, segmentIdentity_found (hrs r hr)]
    simp
  rw [normalizedCandidates_eq, fieldsOf_found hrs, List.filter_eq_self]
  intro c hc
  rw [decide_eq_true_eq, Kept, ObjectQuarantined, ConversationQuarantined, fieldsOf_found hrs,
    namedConversations_found hrs]
  refine ⟨?_, ?_⟩
  · rintro (htwo | ⟨hT, -⟩)
    · rw [hcount c hc] at htwo
      omega
    · exact hT rfl
  · rintro (hnamed | ⟨-, d, hd, -, htwo | hinvalid⟩)
    · cases hnamed
    · rw [hcount d hd] at htwo
      omega
    · exact hinvalid (hvalid d hd)

end Search

/-! ### The hydration -/

section Hydration

theorem expectedCandidates_ok {W : CollectionWrapper} (hW : W.canonicalIdProperty ≠ W.idProperty)
    {cs : List SearchResult} {start : Dict Uuid SearchResult} (hids : (cs.map SearchResult.objectId).Nodup)
    (hnew : ∀ c ∈ cs, c.objectId ∉ start.keys) :
    ∃ expected, expectedCandidates W cs start = .ok expected ∧
      (∀ c ∈ cs, expected.get? c.objectId = some c) ∧
      ∀ id, id ∉ cs.map SearchResult.objectId → expected.get? id = start.get? id := by
  induction cs generalizing start with
  | nil => exact ⟨start, rfl, by simp, fun _ _ => rfl⟩
  | cons c cs ih =>
    rw [List.map_cons, List.nodup_cons] at hids
    obtain ⟨hfirst, hnew⟩ := List.forall_mem_cons.mp hnew
    have hlater : ∀ d ∈ cs, d.objectId ∉ (start.set c.objectId c).keys := by
      intro d hd hin
      rcases Dict.mem_keys_set.mp hin with heq | hin
      · exact hids.1 (heq ▸ List.mem_map_of_mem hd)
      · exact hnew d hd hin
    obtain ⟨expected, hexpected, hget, hothers⟩ := ih hids.2 hlater
    refine ⟨expected, ?_, ?_, ?_⟩
    · rw [expectedCandidates, if_neg (by rwa [Dict.contains_iff]), if_neg fun h => hW h.1]
      exact hexpected
    · refine List.forall_mem_cons.mpr ⟨?_, hget⟩
      rw [hothers _ hids.1, Dict.get?_set_self]
    · intro id hid
      rw [List.map_cons, List.mem_cons, not_or] at hid
      rw [hothers id hid.2, Dict.get?_set_ne _ _ (Ne.symm hid.1)]

theorem resultVector_stored {xs : List K} {vs : List (Text × RawVector K)}
    (h : vs.lookup mmrDiversityVectorName = some (.ofNumbers xs)) (hlength : xs.length = mmrDiversityVectorDimension) :
    resultVector (.named vs) = .ok xs := by
  have hne : xs ≠ [] := by
    rintro rfl
    cases hlength
  have hvalues : vectorValues "MMR-diversity vector" (.ofNumbers xs) = .ok xs := vectorValues_numbers _ hne
  simp only [resultVector, h, bind, Except.bind, hvalues, hlength]
  rfl

/-- A fetched segment passes every check of the wrapper. -/
theorem hydrateObject_stored {r : SegmentRecord K} {o : StoredObject K} {ps : Properties} {vs : List (Text × RawVector K)}
    (hr : r.WellFormed uuid5 userId) (hps : r.Identified o ps) (htext : ps.lookup (lit "raw_text") = some (.str r.rawText))
    (hvs : vs.lookup mmrDiversityVectorName = some (.ofNumbers r.mmrDiversity)) :
    hydrateObject conversationWrapper r.found ps (.named vs) = r.hydrated := by
  have hbusiness : (resultUuid (ps.get conversationWrapper.idProperty) "business id").toOption = some r.found.objectId := by
    rw [toOption_eq_some_iff, resultUuid_eq_ok_iff]
    exact (hps.backs hr.owner).businessId
  have hcanonical : (resultUuid (ps.get conversationWrapper.canonicalIdProperty) "canonical id").toOption =
      some r.found.canonicalId := by
    rw [toOption_eq_some_iff, resultUuid_eq_ok_iff]
    exact hps.canonical
  have hindex : (ps.get (lit "segment_index")).natural? = some r.segmentIndex := by
    rw [Properties.get_of_lookup hps.segmentIndex]
    rfl
  have hsame : (PyValue.int (r.segmentIndex : ℤ)).same r.found.segmentIndex = true := decide_eq_true rfl
  have hraw : requiredText (ps.get (lit "raw_text")) "raw_text" = .ok r.rawText := by
    rw [Properties.get_of_lookup htext]
    exact requiredText_eq_ok_iff.mpr ⟨rfl, hr.text⟩
  rw [hydrateObject, if_neg (not_not.mpr hbusiness), if_neg (not_not.mpr hcanonical)]
  simp only [conversationWrapper, hindex, hsame, hraw, resultVector_stored hvs hr.dimension]
  simp [Except.toOption, SegmentRecord.hydrated, SegmentRecord.found]

/-- A turn of the loop on a fetched segment sets its result. -/
theorem hydrateNext_stored {r : SegmentRecord K} {o : StoredObject K} {expected : Dict Uuid SearchResult}
    {hydrated : Dict Uuid (HydratedSearchResult K)} (hr : r.WellFormed uuid5 userId) (ho : r.Fetched o)
    (hexpected : expected.get? r.segmentId = some r.found) (hnew : hydrated.contains r.segmentId = false) :
    hydrateNext conversationWrapper userId expected hydrated o = .ok (hydrated.set r.segmentId r.hydrated) := by
  obtain ⟨ps, vs, hps, htext, hvector, hvs⟩ := ho
  have hbacks := hps.backs hr.owner
  have huuid : resultUuid o.uuid "object UUID" = .ok r.segmentId := resultUuid_eq_ok_iff.mpr hbacks.uuid
  simp only [hydrateNext, huuid, hexpected, hbacks.properties, hbacks.owner, hvector, hnew]
  rw [hydrateObject_stored hr hps htext hvs]
  simp

theorem foldlM_hydrateNext {rs : List (SegmentRecord K)} {objs : List (StoredObject K)}
    {expected : Dict Uuid SearchResult} {hydrated : Dict Uuid (HydratedSearchResult K)}
    (hobjs : List.Forall₂ SegmentRecord.Fetched rs objs) (hrs : ∀ r ∈ rs, r.WellFormed uuid5 userId)
    (hids : (rs.map SegmentRecord.segmentId).Nodup) (hexpected : ∀ r ∈ rs, expected.get? r.segmentId = some r.found)
    (hnew : ∀ r ∈ rs, hydrated.contains r.segmentId = false) :
    ∃ hydrated', objs.foldlM (hydrateNext conversationWrapper userId expected) hydrated = .ok hydrated' ∧
      (∀ r ∈ rs, hydrated'.get? r.segmentId = some r.hydrated) ∧
      ∀ id, id ∉ rs.map SegmentRecord.segmentId → hydrated'.get? id = hydrated.get? id := by
  induction hobjs generalizing hydrated with
  | nil => exact ⟨hydrated, rfl, by simp, fun _ _ => rfl⟩
  | @cons r o rs objs hfetched _ ih =>
    obtain ⟨hr, hrs⟩ := List.forall_mem_cons.mp hrs
    obtain ⟨hfirst, hnew⟩ := List.forall_mem_cons.mp hnew
    obtain ⟨hask, hexpected⟩ := List.forall_mem_cons.mp hexpected
    rw [List.map_cons, List.nodup_cons] at hids
    have hlater : ∀ r' ∈ rs, (hydrated.set r.segmentId r.hydrated).contains r'.segmentId = false := by
      intro r' hr'
      have hne : r.segmentId ≠ r'.segmentId := fun heq => hids.1 (heq ▸ List.mem_map_of_mem hr')
      rw [Dict.contains, Dict.get?_set_ne _ _ hne]
      exact hnew r' hr'
    obtain ⟨hydrated', hloop, hget, hothers⟩ := ih hrs hids.2 hexpected hlater
    refine ⟨hydrated', ?_, List.forall_mem_cons.mpr ⟨?_, hget⟩, fun id hid => ?_⟩
    · rw [List.foldlM_cons, hydrateNext_stored hr hfetched hask hfirst]
      exact hloop
    · rw [hothers _ hids.1, Dict.get?_set_self]
    · rw [List.map_cons, List.mem_cons, not_or] at hid
      rw [hothers id hid.2, Dict.get?_set_ne _ _ (Ne.symm hid.1)]

/-- Segments that are fetched, in any order, are hydrated with their texts and vectors. -/
theorem hydrateMmrHead_stored {rs fetched : List (SegmentRecord K)} {objs : List (StoredObject K)}
    {fetch : List Uuid → Except PyError (Option (List (StoredObject K)))} (hne : rs ≠ [])
    (hrs : ∀ r ∈ rs, r.WellFormed uuid5 userId) (hids : (rs.map SegmentRecord.segmentId).Nodup)
    (hfetch : fetch (rs.map SegmentRecord.segmentId) = .ok (some objs))
    (hobjs : List.Forall₂ SegmentRecord.Fetched fetched objs) (hperm : fetched.Perm rs) :
    hydrateMmrHead conversationWrapper userId fetch (rs.map SegmentRecord.found) =
      .ok (rs.map SegmentRecord.hydrated) := by
  have hfound : (rs.map SegmentRecord.found).map SearchResult.objectId = rs.map SegmentRecord.segmentId := by
    rw [List.map_map]
    rfl
  have hW : conversationWrapper.canonicalIdProperty ≠ conversationWrapper.idProperty := by decide
  have hempty : ∀ c ∈ rs.map SegmentRecord.found, c.objectId ∉ (Dict.empty : Dict Uuid SearchResult).keys := by simp
  obtain ⟨expected, hexpected, hget, -⟩ := expectedCandidates_ok hW (hfound.symm ▸ hids) hempty
  have hkeys : expected.keys = rs.map SegmentRecord.segmentId := by
    rw [(expectedCandidates_spec hexpected).1, Dict.keys_empty, List.nil_append, hfound]
  have hasked : ∀ r ∈ fetched, expected.get? r.segmentId = some r.found := fun r hr =>
    hget _ (List.mem_map_of_mem (hperm.mem_iff.mp hr))
  have hnone : ∀ r ∈ fetched, (Dict.empty : Dict Uuid (HydratedSearchResult K)).contains r.segmentId = false :=
    fun _ _ => rfl
  obtain ⟨hydrated, hloop, hhydrated, -⟩ := foldlM_hydrateNext hobjs (fun r hr => hrs r (hperm.mem_iff.mp hr))
    ((hperm.map _).nodup_iff.mpr hids) hasked hnone
  rw [hydrateMmrHead, if_neg (by simpa using hne), hexpected]
  simp only [bind, Except.bind, hkeys, hfetch, hydratedResults, hloop, List.map_map]
  congr 1
  refine List.map_congr_left fun r hr => ?_
  change (hydrated.get? r.segmentId).getD _ = _
  rw [hhydrated r (hperm.mem_iff.mpr hr), Option.getD_some]

/-! ### The pool for MMR -/

/-- The candidate stands for the conversation of a segment. -/
structure SegmentRecord.StoodFor (r : SegmentRecord K) (c : Candidate K) : Prop where
  /-- Its object is the conversation. -/
  objectId : c.objectId = r.conversationId
  /-- Its segment. -/
  segmentId : c.segmentId = some r.segmentId
  /-- The text of the segment. -/
  retrievalText : c.retrievalText = r.segmentText
  /-- The index of the segment. -/
  segmentIndex : c.segmentIndex = .int r.segmentIndex

/-- The candidate with the text and the vector of its segment. -/
def SegmentRecord.intoPool (V : VectorArithmetic K) (c : Candidate K) (r : SegmentRecord K) : HydratedCandidate K :=
  { c with
    rawText := r.rawText
    diversityVector := if V.positiveNorm r.mmrDiversity then some r.mmrDiversity else none }

/-- The fetch answers the objects for the segments that are asked for, in any order. -/
def AnswersStored (store : ConversationStore K) (fetch : List Uuid → Except PyError (Option (List (StoredObject K)))) :
    Prop :=
  ∀ rs : List (SegmentRecord K), (∀ r ∈ rs, store.get? r.segmentId = some r) →
    (rs.map SegmentRecord.segmentId).Nodup → ∃ fetched objs, fetch (rs.map SegmentRecord.segmentId) = .ok (some objs) ∧
      List.Forall₂ SegmentRecord.Fetched fetched objs ∧ fetched.Perm rs

/-- What is requested for the conversation of a segment is the segment's result. -/
theorem hydrationRequest_stood {r : SegmentRecord K} {c : Candidate K} (hr : r.WellFormed uuid5 userId)
    (h : r.StoodFor c) : hydrationRequest .conversations c = .ok r.found := by
  have htext : requiredText (.str c.retrievalText) "retrieval_text" = .ok r.segmentText := by
    rw [h.retrievalText]
    exact requiredText_eq_ok_iff.mpr ⟨rfl, hr.segment⟩
  have hindex : c.index = .ok r.segmentIndex := by
    rw [Candidate.index, h.segmentIndex]
    rfl
  simp only [hydrationRequest, h.segmentId, htext, hindex, h.objectId, bind, Except.bind]
  rfl

/-- The vector of a segment can be used where its norm is positive. -/
theorem usableVector_stored (V : VectorArithmetic K) {xs : List K} (h : xs.length = mmrDiversityVectorDimension) :
    usableVector V (.ofNumbers xs) = if V.positiveNorm xs then some xs else none := by
  have hne : xs ≠ [] := by
    rintro rfl
    cases h
  have hvalues : vectorValues "diversity vector" (.ofNumbers xs) = .ok xs := vectorValues_numbers _ hne
  simp only [usableVector, hvalues, h]
  cases V.positiveNorm xs <;> simp

/-- The answer for a segment is kept, with the full text of its conversation. -/
theorem hydrateCandidate_stored (V : VectorArithmetic K) {r : SegmentRecord K} {c : Candidate K}
    (hr : r.WellFormed uuid5 userId) :
    hydrateCandidate V .conversations c r.found r.hydrated.raw = some (r.intoPool V c) := by
  have hsame : (PyValue.int (r.segmentIndex : ℤ)).same (.int r.segmentIndex) = true := decide_eq_true rfl
  have htext : hydratedText .conversations c r.found (.str r.rawText) = some r.rawText := by
    have hraw : requiredText (.str r.rawText) "raw_text" = .ok r.rawText := requiredText_eq_ok_iff.mpr ⟨rfl, hr.text⟩
    simp only [hydratedText, hraw]
    exact if_pos hr.inText
  have hidentity : ¬ (PyValue.str r.segmentId.str ≠ .str r.found.objectId.str ∨
      PyValue.str r.conversationId.str ≠ .str r.found.canonicalId.str ∨
        (PyValue.int (r.segmentIndex : ℤ)).same r.found.segmentIndex = false) := by
    rintro (hne | hne | hne)
    · exact hne rfl
    · exact hne rfl
    · exact absurd (hsame.symm.trans hne) (by decide)
  simp only [hydrateCandidate, HydratedSearchResult.raw, SegmentRecord.hydrated, optionalText, Option.map_none,
    if_neg hidentity, htext, usableVector_stored V hr.dimension]
  rfl

theorem filterMap_hydrateCandidate (V : VectorArithmetic K) {pool : List (Candidate K)} {rs : List (SegmentRecord K)}
    (h : List.Forall₂ SegmentRecord.StoodFor rs pool) (hrs : ∀ r ∈ rs, r.WellFormed uuid5 userId) :
    ((pool.zip ((rs.map SegmentRecord.found).zip (rs.map fun r => r.hydrated.raw))).filterMap fun p =>
      hydrateCandidate V .conversations p.1 p.2.1 p.2.2) = List.zipWith (SegmentRecord.intoPool V) pool rs := by
  induction h with
  | nil => rfl
  | @cons r c rs pool _ _ ih =>
    obtain ⟨hr, hrs⟩ := List.forall_mem_cons.mp hrs
    rw [List.map_cons, List.map_cons, List.zip_cons_cons, List.zip_cons_cons, List.filterMap_cons,
      hydrateCandidate_stored V hr, List.zipWith_cons_cons]
    exact congrArg (r.intoPool V c :: ·) (ih hrs)

theorem mapM_hydrationRequest {pool : List (Candidate K)} {rs : List (SegmentRecord K)}
    (h : List.Forall₂ SegmentRecord.StoodFor rs pool) (hrs : ∀ r ∈ rs, r.WellFormed uuid5 userId) :
    pool.mapM (hydrationRequest .conversations) = .ok (rs.map SegmentRecord.found) := by
  rw [mapM_eq_ok_iff]
  induction h with
  | nil => exact .nil
  | @cons r c rs pool hstood _ ih =>
    obtain ⟨hr, hrs⟩ := List.forall_mem_cons.mp hrs
    exact .cons (hydrationRequest_stood hr hstood) (ih hrs)

theorem map_toCandidate_intoPool (V : VectorArithmetic K) {pool : List (Candidate K)} {rs : List (SegmentRecord K)}
    (h : List.Forall₂ SegmentRecord.StoodFor rs pool) :
    (List.zipWith (SegmentRecord.intoPool V) pool rs).map HydratedCandidate.toCandidate = pool := by
  induction h with
  | nil => rfl
  | cons _ _ ih =>
    rw [List.zipWith_cons_cons, List.map_cons, ih]
    rfl

theorem mem_intoPool {V : VectorArithmetic K} {pool : List (Candidate K)} {rs : List (SegmentRecord K)}
    (h : List.Forall₂ SegmentRecord.StoodFor rs pool) {x : HydratedCandidate K}
    (hx : x ∈ List.zipWith (SegmentRecord.intoPool V) pool rs) :
    ∃ r ∈ rs, x.objectId = r.conversationId ∧ x.rawText = r.rawText ∧
      x.diversityVector = if V.positiveNorm r.mmrDiversity then some r.mmrDiversity else none := by
  induction h with
  | nil => cases hx
  | @cons r c rs pool hstood _ ih =>
    rw [List.zipWith_cons_cons, List.mem_cons] at hx
    rcases hx with rfl | hx
    · exact ⟨r, List.mem_cons_self, hstood.objectId, rfl, rfl⟩
    · obtain ⟨r', hr', hx⟩ := ih hx
      exact ⟨r', List.mem_cons_of_mem _ hr', hx⟩

/-- A pool of conversations is hydrated as a whole; MMR can use it where it can use every vector. -/
theorem hydratePool_stored (V : VectorArithmetic K) {store : ConversationStore K}
    {hybrid : Text → List (List K) → ℕ → Except PyError (Option (List (StoredObject K)))}
    {fetch : List Uuid → Except PyError (Option (List (StoredObject K)))} {pool : List (Candidate K)}
    {rs : List (SegmentRecord K)} (h : List.Forall₂ SegmentRecord.StoodFor rs pool)
    (hrs : ∀ r ∈ rs, r.WellFormed uuid5 userId) (hids : (rs.map SegmentRecord.segmentId).Nodup)
    (hstored : ∀ r ∈ rs, store.get? r.segmentId = some r) (hfetch : AnswersStored store fetch) :
    hydratePool V (conversationWrapper.client userId hybrid fetch).hydrateMmrHead .conversations pool =
      .ok (List.zipWith (SegmentRecord.intoPool V) pool rs,
        (List.zipWith (SegmentRecord.intoPool V) pool rs).all fun x => x.diversityVector.isSome) := by
  rw [hydratePool]
  by_cases hempty : pool.isEmpty
  · rw [if_pos hempty]
    rw [List.isEmpty_iff] at hempty
    subst hempty
    rfl
  · have hne : rs ≠ [] := by
      rintro rfl
      rw [List.forall₂_nil_left_iff.mp h] at hempty
      exact hempty rfl
    have hrequested := mapM_hydrationRequest h hrs
    obtain ⟨fetched, objs, hanswer, hobjs, hperm⟩ := hfetch rs hstored hids
    have hhydrated := hydrateMmrHead_stored hne hrs hids hanswer hobjs hperm
    have hlength : (rs.map fun r => r.hydrated.raw).length = pool.length := by
      rw [List.length_map, h.length_eq]
    rw [if_neg hempty, hrequested]
    simp only [bind, Except.bind, CollectionWrapper.client, hhydrated, Except.map, List.map_map, Function.comp_def]
    rw [if_neg (not_not.mpr hlength), filterMap_hydrateCandidate V h hrs]

/-! ### From the search to the pool -/

/-- A candidate made of a segment that was found stands for its conversation, once collapsed. -/
theorem stoodFor_standFor {r : SegmentRecord K} {c : Candidate K} (h : c.result = r.found) :
    r.StoodFor (c.standFor c.canonicalId) := by
  simp only [Candidate.result, SegmentRecord.found, SearchResult.mk.injEq] at h
  obtain ⟨hobject, hcanonical, htext, hindex⟩ := h
  exact ⟨hcanonical, congrArg some hobject, htext, hindex⟩

/-- Candidates that stand for segments of a list stand for some of them, one by one. -/
theorem exists_forall₂_stoodFor {rs : List (SegmentRecord K)} {pool : List (Candidate K)}
    (h : ∀ c ∈ pool, ∃ r ∈ rs, r.StoodFor c) :
    ∃ rs', (∀ r ∈ rs', r ∈ rs) ∧ List.Forall₂ SegmentRecord.StoodFor rs' pool := by
  induction pool with
  | nil => exact ⟨[], by simp, .nil⟩
  | cons c pool ih =>
    obtain ⟨⟨r, hr, hstood⟩, hrest⟩ := List.forall_mem_cons.mp h
    obtain ⟨rs', hsub, hall⟩ := ih hrest
    exact ⟨r :: rs', List.forall_mem_cons.mpr ⟨hr, hsub⟩, .cons hstood hall⟩

theorem map_conversationId_eq {rs : List (SegmentRecord K)} {pool : List (Candidate K)}
    (h : List.Forall₂ SegmentRecord.StoodFor rs pool) :
    rs.map SegmentRecord.conversationId = pool.map Candidate.objectId := by
  induction h with
  | nil => rfl
  | cons hstood _ ih => rw [List.map_cons, List.map_cons, ih, hstood.objectId]

/-- What `insert` stored is never quarantined on read. Every segment of every call is stored; a search returns
every segment that storage answers, normalization keeps it, and every conversation of the pool is hydrated with
the full text of its call, and with its vector where the norm of that is positive. -/
theorem conversation_read [LinearOrder K] (V : VectorArithmetic K) {calls : List (ConversationInsert K)}
    {store : ConversationStore K} (hstore : StoredConversations uuid5 userId calls store)
    (hdimension : ∀ args ∈ calls, args.Dimensioned) :
    (∀ args ∈ calls, ∀ (i : ℕ) t, args.segmentTexts[i]? = some t →
        ∃ r, store.get? r.segmentId = some r ∧ r.Of uuid5 userId args i) ∧
      ∀ rs objs, (∀ r ∈ rs, store.get? r.segmentId = some r) → (rs.map SegmentRecord.segmentId).Nodup →
        List.Forall₂ SegmentRecord.Searched rs objs →
        hybridSearchResults conversationWrapper userId (some objs) = .ok (rs.map SegmentRecord.found) ∧
          normalizedCandidates uuid5 .conversations ((rs.map SegmentRecord.found).map SearchResult.raw) =
            rs.map SegmentRecord.found ∧
          ∀ (rerank : Text → List Text → Except PyError (Option (List (RawScore K)))) q scored limit,
            crossEncoder rerank q (rs.map SegmentRecord.found) = .ok scored →
              ∃ reranked, collapseConversations scored limit = .ok reranked ∧
                ∀ hybrid fetch, AnswersStored store fetch → ∀ pool : List (Candidate K), pool.Sublist reranked →
                  ∃ hydrated usable, hydratePool V (conversationWrapper.client userId hybrid fetch).hydrateMmrHead
                      .conversations pool = .ok (hydrated, usable) ∧
                    hydrated.map HydratedCandidate.toCandidate = pool ∧
                    (∀ x ∈ hydrated, ∃ args ∈ calls, ∃ i, ∃ r ∈ rs, r.Of uuid5 userId args i ∧
                      x.objectId = r.conversationId ∧ x.rawText = args.rawText ∧
                      x.diversityVector = if V.positiveNorm r.mmrDiversity then some r.mmrDiversity else none) ∧
                    (usable = true ↔ ∀ x ∈ hydrated, x.diversityVector.isSome) := by
  refine ⟨fun args hargs i t ht => hstore.rows hargs ht, fun rs objs hrs hids hobjs => ?_⟩
  have hwell : ∀ r ∈ rs, r.WellFormed uuid5 userId := fun r hr => hstore.wellFormed hdimension (hrs r hr)
  refine ⟨hybridSearchResults_found hobjs hwell hids, normalizedCandidates_found hwell hids, ?_⟩
  intro rerank q scored limit hscored
  have hfound : ∀ c ∈ scored, ∃ r ∈ rs, c.result = r.found := by
    intro c hc
    have hmem := (crossEncoder_spec hscored).1.mem_iff.mp (List.mem_map_of_mem hc)
    obtain ⟨r, hr, heq⟩ := List.mem_map.mp hmem
    exact ⟨r, hr, heq.symm⟩
  have hindices : ∀ c ∈ scored, ∃ i, c.index = .ok i := by
    intro c hc
    obtain ⟨r, -, heq⟩ := hfound c hc
    refine ⟨r.segmentIndex, ?_⟩
    have hindex : c.segmentIndex = .int r.segmentIndex := congrArg SearchResult.segmentIndex heq
    rw [Candidate.index, hindex]
    rfl
  obtain ⟨reranked, hreranked⟩ := collapseConversations_ok limit hindices
  obtain ⟨-, hconversations, hbest⟩ := collapseConversations_spec hreranked
  refine ⟨reranked, hreranked, fun hybrid fetch hfetch pool hpool => ?_⟩
  have hstood : ∀ c ∈ pool, ∃ r ∈ rs, r.StoodFor c := by
    intro x hx
    obtain ⟨c, hc, heq⟩ := hbest x (hpool.subset hx)
    obtain ⟨r, hr, hresult⟩ := hfound c hc.mem
    refine ⟨r, hr, ?_⟩
    rw [heq, ← hc.canonicalId]
    exact stoodFor_standFor hresult
  obtain ⟨rs', hsub, hall⟩ := exists_forall₂_stoodFor hstood
  have hids' : (rs'.map SegmentRecord.segmentId).Nodup := by
    have hconv : (rs'.map SegmentRecord.conversationId).Nodup := by
      rw [map_conversationId_eq hall]
      exact (hpool.map _).nodup hconversations
    refine (hconv.of_map _).map_on fun a ha b hb heq => ?_
    exact List.inj_on_of_nodup_map hids (hsub a ha) (hsub b hb) heq
  refine ⟨_, _, hydratePool_stored V hall (fun r hr => hwell r (hsub r hr)) hids' (fun r hr => hrs r (hsub r hr))
    hfetch, map_toCandidate_intoPool V hall, fun x hx => ?_, List.all_eq_true⟩
  obtain ⟨r, hr, hobject, htext, hvector⟩ := mem_intoPool hall hx
  obtain ⟨-, args, hargs, -, i, hof⟩ := hstore.origin (hrs r (hsub r hr))
  exact ⟨args, hargs, i, r, hsub r hr, hof, hobject, htext.trans hof.rawText, hvector⟩

end Hydration

/-! ### One conversation of two segments -/

/-- An object for a segment, with identifiers as `UUID`s. -/
def SegmentRecord.object (r : SegmentRecord K) : StoredObject K where
  uuid := .uuid r.segmentId
  properties := some [(lit "user_id", .str r.userId), (lit "conversation_id", .uuid r.conversationId),
    (lit "segment_id", .uuid r.segmentId), (lit "segment_index", .int r.segmentIndex), (lit "raw_text", .str r.rawText),
    (lit "segment_text", .str r.segmentText)]
  vector := .named [(mmrDiversityVectorName, .ofNumbers r.mmrDiversity)]

theorem SegmentRecord.identified_object (r : SegmentRecord K) :
    r.Identified r.object (r.object.properties.getD []) :=
  ⟨.inl rfl, rfl, rfl, ⟨_, rfl, .inl rfl⟩, ⟨_, rfl, .inl rfl⟩, rfl⟩

theorem SegmentRecord.searched_object (r : SegmentRecord K) : r.Searched r.object :=
  ⟨_, r.identified_object, rfl⟩

theorem SegmentRecord.fetched_object (r : SegmentRecord K) : r.Fetched r.object :=
  ⟨_, _, r.identified_object, rfl, rfl, rfl⟩

/-- A fetch that answers what is stored under the ids. -/
def fetchStored (store : ConversationStore K) (ids : List Uuid) : Except PyError (Option (List (StoredObject K))) :=
  .ok (some (ids.filterMap fun id => (store.get? id).map SegmentRecord.object))

theorem answersStored_fetchStored (store : ConversationStore K) : AnswersStored store (fetchStored store) := by
  intro rs hrs _
  refine ⟨rs, rs.map SegmentRecord.object, ?_, ?_, .refl rs⟩
  · rw [fetchStored, List.filterMap_map]
    have hall : ∀ r ∈ rs, ((store.get? r.segmentId).map SegmentRecord.object) = some r.object := fun r hr => by
      rw [hrs r hr, Option.map_some]
    rw [← List.filterMap_eq_map]
    exact congrArg (fun objs => Except.ok (some objs)) (List.filterMap_congr hall)
  · exact List.forall₂_map_right_iff.mpr (List.forall₂_same.mpr fun r _ => r.fetched_object)

/-- A conversation whose diversity vector repeats one number. -/
def repeatedSample (x : ℚ) : ConversationInsert ℚ where
  conversationId := (Uuid.ofNat 2).str
  rawText := lit "Question:\nq\n\nAnswer:\na"
  segmentTexts := [lit "Question:\nq\n\n", lit "Answer:\na"]
  segmentVectors := List.replicate 2 (.sequence [.ofNumbers (List.replicate 128 1)])
  diversityVector := .ofNumbers (List.replicate 768 x)

/-- Its insert into an empty collection. -/
def repeatedInsert (x : ℚ) : EStateM.Result ConversationWriteError (ConversationStore ℚ) Uuid :=
  insertConversation segmentIdSample (lit "u1") (repeatedSample x) (storageSample []) .empty

/-- How many segments are stored after a call that returned. -/
def storedSize (result : EStateM.Result ConversationWriteError (ConversationStore K) Uuid) : Option ℕ :=
  match result with
  | .ok _ store => some store.entries.length
  | .error _ _ => none

theorem storedConversations_repeated {x : ℚ} {n : ℕ} (h : storedSize (repeatedInsert x) = some n) :
    StoredConversations segmentIdSample (lit "u1") [repeatedSample x] (storeAfter (repeatedInsert x)) := by
  cases hcall : repeatedInsert x with
  | error e store =>
    rw [hcall] at h
    cases h
  | ok id store => exact .insert .empty hcall

theorem vectorValues_repeated (x : ℚ) :
    vectorValues "diversity_vector" (repeatedSample x).diversityVector = .ok (List.replicate 768 x) :=
  vectorValues_numbers _ (List.ne_nil_of_length_pos (by rw [List.length_replicate]; decide))

theorem dimensioned_repeated (x : ℚ) : (repeatedSample x).Dimensioned := by
  intro xs hxs
  rw [vectorValues_repeated] at hxs
  cases hxs
  exact List.length_replicate

/-- From a search that answers all segments, the last first, to the pool for MMR. -/
def readBack (V : VectorArithmetic ℚ) (store : ConversationStore ℚ) :
    Except PyError (List (HydratedCandidate ℚ) × Bool) := do
  let found ← hybridSearchResults conversationWrapper (lit "u1") (some (store.values.reverse.map SegmentRecord.object))
  let candidates := normalizedCandidates segmentIdSample .conversations (found.map SearchResult.raw)
  let scored ← crossEncoder runtimeSample.rerank (lit "q") candidates
  let reranked ← collapseConversations scored 20
  hydratePool V (conversationWrapper.client (lit "u1") (fun _ _ _ => .ok none) (fetchStored store)).hydrateMmrHead
    .conversations reranked

/-- Both segments of a conversation are stored, and they are read back as one candidate, with the text of the
conversation and a vector for MMR. -/
theorem conversation_read_sample :
    (∃ r, (storeAfter (repeatedInsert (1 / 2))).get? r.segmentId = some r ∧
        r.Of segmentIdSample (lit "u1") (repeatedSample (1 / 2)) 1) ∧
      ∃ x, readBack exactVectors (storeAfter (repeatedInsert (1 / 2))) = .ok ([x], true) ∧
        x.rawText = (repeatedSample (1 / 2)).rawText ∧ x.diversityVector = some (List.replicate 768 (1 / 2)) := by
  have hstored := storedConversations_repeated (x := 1 / 2) (n := 2) (by decide +kernel)
  obtain ⟨hrows, hread⟩ := conversation_read exactVectors hstored fun args hargs => by
    rw [List.mem_singleton.mp hargs]
    exact dimensioned_repeated _
  refine ⟨hrows _ (List.mem_singleton_self _) 1 (lit "Answer:\na") (by decide), ?_⟩
  obtain ⟨hsearch, hnormal, hpool⟩ := hread (storeAfter (repeatedInsert (1 / 2))).values.reverse
    ((storeAfter (repeatedInsert (1 / 2))).values.reverse.map SegmentRecord.object) (by decide +kernel) (by decide +kernel)
    (List.forall₂_map_right_iff.mpr (List.forall₂_same.mpr fun r _ => r.searched_object))
  have hone : (readBack exactVectors (storeAfter (repeatedInsert (1 / 2)))).map (fun p => p.1.length) = .ok 1 := by
    decide +kernel
  have hpositive : exactVectors.positiveNorm (List.replicate 768 (1 / 2)) = true := by decide +kernel
  generalize storeAfter (repeatedInsert (1 / 2)) = store at *
  rw [readBack, hsearch] at hone ⊢
  simp only [bind, Except.bind, hnormal] at hone ⊢
  cases hscored : crossEncoder runtimeSample.rerank (lit "q") (store.values.reverse.map SegmentRecord.found) with
  | error e =>
    rw [hscored] at hone
    cases hone
  | ok scored =>
    obtain ⟨reranked, hreranked, hhydrate⟩ := hpool runtimeSample.rerank (lit "q") scored 20 hscored
    obtain ⟨hydrated, usable, hrun, -, hitems, husable⟩ := hhydrate (fun _ _ _ => .ok none) (fetchStored store)
      (answersStored_fetchStored store) reranked (List.Sublist.refl _)
    simp only [hscored, hreranked, hrun, Except.map, Except.ok.injEq] at hone ⊢
    obtain ⟨x, rfl⟩ := List.length_eq_one_iff.mp hone
    obtain ⟨args, hargs, i, r, -, hof, -, htext, hvector⟩ := hitems x (List.mem_singleton_self x)
    rw [List.mem_singleton.mp hargs] at hof htext
    have hdiversity := hof.mmrDiversity
    rw [vectorValues_repeated, Except.ok.injEq] at hdiversity
    rw [← hdiversity, if_pos hpositive] at hvector
    refine ⟨x, ?_, htext, hvector⟩
    rw [husable.mpr fun y hy => by rw [List.mem_singleton.mp hy, hvector]; rfl]

/-- The arithmetic of floats, where a square up to the half of the least float is zero. -/
def floatVectors : VectorArithmetic ℚ where
  positiveNorm xs := xs.any fun x => 1 / 2 ^ 1075 < x * x
  cosine := innerProduct
  positiveNorm_nil := rfl

/-- The norm of a vector that is not zero may be zero, and MMR does not use it. -/
theorem vanishing_vector_unusable : ¬ ∀ (calls : List (ConversationInsert ℚ)) store,
    StoredConversations segmentIdSample (lit "u1") calls store →
    (∀ args ∈ calls, args.Dimensioned ∧
      ∀ xs, vectorValues "diversity_vector" args.diversityVector = .ok xs → ∃ x ∈ xs, x ≠ 0) →
    ∃ hydrated, readBack floatVectors store = .ok (hydrated, true) := by
  intro hall
  have hstored := storedConversations_repeated (x := 1 / 2 ^ 565) (n := 2) (by decide +kernel)
  obtain ⟨hydrated, hread⟩ := hall _ _ hstored fun args hargs => by
    cases List.mem_singleton.mp hargs
    refine ⟨dimensioned_repeated _, fun xs hxs => ?_⟩
    rw [vectorValues_repeated] at hxs
    cases hxs
    exact ⟨1 / 2 ^ 565, List.mem_replicate.mpr ⟨by decide, rfl⟩, by decide +kernel⟩
  have hunusable : (readBack floatVectors (storeAfter (repeatedInsert (1 / 2 ^ 565)))).map Prod.snd = .ok false := by
    decide +kernel
  rw [hread] at hunusable
  cases hunusable

end TenantRag

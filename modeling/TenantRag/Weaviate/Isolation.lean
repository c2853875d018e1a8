import TenantRag.Foundations.Result
import TenantRag.Weaviate.Search

/-!
# Whose objects are read

A wrapper is bound to one user. What it returns, from a search or from a hydration,
is taken from objects of that user whose identifier is the one among their own
properties; and a response with an object of another user makes the call raise.

## What is proved

* `readObject_eq_result_iff` — when an object of a response is a result.
* `readObject_foreign`, `hydrateNext_foreign` — an object of another user stops the reading.
* `hybridSearch_origin` — each result is read from an object of the response.
* `expectedCandidates_spec` — the candidates of a hydration, each under its identifier.
* `hydrateMmrHead_origin` — each hydrated result that is not quarantined is read from an object.
-/

namespace TenantRag

variable {K : Type} {W : CollectionWrapper} {userId : Text} {o : StoredObject K}

/-! ### The objects of a user -/

/-- The object carries the user id of another user. -/
def StoredObject.Foreign (userId : Text) (o : StoredObject K) : Prop :=
  ∃ ps owner, o.properties = some ps ∧ ps.get (lit "user_id") = .str owner ∧ owner ≠ userId

/-- The object is of the user, with these properties, and its identifier is its business id. -/
structure StoredObject.Backs (W : CollectionWrapper) (userId : Text) (o : StoredObject K) (ps : Properties)
    (objectId : Uuid) : Prop where
  /-- Its properties. -/
  properties : o.properties = some ps
  /-- It is of the user. -/
  owner : ps.get (lit "user_id") = .str userId
  /-- Its identifier. -/
  uuid : Uuid.ofText o.uuid.toStr = some objectId
  /-- Its business id. -/
  businessId : Uuid.ofText (ps.get W.idProperty).toStr = some objectId

/-- A response without objects of other users. -/
def NoneForeign (userId : Text) (objects : List (StoredObject K)) : Prop := ∀ o ∈ objects, ¬ o.Foreign userId

theorem resultUuid_eq_ok_iff {value : PyValue} {name : String} {u : Uuid} :
    resultUuid value name = .ok u ↔ Uuid.ofText value.toStr = some u := by
  rw [resultUuid]
  cases Uuid.ofText value.toStr <;> simp

theorem requiredText_eq_ok_iff {value : PyValue} {name : String} {t : Text} :
    requiredText value name = .ok t ↔ value = .str t ∧ isBlank t = false := by
  cases value with
  | str s =>
    rw [requiredText]
    by_cases hs : isBlank s = true
    · rw [if_pos hs]
      constructor
      · intro h
        cases h
      · rintro ⟨h, ht⟩
        cases h
        rw [hs] at ht
        cases ht
    · rw [if_neg hs, Except.ok.injEq, PyValue.str.injEq]
      constructor
      · rintro rfl
        exact ⟨rfl, by simpa using hs⟩
      · exact fun h => h.1
  | none => simp [requiredText]
  | bool b => simp [requiredText]
  | int n => simp [requiredText]
  | uuid u => simp [requiredText]
  | float whole s => simp [requiredText]
  | other s => simp [requiredText]

/-! ### The search -/

/-- The segment index of a result is the one among the properties, where there is one. -/
def CollectionWrapper.IndexIs (W : CollectionWrapper) (ps : Properties) (index : PyValue) : Prop :=
  match W.segmentIndexProperty with
  | none => index = .none
  | some name => ∃ n, (ps.get name).natural? = some n ∧ index = .int n

/-- The object has all that a result is made of. -/
structure StoredObject.Reads (W : CollectionWrapper) (userId : Text) (o : StoredObject K) (ps : Properties)
    (r : SearchResult) : Prop extends o.Backs W userId ps r.objectId where
  /-- Its canonical id. -/
  canonicalId : Uuid.ofText (ps.get W.canonicalIdProperty).toStr = some r.canonicalId
  /-- The text that is searched. -/
  retrievalText : ps.get W.searchProperty = .str r.retrievalText
  /-- The text is not blank. -/
  notBlank : isBlank r.retrievalText = false
  /-- The index of the segment. -/
  segmentIndex : W.IndexIs ps r.segmentIndex

/-- When an object of a response is a result. -/
theorem readObject_eq_result_iff {r : SearchResult} :
    readObject W userId o = .ok (.result r) ↔ ∃ ps, o.Reads W userId ps r := by
  constructor
  · intro h
    simp only [readObject] at h
    split at h
    · cases h
    rename_i ps hps
    refine ⟨ps, ?_⟩
    split at h
    case h_2 => cases h
    rename_i owner howner
    by_cases hother : owner = userId
    case neg =>
      rw [if_pos hother] at h
      cases h
    rw [if_neg (not_not.mpr hother)] at h
    split at h
    · cases h
    rename_i objectId hobject
    split at h
    · cases h
    rename_i businessId hbusiness
    by_cases hsame : objectId = businessId
    case neg =>
      rw [if_pos hsame] at h
      cases h
    rw [if_neg (not_not.mpr hsame)] at h
    split at h
    · cases h
    rename_i canonicalId hcanonical
    split at h
    · cases h
    rename_i t ht
    subst hother hsame
    rw [resultUuid_eq_ok_iff] at hobject hbusiness hcanonical
    rw [requiredText_eq_ok_iff] at ht
    have hback : o.Backs W owner ps objectId := ⟨hps, howner, hobject, hbusiness⟩
    split at h
    · rename_i hindex
      cases h
      exact ⟨hback, hcanonical, ht.1, ht.2, by rw [CollectionWrapper.IndexIs, hindex]⟩
    · rename_i name hindex
      split at h
      · cases h
      · rename_i n hn
        cases h
        refine ⟨hback, hcanonical, ht.1, ht.2, ?_⟩
        rw [CollectionWrapper.IndexIs, hindex]
        exact ⟨n, hn, rfl⟩
  · rintro ⟨ps, h⟩
    have hindex := h.segmentIndex
    simp only [readObject, h.properties, h.owner, resultUuid_eq_ok_iff.mpr h.uuid, resultUuid_eq_ok_iff.mpr h.businessId,
      resultUuid_eq_ok_iff.mpr h.canonicalId, requiredText_eq_ok_iff.mpr ⟨h.retrievalText, h.notBlank⟩, ne_eq,
      not_true_eq_false, if_false]
    rw [CollectionWrapper.IndexIs] at hindex
    cases hname : W.segmentIndexProperty with
    | none =>
      rw [hname] at hindex
      simp only [← hindex]
    | some name =>
      rw [hname] at hindex
      obtain ⟨n, hn, hr⟩ := hindex
      simp only [hn, ← hr]

theorem readObject_foreign (h : o.Foreign userId) : ∃ e, readObject W userId o = .error e := by
  obtain ⟨ps, owner, hps, howner, hne⟩ := h
  simp only [readObject, hps, howner, if_pos hne]
  exact ⟨_, rfl⟩

/-- A turn of the loop adds at most the result that its object is read as. -/
theorem HybridScan.next_results {s t : HybridScan} (h : s.next W userId o = .ok t) :
    t.results = s.results ∨ ∃ r ps, o.Reads W userId ps r ∧ t.results = s.results ++ [r] := by
  unfold HybridScan.next at h
  split at h
  · cases h
  · cases h
    exact .inl rfl
  · cases h
    exact .inl rfl
  · rename_i r hread
    by_cases hseen : r.objectId ∈ s.seenObjectIds
    · rw [if_pos hseen] at h
      cases h
      exact .inl rfl
    · rw [if_neg hseen] at h
      cases h
      obtain ⟨ps, hps⟩ := readObject_eq_result_iff.mp hread
      exact .inr ⟨r, ps, hps, rfl⟩

/-- Every result of a response is read from one of its objects. -/
theorem hybridSearchResults_origin {objects : Option (List (StoredObject K))} {rs : List SearchResult}
    (h : hybridSearchResults W userId objects = .ok rs) :
    ∃ objs, objects = some objs ∧ NoneForeign userId objs ∧
      ∀ r ∈ rs, ∃ o ∈ objs, ∃ ps, o.Reads W userId ps r := by
  cases objects with
  | none => cases h
  | some objs =>
    simp only [hybridSearchResults] at h
    cases hloop : objs.foldlM (HybridScan.next W userId) ⟨[], ∅, ∅, ∅⟩ with
    | error e =>
      rw [hloop] at h
      cases h
    | ok s =>
      rw [hloop] at h
      cases h
      refine ⟨objs, rfl, fun o ho hforeign => ?_, fun r hr => ?_⟩
      · obtain ⟨s', t', hturn⟩ := foldlM_turn ho hloop
        obtain ⟨e, he⟩ := readObject_foreign (W := W) hforeign
        rw [HybridScan.next, he] at hturn
        cases hturn
      · have hall : ∀ r ∈ s.results, ∃ o ∈ objs, ∃ ps, o.Reads W userId ps r := by
          refine foldlM_preserves (P := fun s => ∀ r ∈ s.results, ∃ o ∈ objs, ∃ ps, o.Reads W userId ps r) ?_
            (by simp) hloop
          intro s o t ho hs ht r hr
          rcases HybridScan.next_results ht with hsame | ⟨r', ps, hread, hnew⟩
          · rw [hsame] at hr
            exact hs r hr
          · rw [hnew, List.mem_append, List.mem_singleton] at hr
            rcases hr with hr | rfl
            · exact hs r hr
            · exact ⟨o, ho, ps, hread⟩
        exact hall r (List.mem_filter.mp hr).1

/-- Each result of a search is read from an object of the user in the response, which holds no
object of another user. -/
theorem hybridSearch_origin {hybrid : Text → List (List K) → ℕ → Except PyError (Option (List (StoredObject K)))}
    {q : Text} {v : RawMatrix K} {k : ℕ} {rs : List SearchResult} (h : hybridSearch W userId hybrid q v k = .ok rs) :
    ∃ vector objs, multiVectorValues "query_vector" v = .ok vector ∧ hybrid q vector k = .ok (some objs) ∧
      NoneForeign userId objs ∧ ∀ r ∈ rs, ∃ o ∈ objs, ∃ ps, o.Reads W userId ps r := by
  obtain ⟨query, hquery, h⟩ := bind_eq_ok_iff.mp h
  obtain ⟨vector, hvector, h⟩ := bind_eq_ok_iff.mp h
  split_ifs at h with hk
  obtain ⟨objects, hobjects, h⟩ := bind_eq_ok_iff.mp h
  obtain ⟨objs, rfl, hnone, hrs⟩ := hybridSearchResults_origin h
  obtain ⟨hq, -⟩ := requiredText_eq_ok_iff.mp hquery
  cases hq
  exact ⟨vector, objs, hvector, hobjects, hnone, hrs⟩

/-! ### Hydration -/

/-- The object has all that a hydrated result is made of. -/
structure StoredObject.Hydrates (W : CollectionWrapper) (userId : Text) (o : StoredObject K) (ps : Properties)
    (h : HydratedSearchResult K) : Prop extends o.Backs W userId ps h.objectId where
  /-- Its canonical id. -/
  canonicalId : Uuid.ofText (ps.get W.canonicalIdProperty).toStr = some h.canonicalId
  /-- The text, where one is hydrated. -/
  rawText : ∀ t, h.rawText = some t → ps.get (lit "raw_text") = .str t

/-- The dictionary of the candidates: each under its own identifier, in their order. -/
theorem expectedCandidates_spec {cs : List SearchResult} {start expected : Dict Uuid SearchResult}
    (h : expectedCandidates W cs start = .ok expected) :
    expected.keys = start.keys ++ cs.map SearchResult.objectId ∧
      ∀ id c, expected.get? id = some c → start.get? id = some c ∨ c ∈ cs ∧ c.objectId = id := by
  induction cs generalizing start with
  | nil =>
    cases h
    exact ⟨by simp, fun id c hc => .inl hc⟩
  | cons c cs ih =>
    rw [expectedCandidates] at h
    split_ifs at h with hmem hcanonical
    obtain ⟨hkeys, hget⟩ := ih h
    rw [Dict.contains_iff] at hmem
    refine ⟨?_, fun id d hd => ?_⟩
    · rw [hkeys, Dict.keys_set_of_not_mem _ hmem, List.map_cons, List.append_assoc, List.singleton_append]
    · rcases hget id d hd with hold | ⟨hin, hid⟩
      · rw [Dict.get?_set] at hold
        split_ifs at hold with hid
        · cases hold
          exact .inr ⟨List.mem_cons_self, hid⟩
        · exact .inl hold
      · exact .inr ⟨List.mem_cons_of_mem _ hin, hid⟩

theorem hydrateNext_foreign {expected : Dict Uuid SearchResult} {hydrated : Dict Uuid (HydratedSearchResult K)}
    (h : o.Foreign userId) : ∃ e, hydrateNext W userId expected hydrated o = .error e := by
  obtain ⟨ps, owner, hps, howner, hne⟩ := h
  unfold hydrateNext
  split
  · exact ⟨_, rfl⟩
  · split
    · exact ⟨_, rfl⟩
    · simp only [hps, howner, if_pos hne]
      exact ⟨_, rfl⟩

/-- What the checks make of an object that is not a duplicate. -/
theorem hydrateObject_origin {candidate : SearchResult} {ps : Properties} (hps : o.properties = some ps)
    (howner : ps.get (lit "user_id") = .str userId) (huuid : Uuid.ofText o.uuid.toStr = some candidate.objectId)
    (hok : (hydrateObject W candidate ps o.vector).quarantineReason = none) :
    o.Hydrates W userId ps (hydrateObject W candidate ps o.vector) := by
  simp only [hydrateObject] at hok ⊢
  by_cases hid : (resultUuid (ps.get W.idProperty) "business id").toOption = some candidate.objectId
  case neg =>
    rw [if_pos hid] at hok
    cases hok
  by_cases hcanonical : (resultUuid (ps.get W.canonicalIdProperty) "canonical id").toOption = some candidate.canonicalId
  case neg =>
    rw [if_neg (not_not.mpr hid), if_pos hcanonical] at hok
    cases hok
  rw [if_neg (not_not.mpr hid), if_neg (not_not.mpr hcanonical)] at hok ⊢
  rw [toOption_eq_some_iff, resultUuid_eq_ok_iff] at hid hcanonical
  have hback : o.Backs W userId ps candidate.objectId := ⟨hps, howner, huuid, hid⟩
  split_ifs at hok ⊢ with hindex hraw
  · cases hok
  · cases htext : requiredText (ps.get (lit "raw_text")) "raw_text" with
    | error e =>
      rw [htext] at hok
      cases hok
    | ok rawText =>
      refine ⟨hback, hcanonical, fun t ht => ?_⟩
      cases ht
      exact (requiredText_eq_ok_iff.mp htext).1
  · exact ⟨hback, hcanonical, fun t h => by cases h⟩

/-- What the loop has hydrated without a reason for quarantine. -/
def HydratedFrom (W : CollectionWrapper) (userId : Text) (objs : List (StoredObject K))
    (hydrated : Dict Uuid (HydratedSearchResult K)) : Prop :=
  ∀ id h, hydrated.get? id = some h → h.quarantineReason = none → ∃ o ∈ objs, ∃ ps, o.Hydrates W userId ps h

theorem hydrateNext_origin {objs : List (StoredObject K)} {expected : Dict Uuid SearchResult}
    {hydrated hydrated' : Dict Uuid (HydratedSearchResult K)}
    (hexpected : ∀ id c, expected.get? id = some c → c.objectId = id) (ho : o ∈ objs)
    (hfrom : HydratedFrom W userId objs hydrated) (h : hydrateNext W userId expected hydrated o = .ok hydrated') :
    HydratedFrom W userId objs hydrated' := by
  -- a result that is set is quarantined, or made of the object
  have hset : ∀ id x, (x.quarantineReason = none → o.Hydrates W userId (o.properties.getD []) x) →
      HydratedFrom W userId objs (hydrated.set id x) := by
    intro id x hx j y hy hok
    rw [Dict.get?_set] at hy
    split_ifs at hy with hj
    · cases hy
      exact ⟨o, ho, _, hx hok⟩
    · exact hfrom j y hy hok
  unfold hydrateNext at h
  split at h
  · cases h
  rename_i objectId hobject
  split at h
  · cases h
  rename_i candidate hcandidate
  split at h
  · cases h
    exact hset _ _ (by simp [SearchResult.quarantined])
  rename_i ps hps
  split at h
  case h_2 =>
    cases h
    exact hset _ _ (by simp [SearchResult.quarantined])
  rename_i owner howner
  by_cases hother : owner = userId
  case neg =>
    rw [if_pos hother] at h
    cases h
  rw [if_neg (not_not.mpr hother)] at h
  split_ifs at h with hduplicate
  · cases h
    exact hset _ _ (by simp [SearchResult.quarantined])
  · cases h
    subst hother
    refine hset _ _ fun hok => ?_
    have huuid := resultUuid_eq_ok_iff.mp hobject
    rw [← hexpected _ _ hcandidate] at huuid
    rw [hps]
    exact hydrateObject_origin hps howner huuid hok

/-- Each hydrated result that is not quarantined is made of an object of the user in the response,
which holds no object of another user. -/
theorem hydrateMmrHead_origin {fetch : List Uuid → Except PyError (Option (List (StoredObject K)))}
    {cs : List SearchResult} {hs : List (HydratedSearchResult K)} (hne : cs ≠ [])
    (h : hydrateMmrHead W userId fetch cs = .ok hs) :
    ∃ objs, fetch (cs.map SearchResult.objectId) = .ok (some objs) ∧ NoneForeign userId objs ∧
      ∀ x ∈ hs, x.quarantineReason = none → ∃ o ∈ objs, ∃ ps, o.Hydrates W userId ps x := by
  rw [hydrateMmrHead, if_neg (by simpa using hne)] at h
  obtain ⟨expected, hexpected, h⟩ := bind_eq_ok_iff.mp h
  obtain ⟨objects, hobjects, h⟩ := bind_eq_ok_iff.mp h
  obtain ⟨hkeys, hget⟩ := expectedCandidates_spec hexpected
  rw [Dict.keys_empty, List.nil_append] at hkeys
  rw [hkeys] at hobjects
  cases objects with
  | none => cases h
  | some objs =>
    simp only [hydratedResults] at h
    cases hloop : objs.foldlM (hydrateNext W userId expected) .empty with
    | error e =>
      rw [hloop] at h
      cases h
    | ok hydrated =>
      rw [hloop] at h
      cases h
      refine ⟨objs, hobjects, fun o ho hforeign => ?_, fun x hx hok => ?_⟩
      · obtain ⟨s, t, hturn⟩ := foldlM_turn ho hloop
        obtain ⟨e, he⟩ : ∃ e, hydrateNext W userId expected s o = .error e := hydrateNext_foreign hforeign
        rw [he] at hturn
        cases hturn
      · have hfrom : HydratedFrom W userId objs hydrated := by
          refine foldlM_preserves (fun s o t ho hs ht => hydrateNext_origin (fun id c hc => ?_) ho hs ht) ?_ hloop
          · rcases hget id c hc with hnone | ⟨-, hid⟩
            · cases hnone
            · exact hid
          · intro id x hx
            cases hx
        obtain ⟨c, hc, rfl⟩ := List.mem_map.mp hx
        cases hfound : hydrated.get? c.objectId with
        | none =>
          rw [hfound] at hok
          cases hok
        | some y =>
          rw [hfound] at hok
          exact hfrom _ _ hfound hok

end TenantRag

import TenantRag.Rag.Normalization
import TenantRag.Rag.RetrievalStages

/-!
# Retrieval reads only its user's objects

`retrieve` gets its candidates from the search of a wrapper, and their texts from its
hydration: two reads of storage, joined by identifiers. The wrapper is bound to one
user; storage may answer anything.

## The model

The client of `retrieve` is a wrapper over two functions for what storage answers. The
results pass to `retrieve` as the wrapper returns them: identifiers as canonical texts,
`None` for what is missing.

## What is proved

* `candidate_origin` — a candidate is one of the results of the search.
* `final_origin` — an item of the final list is a hydrated candidate of the pool.
* `retrieval_isolated` — what a search, a hydration or a retrieval returns comes from
  objects of the user, and an object of another user in a response makes it raise.
-/

namespace TenantRag

variable {K : Type}

/-! ### The wrapper as a client -/

/-- A `SearchResult` as `retrieve` sees it. -/
def SearchResult.raw (r : SearchResult) : RawResult :=
  .result (.str r.objectId.str) (.str r.canonicalId.str) (.str r.retrievalText) r.segmentIndex

/-- `None`, or a text. -/
def optionalText : Option Text → PyValue
  | none => .none
  | some t => .str t

/-- A `HydratedSearchResult` as `retrieve` sees it. -/
def HydratedSearchResult.raw (h : HydratedSearchResult K) : RawHydrated K :=
  .result (.str h.objectId.str) (.str h.canonicalId.str)
    (match h.diversityVector with
      | none => .notSequence
      | some xs => .ofNumbers xs)
    (optionalText h.rawText) h.segmentIndex (optionalText (h.quarantineReason.map lit))

/-- A wrapper bound to a user, where storage answers a search and a fetch by ids. -/
def CollectionWrapper.client (W : CollectionWrapper) (userId : Text)
    (hybrid : Text → List (List K) → ℕ → Except PyError (Option (List (StoredObject K))))
    (fetch : List Uuid → Except PyError (Option (List (StoredObject K)))) : CollectionClient K where
  hybridSearch query vector topK :=
    (hybridSearch W userId hybrid query (.sequence (vector.map .ofNumbers)) topK).map fun rs =>
      some (rs.map SearchResult.raw)
  hydrateMmrHead candidates :=
    (hydrateMmrHead W userId fetch candidates).map fun hs => some (hs.map HydratedSearchResult.raw)

/-! ### Candidates -/

/-- The fields of a result of the search are valid when its text is not blank. -/
theorem parseResult_raw {T : CollectionType} {r : SearchResult} (h : isBlank r.retrievalText = false) :
    parseResult T r.raw = .fields r := by
  have hstr : ∀ (u : Uuid) (name : String), requiredText (.str u.str) name = .ok u.str := fun u name =>
    requiredText_eq_ok_iff.mpr ⟨rfl, by
      rw [isBlank, Uuid.strip_str, List.isEmpty_eq_false_iff]
      exact u.str_ne_nil⟩
  simp only [parseResult, SearchResult.raw, hstr, requiredText_eq_ok_iff.mpr ⟨rfl, h⟩, Uuid.ofText_str]

/-- A candidate that `retrieve` takes from results with texts is one of them. -/
theorem candidate_origin {uuid5 : Uuid → Text → Uuid} {T : CollectionType} {rs : List SearchResult} {c : SearchResult}
    (hrs : ∀ r ∈ rs, isBlank r.retrievalText = false)
    (h : c ∈ normalizedCandidates uuid5 T (rs.map SearchResult.raw)) : c ∈ rs := by
  obtain ⟨r, hr, hfields⟩ := List.mem_filterMap.mp (mem_normalizedCandidates.mp h).1
  obtain ⟨d, hd, rfl⟩ := List.mem_map.mp hr
  rw [validFields, parseResult_raw (hrs d hd)] at hfields
  cases hfields
  exact hd

/-! ### The final list -/

section Retrieve

variable [Field K] [LinearOrder K] {S : RetrievalSettings K} {R : RetrievalRuntime K} {client : CollectionClient K}
  {T : CollectionType} {q : Text} {v : RawMatrix K} {s : RetrievalStages K}

/-- An item of the final list is a hydrated candidate of the pool. -/
theorem final_origin (run : RetrievalRun S R client T q v s) {item : ContextItem K} (h : item ∈ s.final) :
    ∃ x ∈ s.hydratedPool, x.toCandidate ∈ s.adaptivePool ∧ item = x.item T := by
  have hresult : item ∈ s.results := (budgeted_spec run.final).subset h
  rw [(finalResults_eq run.results).1] at hresult
  obtain ⟨x, hx, rfl⟩ := List.mem_map.mp hresult
  have hpool : x ∈ s.hydratedPool := (selectPool_spec run.mmrSelected).1.subset hx
  have hcandidate := (hydratePool_spec run.hydratedPool).1.subset (List.mem_map_of_mem hpool)
  exact ⟨x, hpool, hcandidate, rfl⟩

/-- The pool is a part of what was reranked. -/
theorem adaptivePool_sublist (run : RetrievalRun S R client T q v s) : s.adaptivePool.Sublist s.reranked := by
  rw [run.adaptivePool, run.eligible]
  exact (List.take_sublist _ _).trans (eligibleCandidates_sublist _ _ _)

/-- Chunks are reranked as they are scored, so each is one of the candidates. -/
theorem chunk_origin (run : RetrievalRun S R client T q v s) (hT : T ≠ .conversations) {c : Candidate K}
    (h : c ∈ s.adaptivePool) : c.result ∈ s.candidates := by
  have hreranked : c ∈ s.reranked := (adaptivePool_sublist run).subset h
  have hsame := run.reranked
  rw [rerankedCandidates, if_neg hT, Except.ok.injEq] at hsame
  rw [← hsame] at hreranked
  exact (crossEncoder_spec run.scored).1.mem_iff.mp (List.mem_map_of_mem hreranked)

end Retrieve

/-! ### Isolation -/

/-- The answer for a candidate has its canonical id, its text where there is one, and no reason. -/
theorem HydratedSearchResult.raw_eq {h : HydratedSearchResult K} {o c : Uuid} {vector : RawVector K}
    {rawText index : PyValue} (heq : h.raw = .result (.str o.str) (.str c.str) vector rawText index .none) :
    h.canonicalId = c ∧ (∀ t, rawText = .str t → h.rawText = some t) ∧ h.quarantineReason = none := by
  simp only [HydratedSearchResult.raw, RawHydrated.result.injEq, PyValue.str.injEq] at heq
  obtain ⟨-, hcanonical, -, hraw, -, hreason⟩ := heq
  refine ⟨Uuid.str_injective hcanonical, fun t ht => ?_, ?_⟩
  · rw [ht] at hraw
    cases hr : h.rawText with
    | none =>
      rw [hr] at hraw
      cases hraw
    | some t' =>
      rw [hr] at hraw
      cases hraw
      rfl
  · cases hr : h.quarantineReason with
    | none => rfl
    | some reason =>
      rw [hr] at hreason
      cases hreason

/-- The text of a conversation is the one that was hydrated. -/
theorem hydratedText_conversations {c : Candidate K} {request : SearchResult} {rawText : PyValue} {t : Text}
    (h : hydratedText .conversations c request rawText = some t) : rawText = .str t := by
  simp only [hydratedText] at h
  split at h
  · cases h
  · rename_i t' ht
    split_ifs at h
    cases h
    exact (requiredText_eq_ok_iff.mp ht).1

/-- The text of a chunk is the one that was found. -/
theorem hydratedText_chunk {T : CollectionType} (hT : T ≠ .conversations) {c : Candidate K} {request : SearchResult}
    {rawText : PyValue} {t : Text} (h : hydratedText T c request rawText = some t) : c.retrievalText = t := by
  cases T with
  | conversations => exact absurd rfl hT
  | knowledgeFacts => exact Option.some.inj h
  | policy => exact Option.some.inj h

section Isolated

variable {W : CollectionWrapper} {userId : Text}
  {hybrid : Text → List (List K) → ℕ → Except PyError (Option (List (StoredObject K)))}
  {fetch : List Uuid → Except PyError (Option (List (StoredObject K)))}

/-- The item comes from an object of the search, for a chunk, or of the hydration. -/
def ContextItem.From (W : CollectionWrapper) (userId : Text) (T : CollectionType)
    (searched fetched : List (StoredObject K)) (item : ContextItem K) : Prop :=
  if T = .conversations then
    ∃ o ∈ fetched, ∃ ps objectId, o.Backs W userId ps objectId ∧
      Uuid.ofText (ps.get W.canonicalIdProperty).toStr = some item.objectId ∧
      ps.get (lit "raw_text") = .str item.rawText
  else
    ∃ o ∈ searched, ∃ ps, o.Backs W userId ps item.objectId ∧ ps.get W.searchProperty = .str item.rawText

variable [Field K] [LinearOrder K] {S : RetrievalSettings K} {R : RetrievalRuntime K} {T : CollectionType} {q : Text}
  {v : RawMatrix K} {s : RetrievalStages K}

/-- Both reads of a retrieval that returned answered no object of another user, and its items come
from objects of the user among them. -/
theorem retrieveStages_isolated (h : retrieveStages S R (W.client userId hybrid fetch) T q v = .ok s) :
    ∃ vector searched, hybrid q vector (S.config T).candidateCount = .ok (some searched) ∧
      NoneForeign userId searched ∧
      ((s.adaptivePool = [] ∧ s.final = []) ∨
        ∃ requested fetched, s.adaptivePool.mapM (hydrationRequest T) = .ok requested ∧
          fetch (requested.map SearchResult.objectId) = .ok (some fetched) ∧ NoneForeign userId fetched ∧
          ∀ item ∈ s.final, item.From W userId T searched fetched) := by
  have run := retrieveStages_run h
  obtain ⟨vector, results, -, hsearch, hcandidates⟩ := run.search
  obtain ⟨rs, hrs, hresults⟩ := map_eq_ok_iff.mp hsearch
  cases hresults
  obtain ⟨vector', searched, -, hsearched, hnone, horigin⟩ := hybridSearch_origin hrs
  refine ⟨vector', searched, hsearched, hnone, ?_⟩
  by_cases hempty : s.adaptivePool = []
  · refine .inl ⟨hempty, List.eq_nil_iff_forall_not_mem.mpr fun item hitem => ?_⟩
    obtain ⟨x, -, hx, -⟩ := final_origin run hitem
    rw [hempty] at hx
    cases hx
  · obtain ⟨requested, raw, hrequested, hraw, hfrom⟩ := (hydratePool_spec run.hydratedPool).2.2 hempty
    obtain ⟨hs, hhydrated, hsome⟩ := map_eq_ok_iff.mp hraw
    cases hsome
    have hne : requested ≠ [] := by
      rintro rfl
      have hlength := (mapM_eq_ok_iff.mp hrequested).length_eq
      exact hempty (List.eq_nil_of_length_eq_zero hlength)
    obtain ⟨fetched, hfetched, hnone', horigin'⟩ := hydrateMmrHead_origin hne hhydrated
    refine .inr ⟨requested, fetched, hrequested, hfetched, hnone', fun item hitem => ?_⟩
    obtain ⟨x, hx, hpool, rfl⟩ := final_origin run hitem
    obtain ⟨request, -, answer, hanswer, hfrom⟩ := hfrom x hx
    obtain ⟨y, hy, rfl⟩ := List.mem_map.mp hanswer
    have hasked := hydrationRequest_spec hfrom.requested
    obtain ⟨yvector, yraw, yindex, heq, -, htext, -⟩ := hfrom.answered
    rw [ContextItem.From]
    split_ifs with hT
    · obtain ⟨hcanonical, hraw, hreason⟩ := HydratedSearchResult.raw_eq heq
      obtain ⟨o, ho, ps, hbacks⟩ := horigin' y hy hreason
      subst hT
      refine ⟨o, ho, ps, y.objectId, hbacks.toBacks, ?_, hbacks.rawText _ (hraw _ (hydratedText_conversations htext))⟩
      rw [hbacks.canonicalId, hcanonical, hasked.canonicalId]
      rfl
    · have hcandidate := chunk_origin run hT hpool
      rw [hcandidates] at hcandidate
      obtain ⟨o, ho, ps, hreads⟩ := horigin _ (candidate_origin
        (fun r hr => by
          obtain ⟨o, -, ps, hreads⟩ := horigin r hr
          exact hreads.notBlank) hcandidate)
      refine ⟨o, ho, ps, hreads.toBacks, ?_⟩
      rw [hreads.retrievalText]
      exact congrArg PyValue.str (hydratedText_chunk hT htext)

end Isolated

/-- What a search, a hydration or a retrieval returns comes from objects of the user, each under its
own business id, in responses without an object of another user: such an object makes the call raise. -/
theorem retrieval_isolated [Field K] [LinearOrder K] (W : CollectionWrapper) (userId : Text)
    (hybrid : Text → List (List K) → ℕ → Except PyError (Option (List (StoredObject K))))
    (fetch : List Uuid → Except PyError (Option (List (StoredObject K)))) :
    (∀ q v k rs, hybridSearch W userId hybrid q v k = .ok rs →
      ∃ vector searched, multiVectorValues "query_vector" v = .ok vector ∧ hybrid q vector k = .ok (some searched) ∧
        NoneForeign userId searched ∧ ∀ r ∈ rs, ∃ o ∈ searched, ∃ ps, o.Reads W userId ps r) ∧
    (∀ cs hs, cs ≠ [] → hydrateMmrHead W userId fetch cs = .ok hs →
      ∃ fetched, fetch (cs.map SearchResult.objectId) = .ok (some fetched) ∧ NoneForeign userId fetched ∧
        ∀ x ∈ hs, x.quarantineReason = none → ∃ o ∈ fetched, ∃ ps, o.Hydrates W userId ps x) ∧
    ∀ (S : RetrievalSettings K) (R : RetrievalRuntime K) T q v items,
      retrieve S R (W.client userId hybrid fetch) T q v = .ok items →
        ∃ s, retrieveStages S R (W.client userId hybrid fetch) T q v = .ok s ∧ s.final = items ∧
          ∃ vector searched, hybrid q vector (S.config T).candidateCount = .ok (some searched) ∧
            NoneForeign userId searched ∧
            ((s.adaptivePool = [] ∧ items = []) ∨
              ∃ requested fetched, s.adaptivePool.mapM (hydrationRequest T) = .ok requested ∧
                fetch (requested.map SearchResult.objectId) = .ok (some fetched) ∧ NoneForeign userId fetched ∧
                ∀ item ∈ items, item.From W userId T searched fetched) := by
  refine ⟨fun q v k rs h => hybridSearch_origin h, fun cs hs hne h => hydrateMmrHead_origin hne h, ?_⟩
  intro S R T q v items h
  obtain ⟨s, hs, rfl⟩ := map_eq_ok_iff.mp h
  exact ⟨s, hs, rfl, retrieveStages_isolated hs⟩

/-! ### One policy chunk -/

/-- A retrieval of at most four items above a floor of zero. -/
def settingsSample : RetrievalSettings ℚ where
  config _ := ⟨20, 4, 0, 1 / 2, 1 / 2⟩
  knowledgeTokens := 100
  policyTokens := 100

/-- Every text has the score one. -/
def runtimeSample : RetrievalRuntime ℚ where
  rerank _ texts := .ok (some (texts.zipIdx.map fun t => .result (.int t.2) (.number 1)))
  encode t := t.map fun c => c.val
  sigmoid x := x
  vectors := ⟨fun xs => xs.any fun x => x ≠ 0, fun _ _ => 1, rfl⟩
  uuid5 _ _ := Uuid.ofNat 0

/-- A stored chunk of the user `u`. -/
def chunkSample : StoredObject ℚ where
  uuid := .uuid (Uuid.ofNat 1)
  properties := some [(lit "chunk_id", .uuid (Uuid.ofNat 1)), (lit "user_id", .str (lit "u")),
    (lit "raw_text", .str (lit "opening hours"))]
  vector := .none

/-- The client of the user `u` over a store with that chunk. -/
def clientSample : CollectionClient ℚ :=
  chunkWrapper.client (lit "u") (fun _ _ _ => .ok (some [chunkSample])) (fun _ => .ok (some [chunkSample]))

/-- The query vector of the sample. -/
def querySample : RawMatrix ℚ := .sequence [.ofNumbers (List.replicate lateonEmbeddingDimension 1)]

/-- The chunk is found, and it is the user's. -/
theorem retrieval_isolated_sample :
    retrieve settingsSample runtimeSample clientSample .policy (lit "hours?") querySample =
        .ok [⟨Uuid.ofNat 1, lit "opening hours", some (.number 1)⟩] ∧
      NoneForeign (lit "u") [chunkSample] := by
  have hfound : retrieve settingsSample runtimeSample clientSample .policy (lit "hours?") querySample =
      .ok [⟨Uuid.ofNat 1, lit "opening hours", some (.number 1)⟩] := by decide +kernel
  refine ⟨hfound, ?_⟩
  obtain ⟨s, -, -, vector, searched, hsearched, hnone, -⟩ :=
    (retrieval_isolated chunkWrapper (lit "u") (fun _ _ _ => .ok (some [chunkSample]))
      (fun _ => .ok (some [chunkSample]))).2.2 settingsSample runtimeSample .policy (lit "hours?") querySample _ hfound
  cases hsearched
  exact hnone

end TenantRag

import TenantRag.Config.CollectionNames
import TenantRag.Foundations.Decimal
import TenantRag.Weaviate.Search
import Mathlib.Algebra.Order.Field.Basic
import Mathlib.Data.List.Infix
import Mathlib.Data.List.Sort

/-!
# Retrieval

`retrieve` in `backend/rag/retrieval.py`: the results of a hybrid search are
checked, scored by a cross encoder, collapsed to conversations where they are
segments, cut at a relevance floor and at the largest gap of the scores, hydrated,
reranked by MMR, and cut to a token budget.

## The model

Scores and vectors are numbers of an ordered field. The sigmoid and the arithmetic of
vectors, which rounds, are parameters; so are the search, the cross encoder, the
hydration, the tokenizer and `uuid5`, each of which may answer anything of the types the
code looks at, or raise. The stages between are kept together in one record.
-/

namespace TenantRag

/-- `RetrievalConfig`. -/
structure RetrievalConfig (K : Type) where
  /-- `candidate_count`. -/
  candidateCount : ℕ
  /-- `final_count`. -/
  finalCount : ℕ
  /-- `adaptive_relevance_floor`. -/
  adaptiveRelevanceFloor : K
  /-- `adaptive_gap_threshold`. -/
  adaptiveGapThreshold : K
  /-- `mmr_lambda`. -/
  mmrLambda : K

/-- The configuration of the collections, and the budgets `_CONTEXT_BUDGETS`. -/
structure RetrievalSettings (K : Type) where
  /-- `_COLLECTION_CONFIGS`. -/
  config : CollectionType → RetrievalConfig K
  /-- `TOKEN_BUDGETS.knowledge_tokens`. -/
  knowledgeTokens : ℕ
  /-- `TOKEN_BUDGETS.policy_tokens`. -/
  policyTokens : ℕ

/-- `_CONTEXT_BUDGETS.get(collection_type)`. -/
def RetrievalSettings.budget {K : Type} (S : RetrievalSettings K) : CollectionType → Option ℕ
  | .conversations => none
  | .knowledgeFacts => some S.knowledgeTokens
  | .policy => some S.policyTokens

/-- An item of the list that `hybrid_search` returns. -/
inductive RawResult where
  /-- No `SearchResult`. -/
  | other
  /-- A `SearchResult`. -/
  | result (objectId canonicalId retrievalText segmentIndex : PyValue)
  deriving DecidableEq

/-- An item of the sequence that the cross encoder returns. -/
inductive RawScore (K : Type) where
  /-- No `RerankResult`. -/
  | other
  /-- A `RerankResult`. -/
  | result (index : PyValue) (score : VectorItem K)

/-- An item of the list that `hydrate_mmr_head` returns. -/
inductive RawHydrated (K : Type) where
  /-- No `HydratedSearchResult`. -/
  | other
  /-- A `HydratedSearchResult`. -/
  | result (objectId canonicalId : PyValue) (diversityVector : RawVector K) (rawText segmentIndex quarantineReason : PyValue)

/-- `collection_client`; `none` stands for a value that is no list. -/
structure CollectionClient (K : Type) where
  /-- `hybrid_search(query, vector, top_k)`. -/
  hybridSearch : Text → List (List K) → ℕ → Except PyError (Option (List RawResult))
  /-- `hydrate_mmr_head(candidates)`. -/
  hydrateMmrHead : List SearchResult → Except PyError (Option (List (RawHydrated K)))

/-- What is computed of vectors of floats. -/
structure VectorArithmetic (K : Type) where
  /-- `math.sqrt(sum(item * item for item in vector))` is above zero. Squares may vanish, so that it need not
  be for a vector that is not zero. -/
  positiveNorm : List K → Bool
  /-- `_cosine_similarity(left, right)` of vectors of one length with positive norms. -/
  cosine : List K → List K → K
  /-- Without numbers the sum is zero. -/
  positiveNorm_nil : positiveNorm [] = false

/-- What `retrieve` takes from `RAGRuntime` and from the libraries. -/
structure RetrievalRuntime (K : Type) where
  /-- `reranker.rerank(query, texts)`. -/
  rerank : Text → List Text → Except PyError (Option (List (RawScore K)))
  /-- `tokenizer.encode(text)`. -/
  encode : Text → List ℕ
  /-- `_sigmoid_score(score)`. -/
  sigmoid : K → K
  /-- The arithmetic of `_hydrate_mmr_head` and `_mmr`. -/
  vectors : VectorArithmetic K
  /-- `uuid5(namespace, name)`. -/
  uuid5 : Uuid → Text → Uuid

variable {K : Type}

/-! ### The results of the search -/

/-- `f"retrieval-segment:{segment_index}"`. -/
def retrievalSegmentName (index : ℕ) : Text := lit "retrieval-segment:" ++ decimal index

/-- What the loop of `_normalized_candidates` makes of one item before it looks at the others. -/
inductive ParsedResult where
  /-- It is malformed; the conversation it names, where it names one. -/
  | malformed (conversation : Option Uuid)
  /-- Its fields are valid. -/
  | fields (c : SearchResult)

/-- The checks of `_normalized_candidates` on the fields of one item. -/
def parseResult (T : CollectionType) : RawResult → ParsedResult
  | .other => .malformed none
  | .result objectId canonicalId retrievalText segmentIndex =>
      let recoverable := if T = .conversations then Uuid.ofText canonicalId.toStr else none
      match requiredText objectId "object_id", requiredText canonicalId "canonical_id",
          requiredText retrievalText "retrieval_text" with
      | .ok o, .ok c, .ok t =>
          match Uuid.ofText o, Uuid.ofText c with
          | some o, some c => .fields ⟨o, c, t, segmentIndex⟩
          | _, _ => .malformed recoverable
      | _, _, _ => .malformed recoverable

/-- The segment index is a number, and the object's id is derived from it. -/
def segmentIdentity (uuid5 : Uuid → Text → Uuid) (c : SearchResult) : Option ℕ :=
  match c.segmentIndex.natural? with
  | none => none
  | some n => if c.objectId = uuid5 c.canonicalId (retrievalSegmentName n) then some n else none

/-- The locals of the loop of `_normalized_candidates`. -/
structure NormalizeScan where
  /-- `normalized`. -/
  normalized : List SearchResult
  /-- `seen_object_ids`. -/
  seenObjectIds : Finset Uuid
  /-- `quarantined_object_ids`. -/
  quarantinedObjectIds : Finset Uuid
  /-- `quarantined_conversations`. -/
  quarantinedConversations : Finset Uuid
  /-- `conversation_indices`. -/
  conversationIndices : Dict (Uuid × ℕ) Uuid

/-- One turn of the loop for an item whose fields are valid. -/
def NormalizeScan.add (uuid5 : Uuid → Text → Uuid) (T : CollectionType) (s : NormalizeScan) (c : SearchResult) :
    NormalizeScan :=
  if c.objectId ∈ s.seenObjectIds then
    let others := (s.normalized.filter fun x => x.objectId = c.objectId).map SearchResult.canonicalId
    { s with
      quarantinedObjectIds := insert c.objectId s.quarantinedObjectIds
      quarantinedConversations :=
        if T = .conversations then insert c.canonicalId (s.quarantinedConversations ∪ others.toFinset)
        else s.quarantinedConversations }
  else
    let s := { s with seenObjectIds := insert c.objectId s.seenObjectIds }
    if T = .conversations then
      match segmentIdentity uuid5 c with
      | none => { s with quarantinedConversations := insert c.canonicalId s.quarantinedConversations }
      | some index =>
          match s.conversationIndices.get? (c.canonicalId, index) with
          | some existing =>
              if existing ≠ c.objectId then
                { s with quarantinedConversations := insert c.canonicalId s.quarantinedConversations }
              else { s with normalized := s.normalized ++ [c] }
          | none =>
              { s with
                normalized := s.normalized ++ [c]
                conversationIndices := s.conversationIndices.set (c.canonicalId, index) c.objectId }
    else if c.canonicalId ≠ c.objectId then
      { s with quarantinedObjectIds := insert c.objectId s.quarantinedObjectIds }
    else { s with normalized := s.normalized ++ [c] }

/-- One turn of the loop of `_normalized_candidates`. -/
def NormalizeScan.next (uuid5 : Uuid → Text → Uuid) (T : CollectionType) (s : NormalizeScan) (r : RawResult) :
    NormalizeScan :=
  match parseResult T r with
  | .malformed none => s
  | .malformed (some c) => { s with quarantinedConversations := insert c s.quarantinedConversations }
  | .fields c => s.add uuid5 T c

/-- `_normalized_candidates(results, collection_type)` of a list. -/
def normalizedCandidates (uuid5 : Uuid → Text → Uuid) (T : CollectionType) (results : List RawResult) :
    List SearchResult :=
  let s := results.foldl (NormalizeScan.next uuid5 T) ⟨[], ∅, ∅, ∅, .empty⟩
  s.normalized.filter fun c => c.objectId ∉ s.quarantinedObjectIds ∧ c.canonicalId ∉ s.quarantinedConversations

/-! ### Scores -/

/-- A candidate with its score: the dictionary of `_cross_encoder`. -/
structure Candidate (K : Type) where
  /-- `"object_id"`. -/
  objectId : Uuid
  /-- `"canonical_id"`. -/
  canonicalId : Uuid
  /-- `"retrieval_text"`. -/
  retrievalText : Text
  /-- `"segment_index"`. -/
  segmentIndex : PyValue
  /-- `"rerank_score"`. -/
  rerankScore : K
  /-- `"segment_id"`, once the candidate stands for a conversation. -/
  segmentId : Option Uuid
  deriving DecidableEq

/-- The candidate for a search result. -/
def SearchResult.scored (c : SearchResult) (score : K) : Candidate K :=
  ⟨c.objectId, c.canonicalId, c.retrievalText, c.segmentIndex, score, none⟩

/-- `0 <= index < n` for an index that is an `int`. -/
def rerankIndex (n : ℕ) : PyValue → Except PyError ℕ
  | .int (.ofNat i) =>
      if i < n then .ok i else .error (valueError "reranker result index is out of range")
  | .int _ => .error (valueError "reranker result index is out of range")
  | _ => .error (typeError "reranker result index must be an integer")

/-- `float(score)` of a finite number. -/
def rerankScore : VectorItem K → Except PyError K
  | .number x => .ok x
  | .bool => .error (typeError "reranker score must be numeric")
  | .notFinite => .error (valueError "reranker score must be finite")
  | .notNumber => .error (typeError "float() argument must be a string or a real number")

/-- The loop of `_cross_encoder`. -/
def scoreCandidates (candidates : List SearchResult) : List (RawScore K) → List ℕ → Except PyError (List (Candidate K))
  | [], _ => .ok []
  | .other :: _, _ => .error (typeError "reranker results must be RerankResult values")
  | .result index score :: rest, used =>
      match rerankIndex candidates.length index with
      | .error e => .error e
      | .ok i =>
          if i ∈ used then .error (valueError "reranker result indices must be unique")
          else
            match rerankScore score with
            | .error e => .error e
            | .ok x =>
                match candidates[i]?, scoreCandidates candidates rest (i :: used) with
                | some c, .ok cs => .ok (c.scored x :: cs)
                | _, .error e => .error e
                | none, .ok _ => .error (valueError "reranker result index is out of range")

section Order

variable [LinearOrder K]

/-- `(-score, object_id)` of one candidate is no more than that of another. -/
def Candidate.before (a b : Candidate K) : Prop :=
  b.rerankScore < a.rerankScore ∨ b.rerankScore = a.rerankScore ∧ a.objectId.str ≤ b.objectId.str

instance : DecidableRel (Candidate.before (K := K)) := fun a b => by
  unfold Candidate.before
  infer_instance

/-- `_cross_encoder(candidates, query, config, runtime)`. -/
def crossEncoder (rerank : Text → List Text → Except PyError (Option (List (RawScore K))))
    (query : Text) (candidates : List SearchResult) : Except PyError (List (Candidate K)) :=
  if candidates.isEmpty then .ok []
  else do
    match ← rerank query (candidates.map SearchResult.retrievalText) with
    | none => .error (typeError "reranker must return a sequence of RerankResult values")
    | some scores =>
        if scores.length ≠ candidates.length then
          .error (valueError "reranker must return one score for every candidate")
        else do
          let selected ← scoreCandidates candidates scores []
          .ok (selected.insertionSort Candidate.before)

/-! ### Conversations -/

/-- `_segment_index(candidate)`. -/
def Candidate.index (c : Candidate K) : Except PyError ℕ :=
  match c.segmentIndex.natural? with
  | none => .error (valueError "segment_index must be a non-negative integer")
  | some n => .ok n

/-- `(-score, segment_index, object_id)` of one candidate is less than that of another. -/
def Candidate.better (a : Candidate K) (i : ℕ) (b : Candidate K) (j : ℕ) : Bool :=
  b.rerankScore < a.rerankScore ∨ b.rerankScore = a.rerankScore ∧
    (i < j ∨ i = j ∧ a.objectId.str < b.objectId.str)

/-- The loop of `_collapse_conversations`. -/
def bestSegments : List (Candidate K) → Dict Uuid (Candidate K) → Except PyError (Dict Uuid (Candidate K))
  | [], selected => .ok selected
  | c :: cs, selected =>
      match selected.get? c.canonicalId with
      | none => bestSegments cs (selected.set c.canonicalId c)
      | some current => do
          let i ← c.index
          let j ← current.index
          bestSegments cs (if c.better i current j then selected.set c.canonicalId c else selected)

/-- A segment's candidate, copied to stand for its conversation. -/
def Candidate.standFor (c : Candidate K) (conversationId : Uuid) : Candidate K :=
  { c with segmentId := some c.objectId, objectId := conversationId }

/-- `_collapse_conversations(candidates, limit)`. -/
def collapseConversations (candidates : List (Candidate K)) (limit : ℕ) : Except PyError (List (Candidate K)) := do
  let selected ← bestSegments candidates .empty
  let collapsed := selected.entries.map fun e => e.2.standFor e.1
  .ok ((collapsed.insertionSort Candidate.before).take limit)

/-! ### Floor and gap -/

/-- `_POLICY_EMPTY_POOL_FLOOR`. -/
def policyEmptyPoolFloor [Field K] : K := -3

/-- `_eligible_candidates(reranked, config, collection_type=collection_type)`. -/
def eligibleCandidates [Field K] (C : RetrievalConfig K) (T : CollectionType) (reranked : List (Candidate K)) :
    List (Candidate K) :=
  let eligible := reranked.filter fun c => C.adaptiveRelevanceFloor ≤ c.rerankScore
  if eligible.isEmpty ∧ T = .policy then
    match reranked with
    | [] => eligible
    | first :: _ => if policyEmptyPoolFloor ≤ first.rerankScore then [first] else eligible
  else eligible

/-- `max(xs)`. -/
def maxOf (x : K) (xs : List K) : K := xs.foldl max x

/-- The differences of neighbours. -/
def gaps [Field K] (xs : List K) : List K := xs.zipWith (· - ·) xs.tail

/-- `_adaptive_k(eligible, config)`. -/
def adaptiveK [Field K] (sigmoid : K → K) (C : RetrievalConfig K) (eligible : List (Candidate K)) : ℕ :=
  if eligible.isEmpty then 0
  else
    match gaps (eligible.map fun c => sigmoid c.rerankScore) with
    | [] => 1
    | g :: gs =>
        let largest := maxOf g gs
        if largest < C.adaptiveGapThreshold then eligible.length else (g :: gs).idxOf largest + 1

/-! ### Hydration -/

/-- A hydrated candidate. -/
structure HydratedCandidate (K : Type) extends Candidate K where
  /-- `"raw_text"`. -/
  rawText : Text
  /-- `"diversity_vector"`, where it is usable. -/
  diversityVector : Option (List K)

omit [LinearOrder K] in
/-- `_hydration_requests(head, collection_type)` for one candidate. -/
def hydrationRequest (T : CollectionType) (c : Candidate K) : Except PyError SearchResult :=
  match T with
  | .conversations =>
      match c.segmentId with
      | none => .error (typeError "segment_id must be a string")
      | some segmentId => do
          let text ← requiredText (.str c.retrievalText) "retrieval_text"
          let index ← c.index
          .ok ⟨segmentId, c.objectId, text, .int index⟩
  | _ => do
      let text ← requiredText (.str c.retrievalText) "retrieval_text"
      .ok ⟨c.objectId, c.objectId, text, .none⟩

omit [LinearOrder K] in
/-- The vector of a hydrated result, where MMR can use it. -/
def usableVector (V : VectorArithmetic K) (v : RawVector K) : Option (List K) :=
  match vectorValues "diversity vector" v with
  | .error _ => none
  | .ok xs => if xs.length ≠ mmrDiversityVectorDimension ∨ V.positiveNorm xs = false then none else some xs

omit [LinearOrder K] in
/-- The text of a hydrated candidate; `none` where it is quarantined. -/
def hydratedText (T : CollectionType) (c : Candidate K) (request : SearchResult) (rawText : PyValue) : Option Text :=
  match T with
  | .conversations =>
      match requiredText rawText "raw_text" with
      | .error _ => none
      | .ok t => if request.retrievalText <:+: t then some t else none
  | _ => some c.retrievalText

omit [LinearOrder K] in
/-- One turn of the loop of `_hydrate_mmr_head`; `none` where the candidate is quarantined. -/
def hydrateCandidate (V : VectorArithmetic K) (T : CollectionType) (c : Candidate K) (request : SearchResult) :
    RawHydrated K → Option (HydratedCandidate K)
  | .other => none
  | .result objectId canonicalId diversityVector rawText segmentIndex quarantineReason =>
      if objectId ≠ .str request.objectId.str ∨ canonicalId ≠ .str request.canonicalId.str ∨
          segmentIndex.same request.segmentIndex = false then none
      else if quarantineReason ≠ .none then none
      else (hydratedText T c request rawText).map fun t => { c with rawText := t, diversityVector := usableVector V diversityVector }

omit [LinearOrder K] in
/-- `_hydrate_mmr_head(collection_client, adaptive_pool, collection_type)`: the hydrated
candidates, and whether MMR can use all their vectors. -/
def hydratePool (V : VectorArithmetic K) (hydrate : List SearchResult → Except PyError (Option (List (RawHydrated K))))
    (T : CollectionType) (pool : List (Candidate K)) : Except PyError (List (HydratedCandidate K) × Bool) :=
  if pool.isEmpty then .ok ([], true)
  else do
    let requested ← pool.mapM (hydrationRequest T)
    match ← hydrate requested with
    | none => .error (typeError "hydrate_mmr_head must return one ordered result per candidate")
    | some raw =>
        if raw.length ≠ pool.length then
          .error (typeError "hydrate_mmr_head must return one ordered result per candidate")
        else
          let hydrated := (pool.zip (requested.zip raw)).filterMap fun p => hydrateCandidate V T p.1 p.2.1 p.2.2
          .ok (hydrated, hydrated.all fun c => c.diversityVector.isSome)

/-! ### MMR -/

/-- `_normalize_scores(candidates)`. -/
def normalizeScores [Field K] : List K → List K
  | [] => []
  | x :: xs =>
      let low := xs.foldl min x
      let high := maxOf x xs
      if high = low then (x :: xs).map fun _ => 1 else (x :: xs).map fun s => (s - low) / (high - low)

omit [LinearOrder K] in
/-- `_cosine_similarity(left, right)`. -/
def cosineSimilarity (V : VectorArithmetic K) (left right : List K) : Except PyError K :=
  if left.length ≠ right.length ∨ left.isEmpty then
    .error (valueError "MMR vectors must be non-empty and have equal dimensions")
  else if V.positiveNorm left = false ∨ V.positiveNorm right = false then
    .error (valueError "MMR vectors must have positive norms")
  else .ok (V.cosine left right)

/-- `pool[index]["diversity_vector"]`. -/
def vectorAt (pool : List (HydratedCandidate K)) (index : ℕ) : Except PyError (List K) :=
  match pool[index]? with
  | none => .error ⟨.otherException, "list index out of range"⟩
  | some c =>
      match c.diversityVector with
      | none => .error (keyError "diversity_vector")
      | some v => .ok v

/-- The objective of one remaining candidate. -/
def mmrObjective [Field K] (V : VectorArithmetic K) (C : RetrievalConfig K) (pool : List (HydratedCandidate K))
    (normalized : List K) (selected : List ℕ) (index : ℕ) : Except PyError K := do
  let similarities ← selected.mapM fun chosen => do
    cosineSimilarity V (← vectorAt pool index) (← vectorAt pool chosen)
  let redundancy := match similarities with
    | [] => 0
    | s :: ss => maxOf s ss
  .ok (C.mmrLambda * normalized.getD index 0 - (1 - C.mmrLambda) * redundancy)

/-- The inner loop of `_mmr`: the first remaining candidate of the largest objective. -/
def mmrBest [Field K] (objective : ℕ → Except PyError K) : List ℕ → ℕ × Option K → Except PyError (ℕ × Option K)
  | [], best => .ok best
  | index :: rest, best => do
      let value ← objective index
      let better := match best.2 with
        | none => true
        | some b => b < value
      mmrBest objective rest (if better then (index, some value) else best)

/-- The outer loop of `_mmr`, for no more than `n` turns. -/
def mmrSelect [Field K] (objective : List ℕ → ℕ → Except PyError K) :
    ℕ → List ℕ → List ℕ → Except PyError (List ℕ)
  | 0, _, selected => .ok selected
  | _ + 1, [], selected => .ok selected
  | n + 1, first :: rest, selected => do
      let best ← mmrBest (objective selected) (first :: rest) (first, none)
      mmrSelect objective n ((first :: rest).erase best.1) (selected ++ [best.1])

/-- `_mmr(eligible, k, config)`. -/
def mmr [Field K] (V : VectorArithmetic K) (C : RetrievalConfig K) (k : ℕ) (pool : List (HydratedCandidate K)) :
    Except PyError (List (HydratedCandidate K)) := do
  let normalized := normalizeScores (pool.map fun c => c.rerankScore)
  let selected ← mmrSelect (mmrObjective V C pool normalized) (min k pool.length) (List.range pool.length) []
  .ok (selected.filterMap fun i => pool[i]?)

/-! ### Results -/

/-- An item of the final list. -/
structure ContextItem (K : Type) where
  /-- `"object_id"`. -/
  objectId : Uuid
  /-- `"raw_text"`. -/
  rawText : Text
  /-- `item.get("rerank_score")`; conversations do not have one. -/
  rerankScore : Option (VectorItem K)
  deriving DecidableEq

/-- `_final_results(selected, collection_type)`. -/
def finalResults (T : CollectionType) (selected : List (HydratedCandidate K)) : Except PyError (List (ContextItem K)) :=
  selected.mapM fun c => do
    let text ← requiredText (.str c.rawText) "raw_text"
    .ok ⟨c.objectId, text, if T = .conversations then none else some (.number c.rerankScore)⟩

/-- `_CONTEXT_SEPARATOR`. -/
def contextSeparator : Text := lit "\n\n"

/-- The context of some items has no more tokens than the budget. -/
def fitsBudget (encode : Text → List ℕ) (budget : ℕ) (items : List (ContextItem K)) : Bool :=
  (encode (join contextSeparator (items.map ContextItem.rawText))).length ≤ budget

/-- The loop of `_budget_results`, for no more than `n` turns. -/
def budgetLoop (encode : Text → List ℕ) (budget : ℕ) : ℕ → List (ContextItem K) → List (ContextItem K)
  | 0, items => items
  | n + 1, items =>
      if items.isEmpty || fitsBudget encode budget items then items else budgetLoop encode budget n items.dropLast

/-- `_budget_results(results, budget, tokenizer=tokenizer)`. -/
def budgetResults (encode : Text → List ℕ) (budget : ℕ) (results : List (ContextItem K)) :
    Except PyError (List (ContextItem K)) := do
  let selected ← results.mapM fun c => do
    let text ← requiredText (.str c.rawText) "raw_text"
    .ok { c with rawText := text }
  .ok (budgetLoop encode budget selected.length selected)

/-! ### The whole flow -/

omit [LinearOrder K] in
/-- `_multi_vector(value, name)`. -/
def queryMultiVector (value : RawMatrix K) : Except PyError (List (List K)) :=
  match value with
  | .notSequence => .error (typeError "query_vector must be a sequence of vectors")
  | .sequence rows =>
      match rows.mapM (vectorValues "query_vector row") with
      | .error e => .error e
      | .ok [] => .error (valueError "query_vector must not be empty")
      | .ok (row :: rest) =>
          if rest.any fun r => r.length ≠ row.length then
            .error (valueError "query_vector rows must have consistent dimensions")
          else .ok (row :: rest)

/-- The lists that `retrieve` makes one after the other. -/
structure RetrievalStages (K : Type) where
  /-- `candidates`. -/
  candidates : List SearchResult
  /-- `reranked`, as the cross encoder leaves it. -/
  scored : List (Candidate K)
  /-- `reranked`, collapsed where it is of conversations. -/
  reranked : List (Candidate K)
  /-- `eligible`. -/
  eligible : List (Candidate K)
  /-- `adaptive_pool`. -/
  adaptivePool : List (Candidate K)
  /-- `hydrated_pool`. -/
  hydratedPool : List (HydratedCandidate K)
  /-- `mmr_usable`. -/
  mmrUsable : Bool
  /-- `mmr_selected`. -/
  mmrSelected : List (HydratedCandidate K)
  /-- `selected` before the budget. -/
  results : List (ContextItem K)
  /-- `selected`. -/
  final : List (ContextItem K)

/-- Segments are collapsed to conversations; other candidates stay as they are. -/
def rerankedCandidates (C : RetrievalConfig K) (T : CollectionType) (scored : List (Candidate K)) :
    Except PyError (List (Candidate K)) :=
  if T = .conversations then collapseConversations scored C.candidateCount else .ok scored

/-- MMR where every vector can be used, and the first of the pool where not. -/
def selectPool [Field K] (V : VectorArithmetic K) (C : RetrievalConfig K) (pool : List (HydratedCandidate K))
    (usable : Bool) : Except PyError (List (HydratedCandidate K)) :=
  if usable then mmr V C C.finalCount pool else .ok (pool.take C.finalCount)

omit [LinearOrder K] in
/-- The budget is applied where the collection has one. -/
def budgeted (S : RetrievalSettings K) (encode : Text → List ℕ) (T : CollectionType) (results : List (ContextItem K)) :
    Except PyError (List (ContextItem K)) :=
  match S.budget T with
  | none => .ok results
  | some budget => budgetResults encode budget results

/-- `retrieve` from the scores on. -/
def retrieveScored [Field K] (S : RetrievalSettings K) (R : RetrievalRuntime K) (client : CollectionClient K)
    (T : CollectionType) (candidates : List SearchResult) (scored : List (Candidate K)) :
    Except PyError (RetrievalStages K) := do
  let C := S.config T
  let reranked ← rerankedCandidates C T scored
  let eligible := eligibleCandidates C T reranked
  let adaptivePool := eligible.take (adaptiveK R.sigmoid C eligible)
  let (hydratedPool, mmrUsable) ← hydratePool R.vectors client.hydrateMmrHead T adaptivePool
  let mmrSelected ← selectPool R.vectors C hydratedPool mmrUsable
  let results ← finalResults T mmrSelected
  let final ← budgeted S R.encode T results
  .ok ⟨candidates, scored, reranked, eligible, adaptivePool, hydratedPool, mmrUsable, mmrSelected, results, final⟩

/-- `retrieve` from the candidates on. -/
def retrieveFrom [Field K] (S : RetrievalSettings K) (R : RetrievalRuntime K) (client : CollectionClient K)
    (T : CollectionType) (query : Text) (candidates : List SearchResult) : Except PyError (RetrievalStages K) := do
  let scored ← crossEncoder R.rerank query candidates
  retrieveScored S R client T candidates scored

/-- `retrieve` with all its stages. -/
def retrieveStages [Field K] (S : RetrievalSettings K) (R : RetrievalRuntime K) (client : CollectionClient K)
    (T : CollectionType) (queryText : Text) (queryVector : RawMatrix K) : Except PyError (RetrievalStages K) := do
  let query ← requiredText (.str queryText) "query_text"
  let vector ← queryMultiVector queryVector
  match ← client.hybridSearch query vector (S.config T).candidateCount with
  | none => .error (typeError "hybrid_search must return a list")
  | some results => retrieveFrom S R client T query (normalizedCandidates R.uuid5 T results)

/-- `retrieve(collection_client, query_text, query_vector, collection_type)`. -/
def retrieve [Field K] (S : RetrievalSettings K) (R : RetrievalRuntime K) (client : CollectionClient K)
    (T : CollectionType) (queryText : Text) (queryVector : RawMatrix K) : Except PyError (List (ContextItem K)) :=
  (retrieveStages S R client T queryText queryVector).map RetrievalStages.final

end Order

end TenantRag

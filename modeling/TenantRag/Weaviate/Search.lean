import TenantRag.Foundations.Dict
import TenantRag.Weaviate.Values
import Mathlib.Data.Finset.Basic

/-!
# Reading a collection

`_CollectionBase` in `backend/weaviate_client/_base.py`: the hybrid search, and the
hydration of the candidates that reach the reranking by MMR. Each makes one call to
storage and checks every object of its response.

## The model

A response is a list of objects with any identifiers, properties and vectors, or no
list at all. An object of another user stops the reading; one that is malformed is
quarantined, and with it, in a collection of segments, the rest of its conversation.
Requests for hydration carry canonical identifiers, as the callers give them. Log
records are left out.
-/

namespace TenantRag

/-- `SearchResult`, with canonical identifiers. -/
structure SearchResult where
  /-- `object_id`. -/
  objectId : Uuid
  /-- `canonical_id`. -/
  canonicalId : Uuid
  /-- `retrieval_text`. -/
  retrievalText : Text
  /-- `segment_index`. -/
  segmentIndex : PyValue
  deriving DecidableEq

/-- `HydratedSearchResult`, with canonical identifiers. -/
structure HydratedSearchResult (K : Type) where
  /-- `object_id`. -/
  objectId : Uuid
  /-- `canonical_id`. -/
  canonicalId : Uuid
  /-- `diversity_vector`. -/
  diversityVector : Option (List K)
  /-- `raw_text`. -/
  rawText : Option Text
  /-- `segment_index`. -/
  segmentIndex : PyValue
  /-- `quarantine_reason`. -/
  quarantineReason : Option String

/-- The class attributes of a collection wrapper. -/
structure CollectionWrapper where
  /-- `id_property`. -/
  idProperty : Text
  /-- `canonical_id_property`. -/
  canonicalIdProperty : Text
  /-- `search_property`. -/
  searchProperty : Text
  /-- `segment_index_property`. -/
  segmentIndexProperty : Option Text
  /-- `hydrate_raw_text`. -/
  hydrateRawText : Bool

/-- `ConversationCollection`. -/
def conversationWrapper : CollectionWrapper where
  idProperty := lit "segment_id"
  canonicalIdProperty := lit "conversation_id"
  searchProperty := lit "segment_text"
  segmentIndexProperty := some (lit "segment_index")
  hydrateRawText := true

/-- `_ChunkCollection`. -/
def chunkWrapper : CollectionWrapper where
  idProperty := lit "chunk_id"
  canonicalIdProperty := lit "chunk_id"
  searchProperty := lit "raw_text"
  segmentIndexProperty := none
  hydrateRawText := false

/-- What an object's attribute `vector` is. -/
inductive RawVectors (K : Type) where
  /-- `None`. -/
  | none
  /-- The named vectors. -/
  | named (vectors : List (Text × RawVector K))
  /-- One vector without a name. -/
  | plain (vector : RawVector K)

/-- An object of a response. -/
structure StoredObject (K : Type) where
  /-- `uuid`. -/
  uuid : PyValue
  /-- `properties`; `none` where they are no mapping. -/
  properties : Option Properties
  /-- `vector`. -/
  vector : RawVectors K

variable {K : Type}

/-- `MMR_DIVERSITY_VECTOR_NAME`. -/
def mmrDiversityVectorName : Text := lit "mmr_diversity"

/-- `MMR_DIVERSITY_VECTOR_DIMENSION`. -/
def mmrDiversityVectorDimension : ℕ := 768

/-- `_result_vector(value, expected_dimension=MMR_DIVERSITY_VECTOR_DIMENSION)`. -/
def resultVector (value : RawVectors K) : Except PyError (List K) := do
  let selected ←
    match value with
    | .none => .error (weaviateResponseError "result is missing its MMR-diversity vector")
    | .plain v => .ok v
    | .named vs =>
        match vs.lookup mmrDiversityVectorName with
        | none => .error (weaviateResponseError "result does not contain the requested MMR-diversity vector")
        | some v => .ok v
  match vectorValues "MMR-diversity vector" selected with
  | .error _ => .error (weaviateResponseError "result contains a malformed MMR vector")
  | .ok xs =>
      if xs.length ≠ mmrDiversityVectorDimension then
        .error (weaviateResponseError "result MMR-diversity vector must have exactly 768 dimensions")
      else .ok xs

/-! ### Hybrid search -/

/-- What the loop of `_hybrid_search` makes of one object. -/
inductive ReadObject where
  /-- It is quarantined, and with it a conversation, where one is known. -/
  | quarantined (conversation : Option Uuid)
  /-- It is a result. -/
  | result (r : SearchResult)

/-- The checks of `_hybrid_search` on one object, up to the one for duplicates. -/
def readObject (W : CollectionWrapper) (userId : Text) (item : StoredObject K) : Except PyError ReadObject :=
  match item.properties with
  | none => .ok (.quarantined none)
  | some properties =>
      match properties.get (lit "user_id") with
      | .str owner =>
          if owner ≠ userId then
            .error ⟨.userIsolationError, "hybrid result user_id does not match the bound collection user"⟩
          else
            let segmented := W.segmentIndexProperty.isSome
            let canonical := resultUuid (properties.get W.canonicalIdProperty) "canonical id"
            -- a conversation is quarantined only in a collection of segments
            let recoverable := if segmented then canonical.toOption else none
            match resultUuid item.uuid "object UUID" with
            | .error _ => .ok (.quarantined recoverable)
            | .ok objectId =>
                match resultUuid (properties.get W.idProperty) "business id" with
                | .error _ => .ok (.quarantined recoverable)
                | .ok businessId =>
                    if objectId ≠ businessId then .ok (.quarantined recoverable)
                    else
                      match canonical with
                      | .error _ => .ok (.quarantined none)
                      | .ok canonicalId =>
                          match requiredText (properties.get W.searchProperty) "retrieval text" with
                          | .error _ => .ok (.quarantined recoverable)
                          | .ok retrievalText =>
                              match W.segmentIndexProperty with
                              | none => .ok (.result ⟨objectId, canonicalId, retrievalText, .none⟩)
                              | some name =>
                                  match (properties.get name).natural? with
                                  | none => .ok (.quarantined recoverable)
                                  | some index => .ok (.result ⟨objectId, canonicalId, retrievalText, .int index⟩)
      | _ => .ok (.quarantined none)

/-- The locals of the loop of `_hybrid_search`. -/
structure HybridScan where
  /-- `results`. -/
  results : List SearchResult
  /-- `quarantined_object_ids`. -/
  quarantinedObjectIds : Finset Uuid
  /-- `quarantined_canonical_ids`. -/
  quarantinedCanonicalIds : Finset Uuid
  /-- `seen_object_ids`. -/
  seenObjectIds : Finset Uuid

/-- One turn of the loop of `_hybrid_search`. -/
def HybridScan.next (W : CollectionWrapper) (userId : Text) (s : HybridScan) (item : StoredObject K) :
    Except PyError HybridScan :=
  match readObject W userId item with
  | .error e => .error e
  | .ok (.quarantined none) => .ok s
  | .ok (.quarantined (some c)) => .ok { s with quarantinedCanonicalIds := insert c s.quarantinedCanonicalIds }
  | .ok (.result r) =>
      if r.objectId ∈ s.seenObjectIds then
        let others := (s.results.filter fun x => x.objectId = r.objectId).map SearchResult.canonicalId
        .ok { s with
          quarantinedObjectIds := insert r.objectId s.quarantinedObjectIds
          quarantinedCanonicalIds :=
            if W.segmentIndexProperty.isSome then insert r.canonicalId (s.quarantinedCanonicalIds ∪ others.toFinset)
            else s.quarantinedCanonicalIds }
      else
        .ok { s with results := s.results ++ [r], seenObjectIds := insert r.objectId s.seenObjectIds }

/-- `_hybrid_search(query_text, query_vector, top_k)`, from the response on. -/
def hybridSearchResults (W : CollectionWrapper) (userId : Text) (objects : Option (List (StoredObject K))) :
    Except PyError (List SearchResult) :=
  match objects with
  | none => .error (weaviateResponseError "hybrid response objects are malformed")
  | some objects =>
      match objects.foldlM (HybridScan.next W userId) ⟨[], ∅, ∅, ∅⟩ with
      | .error e => .error e
      | .ok s =>
          .ok (s.results.filter fun r => r.objectId ∉ s.quarantinedObjectIds ∧ r.canonicalId ∉ s.quarantinedCanonicalIds)

/-- `_hybrid_search(query_text, query_vector, top_k)`, where `query.hybrid` answers or raises. -/
def hybridSearch (W : CollectionWrapper) (userId : Text)
    (hybrid : Text → List (List K) → ℕ → Except PyError (Option (List (StoredObject K))))
    (queryText : Text) (queryVector : RawMatrix K) (topK : ℕ) : Except PyError (List SearchResult) := do
  let query ← requiredText (.str queryText) "query_text"
  let vector ← multiVectorValues "query_vector" queryVector
  if topK = 0 then .error (valueError "top_k must be greater than zero")
  else do
    let objects ← hybrid query vector topK
    hybridSearchResults W userId objects

/-! ### Hydration -/

/-- The result for a candidate that is quarantined. -/
def SearchResult.quarantined (candidate : SearchResult) (reason : String) : HydratedSearchResult K :=
  ⟨candidate.objectId, candidate.canonicalId, none, none, candidate.segmentIndex, some reason⟩

/-- The checks of `hydrate_mmr_head` on an object of the user that is not a duplicate. -/
def hydrateObject (W : CollectionWrapper) (candidate : SearchResult) (properties : Properties)
    (vector : RawVectors K) : HydratedSearchResult K :=
  if (resultUuid (properties.get W.idProperty) "business id").toOption ≠ some candidate.objectId then
    candidate.quarantined "hydration_business_uuid_mismatch"
  else if (resultUuid (properties.get W.canonicalIdProperty) "canonical id").toOption ≠ some candidate.canonicalId then
    candidate.quarantined "hydration_canonical_uuid_mismatch"
  else
    let index : PyValue :=
      match W.segmentIndexProperty with
      | none => .none
      | some name =>
          match (properties.get name).natural? with
          | none => .none
          | some n => .int n
    if W.segmentIndexProperty.isSome ∧ index.same candidate.segmentIndex = false then
      candidate.quarantined "hydration_segment_index_mismatch"
    else
      let found := (resultVector vector).toOption
      if W.hydrateRawText then
        match requiredText (properties.get (lit "raw_text")) "raw_text" with
        | .error _ => { candidate.quarantined "malformed_canonical_text" with segmentIndex := index }
        | .ok rawText => ⟨candidate.objectId, candidate.canonicalId, found, some rawText, index, none⟩
      else ⟨candidate.objectId, candidate.canonicalId, found, none, index, none⟩

/-- One turn of the loop of `hydrate_mmr_head`. -/
def hydrateNext (W : CollectionWrapper) (userId : Text) (expected : Dict Uuid SearchResult)
    (hydrated : Dict Uuid (HydratedSearchResult K)) (item : StoredObject K) :
    Except PyError (Dict Uuid (HydratedSearchResult K)) :=
  match resultUuid item.uuid "object UUID" with
  | .error e => .error e
  | .ok objectId =>
      match expected.get? objectId with
      | none => .error (weaviateResponseError "MMR hydration returned an unexpected object UUID")
      | some candidate =>
          match item.properties with
          | none => .ok (hydrated.set objectId (candidate.quarantined "hydration_properties_not_mapping"))
          | some properties =>
              match properties.get (lit "user_id") with
              | .str owner =>
                  if owner ≠ userId then
                    .error ⟨.userIsolationError, "MMR hydration result user_id does not match the bound user"⟩
                  else if hydrated.contains objectId then
                    .ok (hydrated.set objectId (candidate.quarantined "duplicate_hydration_object"))
                  else .ok (hydrated.set objectId (hydrateObject W candidate properties item.vector))
              | _ => .ok (hydrated.set objectId (candidate.quarantined "invalid_hydration_user_id"))

/-- The dictionary `expected`; two requests for one object are refused, and in a collection of
chunks a request for another canonical id. -/
def expectedCandidates (W : CollectionWrapper) :
    List SearchResult → Dict Uuid SearchResult → Except PyError (Dict Uuid SearchResult)
  | [], expected => .ok expected
  | c :: cs, expected =>
      if expected.contains c.objectId then
        .error (weaviateResponseError "MMR hydration request contains duplicate object UUIDs")
      else if W.canonicalIdProperty = W.idProperty ∧ c.canonicalId ≠ c.objectId then
        .error (weaviateResponseError "MMR hydration candidate canonical UUID is inconsistent")
      else expectedCandidates W cs (expected.set c.objectId c)

/-- `hydrate_mmr_head(candidates)`, from the response on. -/
def hydratedResults (W : CollectionWrapper) (userId : Text) (expected : Dict Uuid SearchResult)
    (candidates : List SearchResult) (objects : Option (List (StoredObject K))) :
    Except PyError (List (HydratedSearchResult K)) :=
  match objects with
  | none => .error (weaviateResponseError "MMR hydration response objects are malformed")
  | some objects =>
      match objects.foldlM (hydrateNext W userId expected) .empty with
      | .error e => .error e
      | .ok hydrated =>
          .ok (candidates.map fun c => (hydrated.get? c.objectId).getD (c.quarantined "missing_hydration_object"))

/-- `hydrate_mmr_head(candidates)`, where `fetch_objects_by_ids` answers or raises. -/
def hydrateMmrHead (W : CollectionWrapper) (userId : Text)
    (fetch : List Uuid → Except PyError (Option (List (StoredObject K)))) (candidates : List SearchResult) :
    Except PyError (List (HydratedSearchResult K)) :=
  if candidates.isEmpty then .ok []
  else do
    let expected ← expectedCandidates W candidates .empty
    let objects ← fetch expected.keys
    hydratedResults W userId expected candidates objects

end TenantRag

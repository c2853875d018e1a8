import TenantRag.Rag.RetrievalStages
import TenantRag.Wizard.TraceEvidence
import Mathlib.Data.List.Flatten

/-!
# What retrieval records

The calls that `retrieve` makes to the recording functions while a deep trace is active,
for the collections that have a trace prefix.

## The model

Nothing that is recorded is read back, so the calls of a run that returned are listed
next to its stages, in the order of the source; the text of a hexadecimal float and the
identity of the reranker are parameters. `_observe_candidate_decisions` stands under one
`try`.

## What is proved

* `contextItemFingerprints_eq`, `contextParts_eq` — the proof of a context of encodable texts.
* `keys_retrievalCalls` — under which names a run records, whatever the run.
* `RetrievalRun.counts` — how the counts are related that a run records.
-/

namespace TenantRag

variable {K : Type}

/-- What the recorded evidence is made with. -/
structure TraceSettings (K : Type) where
  /-- `hashlib.sha256`. -/
  sha : List ℕ → Sha256
  /-- `score.hex()`. -/
  hex : K → Text
  /-- `reranker_identity`. -/
  rerankerIdentity : Text

/-- `_TRACE_COLLECTION_PREFIXES`. -/
inductive TracePrefix where
  /-- `"knowledge"`. -/
  | knowledge
  /-- `"policy"`. -/
  | policy
  deriving DecidableEq

namespace TracePrefix

/-- The prefix. -/
def text : TracePrefix → Text
  | .knowledge => lit "knowledge"
  | .policy => lit "policy"

/-- The collection whose prefix it is. -/
def collection : TracePrefix → CollectionType
  | .knowledge => .knowledgeFacts
  | .policy => .policy

/-- `prefix.title()`. -/
def title : TracePrefix → String
  | .knowledge => "Knowledge"
  | .policy => "Policy"

/-- `f"{prefix}_{suffix}"`. -/
def name (p : TracePrefix) (suffix : String) : Text := p.text ++ lit suffix

end TracePrefix

/-! ### Context items -/

/-- `f"{object_id}:{digest}"` of an item. -/
def itemFingerprint (sha : List ℕ → Sha256) (item : ContextItem K) : Except PyError Text := do
  let content ← encodeUtf8 item.rawText
  let digest ← contentDigest sha (lit "chat-kp-item-v1") [item.objectId.str.flatMap utf8Bytes, content]
  .ok (item.objectId.str ++ lit ":" ++ digest)

/-- `_context_item_fingerprints(items)` while a trace is active. -/
def contextItemFingerprints (sha : List ℕ → Sha256) (items : List (ContextItem K)) : Except PyError (List Text) :=
  items.mapM (itemFingerprint sha)

/-- The identifier and the text of each item, encoded. -/
def contextParts (items : List (ContextItem K)) : Except PyError (List (List ℕ)) := do
  let parts ← items.mapM fun item => do
    let content ← encodeUtf8 item.rawText
    .ok [item.objectId.str.flatMap utf8Bytes, content]
  .ok parts.flatten

/-- The digest of an item. -/
def itemDigest (sha : List ℕ → Sha256) (item : ContextItem K) : Sha256 :=
  sha (framed ((lit "chat-kp-item-v1").map Fin.val) [item.objectId.str.flatMap utf8Bytes, item.rawText.flatMap utf8Bytes])

/-- The fingerprint of an item whose text is encodable. -/
def fingerprintText (sha : List ℕ → Sha256) (item : ContextItem K) : Text :=
  item.objectId.str ++ lit ":" ++ (itemDigest sha item).hexdigest

theorem itemFingerprint_eq {sha : List ℕ → Sha256} {item : ContextItem K} (h : encodable item.rawText = true) :
    itemFingerprint sha item = .ok (fingerprintText sha item) := by
  rw [itemFingerprint, encodeUtf8_of_encodable h]
  simp only [bind, Except.bind]
  rw [contentDigest_ok (by decide +kernel)]
  rfl

theorem contextItemFingerprints_eq {sha : List ℕ → Sha256} {items : List (ContextItem K)}
    (h : ∀ item ∈ items, encodable item.rawText = true) :
    contextItemFingerprints sha items = .ok (items.map (fingerprintText sha)) := by
  rw [contextItemFingerprints, mapM_eq_ok_iff, List.forall₂_map_right_iff]
  exact List.forall₂_same.mpr fun item hitem => itemFingerprint_eq (h item hitem)

theorem contextParts_eq {items : List (ContextItem K)} (h : ∀ item ∈ items, encodable item.rawText = true) :
    contextParts items =
      .ok (items.flatMap fun item => [item.objectId.str.flatMap utf8Bytes, item.rawText.flatMap utf8Bytes]) := by
  refine bind_eq_ok_iff.mpr ⟨items.map fun item => [item.objectId.str.flatMap utf8Bytes, item.rawText.flatMap utf8Bytes],
    ?_, rfl⟩
  rw [mapM_eq_ok_iff, List.forall₂_map_right_iff]
  refine List.forall₂_same.mpr fun item hitem => ?_
  rw [encodeUtf8_of_encodable (h item hitem)]
  rfl

/-- An identifier is a token of a sample. -/
theorem isSampleToken_str (u : Uuid) : isSampleToken u.str = true := by
  have hspace : u.str.any isSpace = false := List.any_eq_false.mpr fun c hc => by simp [Uuid.isSpace_of_mem_str hc]
  have hempty : u.str.isEmpty = false := by simpa using Uuid.str_ne_nil u
  simp [isSampleToken, hspace, hempty, Uuid.length_str]

/-- A fingerprint is a token of a sample. -/
theorem isSampleToken_fingerprintText (sha : List ℕ → Sha256) (item : ContextItem K) :
    isSampleToken (fingerprintText sha item) = true := by
  have hspace : (fingerprintText sha item).any isSpace = false := by
    refine List.any_eq_false.mpr fun c hc => ?_
    rw [fingerprintText, List.mem_append, List.mem_append] at hc
    rcases hc with (hc | hc) | hc
    · simp [Uuid.isSpace_of_mem_str hc]
    · obtain rfl := List.mem_singleton.mp hc
      decide
    · simp [Sha256.isSpace_of_mem_hexdigest hc]
  have hlength : (fingerprintText sha item).length = 101 := by
    rw [fingerprintText, List.length_append, List.length_append, Uuid.length_str, Sha256.length_hexdigest]
    rfl
  have hempty : (fingerprintText sha item).isEmpty = false := by
    rw [List.isEmpty_eq_false_iff]
    intro h
    rw [h] at hlength
    cases hlength
  simp [isSampleToken, hspace, hempty, hlength]

/-! ### Candidate decisions -/

section Decisions

variable [Field K] [LinearOrder K]

/-- `"1" if b else "0"`. -/
def bit (b : Bool) : Text := if b then lit "1" else lit "0"

/-- `hybrid_ranks`. -/
def hybridRanks (candidates : List SearchResult) : Dict Uuid ℕ :=
  (candidates.zipIdx 1).foldl (fun ranks c => ranks.set c.1.objectId c.2) .empty

/-- `hydration_outcome`. -/
def hydrationOutcome (adaptive hydrated : Bool) : Text :=
  if !adaptive then lit "n" else if hydrated then lit "y" else lit "f"

/-- `reason`. -/
def exclusionReason (s : RetrievalStages K) (floorPass adaptive hydrated selected final : Bool) : Text :=
  if !floorPass then lit "floor"
  else if !adaptive then lit "adaptive_gap"
  else if !hydrated then lit "hydration"
  else if !selected then if s.mmrUsable then lit "mmr_limit" else lit "fallback_limit"
  else if !final then lit "budget"
  else lit "selected"

/-- The decision about the candidate of a rank, and the digest of its text. -/
def candidateDecision (X : TraceSettings K) (C : RetrievalConfig K) (p : TracePrefix) (s : RetrievalStages K)
    (c : Candidate K × ℕ) : Except PyError (Text × Text) := do
  let id := c.1.objectId
  let floorPass : Bool := id ∈ s.eligible.map Candidate.objectId
  let floor := if p = .policy ∧ floorPass ∧ c.1.rerankScore < C.adaptiveRelevanceFloor then policyEmptyPoolFloor
    else C.adaptiveRelevanceFloor
  let adaptive : Bool := id ∈ s.adaptivePool.map Candidate.objectId
  let hydrated : Bool := id ∈ s.hydratedPool.map fun x => x.objectId
  let selected : Bool := id ∈ s.mmrSelected.map fun x => x.objectId
  let final : Bool := id ∈ s.final.map ContextItem.objectId
  let rank ← ((hybridRanks s.candidates).get? id).elim (.error (keyError "object_id")) Except.ok
  let text ← encodeUtf8 c.1.retrievalText
  let digest ← contentDigest X.sha (lit "chat-kp-candidate-text-v1") [text]
  .ok (join (lit "|") [id.str, if p = .knowledge then lit "k" else lit "p", decimal rank, decimal c.2,
      X.hex c.1.rerankScore, X.hex floor, bit floorPass, bit adaptive, hydrationOutcome adaptive hydrated,
      bit selected, bit final, exclusionReason s floorPass adaptive hydrated selected final],
    id.str ++ lit ":" ++ digest)

/-- `adaptive_metadata`. -/
def adaptiveMetadata (X : TraceSettings K) (C : RetrievalConfig K) (s : RetrievalStages K) : Text :=
  let boundary := (s.adaptivePool.getLast?).elim (lit "none") fun c => X.hex c.rerankScore
  let firstExcluded := (s.eligible[s.adaptivePool.length]?).elim (lit "none") fun c => X.hex c.rerankScore
  lit "gap_threshold_hex=" ++ X.hex C.adaptiveGapThreshold ++ lit ";eligible_count=" ++ decimal s.eligible.length ++
    lit ";adaptive_count=" ++ decimal s.adaptivePool.length ++ lit ";last_selected_raw_score_hex=" ++ boundary ++
    lit ";first_adaptive_excluded_raw_score_hex=" ++ firstExcluded

/-- The two samples of a page. -/
def candidatePage (p : TracePrefix) (decisions digests : List Text) (page : ℕ) (decisionsName digestsName : String) :
    List Call :=
  let decisionPage := (decisions.drop (page * traceSampleLimit)).take traceSampleLimit
  let digestPage := (digests.drop (page * traceSampleLimit)).take traceSampleLimit
  [.setSample (p.name decisionsName) (.ok decisionPage) (some decisionPage.length),
    .setSample (p.name digestsName) (.ok digestPage) (some digestPage.length)]

/-- `capture_retrieval_candidate_pages(...)`, where every call is made. -/
def candidatePages (p : TracePrefix) (decisions digests : List Text) (metadata identity : Text) : List Call :=
  candidatePage p decisions digests 0 "_candidate_decisions_page_1" "_candidate_text_digests_page_1" ++
    candidatePage p decisions digests 1 "_candidate_decisions_page_2" "_candidate_text_digests_page_2" ++
    [.setText (p.name "_candidate_decision_fields")
        (lit ("candidate_id|collection|hybrid_rank|bge_rank|raw_score_hex|" ++
          "floor_hex|floor_pass|adaptive_inclusion|hydration_outcome|" ++
          "mmr_inclusion|final_inclusion|first_exclusion_reason")),
      .setText (p.name "_candidate_observation_legend")
        (lit ("collection:k=knowledge,p=policy;hydration:n=not_requested," ++
          "y=hydrated,f=failed;booleans:0=false,1=true;scores=python_float_hex")),
      .setText (p.name "_adaptive_observation") metadata,
      .setText (p.name "_reranker_identity") identity]

/-- `ceiling`. -/
def TracePrefix.ceiling : TracePrefix → ℕ
  | .knowledge => 50
  | .policy => 40

/-- `_observe_candidate_decisions(...)`, up to the first call that raises. -/
def observeCandidateDecisions (X : TraceSettings K) (C : RetrievalConfig K) (p : TracePrefix) (s : RetrievalStages K) :
    List Call :=
  if p.ceiling < s.candidates.length ∨ p.ceiling < s.reranked.length then
    [.raise (valueError "retrieval candidate observation exceeds its ceiling")]
  else
    match (s.reranked.zipIdx 1).mapM (candidateDecision X C p s) with
    | .error e => [.raise e]
    | .ok decided =>
        upTo (Call.fails X.sha) (candidatePages p (decided.map Prod.fst) (decided.map Prod.snd) (adaptiveMetadata X C s)
          X.rerankerIdentity)

/-! ### The calls of a run -/

/-- The sample of the identifiers of some values. -/
def idSample {α : Type} (name : Text) (id : α → Uuid) (xs : List α) : Call :=
  .setSample name (.ok (xs.map fun x => (id x).str)) (some xs.length)

/-- The calls of `retrieve` up to the selection by MMR. -/
def selectionCalls (R : RetrievalRuntime K) (C : RetrievalConfig K) (p : TracePrefix) (s : RetrievalStages K) : List Call :=
  [.addCount (p.name "_hybrid_candidate_count") s.candidates.length,
    .addCount (p.name "_hybrid_storage_call_count") 1,
    idSample (p.name "_hybrid_ids") SearchResult.objectId s.candidates,
    .addCount (p.name "_bge_input_count") s.candidates.length,
    .addCount (p.name "_bge_result_count") s.reranked.length,
    .addCount (p.name "_bge_model_call_count") (if s.candidates.isEmpty then 0 else 1),
    .setFlag (p.name "_bge_scores_finite") true,
    idSample (p.name "_bge_ids") Candidate.objectId s.reranked,
    .addCount (p.name "_relevance_input_count") s.reranked.length,
    .addCount (p.name "_relevance_eligible_count") s.eligible.length,
    idSample (p.name "_eligible_ids") Candidate.objectId s.eligible,
    .addCount (p.name "_adaptive_eligible_count") s.eligible.length,
    .addCount (p.name "_adaptive_selected_count") (adaptiveK R.sigmoid C s.eligible),
    idSample (p.name "_adaptive_pool_ids") Candidate.objectId s.adaptivePool,
    .addCount (p.name "_hydration_requested_count") s.adaptivePool.length,
    .addCount (p.name "_hydration_result_count") s.hydratedPool.length,
    .addCount (p.name "_hydration_quarantined_count") (s.adaptivePool.length - s.hydratedPool.length),
    .addCount (p.name "_hydration_storage_call_count") (if s.adaptivePool.isEmpty then 0 else 1),
    .setFlag (p.name "_mmr_usable") s.mmrUsable,
    .setFlag (p.name "_hydration_values_finite") s.mmrUsable,
    idSample (p.name "_hydrated_ids") (fun x => x.objectId) s.hydratedPool,
    .addCount (p.name "_mmr_pool_count") s.hydratedPool.length,
    .addCount (p.name "_mmr_selected_count") s.mmrSelected.length,
    .setFlag (p.name "_mmr_fallback") (!s.mmrUsable),
    idSample (p.name "_mmr_selected_ids") (fun x => x.objectId) s.mmrSelected]

/-- `f"chat-{trace_prefix}-final-v1"`. -/
def TracePrefix.finalDomain (p : TracePrefix) : Text := lit "chat-" ++ p.text ++ lit "-final-v1"

/-- The calls of `retrieve` about its final list. -/
def finalCalls (X : TraceSettings K) (p : TracePrefix) (s : RetrievalStages K) : List Call :=
  [.addCount (p.name "_prebudget_count") s.results.length,
    .addCount (p.name "_final_count") s.final.length,
    .addCount (p.name "_budget_dropped_count") (s.results.length - s.final.length),
    idSample (p.name "_final_ids") ContextItem.objectId s.final,
    .setSample (p.name "_final_item_fingerprints") (contextItemFingerprints X.sha s.final) (some s.final.length),
    .setFlag (p.name "_final_proof_truncated") (traceSampleLimit < s.final.length),
    .setFramedDigest (p.name "_final_context_sha256") p.finalDomain (contextParts s.final)]

/-- The calls of a run of `retrieve` that returned. -/
def retrievalCalls (X : TraceSettings K) (R : RetrievalRuntime K) (C : RetrievalConfig K) (p : TracePrefix)
    (s : RetrievalStages K) : List Call :=
  selectionCalls R C p s ++ finalCalls X p s ++ observeCandidateDecisions X C p s

/-! ### Under which names -/

/-- The names of `selectionCalls`. -/
def selectionKeys (p : TracePrefix) : List EvidenceKey :=
  [.count (p.name "_hybrid_candidate_count"), .count (p.name "_hybrid_storage_call_count"),
    .sample (p.name "_hybrid_ids"), .count (p.name "_bge_input_count"), .count (p.name "_bge_result_count"),
    .count (p.name "_bge_model_call_count"), .flag (p.name "_bge_scores_finite"), .sample (p.name "_bge_ids"),
    .count (p.name "_relevance_input_count"), .count (p.name "_relevance_eligible_count"),
    .sample (p.name "_eligible_ids"), .count (p.name "_adaptive_eligible_count"),
    .count (p.name "_adaptive_selected_count"), .sample (p.name "_adaptive_pool_ids"),
    .count (p.name "_hydration_requested_count"), .count (p.name "_hydration_result_count"),
    .count (p.name "_hydration_quarantined_count"), .count (p.name "_hydration_storage_call_count"),
    .flag (p.name "_mmr_usable"), .flag (p.name "_hydration_values_finite"), .sample (p.name "_hydrated_ids"),
    .count (p.name "_mmr_pool_count"), .count (p.name "_mmr_selected_count"), .flag (p.name "_mmr_fallback"),
    .sample (p.name "_mmr_selected_ids")]

/-- The names of `finalCalls`. -/
def finalKeys (p : TracePrefix) : List EvidenceKey :=
  [.count (p.name "_prebudget_count"), .count (p.name "_final_count"), .count (p.name "_budget_dropped_count"),
    .sample (p.name "_final_ids"), .sample (p.name "_final_item_fingerprints"),
    .flag (p.name "_final_proof_truncated"), .digest (p.name "_final_context_sha256")]

/-- The names of `candidatePages`. -/
def pageKeys (p : TracePrefix) : List EvidenceKey := (candidatePages p [] [] [] []).flatMap Call.keys

theorem keys_observeCandidateDecisions (X : TraceSettings K) (C : RetrievalConfig K) (p : TracePrefix)
    (s : RetrievalStages K) : ((observeCandidateDecisions X C p s).flatMap Call.keys).Sublist (pageKeys p) := by
  rw [observeCandidateDecisions]
  split_ifs
  · exact List.nil_sublist _
  · split
    · exact List.nil_sublist _
    · exact (upTo_sublist _ _).flatMap Call.keys

/-- A run records under these names at most. -/
theorem keys_retrievalCalls (X : TraceSettings K) (R : RetrievalRuntime K) (C : RetrievalConfig K) (p : TracePrefix)
    (s : RetrievalStages K) :
    ((retrievalCalls X R C p s).flatMap Call.keys).Sublist (selectionKeys p ++ finalKeys p ++ pageKeys p) := by
  rw [retrievalCalls, List.flatMap_append, List.flatMap_append]
  exact (List.Sublist.refl _).append (keys_observeCandidateDecisions X C p s)

/-! ### The counts -/

omit [LinearOrder K] in
theorem gaps_length (xs : List K) : (gaps xs).length = xs.length - 1 := by
  simp [gaps]

/-- The pool is no longer than the list it is cut from. -/
theorem adaptiveK_le (sigmoid : K → K) (C : RetrievalConfig K) (eligible : List (Candidate K)) :
    adaptiveK sigmoid C eligible ≤ eligible.length := by
  rw [adaptiveK]
  cases eligible with
  | nil => exact Nat.zero_le _
  | cons c cs =>
    rw [List.isEmpty_cons, if_neg (by simp)]
    have hlength := gaps_length ((c :: cs).map fun c => sigmoid c.rerankScore)
    rw [List.length_map, List.length_cons] at hlength
    cases hgaps : gaps ((c :: cs).map fun c => sigmoid c.rerankScore) with
    | nil => simp
    | cons g gs =>
      rw [hgaps, List.length_cons] at hlength
      dsimp only
      split_ifs
      · exact le_rfl
      · have hplace : (g :: gs).idxOf (maxOf g gs) ≤ (g :: gs).length := List.idxOf_le_length
        rw [List.length_cons] at hplace ⊢
        omega

/-- How the counts of a run are related. -/
structure RunCounts (S : RetrievalSettings K) (R : RetrievalRuntime K) (T : CollectionType) (s : RetrievalStages K) :
    Prop where
  /-- Every candidate has a score. -/
  reranked : s.reranked.length = s.candidates.length
  /-- Some of them are eligible. -/
  eligible : s.eligible.length ≤ s.reranked.length
  /-- The number of candidates to keep is at most that. -/
  adaptiveK : adaptiveK R.sigmoid (S.config T) s.eligible ≤ s.eligible.length
  /-- So many are kept. -/
  adaptivePool : s.adaptivePool.length = TenantRag.adaptiveK R.sigmoid (S.config T) s.eligible
  /-- Some of them are hydrated. -/
  hydratedPool : s.hydratedPool.length ≤ s.adaptivePool.length
  /-- Some of these are picked. -/
  mmrSelected : s.mmrSelected.length ≤ s.hydratedPool.length
  /-- No more than the collection allows. -/
  finalCount : s.mmrSelected.length ≤ (S.config T).finalCount
  /-- All of these are results. -/
  results : s.results.length = s.mmrSelected.length
  /-- Some of these fit the budget. -/
  final : s.final.length ≤ s.results.length

theorem RetrievalRun.counts {S : RetrievalSettings K} {R : RetrievalRuntime K} {client : CollectionClient K}
    {T : CollectionType} {q : Text} {v : RawMatrix K} {s : RetrievalStages K} (run : RetrievalRun S R client T q v s)
    (hT : T ≠ .conversations) : RunCounts S R T s where
  reranked := by
    have hreranked := run.reranked
    rw [rerankedCandidates, if_neg hT] at hreranked
    obtain ⟨hperm, -, -⟩ := crossEncoder_spec run.scored
    rw [← Except.ok.inj hreranked, ← hperm.length_eq, List.length_map]
  eligible := by
    rw [run.eligible]
    exact (eligibleCandidates_sublist _ _ _).length_le
  adaptiveK := adaptiveK_le _ _ _
  adaptivePool := by
    rw [run.adaptivePool, List.length_take]
    exact Nat.min_eq_left (adaptiveK_le _ _ _)
  hydratedPool := by
    have hsub := (hydratePool_spec run.hydratedPool).1.length_le
    rwa [List.length_map] at hsub
  mmrSelected := (selectPool_spec run.mmrSelected).1.length_le
  finalCount := by
    rw [(selectPool_spec run.mmrSelected).2]
    exact Nat.min_le_left _ _
  results := by rw [(finalResults_eq run.results).1, List.length_map]
  final := (budgeted_spec run.final).length_le

end Decisions

end TenantRag

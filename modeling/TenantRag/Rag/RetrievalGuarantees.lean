import TenantRag.Rag.RetrievalIsolation

/-!
# What a retrieval guarantees

The stages of `retrieve`, one after the other, leave a list with the properties the
prompt relies on: no object twice, no more than `final_count`, nothing that was
quarantined, nothing below the floor but for one policy item, and nothing beyond the
token budget.

An empty result is not encoded, so nothing bounds what the tokenizer makes of the empty
text; the bound is one on results that have an item.

## What is proved

* `reranked_nodup`, `reranked_pairwise` — what is reranked has distinct ids, in the order
  of score and id.
* `eligible_floor` — what is eligible is above the floor, or is the one that is rescued.
* `retrieve_guarantees` — the guarantees of a retrieval that returned.
* `empty_result_over_budget` — an empty result whose text has more tokens than the budget.
-/

namespace TenantRag

variable {K : Type} [Field K] [LinearOrder K] {S : RetrievalSettings K} {R : RetrievalRuntime K}
  {client : CollectionClient K} {T : CollectionType} {q : Text} {v : RawMatrix K} {s : RetrievalStages K}

/-! ### What is reranked -/

/-- The candidates have distinct object ids. -/
theorem candidates_nodup (run : RetrievalRun S R client T q v s) : (s.candidates.map SearchResult.objectId).Nodup := by
  obtain ⟨vector, results, -, -, hcandidates⟩ := run.search
  rw [hcandidates]
  exact normalizedCandidates_nodup results

theorem reranked_eq_scored (run : RetrievalRun S R client T q v s) (hT : T ≠ .conversations) : s.reranked = s.scored := by
  have hsame := run.reranked
  rw [rerankedCandidates, if_neg hT, Except.ok.injEq] at hsame
  exact hsame.symm

theorem reranked_collapsed (run : RetrievalRun S R client T q v s) (hT : T = .conversations) :
    collapseConversations s.scored (S.config T).candidateCount = .ok s.reranked := by
  have h := run.reranked
  rwa [rerankedCandidates, if_pos hT] at h

/-- What is reranked is in the order of score and id. -/
theorem reranked_pairwise (run : RetrievalRun S R client T q v s) : s.reranked.Pairwise Candidate.before := by
  by_cases hT : T = .conversations
  · exact (collapseConversations_spec (reranked_collapsed run hT)).1
  · rw [reranked_eq_scored run hT]
    exact (crossEncoder_spec run.scored).2.1

/-- What is reranked has distinct ids. -/
theorem reranked_nodup (run : RetrievalRun S R client T q v s) : (s.reranked.map Candidate.objectId).Nodup := by
  by_cases hT : T = .conversations
  · exact (collapseConversations_spec (reranked_collapsed run hT)).2.1
  · rw [reranked_eq_scored run hT]
    have hperm := (crossEncoder_spec run.scored).1.map SearchResult.objectId
    rw [List.map_map] at hperm
    exact hperm.nodup_iff.mpr (candidates_nodup run)

/-- A candidate that survived normalization: a chunk itself, or the best segment of a conversation. -/
def Survived (T : CollectionType) (s : RetrievalStages K) (c : Candidate K) : Prop :=
  if T = .conversations then ∃ d, BestOf s.scored c.objectId d ∧ d.result ∈ s.candidates ∧ c = d.standFor c.objectId
  else c.result ∈ s.candidates

theorem reranked_survived (run : RetrievalRun S R client T q v s) {c : Candidate K} (h : c ∈ s.reranked) :
    Survived T s c := by
  have hperm := (crossEncoder_spec run.scored).1
  rw [Survived]
  split_ifs with hT
  · obtain ⟨d, hbest, heq⟩ := (collapseConversations_spec (reranked_collapsed run hT)).2.2 c h
    exact ⟨d, hbest, hperm.mem_iff.mp (List.mem_map_of_mem hbest.mem), heq⟩
  · rw [reranked_eq_scored run hT] at h
    exact hperm.mem_iff.mp (List.mem_map_of_mem h)

/-! ### The floor -/

omit [Field K] in
/-- No candidate is above the floor. -/
def NoneAbove (C : RetrievalConfig K) (reranked : List (Candidate K)) : Prop :=
  ∀ c ∈ reranked, c.rerankScore < C.adaptiveRelevanceFloor

/-- What is eligible is above the floor; where nothing is, one policy candidate may be, the first,
which is above the floor of the rescue. -/
theorem eligible_floor (C : RetrievalConfig K) (T : CollectionType) (reranked : List (Candidate K)) :
    (∀ c ∈ eligibleCandidates C T reranked, C.adaptiveRelevanceFloor ≤ c.rerankScore) ∨
      T = .policy ∧ NoneAbove C reranked ∧ ∃ first, reranked.head? = some first ∧
        eligibleCandidates C T reranked = [first] ∧ policyEmptyPoolFloor ≤ first.rerankScore := by
  have habove : ∀ c ∈ reranked.filter fun c => decide (C.adaptiveRelevanceFloor ≤ c.rerankScore),
      C.adaptiveRelevanceFloor ≤ c.rerankScore := fun c hc => by simpa using (List.mem_filter.mp hc).2
  simp only [eligibleCandidates]
  split_ifs with hrescue
  · obtain ⟨hempty, hT⟩ := hrescue
    cases reranked with
    | nil => exact .inl habove
    | cons first rest =>
      dsimp only
      split_ifs with hfloor
      · refine .inr ⟨hT, fun c hc => ?_, first, rfl, rfl, hfloor⟩
        have hnot := List.filter_eq_nil_iff.mp (List.isEmpty_iff.mp hempty) c hc
        simpa using hnot
      · exact .inl habove
  · exact .inl habove

/-! ### The guarantees -/

/-- An item of the result, and where it comes from. -/
structure ItemGuarantee (V : VectorArithmetic K) (T : CollectionType) (C : RetrievalConfig K) (client : CollectionClient K)
    (s : RetrievalStages K) (item : ContextItem K) (x : HydratedCandidate K) : Prop where
  /-- It is the item of a hydrated candidate. -/
  item : item = x.item T
  /-- The candidate survived normalization. -/
  survived : Survived T s x.toCandidate
  /-- It is in the prefix that Adaptive-K leaves of what is eligible. -/
  pool : x.toCandidate ∈ s.adaptivePool
  /-- Its hydration was answered, and not quarantined. -/
  hydrated : ∃ requested raw, client.hydrateMmrHead requested = .ok (some raw) ∧
    ∃ request ∈ requested, ∃ answer ∈ raw, x.From V T request answer
  /-- It is above the floor, but for the first policy candidate where none is. -/
  floor : C.adaptiveRelevanceFloor ≤ x.rerankScore ∨
    T = .policy ∧ NoneAbove C s.reranked ∧ s.reranked.head? = some x.toCandidate ∧
      policyEmptyPoolFloor ≤ x.rerankScore

/-- What a retrieval that returned guarantees. -/
structure RetrievalGuarantee (S : RetrievalSettings K) (R : RetrievalRuntime K) (client : CollectionClient K)
    (T : CollectionType) (s : RetrievalStages K) : Prop where
  /-- No object is returned twice. -/
  distinct : (s.final.map ContextItem.objectId).Nodup
  /-- No more than `final_count`. -/
  count : s.final.length ≤ (S.config T).finalCount
  /-- Each item comes from a candidate of the pool. -/
  items : ∀ item ∈ s.final, ∃ x, ItemGuarantee R.vectors T (S.config T) client s item x
  /-- The eligible list is in the order of score and id. -/
  ordered : s.eligible.Pairwise Candidate.before
  /-- The pool is the prefix that Adaptive-K leaves of it. -/
  adaptive : s.adaptivePool = s.eligible.take (adaptiveK R.sigmoid (S.config T) s.eligible)
  /-- Where no policy candidate is above the floor there is at most one item. -/
  rescue : T = .policy → NoneAbove (S.config T) s.reranked → s.final.length ≤ 1
  /-- A result with an item fits the budget. -/
  budget : ∀ b, S.budget T = some b → s.final ≠ [] →
    (R.encode (join contextSeparator (s.final.map ContextItem.rawText))).length ≤ b
  /-- It is the longest prefix of the selection that does. -/
  longest : ∀ b, S.budget T = some b → s.final <+: s.mmrSelected.map (HydratedCandidate.item T) ∧
    ∀ p, p <+: s.mmrSelected.map (HydratedCandidate.item T) → s.final.length < p.length →
      b < (R.encode (join contextSeparator (p.map ContextItem.rawText))).length
  /-- Without a budget the result is the selection. -/
  whole : S.budget T = none → s.final = s.mmrSelected.map (HydratedCandidate.item T)

/-- The selection has distinct ids. -/
theorem mmrSelected_nodup (run : RetrievalRun S R client T q v s) :
    (s.mmrSelected.map fun x => x.objectId).Nodup := by
  obtain ⟨hsub, -⟩ := selectPool_spec run.mmrSelected
  obtain ⟨l, hperm, hsub⟩ := hsub
  have hpool : (s.hydratedPool.map fun x => x.objectId).Sublist (s.reranked.map Candidate.objectId) := by
    have hmap := ((hydratePool_spec run.hydratedPool).1.trans (adaptivePool_sublist run)).map Candidate.objectId
    rwa [List.map_map] at hmap
  have hnodup := ((hsub.map fun x => x.objectId).trans hpool).nodup (reranked_nodup run)
  exact (hperm.map _).nodup_iff.mp hnodup

theorem eligible_sublist (run : RetrievalRun S R client T q v s) : s.eligible.Sublist s.reranked := by
  rw [run.eligible]
  exact eligibleCandidates_sublist _ _ _

/-- Each item of the result comes from a candidate of the pool. -/
theorem item_guarantee (run : RetrievalRun S R client T q v s) {item : ContextItem K} (h : item ∈ s.final) :
    ∃ x, ItemGuarantee R.vectors T (S.config T) client s item x := by
  obtain ⟨x, hx, hpool, hitem⟩ := final_origin run h
  have hne : s.adaptivePool ≠ [] := List.ne_nil_of_mem hpool
  obtain ⟨requested, raw, -, hraw, hfrom⟩ := (hydratePool_spec run.hydratedPool).2.2 hne
  have heligible : x.toCandidate ∈ s.eligible := by
    rw [run.adaptivePool] at hpool
    exact List.mem_of_mem_take hpool
  refine ⟨x, hitem, reranked_survived run ((eligible_sublist run).subset heligible), hpool,
    ⟨requested, raw, hraw, hfrom x hx⟩, ?_⟩
  rw [run.eligible] at heligible
  rcases eligible_floor (S.config T) T s.reranked with habove | ⟨hT, hnone, first, hfirst, hsingle, hrescue⟩
  · exact .inl (habove _ heligible)
  · rw [hsingle, List.mem_singleton] at heligible
    exact .inr ⟨hT, hnone, heligible ▸ hfirst, heligible ▸ hrescue⟩

/-- Where no policy candidate is above the floor, one at most is eligible. -/
theorem eligible_length_le_one (run : RetrievalRun S R client T q v s) (hnone : NoneAbove (S.config T) s.reranked) :
    s.eligible.length ≤ 1 := by
  rcases eligible_floor (S.config T) T s.reranked with habove | ⟨-, -, first, -, hsingle, -⟩
  · have hempty : s.eligible = [] := by
      refine List.eq_nil_iff_forall_not_mem.mpr fun c hc => ?_
      have hlow := hnone c ((eligible_sublist run).subset hc)
      rw [run.eligible] at hc
      exact absurd (habove c hc) (not_le.mpr hlow)
    rw [hempty]
    exact Nat.zero_le 1
  · rw [run.eligible, hsingle]
    exact le_rfl

/-- **Retrieval**: what a call of `retrieve` that returned guarantees, whatever the search, the
cross encoder, the hydration and the tokenizer answered. -/
theorem retrieve_guarantees (h : retrieveStages S R client T q v = .ok s) : RetrievalGuarantee S R client T s := by
  have run := retrieveStages_run h
  obtain ⟨hresults, hblank⟩ := finalResults_eq run.results
  have hinitial := budgeted_spec run.final
  have hids : s.results.map ContextItem.objectId = s.mmrSelected.map fun x => x.objectId := by
    rw [hresults, List.map_map]
    rfl
  have hbudget := run.final
  refine ⟨?_, ?_, fun item hitem => item_guarantee run hitem, (reranked_pairwise run).sublist (eligible_sublist run),
    run.adaptivePool, fun hT hnone => ?_, fun b hb hne => ?_, fun b hb => ?_, fun hnone => ?_⟩
  · refine (hinitial.sublist.map _).nodup ?_
    rw [hids]
    exact mmrSelected_nodup run
  · calc s.final.length ≤ s.results.length := hinitial.length_le
      _ = s.mmrSelected.length := by rw [hresults, List.length_map]
      _ = min (S.config T).finalCount s.hydratedPool.length := (selectPool_spec run.mmrSelected).2
      _ ≤ (S.config T).finalCount := Nat.min_le_left _ _
  · have hpool := (hydratePool_spec run.hydratedPool).1.length_le
    rw [List.length_map] at hpool
    calc s.final.length ≤ s.results.length := hinitial.length_le
      _ = s.mmrSelected.length := by rw [hresults, List.length_map]
      _ ≤ s.hydratedPool.length := (selectPool_spec run.mmrSelected).1.length_le
      _ ≤ s.adaptivePool.length := hpool
      _ ≤ s.eligible.length := by
        rw [run.adaptivePool]
        exact List.length_take_le' _ _
      _ ≤ 1 := eligible_length_le_one run hnone
  · rw [budgeted, hb] at hbudget
    have hfits := (budgetResults_spec hbudget).2.1 hne
    simpa [fitsBudget] using hfits
  · rw [budgeted, hb] at hbudget
    obtain ⟨hpre, -, hlongest⟩ := budgetResults_spec hbudget
    rw [hresults] at hpre hlongest
    refine ⟨hpre, fun p hp hlt => ?_⟩
    have hnot := hlongest p hp hlt
    simpa [fitsBudget] using hnot
  · rw [budgeted, hnone] at hbudget
    exact (Except.ok.inj hbudget).symm.trans hresults

/-- The chunk of the sample is retrieved under the guarantees. -/
theorem retrieve_guarantees_sample :
    ∃ s, retrieveStages settingsSample runtimeSample clientSample .policy (lit "hours?") querySample = .ok s ∧
      s.final.length = 1 ∧ RetrievalGuarantee settingsSample runtimeSample clientSample .policy s := by
  have hfound : (retrieveStages settingsSample runtimeSample clientSample .policy (lit "hours?")
      querySample).toOption.map (fun s => s.final.length) = some 1 := by decide +kernel
  cases h : retrieveStages settingsSample runtimeSample clientSample .policy (lit "hours?") querySample with
  | error e =>
    rw [h] at hfound
    cases hfound
  | ok s =>
    rw [h] at hfound
    exact ⟨s, rfl, Option.some.inj hfound, retrieve_guarantees h⟩

/-- The tokens of an empty result may be more than the budget: the loop over the budget does not
encode it. -/
theorem empty_result_over_budget : ¬ ∀ (S : RetrievalSettings ℚ) (R : RetrievalRuntime ℚ) (client : CollectionClient ℚ)
    (T : CollectionType) (q : Text) (v : RawMatrix ℚ) (items : List (ContextItem ℚ)) (b : ℕ),
    retrieve S R client T q v = .ok items → S.budget T = some b →
      (R.encode (join contextSeparator (items.map ContextItem.rawText))).length ≤ b := by
  intro hall
  have hempty : retrieve settingsSample { runtimeSample with encode := fun _ => List.range 101 }
      ⟨fun _ _ _ => .ok (some []), fun _ => .ok none⟩ .policy (lit "hours?") querySample = .ok [] := by decide +kernel
  have hle := hall settingsSample _ _ .policy _ _ _ 100 hempty rfl
  simp at hle

end TenantRag

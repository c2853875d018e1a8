import TenantRag.Deployment.TraceValidator
import TenantRag.Rag.RetrievalIsolation

/-!
# Deep traces validate

What two runs of `retrieve` and a budgeted prompt leave in the evidence of one
operation, read by the validator of deep traces.

## What is proved

* `validateKpEvidence_of_run` — the evidence of a run of `retrieve` is accepted, whatever was
  answered to it and whichever branch it took.
* `validateUsedContext_of_prompt` — what the prompt used is the beginning of what was retrieved.
* `deep_trace_validates` — both, of an operation with two retrievals, in any interleaving, and
  the prompt made of them.
-/

namespace TenantRag

variable {K : Type} [Field K] [LinearOrder K] {F : Type}

/-! ### Names -/

/-- The names that the validator reads, behind the prefix. -/
def evidenceSuffixes : List String :=
  ["_hybrid_candidate_count", "_hybrid_storage_call_count", "_bge_input_count", "_bge_result_count",
    "_bge_model_call_count", "_bge_scores_finite", "_relevance_input_count", "_relevance_eligible_count",
    "_adaptive_eligible_count", "_adaptive_selected_count", "_hydration_requested_count", "_hydration_result_count",
    "_hydration_quarantined_count", "_hydration_storage_call_count", "_mmr_usable", "_hydration_values_finite",
    "_mmr_pool_count", "_mmr_selected_count", "_mmr_fallback", "_prebudget_count", "_final_count",
    "_budget_dropped_count", "_final_ids", "_final_item_fingerprints", "_final_proof_truncated",
    "_final_context_sha256"]

/-- They are accepted where they are recorded. -/
theorem TracePrefix.isRequiredText_name (p : TracePrefix) {suffix : String} (h : suffix ∈ evidenceSuffixes) :
    isRequiredText (p.name suffix) 96 = true := by
  revert suffix
  cases p <;> decide +kernel

/-- So are the names of the context that is used. -/
theorem TracePrefix.isRequiredText_qwenName (p : TracePrefix) {suffix : String}
    (h : suffix ∈ ["_used_count", "_context_utf8_bytes", "_used_ids", "_used_item_fingerprints",
      "_used_proof_truncated", "_context_sha256"]) :
    isRequiredText (p.qwenName suffix) 96 = true := by
  revert suffix
  cases p <;> decide +kernel

theorem TracePrefix.isDigestDomain_finalDomain (p : TracePrefix) : isDigestDomain p.finalDomain = true := by
  cases p <;> decide +kernel

theorem TracePrefix.isDigestDomain_qwenDomain (p : TracePrefix) : isDigestDomain p.qwenDomain = true := by
  cases p <;> decide +kernel

/-- The names of `usedContextCalls`. -/
def usedContextKeys (p : TracePrefix) : List EvidenceKey :=
  [.count (p.qwenName "_used_count"), .count (p.qwenName "_context_utf8_bytes"), .sample (p.qwenName "_used_ids"),
    .sample (p.qwenName "_used_item_fingerprints"), .flag (p.qwenName "_used_proof_truncated"),
    .digest (p.qwenName "_context_sha256")]

/-- All the names of an operation. -/
def operationKeys : List EvidenceKey :=
  (selectionKeys .knowledge ++ finalKeys .knowledge ++ pageKeys .knowledge) ++
    (selectionKeys .policy ++ finalKeys .policy ++ pageKeys .policy) ++
    (usedContextKeys .knowledge ++ usedContextKeys .policy ++
      [.count (lit "qwen_constructed_prompt_utf8_bytes"), .digest (lit "qwen_constructed_prompt_sha256")])

/-- No name is recorded twice. -/
theorem operationKeys_nodup : operationKeys.Nodup := by decide +kernel

/-! ### Retrieval -/

section Evidence

variable {sha : List ℕ → Sha256} {log : List Call}

/-- The identifiers of some items, and their fingerprints. -/
def contextEvidence (sha : List ℕ → Sha256) (items : List (ContextItem K)) : ContextEvidence :=
  ⟨items.map fun item => item.objectId.str, items.map fun item => (item.objectId.str, (itemDigest sha item).hexdigest)⟩

omit [Field K] [LinearOrder K] in
/-- The sample of identifiers that a call records is complete. -/
theorem samples_ids (honce : (log.flatMap Call.keys).Nodup) {name : Text} {items : List (ContextItem K)}
    (hc : idSample name ContextItem.objectId items ∈ log) (hname : isRequiredText name 96 = true)
    (hlength : items.length ≤ traceSampleLimit) :
    completeSample (F := F) (Trace.fresh.observeAll sha log).samplesPayload name =
      .ok (items.map fun item => item.objectId.str) := by
  have htoken : ∀ s ∈ items.map fun item => item.objectId.str, isSampleToken s = true := by
    intro s hs
    obtain ⟨item, -, rfl⟩ := List.mem_map.mp hs
    exact isSampleToken_str item.objectId
  have hcount : (items.map fun item => item.objectId.str).length = items.length := List.length_map _
  refine completeSample_payload (Trace.samples_of_once _ honce ?_ hname htoken (by rwa [hcount])) fun s hs => ?_
  · rw [hcount]
    exact hc
  · obtain ⟨item, -, rfl⟩ := List.mem_map.mp hs
    exact Uuid.str_ne_nil _

omit [Field K] [LinearOrder K] in
/-- So is the sample of fingerprints. -/
theorem samples_fingerprints (honce : (log.flatMap Call.keys).Nodup) {name : Text} {items : List (ContextItem K)}
    (hc : Call.setSample name (.ok (items.map (fingerprintText sha))) (some items.length) ∈ log)
    (hname : isRequiredText name 96 = true) (hlength : items.length ≤ traceSampleLimit) :
    completeItemFingerprints (F := F) (Trace.fresh.observeAll sha log).samplesPayload name =
      .ok (items.map fun item => (item.objectId.str, (itemDigest sha item).hexdigest)) := by
  have htoken : ∀ s ∈ items.map (fingerprintText sha), isSampleToken s = true := by
    intro s hs
    obtain ⟨item, -, rfl⟩ := List.mem_map.mp hs
    exact isSampleToken_fingerprintText sha item
  have hcount : (items.map (fingerprintText sha)).length = items.length := List.length_map _
  have hsample := Trace.samples_of_once sha honce (by rwa [hcount]) hname htoken (by rwa [hcount])
  rw [hcount] at hsample
  exact completeItemFingerprints_payload hsample

variable {X : TraceSettings K} {S : RetrievalSettings K} {R : RetrievalRuntime K} {client : CollectionClient K}
  {p : TracePrefix} {q : Text} {v : RawMatrix K} {s : RetrievalStages K}

/-- The counts of a run, as the validator reads them. -/
def kpCountsOf (R : RetrievalRuntime K) (C : RetrievalConfig K) (s : RetrievalStages K) : KpCounts where
  hybrid := s.candidates.length
  hybridCalls := 1
  bgeInput := s.candidates.length
  bgeResult := s.reranked.length
  bgeCalls := if s.candidates.isEmpty then 0 else 1
  relevanceInput := s.reranked.length
  eligible := s.eligible.length
  adaptiveEligible := s.eligible.length
  adaptive := adaptiveK R.sigmoid C s.eligible
  hydratedRequested := s.adaptivePool.length
  hydrated := s.hydratedPool.length
  quarantined := s.adaptivePool.length - s.hydratedPool.length
  hydrationCalls := if s.adaptivePool.isEmpty then 0 else 1
  mmrPool := s.hydratedPool.length
  mmrSelected := s.mmrSelected.length
  prebudget := s.results.length
  finalCount := s.final.length
  dropped := s.results.length - s.final.length

/-- They are consistent, next to the flags of the run. -/
theorem kpConsistent_of_run {T : CollectionType} (h : RunCounts S R T s) {flags : List (Text × Json F)}
    (hfinite : Json.get? flags (p.name "_bge_scores_finite") = some (.bool true))
    (husable : Json.get? flags (p.name "_mmr_usable") = some (.bool s.mmrUsable))
    (hvalues : Json.get? flags (p.name "_hydration_values_finite") = some (.bool s.mmrUsable))
    (hfallback : Json.get? flags (p.name "_mmr_fallback") = some (.bool !s.mmrUsable))
    (htruncated : Json.get? flags (p.name "_final_proof_truncated") = some (.bool false)) :
    kpConsistent p (kpCountsOf R (S.config T) s) flags = true := by
  have hempty {α : Type} (l : List α) : (if l.isEmpty then 0 else 1) = if l.length = 0 then 0 else 1 := by
    cases l <;> rfl
  have hquarantined : s.hydratedPool.length + (s.adaptivePool.length - s.hydratedPool.length) = s.adaptivePool.length :=
    Nat.add_sub_cancel' h.hydratedPool
  simp only [kpConsistent, kpCountsOf, hfinite, husable, hvalues, hfallback, htruncated, hempty, isBool, isTrueOrFalse,
    isSame, Bool.and_eq_true, decide_eq_true_eq, Bool.not_eq_true', decide_eq_false_iff_not, and_true, true_and]
  exact ⟨⟨⟨⟨⟨⟨⟨⟨h.reranked, h.eligible⟩, h.adaptiveK⟩, h.adaptivePool⟩, hquarantined⟩, Bool.not_ne_self _⟩,
    h.mmrSelected⟩, h.results⟩, h.final⟩

theorem final_length_le {T : CollectionType} (run : RetrievalRun S R client T q v s) (hT : T ≠ .conversations) :
    s.final.length ≤ (S.config T).finalCount := by
  have hcounts := run.counts hT
  calc s.final.length ≤ s.results.length := hcounts.final
    _ = s.mmrSelected.length := hcounts.results
    _ ≤ (S.config T).finalCount := hcounts.finalCount

/-- The evidence of a run of `retrieve` is accepted. -/
theorem validateKpEvidence_of_run (honce : (log.flatMap Call.keys).Nodup)
    (hlog : selectionCalls R (S.config p.collection) p s ++ finalCalls X p s ⊆ log)
    (run : RetrievalRun S R client p.collection q v s) (hcount : (S.config p.collection).finalCount ≤ traceSampleLimit)
    (htexts : ∀ item ∈ s.final, encodable item.rawText = true) :
    let t := Trace.fresh.observeAll X.sha log
    validateKpEvidence (F := F) p t.countsPayload t.flagsPayload t.digestsPayload t.samplesPayload =
      .ok (contextEvidence X.sha s.final) := by
  intro t
  have hcollection : p.collection ≠ .conversations := by cases p <;> simp [TracePrefix.collection]
  have hcounts := run.counts hcollection
  have hlength : s.final.length ≤ traceSampleLimit := (final_length_le run hcollection).trans hcount
  have count (suffix : String) (n : ℕ) (hs : suffix ∈ evidenceSuffixes)
      (hc : Call.addCount (p.name suffix) n ∈ selectionCalls R (S.config p.collection) p s ++ finalCalls X p s) :
      nonnegativeInt (F := F) t.countsPayload (p.name suffix) = .ok n :=
    nonnegativeInt_payload (Trace.counts_of_once _ honce (hlog hc) (p.isRequiredText_name hs))
  have flag (suffix : String) (b : Bool) (hs : suffix ∈ evidenceSuffixes)
      (hc : Call.setFlag (p.name suffix) b ∈ selectionCalls R (S.config p.collection) p s ++ finalCalls X p s) :
      Json.get? (F := F) t.flagsPayload (p.name suffix) = some (.bool b) :=
    get?_flagsPayload (Trace.flags_of_once _ honce (hlog hc) (p.isRequiredText_name hs))
  have hread : readKpCounts (F := F) p t.countsPayload = .ok (kpCountsOf R (S.config p.collection) s) := by
    rw [readKpCounts,
      count "_hybrid_candidate_count" s.candidates.length (by decide) (by simp [selectionCalls]),
      count "_hybrid_storage_call_count" 1 (by decide) (by simp [selectionCalls]),
      count "_bge_input_count" s.candidates.length (by decide) (by simp [selectionCalls]),
      count "_bge_result_count" s.reranked.length (by decide) (by simp [selectionCalls]),
      count "_bge_model_call_count" (if s.candidates.isEmpty then 0 else 1) (by decide) (by simp [selectionCalls]),
      count "_relevance_input_count" s.reranked.length (by decide) (by simp [selectionCalls]),
      count "_relevance_eligible_count" s.eligible.length (by decide) (by simp [selectionCalls]),
      count "_adaptive_eligible_count" s.eligible.length (by decide) (by simp [selectionCalls]),
      count "_adaptive_selected_count" (adaptiveK R.sigmoid (S.config p.collection) s.eligible) (by decide)
        (by simp [selectionCalls]),
      count "_hydration_requested_count" s.adaptivePool.length (by decide) (by simp [selectionCalls]),
      count "_hydration_result_count" s.hydratedPool.length (by decide) (by simp [selectionCalls]),
      count "_hydration_quarantined_count" (s.adaptivePool.length - s.hydratedPool.length) (by decide)
        (by simp [selectionCalls]),
      count "_hydration_storage_call_count" (if s.adaptivePool.isEmpty then 0 else 1) (by decide)
        (by simp [selectionCalls]),
      count "_mmr_pool_count" s.hydratedPool.length (by decide) (by simp [selectionCalls]),
      count "_mmr_selected_count" s.mmrSelected.length (by decide) (by simp [selectionCalls]),
      count "_prebudget_count" s.results.length (by decide) (by simp [finalCalls]),
      count "_final_count" s.final.length (by decide) (by simp [finalCalls]),
      count "_budget_dropped_count" (s.results.length - s.final.length) (by decide) (by simp [finalCalls])]
    rfl
  have hproof : finalCalls X p s = [.addCount (p.name "_prebudget_count") s.results.length,
      .addCount (p.name "_final_count") s.final.length,
      .addCount (p.name "_budget_dropped_count") (s.results.length - s.final.length),
      idSample (p.name "_final_ids") ContextItem.objectId s.final,
      .setSample (p.name "_final_item_fingerprints") (.ok (s.final.map (fingerprintText X.sha))) (some s.final.length),
      .setFlag (p.name "_final_proof_truncated") false,
      .setFramedDigest (p.name "_final_context_sha256") p.finalDomain
        (.ok (s.final.flatMap fun item => [item.objectId.str.flatMap utf8Bytes, item.rawText.flatMap utf8Bytes]))] := by
    have htruncated : decide (traceSampleLimit < s.final.length) = false := by simpa using hlength
    rw [finalCalls, contextItemFingerprints_eq htexts, contextParts_eq htexts, htruncated]
  have hconsistent : kpConsistent (F := F) p (kpCountsOf R (S.config p.collection) s) t.flagsPayload = true :=
    kpConsistent_of_run hcounts (flag "_bge_scores_finite" true (by decide) (by simp [selectionCalls]))
      (flag "_mmr_usable" s.mmrUsable (by decide) (by simp [selectionCalls]))
      (flag "_hydration_values_finite" s.mmrUsable (by decide) (by simp [selectionCalls]))
      (flag "_mmr_fallback" (!s.mmrUsable) (by decide) (by simp [selectionCalls]))
      (flag "_final_proof_truncated" false (by decide) (by simp [hproof]))
  have final {c : Call} (hc : c ∈ finalCalls X p s) : c ∈ log := hlog (List.mem_append_right _ hc)
  have hids : completeSample (F := F) t.samplesPayload (p.name "_final_ids") =
      .ok (s.final.map fun item => item.objectId.str) :=
    samples_ids honce (final (by simp [hproof])) (p.isRequiredText_name (by decide)) hlength
  have hfingerprints : completeItemFingerprints (F := F) t.samplesPayload (p.name "_final_item_fingerprints") =
      .ok (s.final.map fun item => (item.objectId.str, (itemDigest X.sha item).hexdigest)) :=
    samples_fingerprints honce (final (by simp [hproof])) (p.isRequiredText_name (by decide)) hlength
  have hdigest := Trace.digests_of_once X.sha honce
    (final (by rw [hproof]; exact List.mem_of_getElem? (i := 6) rfl)) (p.isRequiredText_name (by decide))
    p.isDigestDomain_finalDomain
  refine bind_eq_ok_iff.mpr ⟨_, hread, ?_⟩
  rw [hconsistent, Bool.not_true, if_neg (by simp)]
  refine bind_eq_ok_iff.mpr ⟨_, hids, bind_eq_ok_iff.mpr ⟨_, hfingerprints, ?_⟩⟩
  rw [if_neg (by simp [kpCountsOf])]
  exact bind_eq_ok_iff.mpr ⟨_, validSha256_payload hdigest, rfl⟩

/-! ### The prompt -/

omit [Field K] [LinearOrder K] in
theorem contextUtf8Bytes_ok {items : List (ContextItem K)} (h : ∀ item ∈ items, encodable item.rawText = true) :
    ∃ n, contextUtf8Bytes items = .ok n := by
  refine ⟨_, bind_eq_ok_iff.mpr ⟨items.map fun item => item.rawText.flatMap utf8Bytes, ?_, rfl⟩⟩
  rw [mapM_eq_ok_iff, List.forall₂_map_right_iff]
  exact List.forall₂_same.mpr fun item hitem => encodeUtf8_of_encodable (h item hitem)

omit [Field K] [LinearOrder K] in
/-- The calls about a context of encodable texts. -/
theorem usedContextCalls_eq (sha : List ℕ → Sha256) (p : TracePrefix) {items : List (ContextItem K)} (h : ∀ item ∈ items, encodable item.rawText = true)
    (hlength : items.length ≤ traceSampleLimit) :
    ∃ n, usedContextCalls sha p items =
      [.addCount (p.qwenName "_used_count") items.length, .addCount (p.qwenName "_context_utf8_bytes") n,
        idSample (p.qwenName "_used_ids") ContextItem.objectId items,
        .setSample (p.qwenName "_used_item_fingerprints") (.ok (items.map (fingerprintText sha))) (some items.length),
        .setFlag (p.qwenName "_used_proof_truncated") false,
        .setFramedDigest (p.qwenName "_context_sha256") p.qwenDomain
          (.ok (items.flatMap fun item => [item.objectId.str.flatMap utf8Bytes, item.rawText.flatMap utf8Bytes]))] := by
  obtain ⟨n, hn⟩ := contextUtf8Bytes_ok h
  have htruncated : decide (traceSampleLimit < items.length) = false := by simpa using hlength
  refine ⟨n, ?_⟩
  rw [usedContextCalls, hn, contextItemFingerprints_eq h, contextParts_eq h, htruncated]
  rfl

omit [Field K] [LinearOrder K] in
/-- What the prompt used is accepted where it is the beginning of what was retrieved. -/
theorem validateUsedContext_of_prompt (honce : (log.flatMap Call.keys).Nodup) {used final : List (ContextItem K)}
    (hlog : usedContextCalls sha p used ⊆ log) (hused : used <+: final)
    (htexts : ∀ item ∈ final, encodable item.rawText = true) (hlength : final.length ≤ traceSampleLimit) :
    let t := Trace.fresh.observeAll sha log
    validateUsedContext (F := F) p t.countsPayload t.flagsPayload t.digestsPayload t.samplesPayload
      (contextEvidence sha final) = .ok (contextEvidence sha used) := by
  intro t
  have hshort : used.length ≤ traceSampleLimit := hused.length_le.trans hlength
  have htake : used = final.take used.length := List.prefix_iff_eq_take.mp hused
  obtain ⟨n, hcalls⟩ := usedContextCalls_eq sha p (fun item hitem => htexts item (hused.subset hitem)) hshort
  have call {c : Call} (i : ℕ) (hc : (usedContextCalls sha p used)[i]? = some c) : c ∈ log :=
    hlog (List.mem_of_getElem? hc)
  rw [hcalls] at call
  have hcount : nonnegativeInt (F := F) t.countsPayload (p.qwenName "_used_count") = .ok used.length :=
    nonnegativeInt_payload (Trace.counts_of_once _ honce (call 0 rfl) (p.isRequiredText_qwenName (by decide)))
  have hids : completeSample (F := F) t.samplesPayload (p.qwenName "_used_ids") =
      .ok (used.map fun item => item.objectId.str) :=
    samples_ids honce (call 2 rfl) (p.isRequiredText_qwenName (by decide)) hshort
  have hfingerprints : completeItemFingerprints (F := F) t.samplesPayload (p.qwenName "_used_item_fingerprints") =
      .ok (used.map fun item => (item.objectId.str, (itemDigest sha item).hexdigest)) :=
    samples_fingerprints honce (call 3 rfl) (p.isRequiredText_qwenName (by decide)) hshort
  have hflag : Json.get? (F := F) t.flagsPayload (p.qwenName "_used_proof_truncated") = some (.bool false) :=
    get?_flagsPayload (Trace.flags_of_once _ honce (call 4 rfl) (p.isRequiredText_qwenName (by decide)))
  have hbytes : nonnegativeInt (F := F) t.countsPayload (p.qwenName "_context_utf8_bytes") = .ok n :=
    nonnegativeInt_payload (Trace.counts_of_once _ honce (call 1 rfl) (p.isRequiredText_qwenName (by decide)))
  have hdigest := Trace.digests_of_once sha honce (call 5 rfl) (p.isRequiredText_qwenName (by decide))
    p.isDigestDomain_qwenDomain
  have hfirst : contextEvidence sha used =
      ⟨(contextEvidence sha final).ids.take used.length, (contextEvidence sha final).fingerprints.take used.length⟩ := by
    simp only [contextEvidence, ← List.map_take]
    rw [← htake]
  refine bind_eq_ok_iff.mpr ⟨_, hcount, bind_eq_ok_iff.mpr ⟨_, hids, bind_eq_ok_iff.mpr ⟨_, hfingerprints, ?_⟩⟩⟩
  have hmatch : ¬ (used.length ≠ (used.map fun item => item.objectId.str).length ∨
      used.length ≠ (used.map fun item => (item.objectId.str, (itemDigest sha item).hexdigest)).length ∨
      (used.map fun item => item.objectId.str) ≠ (contextEvidence sha final).ids.take used.length ∨
      (used.map fun item => (item.objectId.str, (itemDigest sha item).hexdigest)) ≠
        (contextEvidence sha final).fingerprints.take used.length ∨
      isBool (Json.get? (F := F) t.flagsPayload (p.qwenName "_used_proof_truncated")) false = false) := by
    rw [hflag]
    simp only [contextEvidence, ContextEvidence.mk.injEq] at hfirst
    simp [contextEvidence, isBool, ← hfirst.1, ← hfirst.2]
  rw [if_neg hmatch]
  exact bind_eq_ok_iff.mpr ⟨_, hbytes, bind_eq_ok_iff.mpr ⟨_, validSha256_payload hdigest, rfl⟩⟩

end Evidence

/-! ### The whole operation -/

section Operation

variable {S : RetrievalSettings K} {X : TraceSettings K} {Rk Rp : RetrievalRuntime K} {ck cp : CollectionClient K}
  {qk qp : Text} {vk vp : RawMatrix K} {k p : RetrievalStages K}

omit [Field K] [LinearOrder K] in
/-- The names of the prompt's calls. -/
theorem keys_finalPromptContextCalls (sha : List ℕ → Sha256) {b : BudgetedPrompt K}
    (hk : ∀ item ∈ b.knowledge, encodable item.rawText = true) (hp : ∀ item ∈ b.policy, encodable item.rawText = true)
    (hklength : b.knowledge.length ≤ traceSampleLimit) (hplength : b.policy.length ≤ traceSampleLimit) :
    ∃ rest, finalPromptContextCalls sha b =
        usedContextCalls sha .knowledge b.knowledge ++ usedContextCalls sha .policy b.policy ++ rest ∧
      ((finalPromptContextCalls sha b).flatMap Call.keys).Sublist
        (usedContextKeys .knowledge ++ usedContextKeys .policy ++
          [.count (lit "qwen_constructed_prompt_utf8_bytes"), .digest (lit "qwen_constructed_prompt_sha256")]) := by
  obtain ⟨n, hknowledge⟩ := usedContextCalls_eq sha .knowledge hk hklength
  obtain ⟨m, hpolicy⟩ := usedContextCalls_eq sha .policy hp hplength
  have hcalls : ∀ c ∈ usedContextCalls sha .knowledge b.knowledge ++ usedContextCalls sha .policy b.policy,
      c.isRaise = false := by
    rw [hknowledge, hpolicy]
    simp [Call.isRaise, idSample]
  refine ⟨upTo Call.isRaise (constructedPromptCalls b.prompt), by rw [finalPromptContextCalls, upTo_append hcalls], ?_⟩
  rw [finalPromptContextCalls, upTo_append hcalls, List.flatMap_append, List.flatMap_append, hknowledge, hpolicy]
  refine (List.Sublist.refl _).append (((upTo_sublist _ _).flatMap Call.keys).trans ?_)
  rw [constructedPromptCalls]
  cases encodeUtf8 b.prompt with
  | error e => exact List.nil_sublist _
  | ok bytes => exact List.Sublist.refl _

/-- **Deep traces validate**: the evidence of an operation with one retrieval of each collection, their
calls in any interleaving, and the prompt made of both is accepted for both prefixes, and what the
prompt used are the first of the items that were retrieved. -/
theorem deep_trace_validates (hk : retrieveStages S Rk ck .knowledgeFacts qk vk = .ok k)
    (hp : retrieveStages S Rp cp .policy qp vp = .ok p)
    (hkcount : (S.config .knowledgeFacts).finalCount ≤ 32) (hpcount : (S.config .policy).finalCount ≤ 32)
    (hktexts : ∀ item ∈ k.final, encodable item.rawText = true)
    (hptexts : ∀ item ∈ p.final, encodable item.rawText = true)
    {encode : Text → List ℕ} {B : PromptBudgets} {query : Text} {b : BudgetedPrompt K}
    (hprompt : buildBudgetedPrompt encode B query k.final p.final = .ok b) {log : List Call}
    (hlog : log.Perm (retrievalCalls X Rk (S.config .knowledgeFacts) .knowledge k ++
      retrievalCalls X Rp (S.config .policy) .policy p)) :
    let t := Trace.fresh.observeAll X.sha (log ++ finalPromptContextCalls X.sha b)
    (validateKpEvidence (F := F) .knowledge t.countsPayload t.flagsPayload t.digestsPayload t.samplesPayload =
        .ok (contextEvidence X.sha k.final) ∧
      validateUsedContext (F := F) .knowledge t.countsPayload t.flagsPayload t.digestsPayload t.samplesPayload
        (contextEvidence X.sha k.final) = .ok (contextEvidence X.sha (k.final.take b.knowledge.length))) ∧
    (validateKpEvidence (F := F) .policy t.countsPayload t.flagsPayload t.digestsPayload t.samplesPayload =
        .ok (contextEvidence X.sha p.final) ∧
      validateUsedContext (F := F) .policy t.countsPayload t.flagsPayload t.digestsPayload t.samplesPayload
        (contextEvidence X.sha p.final) = .ok (contextEvidence X.sha (p.final.take b.policy.length))) := by
  intro t
  have hkrun := retrieveStages_run hk
  have hprun := retrieveStages_run hp
  have hused := budgetedPrompt_spec hprompt
  have hklength : k.final.length ≤ traceSampleLimit := (final_length_le hkrun (by simp)).trans hkcount
  have hplength : p.final.length ≤ traceSampleLimit := (final_length_le hprun (by simp)).trans hpcount
  obtain ⟨rest, hcalls, hkeys⟩ := keys_finalPromptContextCalls X.sha
    (fun item hitem => hktexts item (hused.knowledge.subset hitem))
    (fun item hitem => hptexts item (hused.policy.subset hitem))
    (hused.knowledge.length_le.trans hklength) (hused.policy.length_le.trans hplength)
  have honce : ((log ++ finalPromptContextCalls X.sha b).flatMap Call.keys).Nodup := by
    rw [((hlog.append_right _).flatMap_right Call.keys).nodup_iff, List.flatMap_append, List.flatMap_append]
    exact operationKeys_nodup.sublist
      (((keys_retrievalCalls X Rk _ .knowledge k).append (keys_retrievalCalls X Rp _ .policy p)).append hkeys)
  have hinK : retrievalCalls X Rk (S.config .knowledgeFacts) .knowledge k ⊆ log ++ finalPromptContextCalls X.sha b :=
    fun c hc => List.mem_append_left _ (hlog.mem_iff.mpr (List.mem_append_left _ hc))
  have hinP : retrievalCalls X Rp (S.config .policy) .policy p ⊆ log ++ finalPromptContextCalls X.sha b :=
    fun c hc => List.mem_append_left _ (hlog.mem_iff.mpr (List.mem_append_right _ hc))
  have hinUsed : usedContextCalls X.sha .knowledge b.knowledge ++ usedContextCalls X.sha .policy b.policy ⊆
      log ++ finalPromptContextCalls X.sha b := by
    intro c hc
    rw [hcalls]
    exact List.mem_append_right _ (List.mem_append_left _ hc)
  rw [← List.prefix_iff_eq_take.mp hused.knowledge, ← List.prefix_iff_eq_take.mp hused.policy]
  refine ⟨⟨validateKpEvidence_of_run (p := .knowledge) honce ?_ hkrun hkcount hktexts,
    validateUsedContext_of_prompt honce ?_ hused.knowledge hktexts hklength⟩,
    ⟨validateKpEvidence_of_run (p := .policy) honce ?_ hprun hpcount hptexts,
    validateUsedContext_of_prompt honce ?_ hused.policy hptexts hplength⟩⟩
  · exact fun c hc => hinK (List.mem_append_left _ hc)
  · exact fun c hc => hinUsed (List.mem_append_left _ hc)
  · exact fun c hc => hinP (List.mem_append_left _ hc)
  · exact fun c hc => hinUsed (List.mem_append_right _ hc)

end Operation

/-! ### One chunk in both collections -/

/-- A digest of the number of bytes. -/
def traceSample : TraceSettings ℚ where
  sha bytes := ⟨List.replicate 63 0 ++ [Fin.ofNat 16 bytes.length], by simp⟩
  hex _ := lit "0x1.0p+0"
  rerankerIdentity := lit "model=m"

/-- The chunk as an item. -/
def itemSample : ContextItem ℚ := ⟨Uuid.ofNat 1, lit "opening hours", some (.number 1)⟩

/-- With the calls of the two retrievals the other way round. -/
theorem deep_trace_validates_sample :
    ∃ (k p : RetrievalStages ℚ) (b : BudgetedPrompt ℚ),
      retrieveStages settingsSample runtimeSample clientSample .knowledgeFacts (lit "hours?") querySample = .ok k ∧
      retrieveStages settingsSample runtimeSample clientSample .policy (lit "hours?") querySample = .ok p ∧
      p.final.length = 1 ∧ b.policy.length = 1 ∧
      let t := Trace.fresh.observeAll traceSample.sha
        ((retrievalCalls traceSample runtimeSample (settingsSample.config .policy) .policy p ++
          retrievalCalls traceSample runtimeSample (settingsSample.config .knowledgeFacts) .knowledge k) ++
          finalPromptContextCalls traceSample.sha b)
      validateKpEvidence (F := Unit) .policy t.countsPayload t.flagsPayload t.digestsPayload t.samplesPayload =
          .ok (contextEvidence traceSample.sha p.final) ∧
        validateUsedContext (F := Unit) .policy t.countsPayload t.flagsPayload t.digestsPayload t.samplesPayload
          (contextEvidence traceSample.sha p.final) = .ok (contextEvidence traceSample.sha p.final) := by
  obtain ⟨k, hk, hkfinal⟩ := exists_ok_of_toOption (x := retrieveStages settingsSample runtimeSample clientSample
    .knowledgeFacts (lit "hours?") querySample) (f := fun s => s.final) (c := [itemSample]) (by decide +kernel)
  obtain ⟨p, hp, hpfinal⟩ := exists_ok_of_toOption (x := retrieveStages settingsSample runtimeSample clientSample
    .policy (lit "hours?") querySample) (f := fun s => s.final) (c := [itemSample]) (by decide +kernel)
  obtain ⟨b, hb, hlengths⟩ := exists_ok_of_toOption (x := buildBudgetedPrompt (fun _ => []) ⟨100, 100, 1000⟩
    (lit "hours?") [itemSample] [itemSample]) (f := fun b => (b.knowledge.length, b.policy.length)) (c := (1, 1))
    (by decide +kernel)
  obtain ⟨hknowledge, hpolicy⟩ := Prod.mk.inj hlengths
  have htexts : ∀ item ∈ [itemSample], encodable item.rawText = true := by decide +kernel
  nth_rewrite 1 [← hkfinal] at hb
  rw [← hpfinal] at hb
  have hktexts : ∀ item ∈ k.final, encodable item.rawText = true := by rwa [hkfinal]
  have hptexts : ∀ item ∈ p.final, encodable item.rawText = true := by rwa [hpfinal]
  have hvalid := deep_trace_validates (F := Unit) (X := traceSample) hk hp (by decide) (by decide) hktexts hptexts hb
    List.perm_append_comm
  have hall : p.final.take b.policy.length = p.final :=
    List.take_of_length_le (by rw [hpolicy, hpfinal, List.length_singleton])
  refine ⟨k, p, b, hk, hp, by rw [hpfinal, List.length_singleton], hpolicy, hvalid.2.1, ?_⟩
  rw [hvalid.2.2, hall]

end TenantRag

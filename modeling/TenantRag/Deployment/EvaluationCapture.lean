import TenantRag.Deployment.DeepTrace

/-!
# Evidence for evaluations

`capture_evaluation_rewrite` and `capture_evaluation_contexts` of `backend/wizard/diagnostics.py`: in
evaluation mode the only calls that record evidence.

## The model

The active operation and the mode are those of the caller, and the object ids are UUIDs. All calls of a
function stand under one `try`, so the first that raises is the last that is made.

## What is proved

* `capturedContextCalls_eq`, `sameContextCalls` — the calls about a context are those that deep tracing makes.
* `captureEvaluationContexts_eq`, `captureEvaluationRewrite_eq` — none of them raises.
-/

namespace TenantRag

variable {K : Type}

/-- What is taken of a context item: its fingerprint, its identifier and its text, both encoded. -/
def capturedItem (sha : List ℕ → Sha256) (item : ContextItem K) : Except PyError (Text × List ℕ × List ℕ) :=
  if isBlank item.rawText then .error (valueError "evaluation context text is invalid")
  else do
    let identifier := item.objectId.str.flatMap utf8Bytes
    let content ← encodeUtf8 item.rawText
    let digest ← contentDigest sha (lit "chat-kp-item-v1") [identifier, content]
    .ok (item.objectId.str ++ lit ":" ++ digest, identifier, content)

/-- One turn of the loop of `capture_evaluation_contexts`. -/
def capturedContextCalls (sha : List ℕ → Sha256) (p : TracePrefix) (items : List (ContextItem K)) : List Call :=
  orRaise (items.mapM (capturedItem sha)) fun captured =>
    [.addCount (p.qwenName "_used_count") items.length,
      .addCount (p.qwenName "_context_utf8_bytes") ((items.length - 1) * 2 + (captured.map fun c => c.2.2.length).sum),
      idSample (p.qwenName "_used_ids") ContextItem.objectId items,
      .setSample (p.qwenName "_used_item_fingerprints") (.ok (captured.map Prod.fst)) (some items.length),
      .setFlag (p.qwenName "_used_proof_truncated") (traceSampleLimit < items.length),
      .setFramedDigest (p.qwenName "_context_sha256") p.qwenDomain (.ok (captured.flatMap fun c => [c.2.1, c.2.2]))]

/-- `capture_evaluation_contexts(knowledge, policy)`. -/
def captureEvaluationContexts (sha : List ℕ → Sha256) (knowledge policy : List (ContextItem K)) : List Call :=
  upTo (Call.fails sha) (capturedContextCalls sha .knowledge knowledge ++ capturedContextCalls sha .policy policy ++
    [.setFlag (lit "evaluation_evidence_captured") true])

/-- The calls about a rewrite. -/
def rewriteCalls (value : Text) : List Call :=
  orRaise (encodeUtf8 value) fun encoded =>
    [.setFramedDigest (lit "granite_rewritten_query_sha256") (lit "chat-granite-rewritten-query-v1") (.ok [encoded]),
      .setText (lit "granite_rewritten_query") value]

/-- `capture_evaluation_rewrite(value)`. -/
def captureEvaluationRewrite (sha : List ℕ → Sha256) (value : Text) : List Call := upTo (Call.fails sha) (rewriteCalls value)

/-! ### Contexts -/

/-- The items of a context: their texts have a character that is not white space, and no surrogate. -/
def EncodableItems (items : List (ContextItem K)) : Prop :=
  ∀ item ∈ items, isBlank item.rawText = false ∧ encodable item.rawText = true

instance (items : List (ContextItem K)) : Decidable (EncodableItems items) :=
  inferInstanceAs (Decidable (∀ item ∈ items, isBlank item.rawText = false ∧ encodable item.rawText = true))

/-- The number of bytes of the rendered items. -/
def renderedBytes (items : List (ContextItem K)) : ℕ :=
  (items.map fun item => (item.rawText.flatMap utf8Bytes).length).sum + (items.length - 1) * 2

/-- The identifiers and the texts, encoded. -/
def itemParts (items : List (ContextItem K)) : List (List ℕ) :=
  items.flatMap fun item => [item.objectId.str.flatMap utf8Bytes, item.rawText.flatMap utf8Bytes]

section Contexts

variable {sha : List ℕ → Sha256} {items : List (ContextItem K)}

theorem EncodableItems.encodable (h : EncodableItems items) : ∀ item ∈ items, encodable item.rawText = true :=
  fun item hitem => (h item hitem).2

theorem contextUtf8Bytes_eq (h : EncodableItems items) : contextUtf8Bytes items = .ok (renderedBytes items) := by
  refine bind_eq_ok_iff.mpr ⟨items.map fun item => item.rawText.flatMap utf8Bytes, ?_, ?_⟩
  · rw [mapM_eq_ok_iff, List.forall₂_map_right_iff]
    exact List.forall₂_same.mpr fun item hitem => encodeUtf8_of_encodable (h.encodable item hitem)
  · rw [List.map_map]
    rfl

theorem capturedItem_eq {item : ContextItem K} (hblank : isBlank item.rawText = false) (h : encodable item.rawText = true) :
    capturedItem sha item =
      .ok (fingerprintText sha item, item.objectId.str.flatMap utf8Bytes, item.rawText.flatMap utf8Bytes) := by
  rw [capturedItem, hblank, if_neg (by simp), encodeUtf8_of_encodable h]
  simp only [bind, Except.bind]
  rw [contentDigest_ok (by decide +kernel)]
  rfl

/-- The calls of deep tracing about a context. -/
theorem usedContextCalls_encodable (sha : List ℕ → Sha256) (p : TracePrefix) (h : EncodableItems items) :
    usedContextCalls sha p items =
      [.addCount (p.qwenName "_used_count") items.length, .addCount (p.qwenName "_context_utf8_bytes") (renderedBytes items),
        idSample (p.qwenName "_used_ids") ContextItem.objectId items,
        .setSample (p.qwenName "_used_item_fingerprints") (.ok (items.map (fingerprintText sha))) (some items.length),
        .setFlag (p.qwenName "_used_proof_truncated") (traceSampleLimit < items.length),
        .setFramedDigest (p.qwenName "_context_sha256") p.qwenDomain (.ok (itemParts items))] := by
  rw [usedContextCalls, contextUtf8Bytes_eq h, contextItemFingerprints_eq h.encodable, contextParts_eq h.encodable]
  rfl

/-- Both modes make the same calls about a context, whatever its length. -/
theorem capturedContextCalls_eq (sha : List ℕ → Sha256) (p : TracePrefix) (h : EncodableItems items) :
    capturedContextCalls sha p items = usedContextCalls sha p items := by
  have hcaptured : items.mapM (capturedItem sha) = .ok (items.map fun item =>
      (fingerprintText sha item, item.objectId.str.flatMap utf8Bytes, item.rawText.flatMap utf8Bytes)) := by
    rw [mapM_eq_ok_iff, List.forall₂_map_right_iff]
    exact List.forall₂_same.mpr fun item hitem => capturedItem_eq (h item hitem).1 (h item hitem).2
  rw [usedContextCalls_encodable sha p h, capturedContextCalls, hcaptured]
  simp only [orRaise, List.map_map, List.flatMap_map, itemParts, renderedBytes]
  rw [Nat.add_comm ((items.length - 1) * 2)]
  rfl

/-- No call of deep tracing about a context is given an iterator that raises. -/
theorem isRaise_usedContextCalls (sha : List ℕ → Sha256) (p : TracePrefix) (h : EncodableItems items) :
    ∀ c ∈ usedContextCalls sha p items, c.isRaise = false := by
  rw [usedContextCalls_encodable sha p h]
  simp [Call.isRaise, idSample]

theorem fails_of_recording {c : Call} {r : Recording} (h : c.recording sha = .ok r) : c.fails sha = false := by
  rw [Call.fails, h]

theorem fails_setSample {name : Text} (hname : isRequiredText name 96 = true) {texts : List Text} {n : ℕ}
    (hn : texts.length = n) (htexts : ∀ s ∈ texts, isSampleToken s = true) :
    (Call.setSample name (.ok texts) (some n)).fails sha = false := by
  subst hn
  exact fails_of_recording (recording_setSample hname htexts)

/-- No call about a context raises. -/
theorem fails_usedContextCalls (sha : List ℕ → Sha256) (p : TracePrefix) (h : EncodableItems items) :
    ∀ c ∈ usedContextCalls sha p items, c.fails sha = false := by
  have hids : ∀ s ∈ items.map fun item => item.objectId.str, isSampleToken s = true := by
    intro s hs
    obtain ⟨item, -, rfl⟩ := List.mem_map.mp hs
    exact isSampleToken_str item.objectId
  have hfingerprints : ∀ s ∈ items.map (fingerprintText sha), isSampleToken s = true := by
    intro s hs
    obtain ⟨item, -, rfl⟩ := List.mem_map.mp hs
    exact isSampleToken_fingerprintText sha item
  rw [usedContextCalls_encodable sha p h]
  intro c hc
  simp only [List.mem_cons, List.not_mem_nil, or_false] at hc
  rcases hc with rfl | rfl | rfl | rfl | rfl | rfl
  · exact fails_of_recording (recording_addCount (p.isRequiredText_qwenName (by decide)) _)
  · exact fails_of_recording (recording_addCount (p.isRequiredText_qwenName (by decide)) _)
  · exact fails_setSample (p.isRequiredText_qwenName (by decide)) (List.length_map _) hids
  · exact fails_setSample (p.isRequiredText_qwenName (by decide)) (List.length_map _) hfingerprints
  · exact fails_of_recording (recording_setFlag (p.isRequiredText_qwenName (by decide)) _)
  · exact fails_of_recording (recording_setFramedDigest (p.isRequiredText_qwenName (by decide)) p.isDigestDomain_qwenDomain _)

end Contexts

section Capture

variable {sha : List ℕ → Sha256} {knowledge policy : List (ContextItem K)}

theorem captureEvaluationContexts_eq (hk : EncodableItems knowledge) (hp : EncodableItems policy) :
    captureEvaluationContexts sha knowledge policy = usedContextCalls sha .knowledge knowledge ++
      usedContextCalls sha .policy policy ++ [.setFlag (lit "evaluation_evidence_captured") true] := by
  rw [captureEvaluationContexts, capturedContextCalls_eq sha .knowledge hk, capturedContextCalls_eq sha .policy hp]
  refine upTo_eq_self fun c hc => ?_
  rcases List.mem_append.mp hc with hc | hc
  · exact (List.mem_append.mp hc).elim (fails_usedContextCalls sha .knowledge hk c) (fails_usedContextCalls sha .policy hp c)
  · rw [List.mem_singleton.mp hc]
    exact fails_of_recording (recording_setFlag (by decide +kernel) true)

/-- Both modes make the same calls about the contexts of a prompt, in the same order; what else deep tracing records is
about the prompt, and what else evaluation mode records is that it did. -/
theorem sameContextCalls {b : BudgetedPrompt K} (hk : EncodableItems b.knowledge) (hp : EncodableItems b.policy) :
    ∃ calls, captureEvaluationContexts sha b.knowledge b.policy = calls ++ [.setFlag (lit "evaluation_evidence_captured") true] ∧
      finalPromptContextCalls sha b = calls ++ upTo Call.isRaise (constructedPromptCalls b.prompt) := by
  refine ⟨_, captureEvaluationContexts_eq hk hp, ?_⟩
  have hnone : ∀ c ∈ usedContextCalls sha .knowledge b.knowledge ++ usedContextCalls sha .policy b.policy, c.isRaise = false :=
    List.forall_mem_append.mpr ⟨isRaise_usedContextCalls sha .knowledge hk, isRaise_usedContextCalls sha .policy hp⟩
  rw [finalPromptContextCalls, upTo_append hnone]

theorem rewriteCalls_eq {value : Text} (h : encodable value = true) : rewriteCalls value =
    [.setFramedDigest (lit "granite_rewritten_query_sha256") (lit "chat-granite-rewritten-query-v1")
      (.ok [value.flatMap utf8Bytes]), .setText (lit "granite_rewritten_query") value] := by
  rw [rewriteCalls, encodeUtf8_of_encodable h]
  rfl

theorem captureEvaluationRewrite_eq {value : Text} (hne : value ≠ []) (h : encodable value = true) :
    captureEvaluationRewrite sha value = rewriteCalls value := by
  refine upTo_eq_self fun c hc => ?_
  rw [rewriteCalls_eq h] at hc
  simp only [List.mem_cons, List.not_mem_nil, or_false] at hc
  rcases hc with rfl | rfl
  · exact fails_of_recording (recording_setFramedDigest (by decide +kernel) (by decide +kernel) _)
  · exact fails_of_recording (recording_setText (by decide +kernel) hne h)

end Capture

end TenantRag

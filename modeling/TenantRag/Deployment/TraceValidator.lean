import TenantRag.Rag.Generator

/-!
# The validator of deep traces

`deployment/e2e_diagnostic_api.py`: the checks on the counts, flags, digests and samples
that retrieval and the prompt leave in the payload of an operation.

## The model

A mapping of the payload is the list of its fields, with JSON values of any kind.
`DeepTraceContractError` is a `ValueError`.

## What is proved

* `completeSample_payload`, `completeItemFingerprints_payload`, `sha256_hexdigest` — complete
  samples, fingerprints and digests are read as what they were made of.
-/

namespace TenantRag

variable {F : Type}

/-- `_nonnegative_int(mapping, name)`. -/
def nonnegativeInt (mapping : List (Text × Json F)) (name : Text) : Except PyError ℕ :=
  match Json.get? mapping name with
  | some (.int (.ofNat n)) => .ok n
  | _ => .error (valueError s!"Deep trace count {shown name} is invalid")

/-- `_sha256(value, name)`. -/
def validSha256 (value : Option (Json F)) (name : Text) : Except PyError Text :=
  match value with
  | some (.str t) =>
      if t.length ≠ 64 ∨ intBase16 t = none then .error (valueError s!"Deep trace digest {shown name} is invalid")
      else .ok (lower t)
  | _ => .error (valueError s!"Deep trace digest {shown name} is invalid")

/-- The strings that the items are, where all of them are non-empty strings. -/
def nonemptyStrings : List (Json F) → Option (List Text)
  | [] => some []
  | .str t :: items => if t.isEmpty then none else (nonemptyStrings items).map (t :: ·)
  | _ :: _ => none

/-- `sample.get("exact_count")` is the integer, and not a boolean. -/
def isCount (value : Option (Json F)) (n : ℕ) : Bool :=
  match value with
  | some (.int k) => k = n
  | _ => false

/-- `value is b` for a boolean. -/
def isBool (value : Option (Json F)) (b : Bool) : Bool :=
  match value with
  | some (.bool a) => a = b
  | _ => false

/-- `_complete_sample(samples, name)`. -/
def completeSample (samples : List (Text × Json F)) (name : Text) : Except PyError (List Text) :=
  match Json.get? samples name with
  | some (.obj sample) =>
      match Json.get? sample (lit "items") with
      | some (.arr items) =>
          match nonemptyStrings items with
          | some texts =>
              if isCount (Json.get? sample (lit "exact_count")) items.length ∧
                  isBool (Json.get? sample (lit "truncated")) false then .ok texts
              else .error (valueError s!"Deep trace sample {shown name} is incomplete or truncated")
          | none => .error (valueError s!"Deep trace sample {shown name} is incomplete or truncated")
      | _ => .error (valueError s!"Deep trace sample {shown name} is incomplete or truncated")
  | _ => .error (valueError s!"deep trace sample {shown name} must be an object")

/-- `_item_fingerprint(value, name)`. -/
def itemFingerprintOf (F : Type) (value name : Text) : Except PyError (Text × Text) :=
  let parts := partition (lit ":") value
  if parts.2.1.isEmpty then .error (valueError s!"Deep trace item fingerprint {shown name} is malformed")
  else
    match Uuid.ofText parts.1 with
    | none => .error (valueError s!"Deep trace item fingerprint {shown name} has an invalid ID")
    | some u => (validSha256 (some (.str parts.2.2 : Json F)) name).map fun digest => (u.str, digest)

/-- `_complete_item_fingerprints(samples, name)`. -/
def completeItemFingerprints (samples : List (Text × Json F)) (name : Text) : Except PyError (List (Text × Text)) := do
  let values ← completeSample samples name
  values.mapM fun value => itemFingerprintOf F value name

/-! ### Retrieval -/

/-- The counts that `_validate_kp_evidence` reads. -/
structure KpCounts where
  /-- `hybrid`. -/
  hybrid : ℕ
  /-- `hybrid_calls`. -/
  hybridCalls : ℕ
  /-- `bge_input`. -/
  bgeInput : ℕ
  /-- `bge_result`. -/
  bgeResult : ℕ
  /-- `bge_calls`. -/
  bgeCalls : ℕ
  /-- `relevance_input`. -/
  relevanceInput : ℕ
  /-- `eligible`. -/
  eligible : ℕ
  /-- `adaptive_eligible`. -/
  adaptiveEligible : ℕ
  /-- `adaptive`. -/
  adaptive : ℕ
  /-- `hydrated_requested`. -/
  hydratedRequested : ℕ
  /-- `hydrated`. -/
  hydrated : ℕ
  /-- `quarantined`. -/
  quarantined : ℕ
  /-- `hydration_calls`. -/
  hydrationCalls : ℕ
  /-- `mmr_pool`. -/
  mmrPool : ℕ
  /-- `mmr_selected`. -/
  mmrSelected : ℕ
  /-- `prebudget`. -/
  prebudget : ℕ
  /-- `final_count`. -/
  finalCount : ℕ
  /-- `dropped`. -/
  dropped : ℕ

/-- The counts are read in this order. -/
def readKpCounts (p : TracePrefix) (counts : List (Text × Json F)) : Except PyError KpCounts := do
  let hybrid ← nonnegativeInt counts (p.name "_hybrid_candidate_count")
  let hybridCalls ← nonnegativeInt counts (p.name "_hybrid_storage_call_count")
  let bgeInput ← nonnegativeInt counts (p.name "_bge_input_count")
  let bgeResult ← nonnegativeInt counts (p.name "_bge_result_count")
  let bgeCalls ← nonnegativeInt counts (p.name "_bge_model_call_count")
  let relevanceInput ← nonnegativeInt counts (p.name "_relevance_input_count")
  let eligible ← nonnegativeInt counts (p.name "_relevance_eligible_count")
  let adaptiveEligible ← nonnegativeInt counts (p.name "_adaptive_eligible_count")
  let adaptive ← nonnegativeInt counts (p.name "_adaptive_selected_count")
  let hydratedRequested ← nonnegativeInt counts (p.name "_hydration_requested_count")
  let hydrated ← nonnegativeInt counts (p.name "_hydration_result_count")
  let quarantined ← nonnegativeInt counts (p.name "_hydration_quarantined_count")
  let hydrationCalls ← nonnegativeInt counts (p.name "_hydration_storage_call_count")
  let mmrPool ← nonnegativeInt counts (p.name "_mmr_pool_count")
  let mmrSelected ← nonnegativeInt counts (p.name "_mmr_selected_count")
  let prebudget ← nonnegativeInt counts (p.name "_prebudget_count")
  let finalCount ← nonnegativeInt counts (p.name "_final_count")
  let dropped ← nonnegativeInt counts (p.name "_budget_dropped_count")
  .ok ⟨hybrid, hybridCalls, bgeInput, bgeResult, bgeCalls, relevanceInput, eligible, adaptiveEligible, adaptive,
    hydratedRequested, hydrated, quarantined, hydrationCalls, mmrPool, mmrSelected, prebudget, finalCount, dropped⟩

/-- `value in {True, False}`, where the integers `0` and `1` are as well. A float is not the object
it is compared to later on, and a list or an object raises here already. -/
def isTrueOrFalse (value : Option (Json F)) : Bool :=
  match value with
  | some (.bool _) => true
  | some (.int n) => n = 0 ∨ n = 1
  | _ => false

/-- `a is b` for two such values. -/
def isSame (a b : Option (Json F)) : Bool :=
  match a, b with
  | some (.bool x), some (.bool y) => x = y
  | some (.int x), some (.int y) => x = y
  | _, _ => false

/-- No condition of `_validate_kp_evidence` on counts and flags is violated. -/
def kpConsistent (p : TracePrefix) (c : KpCounts) (flags : List (Text × Json F)) : Bool :=
  let mmrUsable := Json.get? flags (p.name "_mmr_usable")
  let hydrationValuesFinite := Json.get? flags (p.name "_hydration_values_finite")
  let mmrFallback := Json.get? flags (p.name "_mmr_fallback")
  c.hybridCalls = 1 && c.bgeInput = c.hybrid && c.bgeResult = c.bgeInput &&
    c.bgeCalls = (if c.bgeInput = 0 then 0 else 1) && isBool (Json.get? flags (p.name "_bge_scores_finite")) true &&
    c.relevanceInput = c.bgeResult && c.eligible ≤ c.relevanceInput && c.adaptiveEligible = c.eligible &&
    c.adaptive ≤ c.eligible && c.hydratedRequested = c.adaptive &&
    c.hydrated + c.quarantined = c.hydratedRequested &&
    c.hydrationCalls = (if c.hydratedRequested = 0 then 0 else 1) && isTrueOrFalse mmrUsable &&
    isSame hydrationValuesFinite mmrUsable && !isSame mmrFallback mmrUsable && c.mmrPool = c.hydrated &&
    c.mmrSelected ≤ c.mmrPool && c.prebudget = c.mmrSelected && c.finalCount ≤ c.prebudget &&
    c.dropped = c.prebudget - c.finalCount && isBool (Json.get? flags (p.name "_final_proof_truncated")) false

/-- The identifiers and the fingerprints of some context. -/
structure ContextEvidence where
  /-- The identifiers. -/
  ids : List Text
  /-- The fingerprints, each an identifier and a digest. -/
  fingerprints : List (Text × Text)
  deriving DecidableEq

/-- `_validate_kp_evidence(prefix, counts, flags, digests, samples)`. -/
def validateKpEvidence (p : TracePrefix) (counts flags digests samples : List (Text × Json F)) :
    Except PyError ContextEvidence := do
  let c ← readKpCounts p counts
  if !kpConsistent p c flags then
    .error (valueError s!"{p.title} retrieval evidence is inconsistent")
  else do
    let finalIds ← completeSample samples (p.name "_final_ids")
    let finalFingerprints ← completeItemFingerprints samples (p.name "_final_item_fingerprints")
    if finalIds.length ≠ c.finalCount ∨ finalFingerprints.length ≠ c.finalCount ∨
        finalFingerprints.map Prod.fst ≠ finalIds then
      .error (valueError s!"{p.title} final-context evidence is inconsistent")
    else do
      let _ ← validSha256 (Json.get? digests (p.name "_final_context_sha256")) (p.name " context")
      .ok ⟨finalIds, finalFingerprints⟩

/-! ### The prompt -/

/-- One turn of the loop of `validate_chat_trace_evidence` over the contexts of the prompt. -/
def validateUsedContext (p : TracePrefix) (counts flags digests samples : List (Text × Json F)) (final : ContextEvidence) :
    Except PyError ContextEvidence := do
  let usedCount ← nonnegativeInt counts (p.qwenName "_used_count")
  let usedIds ← completeSample samples (p.qwenName "_used_ids")
  let usedFingerprints ← completeItemFingerprints samples (p.qwenName "_used_item_fingerprints")
  if usedCount ≠ usedIds.length ∨ usedCount ≠ usedFingerprints.length ∨ usedIds ≠ final.ids.take usedCount ∨
      usedFingerprints ≠ final.fingerprints.take usedCount ∨
      isBool (Json.get? flags (p.qwenName "_used_proof_truncated")) false = false then
    .error (valueError s!"Qwen {shown p.text} context is not an exact retained prefix")
  else do
    let _ ← nonnegativeInt counts (p.qwenName "_context_utf8_bytes")
    let _ ← validSha256 (Json.get? digests (p.qwenName "_context_sha256")) (lit "Qwen " ++ p.name " context")
    .ok ⟨usedIds, usedFingerprints⟩

/-! ### Complete evidence is read -/

section Complete

variable {t : Trace}

theorem nonnegativeInt_payload {name : Text} {n : ℕ} (h : t.counts.get? name = some n) :
    nonnegativeInt (F := F) t.countsPayload name = .ok n := by
  rw [nonnegativeInt, Trace.countsPayload, get?_sortedFields, h]
  rfl

theorem get?_flagsPayload {name : Text} {b : Bool} (h : t.flags.get? name = some b) :
    Json.get? (F := F) t.flagsPayload name = some (.bool b) := by
  rw [Trace.flagsPayload, get?_sortedFields, h]
  rfl

theorem validSha256_payload {name label : Text} {d : Sha256} (h : t.digests.get? name = some d.hexdigest) :
    validSha256 (Json.get? (F := F) t.digestsPayload name) label = .ok d.hexdigest := by
  rw [Trace.digestsPayload, get?_sortedFields, h]
  have hread : ¬ (d.hexdigest.length ≠ 64 ∨ intBase16 d.hexdigest = none) := by
    rw [d.length_hexdigest, d.intBase16_hexdigest]
    simp
  simp only [Option.map_some, validSha256]
  rw [if_neg hread, lower_hexdigest]

theorem nonemptyStrings_map {texts : List Text} (h : ∀ s ∈ texts, s ≠ []) :
    nonemptyStrings (texts.map fun s => (.str s : Json F)) = some texts := by
  induction texts with
  | nil => rfl
  | cons s texts ih =>
    have hs : s.isEmpty = false := by simpa using h s List.mem_cons_self
    rw [List.map_cons, nonemptyStrings, hs, ih fun u hu => h u (List.mem_cons_of_mem s hu)]
    rfl

/-- A complete sample of tokens is read as its items. -/
theorem completeSample_payload {name : Text} {items : List Text}
    (h : t.samples.get? name = some ⟨items.length, items, false⟩) (hne : ∀ s ∈ items, s ≠ []) :
    completeSample (F := F) t.samplesPayload name = .ok items := by
  have hitems : Json.get? (F := F) [(lit "exact_count", .int items.length), (lit "items", .arr (items.map .str)),
      (lit "truncated", .bool false)] (lit "items") = some (.arr (items.map .str)) := rfl
  have hcount : Json.get? (F := F) [(lit "exact_count", .int items.length), (lit "items", .arr (items.map .str)),
      (lit "truncated", .bool false)] (lit "exact_count") = some (.int items.length) := rfl
  have htruncated : Json.get? (F := F) [(lit "exact_count", .int items.length), (lit "items", .arr (items.map .str)),
      (lit "truncated", .bool false)] (lit "truncated") = some (.bool false) := rfl
  rw [completeSample, Trace.samplesPayload, get?_sortedFields, h]
  simp only [Option.map_some, TraceSample.payload, hitems, nonemptyStrings_map hne, hcount, htruncated, isCount, isBool,
    List.length_map]
  simp

/-- A fingerprint is read as the identifier and the digest it is made of. -/
theorem itemFingerprintOf_fingerprintText {K : Type} (sha : List ℕ → Sha256) (item : ContextItem K) (name : Text) :
    itemFingerprintOf F (fingerprintText sha item) name = .ok (item.objectId.str, (itemDigest sha item).hexdigest) := by
  have hcolon : lit ":" = [58] := by decide
  have hmem : (58 : PyChar) ∉ item.objectId.str := Uuid.not_mem_str (by decide) (by decide)
  have hparts : partition (lit ":") (fingerprintText sha item) =
      (item.objectId.str, [58], (itemDigest sha item).hexdigest) := by
    rw [fingerprintText, hcolon, List.append_assoc, List.singleton_append]
    exact partition_append hmem _
  have hread : ¬ ((itemDigest sha item).hexdigest.length ≠ 64 ∨ intBase16 (itemDigest sha item).hexdigest = none) := by
    rw [Sha256.length_hexdigest, Sha256.intBase16_hexdigest]
    simp
  simp only [itemFingerprintOf, hparts, List.isEmpty_cons, Bool.false_eq_true, if_false, Uuid.ofText_str, validSha256]
  rw [if_neg hread, lower_hexdigest]
  rfl

/-- A complete sample of fingerprints is read as what they are made of. -/
theorem completeItemFingerprints_payload {K : Type} {sha : List ℕ → Sha256} {name : Text} {items : List (ContextItem K)}
    (h : t.samples.get? name = some ⟨items.length, items.map (fingerprintText sha), false⟩) :
    completeItemFingerprints (F := F) t.samplesPayload name =
      .ok (items.map fun item => (item.objectId.str, (itemDigest sha item).hexdigest)) := by
  have hne : ∀ s ∈ items.map (fingerprintText sha), s ≠ [] := by
    intro s hs
    obtain ⟨item, -, rfl⟩ := List.mem_map.mp hs
    simp [fingerprintText, Uuid.str_ne_nil]
  rw [← List.length_map (fingerprintText sha)] at h
  refine bind_eq_ok_iff.mpr ⟨_, completeSample_payload h hne, ?_⟩
  rw [mapM_eq_ok_iff, List.forall₂_map_left_iff, List.forall₂_map_right_iff]
  exact List.forall₂_same.mpr fun item _ => itemFingerprintOf_fingerprintText sha item name

end Complete

end TenantRag

import Mathlib.Data.Prod.Lex
import TenantRag.Processing.ChunkRule

/-!
# Chunking a paragraph

Each chunk ends where one of four strategies says: at the first dissimilar unit, at
the unit that gives the best size, at the end of the paragraph, or at the end of the
longest prefix that fits. The last is found by bisection, and moved back to white
space when that leaves enough tokens.

## The model

* `prefixSearch`, `retreat`, `whitespaceEnd` — the loops of `prefixEndForLimit`.
* `selectNextEnd` — the end of the next chunk.
* `chunkLoop`, `chunkParagraph` — the chunks.

## What is proved

* `prefixSearch_spec` — the bisection finds the longest prefix that fits, if a halving of what remains is one
  that can be counted.
* `prefixEndForLimit_spec` — the end behind it, or behind its last white space.
* `selectNextEnd_spec` — the next chunk ends where the rule says, unless the rule is stuck.
-/

namespace TenantRag

variable {K : Type} [LinearOrder K] [Zero K] [One K]

section Prefix
variable (cfg : ChunkingConfig K) (text : Text) (start tokenLimit : ℕ) (tokenizer : Tokenizer)

/-- `while low <= high`: the bisection of `_prefix_end_for_limit`, where `stop` is `high + 1`. -/
def prefixSearch (low stop best : ℕ) : Except PyError ℕ :=
  if low < stop then do
    let tokens ← tokenCount (slice text start ((low + (stop - 1)) / 2)) tokenizer
    if tokens ≤ tokenLimit then prefixSearch ((low + (stop - 1)) / 2 + 1) stop ((low + (stop - 1)) / 2)
    else prefixSearch low ((low + (stop - 1)) / 2) best
  else .ok best
termination_by stop - low
decreasing_by all_goals omega

/-- `while best > start and …: best -= 1`. -/
def retreat : ℕ → Except PyError ℕ
  | 0 => .ok 0
  | best + 1 =>
      if start < best + 1 then do
        let tokens ← tokenCount (slice text start (best + 1)) tokenizer
        if tokenLimit < tokens then retreat best else return best + 1
      else .ok (best + 1)

/-- `while whitespace_end > start and not text[whitespace_end - 1].isspace(): whitespace_end -= 1`. -/
def whitespaceEnd : ℕ → ℕ
  | 0 => 0
  | stop + 1 => if start < stop + 1 ∧ ¬ text[stop]?.any isSpace then whitespaceEnd stop else stop + 1

/-- The last part of `_prefix_end_for_limit`: back to white space, unless too little is left. -/
def naturalEnd (best : ℕ) : Except PyError ℕ :=
  if start < whitespaceEnd text start best then do
    let tokens ← tokenCount (slice text start (whitespaceEnd text start best)) tokenizer
    return if cfg.minTokens ≤ tokens then whitespaceEnd text start best else best
  else .ok best

/-- `_prefix_end_for_limit`. -/
def prefixEndForLimit : Except PyError ℕ := do
  let best ← prefixSearch text start tokenLimit tokenizer (start + 1) (text.length + 1) start
  let best ← retreat text start tokenLimit tokenizer best
  if best = start then throw (valueError "tokenizer cannot fit one source character within max_tokens")
  naturalEnd cfg text start tokenizer best

end Prefix

section Select
variable (cfg : ChunkingConfig K) (paragraph : Text) (start : ℕ) (tokenizer : Tokenizer)

/-- `available`: the boundaries behind `start` that are not too far. -/
def availableBoundaries (boundaries : List (ℕ × K)) : Except PyError (List (ℕ × K)) := do
  let counted ← (boundaries.filter fun b => start < b.1).mapM fun b => do
    let tokens ← tokenCount (slice paragraph start b.1) tokenizer
    return (b, tokens)
  return (counted.filter fun c => c.2 ≤ cfg.maxTokens).map Prod.fst

/-- `size_candidates` of the boundaries: the offsets that leave enough tokens. -/
def boundaryCandidates (available : List (ℕ × K)) : Except PyError (List (ℕ × ℕ)) := do
  let counted ← available.mapM fun b => do
    let chunkTokens ← tokenCount (slice paragraph start b.1) tokenizer
    return (b.1, chunkTokens)
  return counted.filter fun c => cfg.minTokens ≤ c.2

/-- The key of `min`: the distance from the target, then the offset. -/
def closer (a b : ℕ × ℕ) : Bool :=
  |(a.2 : ℤ) - cfg.targetTokens| < |(b.2 : ℤ) - cfg.targetTokens| ∨
    |(a.2 : ℤ) - cfg.targetTokens| = |(b.2 : ℤ) - cfg.targetTokens| ∧ a.1 < b.1

/-- The candidate of the smallest key, or the end of the longest prefix that fits. -/
def endOfCandidates (remainingTokens : ℕ) : List (ℕ × ℕ) → Except PyError ℕ
  | candidate :: candidates =>
      .ok (candidates.foldl (fun best c => if closer cfg c best then c else best) candidate).1
  | [] =>
      prefixEndForLimit cfg paragraph start
        (if cfg.targetTokens + cfg.minTokens < remainingTokens then cfg.targetTokens else cfg.maxTokens) tokenizer

/-- `_select_next_end`. -/
def selectNextEnd (boundaries : List (ℕ × K)) (threshold : K) : Except PyError ℕ := do
  let remainingTokens ← tokenCount (slice paragraph start paragraph.length) tokenizer
  let available ← availableBoundaries cfg paragraph start tokenizer boundaries
  match available.find? fun b => b.2 < threshold with
  | some b => return b.1
  | none =>
      let candidates ← boundaryCandidates cfg paragraph start tokenizer available
      let whole := remainingTokens ≤ cfg.maxTokens ∧
        (candidates ≠ [] ∨ remainingTokens ≤ cfg.targetTokens + cfg.minTokens)
      endOfCandidates cfg paragraph start tokenizer remainingTokens
        (candidates ++ if whole then [(paragraph.length, remainingTokens)] else [])

end Select

section Chunk
variable [Neg K] (np : Numpy K) (cfg : ChunkingConfig K) (separator paragraph : Text) (tokenizer : Tokenizer)

/-- `_boundary_similarities`. -/
def boundarySimilarities (encoder : SentenceEncoder K) : Except PyError (List (ℕ × K)) :=
  let units := semanticUnits separator paragraph
  if units.length < 2 then .ok []
  else do
    let embeddings ← encodeSentences np encoder (units.map (·.embeddingText))
    return unitBoundaries np units embeddings

/-- The loop of `chunk_paragraph`. -/
def chunkLoop (boundaries : List (ℕ × K)) (threshold : K) (chunkStart : ℕ) : Except PyError (List Span) :=
  if chunkStart < paragraph.length then
    match selectNextEnd cfg paragraph chunkStart tokenizer boundaries threshold with
    | .error e => .error e
    | .ok chunkEnd =>
        if chunkEnd ≤ chunkStart then .error (runtimeError "chunking did not advance through the source text")
        else do
          let spans ← chunkLoop boundaries threshold chunkEnd
          return ⟨chunkStart, chunkEnd⟩ :: spans
  else .ok []
termination_by paragraph.length - chunkStart
decreasing_by omega

/-- The checks of the chunks. -/
def checkedChunks (chunks : List Text) : Except PyError (List Text) := do
  let above ← chunks.anyM fun chunk => do
    let tokens ← tokenCount chunk tokenizer
    return cfg.maxTokens < tokens
  if above then
    throw (runtimeError "chunking produced output above the configured hard maximum")
  if chunks.flatten ≠ paragraph then
    throw (runtimeError "chunking failed to preserve the original paragraph")
  return chunks

/-- `chunk_paragraph`. -/
def chunkParagraph (similarityThreshold : Option K) (encoder : SentenceEncoder K) : Except PyError (List Text) :=
  if semanticUnits separator paragraph = [] then .ok []
  else do
    let threshold ← validateSimilarityThreshold (similarityThreshold.getD cfg.chunkThreshold)
    let boundaries ← boundarySimilarities np separator paragraph encoder
    let spans ← chunkLoop cfg paragraph tokenizer boundaries threshold 0
    let similarities := boundaries.foldl (fun d b => d.set b.1 b.2) Dict.empty
    let merged ← mergeSmallCompatibleChunks cfg paragraph similarities tokenizer spans
    checkedChunks cfg paragraph tokenizer (merged.map (Span.text paragraph))

end Chunk

/-! ### The longest prefix that fits -/

section PrefixSpec
variable {text : Text} {start tokenLimit : ℕ} {tokenizer : Tokenizer} {solid : Text → Prop} {count : Text → ℕ}

omit [LinearOrder K] [Zero K] [One K] in
/-- From an end on from where every slice can be counted, the bisection finds `top`. -/
theorem prefixSearch_of_solid (hcounts : CountsSolid tokenizer text solid count) {top low stop best : ℕ}
    (hstart : start < low) (hstop : stop ≤ text.length + 1) (hlow : low ≤ top + 1) (htop : top < stop)
    (hfits : ∀ m, start ≤ m → m ≤ text.length → (count (slice text start m) ≤ tokenLimit ↔ m ≤ top))
    (hbest : best + 1 = low) (hsolid : ∀ m, low ≤ m → m ≤ text.length → solid (slice text start m)) :
    prefixSearch text start tokenLimit tokenizer low stop best = .ok top := by
  induction hn : stop - low using Nat.strong_induction_on generalizing low stop best with
  | _ n ih =>
  rw [prefixSearch]
  by_cases hlt : low < stop
  · rw [if_pos hlt]
    generalize hmid : (low + (stop - 1)) / 2 = mid
    have hrange : low ≤ mid ∧ mid < stop := by omega
    have hfit := hfits mid (by omega) (by omega)
    rw [hcounts.counted _ (slice_within _ _ _) (hsolid mid hrange.1 (by omega))]
    simp only [bind, Except.bind]
    by_cases hle : mid ≤ top
    · rw [if_pos (hfit.mpr hle)]
      exact ih (stop - (mid + 1)) (by omega) (by omega) hstop (by omega) htop rfl (fun m hm => hsolid m (by omega)) rfl
    · rw [if_neg fun h => hle (hfit.mp h)]
      exact ih (mid - low) (by omega) hstart (by omega) hlow (by omega) hbest hsolid rfl
  · rw [if_neg hlt]
    exact congrArg Except.ok (by omega)

omit [LinearOrder K] [Zero K] [One K] in
theorem half_pow_le (n j : ℕ) : n / 2 ^ (j + 1) ≤ n / 2 := by
  rw [pow_succ']
  exact Nat.div_le_div_left (Nat.le_mul_of_pos_right 2 (Nat.two_pow_pos j)) (by decide)

omit [LinearOrder K] [Zero K] [One K] in
/-- The bisection halves what remains until it comes to a prefix that fits: it finds `top` if that prefix can be
counted, and fails if not. -/
theorem prefixSearch_spec (hcounts : CountsSolid tokenizer text solid count) {top stop : ℕ}
    (hstop : stop ≤ text.length + 1) (hstart : start < top) (htop : top < stop)
    (hfits : ∀ m, start ≤ m → m ≤ text.length → (count (slice text start m) ≤ tokenLimit ↔ m ≤ top))
    (hsolid : solid (slice text start top)) :
    ((∃ j, solid (slice text start (start + (stop - start) / 2 ^ (j + 1))) ∧ start + (stop - start) / 2 ^ (j + 1) ≤ top) →
      prefixSearch text start tokenLimit tokenizer (start + 1) stop start = .ok top) ∧
    ((¬ ∃ j, solid (slice text start (start + (stop - start) / 2 ^ (j + 1))) ∧
        start + (stop - start) / 2 ^ (j + 1) ≤ top) →
      ∃ e, prefixSearch text start tokenLimit tokenizer (start + 1) stop start = .error e) := by
  induction hn : stop - start using Nat.strong_induction_on generalizing stop with
  | _ n ih =>
  subst hn
  generalize hmid : start + (stop - start) / 2 = mid
  have hmid' : (start + 1 + (stop - 1)) / 2 = mid := by omega
  have hrange : start < mid ∧ mid < stop := by omega
  have hfit := hfits mid (by omega) (by omega)
  have hupward : ∀ m, mid ≤ m → solid (slice text start mid) → solid (slice text start m) := fun m hm h =>
    hcounts.upward _ _ (slice_within_slice text le_rfl hrange.1.le hm) h
  rw [prefixSearch, if_pos (by omega), hmid']
  by_cases hle : mid ≤ top
  · -- the first prefix that fits: every later halving is within it
    by_cases hsolidMid : solid (slice text start mid)
    · have hok : prefixSearch text start tokenLimit tokenizer (mid + 1) stop mid = .ok top :=
        prefixSearch_of_solid hcounts (by omega) hstop (by omega) htop hfits rfl fun m hm _ => hupward m (by omega) hsolidMid
      rw [hcounts.counted _ (slice_within _ _ _) hsolidMid]
      simp only [bind, Except.bind, if_pos (hfit.mpr hle)]
      refine ⟨fun _ => hok, fun hnone => absurd ⟨0, ?_⟩ hnone⟩
      rw [Nat.zero_add, pow_one, hmid]
      exact ⟨hsolidMid, hle⟩
    · obtain ⟨e, he⟩ := hcounts.rejected _ (slice_within text start mid) hsolidMid
      rw [he]
      refine ⟨fun ⟨j, hj, _⟩ => ?_, fun _ => ⟨e, rfl⟩⟩
      have hwithin : start + (stop - start) / 2 ^ (j + 1) ≤ mid := by
        rw [← hmid]
        exact Nat.add_le_add_left (half_pow_le _ j) start
      exact absurd (hcounts.upward _ _ (slice_within_slice text le_rfl (Nat.le_add_right _ _) hwithin) hj) hsolidMid
  · -- the prefix is too long, and the next halving is one of what is left
    have hsolidMid : solid (slice text start mid) :=
      hcounts.upward _ _ (slice_within_slice text le_rfl hstart.le (by omega)) hsolid
    rw [hcounts.counted _ (slice_within _ _ _) hsolidMid]
    simp only [bind, Except.bind, if_neg fun h => hle (hfit.mp h)]
    have hhalf : mid - start = (stop - start) / 2 := by omega
    have hsame : (∃ j, solid (slice text start (start + (stop - start) / 2 ^ (j + 1))) ∧
          start + (stop - start) / 2 ^ (j + 1) ≤ top) ↔
        ∃ j, solid (slice text start (start + (mid - start) / 2 ^ (j + 1))) ∧
          start + (mid - start) / 2 ^ (j + 1) ≤ top := by
      have hnext : ∀ j, (stop - start) / 2 ^ (j + 1 + 1) = (mid - start) / 2 ^ (j + 1) := fun j => by
        rw [hhalf, Nat.div_div_eq_div_mul, pow_succ' 2 (j + 1)]
      constructor
      · rintro ⟨j, hj⟩
        cases j with
        | zero =>
          rw [Nat.zero_add, pow_one, hmid] at hj
          exact absurd hj.2 hle
        | succ j =>
          rw [hnext] at hj
          exact ⟨j, hj⟩
      · rintro ⟨j, hj⟩
        rw [← hnext] at hj
        exact ⟨j + 1, hj⟩
    rw [hsame]
    exact ih (mid - start) (by omega) (by omega) (by omega) rfl

theorem whitespaceEnd_le (text : Text) (start best : ℕ) : whitespaceEnd text start best ≤ best := by
  induction best with
  | zero => exact le_rfl
  | succ best ih =>
    rw [whitespaceEnd]
    split
    · exact ih.trans (Nat.le_succ best)
    · exact le_rfl

/-- There is white space before the natural end. -/
theorem space_before_whitespaceEnd {best : ℕ} (h : start < whitespaceEnd text start best) :
    text[whitespaceEnd text start best - 1]?.any isSpace = true := by
  induction best with
  | zero => exact absurd h (Nat.not_lt_zero start)
  | succ best ih =>
    rw [whitespaceEnd] at h ⊢
    split at h
    · rw [if_pos ‹_›]
      exact ih h
    · rename_i hstop
      rw [if_neg hstop, Nat.add_sub_cancel]
      by_contra hspace
      exact hstop ⟨h, hspace⟩

/-- There is no white space behind the natural end. -/
theorem no_space_behind_whitespaceEnd {best i : ℕ} (hi : whitespaceEnd text start best ≤ i) (hbest : i < best)  :
    ¬ text[i]?.any isSpace = true := by
  induction best with
  | zero => exact absurd hbest (Nat.not_lt_zero i)
  | succ best ih =>
    rw [whitespaceEnd] at hi
    split at hi
    · rename_i hgo
      rcases Nat.lt_succ_iff_lt_or_eq.mp hbest with hlt | rfl
      · exact ih hi hlt
      · exact hgo.2
    · omega

/-- The natural end is behind the last white space, if there is any. -/
theorem le_whitespaceEnd {best k : ℕ} (hk : k ∈ spaceOffsets text start best) : k ≤ whitespaceEnd text start best := by
  obtain ⟨hlt, hle, hspace⟩ := hk
  by_contra hbefore
  have hat : whitespaceEnd text start best ≤ k - 1 := by omega
  exact no_space_behind_whitespaceEnd hat (by omega) hspace

theorem isGreatest_whitespaceEnd {best : ℕ} (h : start < whitespaceEnd text start best) :
    IsGreatest (spaceOffsets text start best) (whitespaceEnd text start best) :=
  ⟨⟨h, whitespaceEnd_le _ _ _, space_before_whitespaceEnd h⟩, fun _ => le_whitespaceEnd⟩

/-- The end of a prefix, behind its last white space if enough tokens are before that. -/
inductive PrefixEnd (cfg : ChunkingConfig K) (text : Text) (count : Text → ℕ) (start top : ℕ) : ℕ → Prop where
  | space {stop : ℕ} (last : IsGreatest (spaceOffsets text start top) stop)
      (enough : cfg.minTokens ≤ count (slice text start stop)) : PrefixEnd cfg text count start top stop
  | longest (few : ∀ k, IsGreatest (spaceOffsets text start top) k → count (slice text start k) < cfg.minTokens) :
      PrefixEnd cfg text count start top top

theorem naturalEnd_spec (cfg : ChunkingConfig K) (hcounts : CountsSolid tokenizer text solid count) (start best : ℕ) :
    ((∀ k, IsGreatest (spaceOffsets text start best) k → solid (slice text start k)) →
      ∃ stop, naturalEnd cfg text start tokenizer best = .ok stop ∧ PrefixEnd cfg text count start best stop) ∧
    ((¬ ∀ k, IsGreatest (spaceOffsets text start best) k → solid (slice text start k)) →
      ∃ e, naturalEnd cfg text start tokenizer best = .error e) := by
  rw [naturalEnd]
  by_cases hlt : start < whitespaceEnd text start best
  · have hlast := isGreatest_whitespaceEnd hlt
    rw [if_pos hlt]
    by_cases hsolid : solid (slice text start (whitespaceEnd text start best))
    · rw [hcounts.counted _ (slice_within _ _ _) hsolid]
      simp only [bind, Except.bind, pure, Except.pure]
      refine ⟨fun _ => ⟨_, rfl, ?_⟩, fun hno => absurd (fun k hk => ?_) hno⟩
      · split
        · exact .space hlast ‹_›
        · exact .longest fun k hk => hk.unique hlast ▸ not_le.mp ‹_›
      · rwa [hk.unique hlast]
    · obtain ⟨e, he⟩ := hcounts.rejected _ (slice_within _ _ _) hsolid
      rw [he]
      exact ⟨fun hall => absurd (hall _ hlast) hsolid, fun _ => ⟨e, rfl⟩⟩
  · have hnone : ∀ k, ¬ IsGreatest (spaceOffsets text start best) k := fun k hk =>
      hlt (hk.1.1.trans_le (le_whitespaceEnd hk.1))
    rw [if_neg hlt]
    exact ⟨fun _ => ⟨best, rfl, .longest fun k hk => absurd hk (hnone k)⟩,
      fun hno => absurd (fun k hk => absurd hk (hnone k)) hno⟩

omit [LinearOrder K] [Zero K] [One K] in
theorem retreat_eq_ok (hcounts : CountsSolid tokenizer text solid count) {best : ℕ} (hsolid : solid (slice text start best))
    (hfits : count (slice text start best) ≤ tokenLimit) : retreat text start tokenLimit tokenizer best = .ok best := by
  cases best with
  | zero => rfl
  | succ best =>
    rw [retreat, hcounts.counted _ (slice_within _ _ _) hsolid]
    split
    · exact if_neg (Nat.not_lt.mpr hfits)
    · rfl

/-- `_prefix_end_for_limit` finds the end of the longest prefix that fits, unless it measures a slice that cannot be
counted. -/
theorem prefixEndForLimit_spec (cfg : ChunkingConfig K) (hcounts : CountsSolid tokenizer text solid count) {top : ℕ}
    (htop : IsGreatest (fittingOffsets text count start tokenLimit) top) (hsolid : solid (slice text start top)) :
    (PrefixSolid text count start solid tokenLimit →
      ∃ stop, prefixEndForLimit cfg text start tokenLimit tokenizer = .ok stop ∧
        PrefixEnd cfg text count start top stop) ∧
    (¬ PrefixSolid text count start solid tokenLimit →
      ∃ e, prefixEndForLimit cfg text start tokenLimit tokenizer = .error e) := by
  obtain ⟨hlt, hle, hfits⟩ := htop.1
  have hmax : ∀ m, start ≤ m → m ≤ text.length → (count (slice text start m) ≤ tokenLimit ↔ m ≤ top) := fun m =>
    fits_iff hcounts htop
  obtain ⟨hfound, hrejected⟩ := prefixSearch_spec hcounts le_rfl hlt (Nat.lt_succ_of_le hle) hmax hsolid
  -- a halving that fits is not behind the longest prefix
  have hhalving : (∃ j, solid (slice text start (halving text start j)) ∧
        count (slice text start (halving text start j)) ≤ tokenLimit) ↔
      ∃ j, solid (slice text start (start + (text.length + 1 - start) / 2 ^ (j + 1))) ∧
        start + (text.length + 1 - start) / 2 ^ (j + 1) ≤ top := by
    refine exists_congr fun j => and_congr_right fun _ => hmax _ (Nat.le_add_right _ _) ?_
    have hhalf := half_pow_le (text.length + 1 - start) j
    rw [halving]
    omega
  have hne : top ≠ start := hlt.ne'
  obtain ⟨hnatural, hunnatural⟩ := naturalEnd_spec cfg hcounts start top
  by_cases hmid : ∃ j, solid (slice text start (halving text start j)) ∧
      count (slice text start (halving text start j)) ≤ tokenLimit
  · have hend : prefixEndForLimit cfg text start tokenLimit tokenizer = naturalEnd cfg text start tokenizer top := by
      simp only [prefixEndForLimit, hfound (hhalving.mp hmid), retreat_eq_ok hcounts hsolid hfits, bind, Except.bind, hne,
        if_false]
    rw [hend]
    refine ⟨fun h => hnatural fun k => h.space top k htop, fun h => hunnatural fun hspace => h ⟨hmid, ?_⟩⟩
    intro top' k htop' hk
    cases htop'.unique htop
    exact hspace k hk
  · refine ⟨fun h => absurd h.halving hmid, fun _ => ?_⟩
    obtain ⟨e, he⟩ := hrejected fun h => hmid (hhalving.mpr h)
    refine ⟨e, ?_⟩
    rw [prefixEndForLimit, he]
    rfl

end PrefixSpec

/-! ### The end of the next chunk -/

section SelectSpec
variable {cfg : ChunkingConfig K} {text : Text} {solid : Text → Prop} {count : Text → ℕ} {boundaries : List (ℕ × K)}
  {threshold : K} {start : ℕ} {tokenizer : Tokenizer}

/-- The boundaries that a chunk from `start` may reach. -/
def reached (cfg : ChunkingConfig K) (text : Text) (count : Text → ℕ) (boundaries : List (ℕ × K)) (start : ℕ) :
    List (ℕ × K) :=
  boundaries.filter fun b => start < b.1 ∧ count (slice text start b.1) ≤ cfg.maxTokens

theorem mem_reached {b : ℕ × K} :
    b ∈ reached cfg text count boundaries start ↔ Reaches cfg text count boundaries start b := by
  rw [reached, List.mem_filter, decide_eq_true_eq, Reaches]

variable (cfg) in
theorem availableBoundaries_eq_ok (hcounts : CountsSolid tokenizer text solid count)
    (h : ∀ b ∈ boundaries, start < b.1 → solid (slice text start b.1)) :
    availableBoundaries cfg text start tokenizer boundaries = .ok (reached cfg text count boundaries start) := by
  have hcounted : ((boundaries.filter fun b => start < b.1).mapM fun b => do
      let tokens ← tokenCount (slice text start b.1) tokenizer
      return (b, tokens)) =
      .ok ((boundaries.filter fun b => start < b.1).map fun b => (b, count (slice text start b.1))) := by
    refine mapM_ok fun b hb => ?_
    rw [List.mem_filter, decide_eq_true_eq] at hb
    rw [hcounts.counted _ (slice_within _ _ _) (h b hb.1 hb.2)]
    rfl
  rw [availableBoundaries, hcounted, reached]
  simp only [bind, Except.bind, pure, Except.pure, List.filter_map, List.map_map, List.filter_filter, Except.ok.injEq]
  have hfst : (Prod.fst ∘ fun b : ℕ × K => (b, count (slice text start b.1))) = id := rfl
  rw [hfst, List.map_id]
  refine List.filter_congr fun b _ => ?_
  simp [Function.comp, Bool.and_comm]

/-- The offsets of the boundaries that leave enough tokens, with their counts. -/
def largeEnds (cfg : ChunkingConfig K) (text : Text) (count : Text → ℕ) (boundaries : List (ℕ × K)) (start : ℕ) :
    List (ℕ × ℕ) :=
  ((reached cfg text count boundaries start).map fun b => (b.1, count (slice text start b.1))).filter
    fun c => cfg.minTokens ≤ c.2

theorem mem_largeEnds {c : ℕ × ℕ} : c ∈ largeEnds cfg text count boundaries start ↔
    c.1 ∈ largeOffsets cfg text count boundaries start ∧ c.2 = count (slice text start c.1) := by
  rw [largeEnds, List.mem_filter, decide_eq_true_eq, List.mem_map]
  constructor
  · rintro ⟨⟨b, hb, rfl⟩, henough⟩
    exact ⟨⟨b.2, mem_reached.mp hb, henough⟩, rfl⟩
  · obtain ⟨o, tokens⟩ := c
    rintro ⟨⟨similarity, hreaches, henough⟩, hcount⟩
    dsimp only at hreaches henough hcount
    subst hcount
    exact ⟨⟨_, mem_reached.mpr hreaches, rfl⟩, henough⟩

theorem boundaryCandidates_eq_ok (hcounts : CountsSolid tokenizer text solid count)
    (h : ∀ b ∈ reached cfg text count boundaries start, solid (slice text start b.1)) :
    boundaryCandidates cfg text start tokenizer (reached cfg text count boundaries start) =
      .ok (largeEnds cfg text count boundaries start) := by
  have hcounted : ((reached cfg text count boundaries start).mapM fun b => do
      let chunkTokens ← tokenCount (slice text start b.1) tokenizer
      return (b.1, chunkTokens)) =
      .ok ((reached cfg text count boundaries start).map fun b => (b.1, count (slice text start b.1))) := by
    refine mapM_ok fun b hb => ?_
    rw [hcounts.counted _ (slice_within _ _ _) (h b hb)]
    rfl
  rw [boundaryCandidates, hcounted]
  rfl

/-- The ends of a good size, with their counts. -/
def sizedEnds (cfg : ChunkingConfig K) (text : Text) (count : Text → ℕ) (boundaries : List (ℕ × K)) (start : ℕ) :
    List (ℕ × ℕ) :=
  largeEnds cfg text count boundaries start ++
    if count (slice text start text.length) ≤ cfg.maxTokens ∧ (largeEnds cfg text count boundaries start ≠ [] ∨
        count (slice text start text.length) ≤ cfg.targetTokens + cfg.minTokens) then
      [(text.length, count (slice text start text.length))] else []

theorem mem_sizedEnds {c : ℕ × ℕ} : c ∈ sizedEnds cfg text count boundaries start ↔
    c.1 ∈ sizedOffsets cfg text count boundaries start ∧ c.2 = count (slice text start c.1) := by
  have hlarge : largeEnds cfg text count boundaries start ≠ [] ↔ (largeOffsets cfg text count boundaries start).Nonempty := by
    constructor
    · intro hne
      obtain ⟨c, hc⟩ := List.exists_mem_of_ne_nil _ hne
      exact ⟨c.1, (mem_largeEnds.mp hc).1⟩
    · rintro ⟨o, ho⟩
      have hin : (o, count (slice text start o)) ∈ largeEnds cfg text count boundaries start := mem_largeEnds.mpr ⟨ho, rfl⟩
      exact List.ne_nil_of_mem hin
  rw [sizedEnds, List.mem_append, mem_largeEnds, sizedOffsets, Set.mem_ofPred_eq, RestFits, ← hlarge]
  split
  · rename_i hrest
    rw [List.mem_singleton]
    obtain ⟨o, tokens⟩ := c
    constructor
    · rintro (⟨ho, hcount⟩ | hsame)
      · exact ⟨.inl ho, hcount⟩
      · cases hsame
        exact ⟨.inr ⟨rfl, hrest⟩, rfl⟩
    · rintro ⟨ho | ⟨hsame, -⟩, hcount⟩
      · exact .inl ⟨ho, hcount⟩
      · dsimp only at hsame hcount
        subst hsame hcount
        exact .inr rfl
  · rename_i hrest
    constructor
    · rintro (⟨ho, hcount⟩ | hnone)
      · exact ⟨.inl ho, hcount⟩
      · cases hnone
    · rintro ⟨ho | ⟨-, hfits⟩, hcount⟩
      · exact .inl ⟨ho, hcount⟩
      · exact absurd hfits hrest

variable (cfg) in
/-- The key of `min` as a pair. -/
def sizeKey (c : ℕ × ℕ) : ℤ ×ₗ ℕ := toLex (|(c.2 : ℤ) - cfg.targetTokens|, c.1)

theorem closer_iff (a b : ℕ × ℕ) : closer cfg a b = true ↔ sizeKey cfg a < sizeKey cfg b := by
  rw [closer, decide_eq_true_eq, sizeKey, sizeKey, Prod.Lex.toLex_lt_toLex]

/-- The candidate that is picked is the nearest to the target. -/
theorem nearest_of_pick {candidate : ℕ × ℕ} {candidates : List (ℕ × ℕ)}
    (hall : ∀ c, c ∈ candidate :: candidates ↔
      c.1 ∈ sizedOffsets cfg text count boundaries start ∧ c.2 = count (slice text start c.1)) :
    (candidates.foldl (fun best c => if closer cfg c best then c else best) candidate).1 ∈
        sizedOffsets cfg text count boundaries start ∧
      ∀ o ∈ sizedOffsets cfg text count boundaries start,
        Nearer cfg text count start (candidates.foldl (fun best c => if closer cfg c best then c else best) candidate).1 o := by
  generalize hpick : candidates.foldl (fun best c => if closer cfg c best then c else best) candidate = picked
  have hpicked := (hall picked).mp (hpick ▸ mem_foldl_pick)
  refine ⟨hpicked.1, fun o ho => ?_⟩
  have hle : sizeKey cfg picked ≤ sizeKey cfg (o, count (slice text start o)) :=
    hpick ▸ foldl_pick_le (fun a b => closer_iff b a) ((hall _).mpr ⟨ho, rfl⟩)
  rw [sizeKey, sizeKey, hpicked.2, Prod.Lex.toLex_le_toLex] at hle
  exact hle

/-- Of boundaries in order the first that is dissimilar is found. -/
theorem isLeast_of_find? (hordered : boundaries.Pairwise fun b b' => b.1 ≤ b'.1) {b : ℕ × K}
    (hfind : (reached cfg text count boundaries start).find? (fun b => b.2 < threshold) = some b) :
    IsLeast (dissimilarOffsets cfg text count boundaries threshold start) b.1 := by
  obtain ⟨hdissimilar, before, behind, hsplit, hbefore⟩ := List.find?_eq_some_iff_append.mp hfind
  have hmem : b ∈ reached cfg text count boundaries start := List.mem_of_find?_eq_some hfind
  refine ⟨⟨b.2, mem_reached.mp hmem, of_decide_eq_true hdissimilar⟩, ?_⟩
  rintro o ⟨similarity, hreaches, hlt⟩
  have hin := mem_reached.mpr hreaches
  have hpairwise : (reached cfg text count boundaries start).Pairwise fun b b' => b.1 ≤ b'.1 :=
    hordered.sublist List.filter_sublist
  rw [hsplit] at hin hpairwise
  rcases List.mem_append.mp hin with hin | hin
  · have hno := hbefore _ hin
    simp only [Bool.not_eq_true', decide_eq_false_iff_not] at hno
    exact absurd hlt hno
  · rcases List.mem_cons.mp hin with heq | hin
    · rw [← heq]
    · exact (List.pairwise_cons.mp (List.pairwise_append.mp hpairwise).2.1).1 _ hin

theorem dissimilarOffsets_eq_empty (hfind : (reached cfg text count boundaries start).find? (fun b => b.2 < threshold) = none) :
    dissimilarOffsets cfg text count boundaries threshold start = ∅ := by
  refine Set.eq_empty_iff_forall_notMem.mpr ?_
  rintro o ⟨similarity, hreaches, hlt⟩
  have hno := List.find?_eq_none.mp hfind _ (mem_reached.mpr hreaches)
  exact hno (decide_eq_true hlt)

/-- An end of the next chunk: where the rule says, behind the start, and neither too far nor one that cannot be counted. -/
structure ChunkEnd (cfg : ChunkingConfig K) (text : Text) (solid : Text → Prop) (count : Text → ℕ)
    (boundaries : List (ℕ × K)) (threshold : K) (start stop : ℕ) : Prop where
  lt : start < stop
  le : stop ≤ text.length
  counted : solid (slice text start stop)
  fits : count (slice text start stop) ≤ cfg.maxTokens
  cut : NextCut cfg text count boundaries threshold start stop

/-- What the choice of an end needs of the start: everything up to a boundary or to the end can be counted, and a
solid prefix fits. -/
structure StartSolid (cfg : ChunkingConfig K) (text : Text) (solid : Text → Prop) (count : Text → ℕ)
    (boundaries : List (ℕ × K)) (start : ℕ) : Prop where
  whole : solid (slice text start text.length)
  boundary : ∀ b ∈ boundaries, start < b.1 → b.1 ≤ text.length ∧ solid (slice text start b.1)
  first : ∃ m, start < m ∧ m ≤ text.length ∧ solid (slice text start m) ∧ count (slice text start m) ≤ cfg.targetTokens

variable (threshold) in
/-- From such a start the next chunk ends where the rule says, unless the rule is stuck. -/
theorem selectNextEnd_spec (hcounts : CountsSolid tokenizer text solid count)
    (hordered : boundaries.Pairwise fun b b' => b.1 ≤ b'.1) (hlt : start < text.length)
    (h : StartSolid cfg text solid count boundaries start) :
    (¬ Stuck cfg text count boundaries threshold start solid →
      ∃ stop, selectNextEnd cfg text start tokenizer boundaries threshold = .ok stop ∧
        ChunkEnd cfg text solid count boundaries threshold start stop) ∧
    (Stuck cfg text count boundaries threshold start solid →
      ∃ e, selectNextEnd cfg text start tokenizer boundaries threshold = .error e) := by
  have havailable := availableBoundaries_eq_ok cfg hcounts fun b hb hb' => (h.boundary b hb hb').2
  have hreach : ∀ b, Reaches cfg text count boundaries start b → b.1 ≤ text.length ∧ solid (slice text start b.1) :=
    fun b hb => h.boundary b hb.1 hb.2.1
  have hselect : selectNextEnd cfg text start tokenizer boundaries threshold =
      match (reached cfg text count boundaries start).find? fun b => b.2 < threshold with
      | some b => .ok b.1
      | none => endOfCandidates cfg text start tokenizer (count (slice text start text.length))
          (sizedEnds cfg text count boundaries start) := by
    rw [selectNextEnd, hcounts.counted _ (slice_within _ _ _) h.whole, havailable]
    simp only [bind, Except.bind, pure, Except.pure]
    cases (reached cfg text count boundaries start).find? fun b => b.2 < threshold with
    | some b => rfl
    | none =>
      rw [boundaryCandidates_eq_ok hcounts fun b hb => (hreach b (mem_reached.mp hb)).2]
      rfl
  rw [hselect]
  cases hfind : (reached cfg text count boundaries start).find? fun b => b.2 < threshold with
  | some b =>
    have hleast := isLeast_of_find? hordered hfind
    have hb := mem_reached.mp (List.mem_of_find?_eq_some hfind)
    refine ⟨fun _ => ⟨b.1, rfl, hb.2.1, (hreach b hb).1, (hreach b hb).2, hb.2.2, .dissimilar hleast⟩, fun hstuck => ?_⟩
    exact absurd hstuck.1.1 (Set.nonempty_iff_ne_empty.mp hleast.nonempty)
  | none =>
    have halike := dissimilarOffsets_eq_empty hfind
    have hmem : ∀ c, c ∈ sizedEnds cfg text count boundaries start ↔
        c.1 ∈ sizedOffsets cfg text count boundaries start ∧ c.2 = count (slice text start c.1) := fun _ => mem_sizedEnds
    cases hends : sizedEnds cfg text count boundaries start with
    | nil =>
      -- the longest prefix
      have hneeds : NeedsPrefix cfg text count boundaries threshold start := by
        refine ⟨halike, Set.eq_empty_iff_forall_notMem.mpr fun o ho => ?_⟩
        have hin := (hmem (o, count (slice text start o))).mpr ⟨ho, rfl⟩
        rw [hends] at hin
        cases hin
      obtain ⟨m, hm, hle, hsolid, hfits⟩ := h.first
      have hfitting : m ∈ fittingOffsets text count start (prefixLimit cfg text count start) :=
        ⟨hm, hle, hfits.trans target_le_prefixLimit⟩
      obtain ⟨top, htop, hmtop⟩ := exists_longest hfitting
      have hsolidTop := hcounts.upward _ _ (slice_within_slice text le_rfl hm.le hmtop) hsolid
      obtain ⟨hok, herror⟩ := prefixEndForLimit_spec cfg hcounts htop hsolidTop
      refine ⟨fun hstuck => ?_, fun hstuck => herror hstuck.2⟩
      have hprefix : PrefixSolid text count start solid (prefixLimit cfg text count start) :=
        by_contra fun hno => hstuck ⟨hneeds, hno⟩
      obtain ⟨stop, hstop, hend⟩ := hok hprefix
      refine ⟨stop, hstop, ?_⟩
      cases hend with
      | space last enough =>
        have hwithin := last.1.2.1.trans htop.1.2.1
        refine ⟨last.1.1, hwithin, hprefix.space _ _ htop last, ?_, .space hneeds htop last enough⟩
        exact ((fits_iff hcounts htop last.1.1.le hwithin).mpr last.1.2.1).trans prefixLimit_le_max
      | longest few =>
        exact ⟨htop.1.1, htop.1.2.1, hsolidTop, htop.1.2.2.trans prefixLimit_le_max, .longest hneeds htop few⟩
    | cons candidate candidates =>
      -- the candidate of the best size
      rw [hends] at hmem
      obtain ⟨hsize, hnearest⟩ := nearest_of_pick hmem
      refine ⟨fun _ => ⟨_, rfl, ?_⟩, fun hstuck => absurd hstuck.1.2 (Set.nonempty_iff_ne_empty.mp ⟨_, hsize⟩)⟩
      have hcut := NextCut.sized halike hsize hnearest
      rcases hsize with ⟨similarity, hreaches, -⟩ | ⟨hwhole, hrest⟩
      · exact ⟨hreaches.2.1, (hreach _ hreaches).1, (hreach _ hreaches).2, hreaches.2.2, hcut⟩
      · rw [hwhole] at hcut ⊢
        exact ⟨hlt, le_rfl, h.whole, hrest.1, hcut⟩

end SelectSpec

end TenantRag

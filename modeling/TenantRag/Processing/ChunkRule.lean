import Mathlib.Data.Nat.Find
import Mathlib.Data.Nat.Log
import Mathlib.Logic.Relation
import Mathlib.Order.Bounds.Basic
import TenantRag.Processing.ChunkMerge

/-!
# Where a chunk ends

The rule of the cuts, said of the text, of the boundaries between its units and of the
tokens of its slices, and of nothing that the code computes on the way: a chunk ends at
the first dissimilar boundary; else at the boundary, or the end of the text, of the best
size; else behind the longest prefix that fits, or behind white space in it.

## The model

* `dissimilarOffsets`, `sizedOffsets`, `fittingOffsets`, `spaceOffsets` — the offsets to choose from.
* `NextCut` — the end of the chunk from a start.
* `Stuck` — the rule asks for a prefix, and no halving of the rest is one that can be counted.
* `NeverStuck` — no chunk begins at such a start.

## What is proved

* `NextCut.unique` — a chunk has one end.
* `neverStuck_next` — being stuck nowhere is passed on from start to start.
* `exists_longest`, `fits_iff` — what fits has a longest prefix, and is what is not behind it.
-/

namespace TenantRag

variable {K : Type} [LinearOrder K] [Zero K] [One K]

section Rule
variable (cfg : ChunkingConfig K) (text : Text) (count : Text → ℕ) (boundaries : List (ℕ × K)) (threshold : K)
  (start : ℕ)

/-! ### The offsets -/

/-- A boundary behind the start, up to where the text is not too large for a chunk. -/
def Reaches (b : ℕ × K) : Prop :=
  b ∈ boundaries ∧ start < b.1 ∧ count (slice text start b.1) ≤ cfg.maxTokens

/-- The boundaries of units that are not alike. -/
def dissimilarOffsets : Set ℕ :=
  {o | ∃ similarity, Reaches cfg text count boundaries start (o, similarity) ∧ similarity < threshold}

/-- The boundaries with enough tokens before them. -/
def largeOffsets : Set ℕ :=
  {o | ∃ similarity, Reaches cfg text count boundaries start (o, similarity) ∧ cfg.minTokens ≤ count (slice text start o)}

/-- What remains may be the last chunk. -/
def RestFits : Prop :=
  count (slice text start text.length) ≤ cfg.maxTokens ∧
    ((largeOffsets cfg text count boundaries start).Nonempty ∨
      count (slice text start text.length) ≤ cfg.targetTokens + cfg.minTokens)

/-- The ends of chunks of a good size. -/
def sizedOffsets : Set ℕ :=
  {o | o ∈ largeOffsets cfg text count boundaries start ∨ o = text.length ∧ RestFits cfg text count boundaries start}

/-- One end is nearer to the target than another, or it is as near and not behind it. -/
def Nearer (a b : ℕ) : Prop :=
  |(count (slice text start a) : ℤ) - cfg.targetTokens| < |(count (slice text start b) : ℤ) - cfg.targetTokens| ∨
    |(count (slice text start a) : ℤ) - cfg.targetTokens| = |(count (slice text start b) : ℤ) - cfg.targetTokens| ∧ a ≤ b

/-- The ends of prefixes that fit. -/
def fittingOffsets (limit : ℕ) : Set ℕ := {m | start < m ∧ m ≤ text.length ∧ count (slice text start m) ≤ limit}

/-- The offsets behind white space. -/
def spaceOffsets (top : ℕ) : Set ℕ := {k | start < k ∧ k ≤ top ∧ text[k - 1]?.any isSpace = true}

/-! ### The rule -/

/-- No boundary ends the next chunk, and what remains is too large for one. -/
def NeedsPrefix : Prop :=
  dissimilarOffsets cfg text count boundaries threshold start = ∅ ∧ sizedOffsets cfg text count boundaries start = ∅

/-- The limit of the prefix. -/
def prefixLimit : ℕ :=
  if cfg.targetTokens + cfg.minTokens < count (slice text start text.length) then cfg.targetTokens else cfg.maxTokens

/-- The end of the chunk from `start`. -/
inductive NextCut : ℕ → Prop where
  /-- The first dissimilar boundary. -/
  | dissimilar {stop : ℕ} (first : IsLeast (dissimilarOffsets cfg text count boundaries threshold start) stop) :
      NextCut stop
  /-- The end of the best size. -/
  | sized {stop : ℕ} (alike : dissimilarOffsets cfg text count boundaries threshold start = ∅)
      (size : stop ∈ sizedOffsets cfg text count boundaries start)
      (nearest : ∀ o ∈ sizedOffsets cfg text count boundaries start, Nearer cfg text count start stop o) : NextCut stop
  /-- The last white space of the longest prefix, where enough tokens are before it. -/
  | space {top stop : ℕ} (needs : NeedsPrefix cfg text count boundaries threshold start)
      (longest : IsGreatest (fittingOffsets text count start (prefixLimit cfg text count start)) top)
      (last : IsGreatest (spaceOffsets text start top) stop) (enough : cfg.minTokens ≤ count (slice text start stop)) :
      NextCut stop
  /-- The longest prefix. -/
  | longest {top : ℕ} (needs : NeedsPrefix cfg text count boundaries threshold start)
      (longest : IsGreatest (fittingOffsets text count start (prefixLimit cfg text count start)) top)
      (few : ∀ k, IsGreatest (spaceOffsets text start top) k → count (slice text start k) < cfg.minTokens) : NextCut top

/-- From the start of a chunk to the start of the next. -/
def NextStart (stop : ℕ) : Prop :=
  start < text.length ∧ NextCut cfg text count boundaries threshold start stop

/-- The end of a prefix, a halving of what remains. -/
def halving (j : ℕ) : ℕ := start + (text.length + 1 - start) / 2 ^ (j + 1)

/-- One of the halvings fits and is solid, and so is the longest prefix up to its last white space. -/
structure PrefixSolid (solid : Text → Prop) (limit : ℕ) : Prop where
  halving : ∃ j, solid (slice text start (halving text start j)) ∧ count (slice text start (halving text start j)) ≤ limit
  space : ∀ top k, IsGreatest (fittingOffsets text count start limit) top → IsGreatest (spaceOffsets text start top) k →
    solid (slice text start k)

/-- The rule asks for a prefix that cannot be found. -/
def Stuck (solid : Text → Prop) : Prop :=
  NeedsPrefix cfg text count boundaries threshold start ∧
    ¬ PrefixSolid text count start solid (prefixLimit cfg text count start)

/-- From `start` on no chunk begins where the rule is stuck. -/
def NeverStuck (solid : Text → Prop) : Prop :=
  ∀ s, Relation.ReflTransGen (NextStart cfg text count boundaries threshold) start s → s < text.length →
    ¬ Stuck cfg text count boundaries threshold s solid

end Rule

section Facts
variable {cfg : ChunkingConfig K} {text : Text} {count : Text → ℕ} {boundaries : List (ℕ × K)} {threshold : K}
  {start limit : ℕ}

theorem target_le_prefixLimit : cfg.targetTokens ≤ prefixLimit cfg text count start := by
  rw [prefixLimit]
  split
  · exact le_rfl
  · exact cfg.target_le_max

theorem prefixLimit_le_max : prefixLimit cfg text count start ≤ cfg.maxTokens := by
  rw [prefixLimit]
  split
  · exact cfg.target_le_max
  · exact le_rfl

theorem Nearer.antisymm {a b : ℕ} (hab : Nearer cfg text count start a b) (hba : Nearer cfg text count start b a) :
    a = b := by
  rcases hab with hlt | ⟨heq, hle⟩
  · rcases hba with hlt' | ⟨heq', -⟩
    · exact absurd hlt (not_lt.mpr hlt'.le)
    · exact absurd heq'.symm hlt.ne
  · rcases hba with hlt' | ⟨-, hle'⟩
    · exact absurd heq.symm hlt'.ne
    · exact le_antisymm hle hle'

/-- A chunk has one end. -/
theorem NextCut.unique {stop stop' : ℕ} (h : NextCut cfg text count boundaries threshold start stop)
    (h' : NextCut cfg text count boundaries threshold start stop') : stop = stop' := by
  cases h with
  | dissimilar first =>
    have hsome : dissimilarOffsets cfg text count boundaries threshold start ≠ ∅ := Set.nonempty_iff_ne_empty.mp first.nonempty
    cases h' with
    | dissimilar first' => exact first.unique first'
    | sized alike => exact absurd alike hsome
    | space needs => exact absurd needs.1 hsome
    | longest needs => exact absurd needs.1 hsome
  | sized alike size nearest =>
    have hsome : sizedOffsets cfg text count boundaries start ≠ ∅ := Set.nonempty_iff_ne_empty.mp ⟨_, size⟩
    cases h' with
    | dissimilar first' => exact absurd alike (Set.nonempty_iff_ne_empty.mp first'.nonempty)
    | sized _ size' nearest' => exact (nearest _ size').antisymm (nearest' _ size)
    | space needs => exact absurd needs.2 hsome
    | longest needs => exact absurd needs.2 hsome
  | space needs longest last enough =>
    cases h' with
    | dissimilar first' => exact absurd needs.1 (Set.nonempty_iff_ne_empty.mp first'.nonempty)
    | sized _ size' => exact absurd needs.2 (Set.nonempty_iff_ne_empty.mp ⟨_, size'⟩)
    | space _ longest' last' =>
      cases longest.unique longest'
      exact last.unique last'
    | longest _ longest' few =>
      cases longest.unique longest'
      exact absurd enough (not_le.mpr (few _ last))
  | longest needs longest few =>
    cases h' with
    | dissimilar first' => exact absurd needs.1 (Set.nonempty_iff_ne_empty.mp first'.nonempty)
    | sized _ size' => exact absurd needs.2 (Set.nonempty_iff_ne_empty.mp ⟨_, size'⟩)
    | space _ longest' last enough =>
      cases longest.unique longest'
      exact absurd enough (not_le.mpr (few _ last))
    | longest _ longest' => exact longest.unique longest'

/-- From a start that is not stuck the chunks go on as from the next start. -/
theorem neverStuck_next {solid : Text → Prop} {stop : ℕ} (h : NextStart cfg text count boundaries threshold start stop)
    (hstuck : ¬ Stuck cfg text count boundaries threshold start solid) :
    NeverStuck cfg text count boundaries threshold start solid ↔
      NeverStuck cfg text count boundaries threshold stop solid := by
  constructor
  · intro hnever s hs
    exact hnever s (Relation.ReflTransGen.head h hs)
  · intro hnever s hs hlt
    rcases Relation.ReflTransGen.cases_head hs with rfl | ⟨stop', hstep, hrest⟩
    · exact hstuck
    · rw [← h.2.unique hstep.2] at hrest
      exact hnever s hrest hlt

/-- Where a chunk ends: at a boundary, at the end of the text, or behind a prefix that fits. -/
theorem NextCut.origin {stop : ℕ} (h : NextCut cfg text count boundaries threshold start stop) :
    (∃ b ∈ boundaries, b.1 = stop) ∨ stop = text.length ∨
      ∃ top, IsGreatest (fittingOffsets text count start (prefixLimit cfg text count start)) top ∧
        (stop = top ∨ IsGreatest (spaceOffsets text start top) stop) := by
  cases h with
  | dissimilar first =>
    obtain ⟨similarity, hreaches, -⟩ := first.1
    exact .inl ⟨_, hreaches.1, rfl⟩
  | sized _ size =>
    rcases size with ⟨similarity, hreaches, -⟩ | ⟨rfl, -⟩
    · exact .inl ⟨_, hreaches.1, rfl⟩
    · exact .inr (.inl rfl)
  | space _ longest last => exact .inr (.inr ⟨_, longest, .inr last⟩)
  | longest _ longest => exact .inr (.inr ⟨_, longest, .inl rfl⟩)

omit [LinearOrder K] [Zero K] [One K] in
/-- The halvings come down to one character. -/
theorem exists_halving_eq_succ (hlt : start < text.length) : ∃ j, halving text start j = start + 1 := by
  have hpos : 0 < Nat.log 2 (text.length + 1 - start) := Nat.log_pos (by decide) (by omega)
  have hlow := Nat.pow_log_le_self 2 (show text.length + 1 - start ≠ 0 by omega)
  have hhigh := Nat.lt_pow_succ_log_self (by decide : 1 < 2) (text.length + 1 - start)
  refine ⟨Nat.log 2 (text.length + 1 - start) - 1, ?_⟩
  rw [halving, Nat.sub_add_cancel hpos]
  congr 1
  rw [pow_succ'] at hhigh
  exact Nat.div_eq_of_lt_le (by rwa [Nat.one_mul]) hhigh

/-- Where a prefix fits, there is a longest that does. -/
theorem exists_longest {m : ℕ} (h : m ∈ fittingOffsets text count start limit) :
    ∃ top, IsGreatest (fittingOffsets text count start limit) top ∧ m ≤ top := by
  classical
  have hspec := Nat.findGreatest_spec (P := fun m => m ∈ fittingOffsets text count start limit) h.2.1 h
  exact ⟨_, ⟨hspec, fun k hk => Nat.le_findGreatest hk.2.1 hk⟩, Nat.le_findGreatest h.2.1 h⟩

/-- What fits is what is not behind the longest prefix that does. -/
theorem fits_iff {tokenizer : Tokenizer} {solid : Text → Prop} (hcounts : CountsSolid tokenizer text solid count) {top : ℕ}
    (htop : IsGreatest (fittingOffsets text count start limit) top) {k : ℕ} (hk : start ≤ k) (hle : k ≤ text.length) :
    count (slice text start k) ≤ limit ↔ k ≤ top := by
  constructor
  · intro hfits
    rcases hk.eq_or_lt with rfl | hlt
    · exact htop.1.1.le
    · exact htop.2 ⟨hlt, hle, hfits⟩
  · intro hbefore
    exact (hcounts.mono _ _ (slice_within_slice text le_rfl hk hbefore) (slice_within _ _ _)).trans htop.1.2.2

end Facts

end TenantRag

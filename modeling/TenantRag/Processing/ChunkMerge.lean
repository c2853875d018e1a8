import Mathlib.Data.List.Chain
import TenantRag.Foundations.Dict
import TenantRag.Foundations.Lists
import TenantRag.Processing.ParagraphSplitter

/-!
# Merging small chunks

A scan over the spans of the chunks joins each span that is too small with a
neighbour, as long as the joined span is not too large. After joining with the span
before it the scan steps back, so spans that were passed over get new neighbours.

## The model

* `Tokenizer`, `tokenCount` — the tokenizer is outside the repository, and a parameter.
* `mergeStep`, `mergeLoop` — the scan, at the head of the second list; the spans before it are in the first, nearest first.
* `mergeSmallCompatibleChunks` — the scan of all spans.

## What is proved

* `mergeStep_cases` — what a step does: it moves on, joins with the span before or joins with the span behind.
* `MergeInvariant` — to the left of the scan no small span can be joined.
* `merge_fixed_point` — the scan ends with a coarser tiling in which nothing can be joined, and which it leaves alone.
-/

namespace TenantRag

/-! ### Counting tokens -/

/-- `Tokenizer.encode`. -/
abbrev Tokenizer := Text → Except PyError (List ℕ)

/-- `_token_count`. -/
def tokenCount (text : Text) (tokenizer : Tokenizer) : Except PyError ℕ := do
  let tokens ← tokenizer text
  return tokens.length

/-- The tokenizer counts every slice of the text, and a slice of a slice counts no more. -/
structure CountsSlices (tokenizer : Tokenizer) (text : Text) (count : Text → ℕ) : Prop where
  counted : ∀ s, s <:+: text → tokenCount s tokenizer = .ok (count s)
  mono : ∀ s s', s <:+: s' → s' <:+: text → count s ≤ count s'

/-- The same of the slices that are solid, where what contains a solid slice is solid. The others are rejected. -/
structure CountsSolid (tokenizer : Tokenizer) (text : Text) (solid : Text → Prop) (count : Text → ℕ) : Prop where
  counted : ∀ s, s <:+: text → solid s → tokenCount s tokenizer = .ok (count s)
  rejected : ∀ s, s <:+: text → ¬ solid s → ∃ e, tokenCount s tokenizer = .error e
  upward : ∀ s s', s <:+: s' → solid s → solid s'
  mono : ∀ s s', s <:+: s' → s' <:+: text → count s ≤ count s'

theorem CountsSlices.solid {tokenizer : Tokenizer} {text : Text} {count : Text → ℕ}
    (h : CountsSlices tokenizer text count) : CountsSolid tokenizer text (fun _ => True) count :=
  ⟨fun s hs _ => h.counted s hs, fun _ _ hno => absurd trivial hno, fun _ _ _ _ => trivial, h.mono⟩

theorem CountsSolid.span {tokenizer : Tokenizer} {text : Text} {solid : Text → Prop} {count : Text → ℕ}
    (h : CountsSolid tokenizer text solid count) {s : Span} (hs : solid (s.text text)) :
    tokenCount (s.text text) tokenizer = .ok (count (s.text text)) := h.counted _ (slice_within _ _ _) hs

/-- A span within another counts no more. -/
theorem CountsSolid.span_mono {tokenizer : Tokenizer} {text : Text} {solid : Text → Prop} {count : Text → ℕ}
    (h : CountsSolid tokenizer text solid count) {a a' b b' : ℕ} (ha : a' ≤ a) (hab : a ≤ b) (hb : b ≤ b') :
    count (Span.text text ⟨a, b⟩) ≤ count (Span.text text ⟨a', b'⟩) :=
  h.mono _ _ (slice_within_slice text ha hab hb) (slice_within _ _ _)

/-- A span around a solid one is solid. -/
theorem CountsSolid.span_upward {tokenizer : Tokenizer} {text : Text} {solid : Text → Prop} {count : Text → ℕ}
    (h : CountsSolid tokenizer text solid count) {a a' b b' : ℕ} (ha : a' ≤ a) (hab : a ≤ b) (hb : b ≤ b')
    (hs : solid (Span.text text ⟨a, b⟩)) : solid (Span.text text ⟨a', b'⟩) :=
  h.upward _ _ (slice_within_slice text ha hab hb) hs

/-! ### The scan -/

section Merge
variable {K : Type} [LinearOrder K] [Zero K] [One K]

/-- The neighbour to join with. -/
inductive Direction where
  | previous
  | following
  deriving DecidableEq

/-- An element of `options`. -/
structure MergeOption (K : Type) where
  similarity : K
  fit : ℤ
  rank : ℕ
  direction : Direction

omit [Zero K] [One K] in
/-- `a < b` for the tuples; two options never have the same rank. -/
def MergeOption.lt (a b : MergeOption K) : Bool :=
  a.similarity < b.similarity ∨
    a.similarity = b.similarity ∧ (a.fit < b.fit ∨ a.fit = b.fit ∧ a.rank < b.rank)

/-- `max(options)`: the first that no other exceeds. -/
def maxOption : List (MergeOption K) → Option (MergeOption K)
  | [] => none
  | option :: options => some (options.foldl (fun best o => if best.lt o then o else best) option)

variable (cfg : ChunkingConfig K) (paragraph : Text) (similarities : Dict ℕ K) (tokenizer : Tokenizer)

/-- The option to make `joined` over the boundary, if it is not too large. -/
def mergeOption (boundary : ℕ) (joined : Span) (rank : ℕ) (direction : Direction) :
    Except PyError (List (MergeOption K)) := do
  let combinedTokens ← tokenCount (joined.text paragraph) tokenizer
  if combinedTokens ≤ cfg.maxTokens then
    return [⟨(similarities.get? boundary).getD 1, -|(combinedTokens : ℤ) - cfg.targetTokens|, rank, direction⟩]
  return []

/-- The option to join with a neighbour, if there is one. -/
def neighbourOption (neighbour : Option Span) (joined : Span → Span) (boundary rank : ℕ) (direction : Direction) :
    Except PyError (List (MergeOption K)) :=
  match neighbour with
  | none => .ok []
  | some neighbour => mergeOption cfg paragraph similarities tokenizer boundary (joined neighbour) rank direction

/-- The options of `current` between its neighbours. -/
def mergeOptions (before : List Span) (current : Span) (after : List Span) : Except PyError (List (MergeOption K)) := do
  let first ← neighbourOption cfg paragraph similarities tokenizer before.head?
    (fun previous => ⟨previous.start, current.stop⟩) current.start 1 .previous
  let second ← neighbourOption cfg paragraph similarities tokenizer after.head?
    (fun following => ⟨current.start, following.stop⟩) current.stop 0 .following
  return first ++ second

/-- The spans after joining in a direction, and the place of the scan in them. -/
def joinTowards (direction : Direction) (before : List Span) (current : Span) (after : List Span) :
    List Span × List Span :=
  match direction, before, after with
  | .previous, previous :: before, after => (before, ⟨previous.start, current.stop⟩ :: after)
  | .following, before, following :: after => (before, ⟨current.start, following.stop⟩ :: after)
  -- not reached: an option stands for a neighbour
  | _, before, after => (current :: before, after)

/-- One turn of the loop. -/
def mergeStep (before : List Span) (current : Span) (after : List Span) : Except PyError (List Span × List Span) := do
  let tokens ← tokenCount (current.text paragraph) tokenizer
  if cfg.minTokens ≤ tokens then return (current :: before, after)
  let options ← mergeOptions cfg paragraph similarities tokenizer before current after
  match maxOption options with
  | none => return (current :: before, after)
  | some option => return joinTowards option.direction before current after

theorem joinTowards_measure (direction : Direction) (before : List Span) (current : Span) (after : List Span) :
    2 * (joinTowards direction before current after).2.length + (joinTowards direction before current after).1.length <
      2 * (after.length + 1) + before.length := by
  unfold joinTowards
  split <;> simp only [List.length_cons] <;> omega

/-- A turn gets the scan further. -/
theorem mergeStep_measure {before after before' after' : List Span} {current : Span}
    (h : mergeStep cfg paragraph similarities tokenizer before current after = .ok (before', after')) :
    2 * after'.length + before'.length < 2 * (after.length + 1) + before.length := by
  have hmove : 2 * after.length + (current :: before).length < 2 * (after.length + 1) + before.length := by
    rw [List.length_cons]
    omega
  rw [mergeStep, bind_eq_ok_iff] at h
  obtain ⟨tokens, -, h⟩ := h
  split at h
  · cases h
    exact hmove
  · rw [bind_eq_ok_iff] at h
    obtain ⟨options, -, h⟩ := h
    split at h
    · cases h
      exact hmove
    · have hjoin := joinTowards_measure (‹MergeOption K›).direction before current after
      rw [show joinTowards _ _ _ _ = (before', after') from Except.ok.inj h] at hjoin
      exact hjoin

/-- `while index < len(merged)`. -/
def mergeLoop (before after : List Span) : Except PyError (List Span) :=
  match after with
  | [] => .ok before.reverse
  | current :: rest =>
      match _h : mergeStep cfg paragraph similarities tokenizer before current rest with
      | .error e => .error e
      | .ok (before', after') => mergeLoop before' after'
termination_by 2 * after.length + before.length
decreasing_by exact mergeStep_measure cfg paragraph similarities tokenizer ‹_›

/-- `_merge_small_compatible_chunks`. -/
def mergeSmallCompatibleChunks (spans : List Span) : Except PyError (List Span) :=
  mergeLoop cfg paragraph similarities tokenizer [] spans

/-! ### What a turn does -/

variable (count : Text → ℕ)

/-- The span is too small. -/
def Small (s : Span) : Prop := count (s.text paragraph) < cfg.minTokens

/-- The span is not too large. -/
def Fits (s : Span) : Prop := count (s.text paragraph) ≤ cfg.maxTokens

/-- The neighbours are not to be joined: none is small, or together they are too large. -/
def Settled (l r : Span) : Prop :=
  Small cfg paragraph count l ∨ Small cfg paragraph count r → ¬ Fits cfg paragraph count ⟨l.start, r.stop⟩

/-- What a turn of the scan can do. -/
inductive MergeTurn : List Span → Span → List Span → List Span → List Span → Prop where
  /-- It moves on: the span is large enough, or can be joined with neither neighbour. -/
  | skip {before after : List Span} {current : Span} :
      (Small cfg paragraph count current → (∀ p ∈ before.head?, ¬ Fits cfg paragraph count ⟨p.start, current.stop⟩) ∧
        ∀ f ∈ after.head?, ¬ Fits cfg paragraph count ⟨current.start, f.stop⟩) →
      MergeTurn before current after (current :: before) after
  /-- It joins a small span with the span before, and steps back. -/
  | previous {before after : List Span} {p current : Span} : Small cfg paragraph count current →
      Fits cfg paragraph count ⟨p.start, current.stop⟩ → MergeTurn (p :: before) current after before (⟨p.start, current.stop⟩ :: after)
  /-- It joins a small span with the span behind. -/
  | following {before after : List Span} {current f : Span} : Small cfg paragraph count current →
      Fits cfg paragraph count ⟨current.start, f.stop⟩ → MergeTurn before current (f :: after) before (⟨current.start, f.stop⟩ :: after)

variable {paragraph tokenizer count}

omit [Zero K] [One K] in
theorem maxOption_cases (options : List (MergeOption K)) :
    (maxOption options = none ∧ options = []) ∨ ∃ o ∈ options, maxOption options = some o := by
  cases options with
  | nil => exact .inl ⟨rfl, rfl⟩
  | cons o options => exact .inr ⟨_, mem_foldl_pick, rfl⟩

/-- The option to join with a neighbour to a solid span. -/
theorem neighbourOption_spec {solid : Text → Prop} (hcounts : CountsSolid tokenizer paragraph solid count)
    {neighbour : Option Span} {joined : Span → Span} (hsolid : ∀ n ∈ neighbour, solid ((joined n).text paragraph))
    (boundary rank : ℕ) (direction : Direction) :
    ∃ options, neighbourOption cfg paragraph similarities tokenizer neighbour joined boundary rank direction = .ok options ∧
      (options = [] → ∀ n ∈ neighbour, ¬ Fits cfg paragraph count (joined n)) ∧
      ∀ o ∈ options, o.direction = direction ∧ ∃ n ∈ neighbour, Fits cfg paragraph count (joined n) := by
  cases neighbour with
  | none => exact ⟨[], rfl, by simp, by simp⟩
  | some n =>
    rw [neighbourOption, mergeOption, hcounts.span (hsolid n rfl)]
    by_cases hfits : count ((joined n).text paragraph) ≤ cfg.maxTokens
    · refine ⟨_, if_pos hfits, by simp, fun o ho => ?_⟩
      rw [List.mem_singleton.mp ho]
      exact ⟨rfl, n, rfl, hfits⟩
    · refine ⟨[], if_neg hfits, fun _ m hm => ?_, by simp⟩
      cases hm
      exact hfits

/-- The options of a solid span between its neighbours. -/
theorem mergeOptions_spec {solid : Text → Prop} (hcounts : CountsSolid tokenizer paragraph solid count)
    {before after : List Span} {current : Span} (hcurrent : current.start ≤ current.stop)
    (hbefore : ∀ p ∈ before.head?, p.start ≤ current.start) (hafter : ∀ f ∈ after.head?, current.stop ≤ f.stop)
    (hsolid : solid (current.text paragraph)) :
    ∃ options, mergeOptions cfg paragraph similarities tokenizer before current after = .ok options ∧
      (options = [] → (∀ p ∈ before.head?, ¬ Fits cfg paragraph count ⟨p.start, current.stop⟩) ∧
        ∀ f ∈ after.head?, ¬ Fits cfg paragraph count ⟨current.start, f.stop⟩) ∧
      ∀ o ∈ options,
        (o.direction = .previous ∧ ∃ p ∈ before.head?, Fits cfg paragraph count ⟨p.start, current.stop⟩) ∨
        (o.direction = .following ∧ ∃ f ∈ after.head?, Fits cfg paragraph count ⟨current.start, f.stop⟩) := by
  have hleft : ∀ p ∈ before.head?, solid (Span.text paragraph ⟨p.start, current.stop⟩) := fun p hp =>
    hcounts.span_upward (hbefore p hp) hcurrent le_rfl hsolid
  have hright : ∀ f ∈ after.head?, solid (Span.text paragraph ⟨current.start, f.stop⟩) := fun f hf =>
    hcounts.span_upward le_rfl hcurrent (hafter f hf) hsolid
  obtain ⟨first, hfirst, hnone, hsome⟩ := neighbourOption_spec cfg similarities hcounts hleft
    current.start 1 .previous
  obtain ⟨second, hsecond, hnone', hsome'⟩ := neighbourOption_spec cfg similarities hcounts
    hright current.stop 0 .following
  refine ⟨first ++ second, ?_, fun h => ?_, fun o ho => ?_⟩
  · rw [mergeOptions, hfirst, hsecond]
    rfl
  · obtain ⟨h1, h2⟩ := List.append_eq_nil_iff.mp h
    exact ⟨hnone h1, hnone' h2⟩
  · rcases List.mem_append.mp ho with ho | ho
    · exact .inl (hsome o ho)
    · exact .inr (hsome' o ho)

/-- A turn on spans that tile a stretch of the text and are solid. -/
theorem mergeStep_cases {solid : Text → Prop} (hcounts : CountsSolid tokenizer paragraph solid count)
    {before after : List Span} {current : Span} {a b : ℕ} (htiles : Tiles a (before.reverse ++ current :: after) b)
    (hsolid : solid (current.text paragraph)) :
    ∃ before' after', mergeStep cfg paragraph similarities tokenizer before current after = .ok (before', after') ∧
      MergeTurn cfg paragraph count before current after before' after' := by
  obtain ⟨c, htilesBefore, rfl, hcurrent, htilesAfter⟩ := tiles_append.mp htiles
  have hbefore : ∀ p ∈ before.head?, p.start ≤ current.start := by
    intro p hp
    have hbounds := htilesBefore.bounds (List.mem_reverse.mpr (List.mem_of_mem_head? hp))
    exact hbounds.2.1.trans hbounds.2.2
  have hafter : ∀ f ∈ after.head?, current.stop ≤ f.stop := by
    intro f hf
    have hbounds := htilesAfter.bounds (List.mem_of_mem_head? hf)
    exact hbounds.1.trans hbounds.2.1
  obtain ⟨options, hoptions, hnone, hsome⟩ := mergeOptions_spec cfg similarities hcounts
    hcurrent hbefore hafter hsolid
  rw [mergeStep, hcounts.span hsolid]
  by_cases hsmall : cfg.minTokens ≤ count (current.text paragraph)
  · exact ⟨_, _, if_pos hsmall, .skip fun h => absurd hsmall (Nat.not_le.mpr h)⟩
  · rcases maxOption_cases options with ⟨hmax, hempty⟩ | ⟨o, ho, hmax⟩
    · refine ⟨current :: before, after, ?_, .skip fun _ => hnone hempty⟩
      simp only [bind, Except.bind, if_neg hsmall, hoptions, hmax, pure, Except.pure]
    · refine ⟨(joinTowards o.direction before current after).1, (joinTowards o.direction before current after).2, ?_, ?_⟩
      · simp only [bind, Except.bind, if_neg hsmall, hoptions, hmax, pure, Except.pure]
      · rcases hsome o ho with ⟨hdirection, p, hp, hfits⟩ | ⟨hdirection, f, hf, hfits⟩
        · obtain ⟨rest, rfl⟩ := List.head?_eq_some_iff.mp hp
          rw [hdirection]
          exact .previous (Nat.not_le.mp hsmall) hfits
        · obtain ⟨rest, rfl⟩ := List.head?_eq_some_iff.mp hf
          rw [hdirection]
          exact .following (Nat.not_le.mp hsmall) hfits

/-! ### The invariant of the scan -/

/-- The spans on both sides of the scan tile the paragraph and coarsen the given ones; those passed over are settled
with each other, and the last of them, if small, with the next as well. -/
structure MergeInvariant (paragraph : Text) (solid : Text → Prop) (count : Text → ℕ) (spans before after : List Span) :
    Prop where
  tiles : Tiles 0 (before.reverse ++ after) paragraph.length
  solid : ∀ s ∈ before.reverse ++ after, solid (s.text paragraph)
  coarser : Coarser (Fits cfg paragraph count) (before.reverse ++ after) spans
  settled : before.IsChain fun r l => Settled cfg paragraph count l r
  edge : ∀ l ∈ before.head?, ∀ r ∈ after.head?, Small cfg paragraph count l → ¬ Fits cfg paragraph count ⟨l.start, r.stop⟩

variable {cfg} {solid : Text → Prop} {spans before after before' after' : List Span} {current : Span}

/-- A span too large with its neighbour is too large with what grows out of the neighbour. -/
theorem not_fits_mono (hcounts : CountsSolid tokenizer paragraph solid count) {a b b' : ℕ} (hab : a ≤ b) (hb : b ≤ b')
    (h : ¬ Fits cfg paragraph count ⟨a, b⟩) : ¬ Fits cfg paragraph count ⟨a, b'⟩ := fun hfits =>
  h (le_trans (hcounts.span_mono le_rfl hab hb) hfits)

/-- Joining two neighbours keeps the tiling solid and coarser. -/
theorem MergeInvariant.join {xs ys : List Span} {l r : Span} (hcounts : CountsSolid tokenizer paragraph solid count)
    (htiles : Tiles 0 (xs ++ l :: r :: ys) paragraph.length)
    (hsolid : ∀ s ∈ xs ++ l :: r :: ys, solid (s.text paragraph))
    (hcoarser : Coarser (Fits cfg paragraph count) (xs ++ l :: r :: ys) spans)
    (hfits : Fits cfg paragraph count ⟨l.start, r.stop⟩) :
    Tiles 0 (xs ++ ⟨l.start, r.stop⟩ :: ys) paragraph.length ∧
      (∀ s ∈ xs ++ ⟨l.start, r.stop⟩ :: ys, solid (s.text paragraph)) ∧
      Coarser (Fits cfg paragraph count) (xs ++ ⟨l.start, r.stop⟩ :: ys) spans := by
  obtain ⟨c, -, rfl, hl, hmeet, hr, -⟩ := tiles_append.mp htiles
  refine ⟨htiles.join, fun s hs => ?_, hcoarser.join hmeet hfits⟩
  rcases List.mem_append.mp hs with hs | hs
  · exact hsolid s (List.mem_append_left _ hs)
  · rcases List.mem_cons.mp hs with rfl | hs
    · exact hcounts.span_upward le_rfl hl hr (hsolid l (by simp))
    · exact hsolid s (List.mem_append_right _ (by simp [hs]))

/-- A turn keeps the invariant. -/
theorem MergeInvariant.turn (hcounts : CountsSolid tokenizer paragraph solid count)
    (h : MergeInvariant cfg paragraph solid count spans before (current :: after))
    (hturn : MergeTurn cfg paragraph count before current after before' after') :
    MergeInvariant cfg paragraph solid count spans before' after' := by
  obtain ⟨htiles, hsolid, hcoarser, hsettled, hedge⟩ := h
  cases hturn with
  | skip hblocked =>
    rw [← List.singleton_append, ← List.append_assoc, ← List.reverse_cons] at htiles hsolid hcoarser
    refine ⟨htiles, hsolid, hcoarser, ?_, fun l hl r hr hsmall => ?_⟩
    · rw [List.isChain_cons]
      refine ⟨fun l hl hsmall => ?_, hsettled⟩
      rcases hsmall with hsmall | hsmall
      · exact hedge l hl current rfl hsmall
      · exact (hblocked hsmall).1 l hl
    · cases hl
      exact (hblocked hsmall).2 r hr
  | @previous before _ p _ _ hfits =>
    rw [List.reverse_cons, List.append_assoc, List.singleton_append] at htiles hsolid hcoarser
    obtain ⟨htiles', hsolid', hcoarser'⟩ := MergeInvariant.join hcounts htiles hsolid hcoarser hfits
    rw [List.isChain_cons] at hsettled
    refine ⟨htiles', hsolid', hcoarser', hsettled.2, fun l hl r hr hsmall => ?_⟩
    cases hr
    -- the span before was settled with `p`, and has only got a larger neighbour
    obtain ⟨c, hleft, rfl, hp, hmeet, hcurrent, -⟩ := tiles_append.mp htiles
    have hbounds := hleft.bounds (List.mem_reverse.mpr (List.mem_of_mem_head? hl))
    refine not_fits_mono hcounts ?_ ?_ (hsettled.1 l hl (.inl hsmall))
    · exact hbounds.2.1.trans (hbounds.2.2.trans hp)
    · exact hcurrent
  | @following _ after _ f _ hfits =>
    obtain ⟨htiles', hsolid', hcoarser'⟩ := MergeInvariant.join hcounts htiles hsolid hcoarser hfits
    refine ⟨htiles', hsolid', hcoarser', hsettled, fun l hl r hr hsmall => ?_⟩
    cases hr
    obtain ⟨c, hleft, rfl, hcurrent, hmeet, hf, -⟩ := tiles_append.mp htiles
    have hbounds := hleft.bounds (List.mem_reverse.mpr (List.mem_of_mem_head? hl))
    refine not_fits_mono hcounts ?_ ?_ (hedge l hl current rfl hsmall)
    · exact hbounds.2.1.trans (hbounds.2.2.trans hcurrent)
    · exact hf

variable {similarities} in
theorem mergeLoop_cons (h : mergeStep cfg paragraph similarities tokenizer before current after = .ok (before', after')) :
    mergeLoop cfg paragraph similarities tokenizer before (current :: after) =
      mergeLoop cfg paragraph similarities tokenizer before' after' := by
  rw [mergeLoop]
  split
  · rename_i herror
    rw [h] at herror
    cases herror
  · rename_i hok
    rw [h] at hok
    cases hok
    rfl

/-- The scan ends, with the invariant of the end. -/
theorem mergeLoop_spec (hcounts : CountsSolid tokenizer paragraph solid count)
    (h : MergeInvariant cfg paragraph solid count spans before after) :
    ∃ merged, mergeLoop cfg paragraph similarities tokenizer before after = .ok merged ∧
      MergeInvariant cfg paragraph solid count spans merged.reverse [] := by
  induction hn : 2 * after.length + before.length using Nat.strong_induction_on generalizing before after with
  | _ n ih =>
  cases after with
  | nil => exact ⟨before.reverse, by rw [mergeLoop], by rwa [List.reverse_reverse]⟩
  | cons current after =>
    obtain ⟨before', after', hstep, hturn⟩ := mergeStep_cases cfg similarities hcounts h.tiles
      (h.solid current (by simp))
    have hless := mergeStep_measure cfg paragraph similarities tokenizer hstep
    obtain ⟨merged, hloop, hmerged⟩ := ih _ (by rw [List.length_cons] at hn; omega) (h.turn hcounts hturn) rfl
    refine ⟨merged, ?_, hmerged⟩
    rwa [mergeLoop_cons hstep]

/-- The scan leaves settled spans alone. -/
theorem mergeLoop_settled (hcounts : CountsSolid tokenizer paragraph solid count) {a b : ℕ}
    (htiles : Tiles a (before.reverse ++ after) b) (hsolid : ∀ s ∈ after, solid (s.text paragraph))
    (hsettled : (before.reverse ++ after).IsChain (Settled cfg paragraph count)) :
    mergeLoop cfg paragraph similarities tokenizer before after = .ok (before.reverse ++ after) := by
  induction after generalizing before with
  | nil => rw [mergeLoop, List.append_nil]
  | cons current after ih =>
    obtain ⟨before', after', hstep, hturn⟩ := mergeStep_cases cfg similarities hcounts htiles
      (hsolid current List.mem_cons_self)
    rw [mergeLoop_cons hstep]
    cases hturn with
    | skip =>
      have hmoved : (current :: before).reverse ++ after = before.reverse ++ current :: after := by
        rw [List.reverse_cons, List.append_assoc, List.singleton_append]
      rw [← hmoved] at htiles hsettled ⊢
      exact ih htiles (fun s hs => hsolid s (List.mem_cons_of_mem current hs)) hsettled
    | @previous _ _ p _ hsmall hfits =>
      rw [List.reverse_cons, List.append_assoc, List.singleton_append, List.isChain_append_cons_cons] at hsettled
      exact absurd hfits (hsettled.2.1 (.inr hsmall))
    | following hsmall hfits =>
      rw [List.isChain_append_cons_cons] at hsettled
      exact absurd hfits (hsettled.2.1 (.inl hsmall))

/-- The merging of solid spans that tile the paragraph. -/
theorem mergeSmallCompatibleChunks_spec (hcounts : CountsSolid tokenizer paragraph solid count)
    (htiles : Tiles 0 spans paragraph.length) (hsolid : ∀ s ∈ spans, solid (s.text paragraph)) :
    ∃ merged, mergeSmallCompatibleChunks cfg paragraph similarities tokenizer spans = .ok merged ∧
      Tiles 0 merged paragraph.length ∧ (∀ s ∈ merged, solid (s.text paragraph)) ∧
      Coarser (Fits cfg paragraph count) merged spans ∧ merged.IsChain (Settled cfg paragraph count) := by
  have hstart : MergeInvariant cfg paragraph solid count spans [] spans :=
    ⟨htiles, hsolid, Coarser.refl fun s hs => (htiles.bounds hs).2.1, List.isChain_nil, by simp⟩
  obtain ⟨merged, hloop, hend⟩ := mergeLoop_spec similarities hcounts hstart
  refine ⟨merged, hloop, ?_, ?_, ?_, ?_⟩
  · simpa using hend.tiles
  · simpa using hend.solid
  · simpa using hend.coarser
  · exact List.isChain_reverse.mp hend.settled

/-- Merging spans that tile a text ends with a coarser tiling: every span is one of the given or has been joined and is
not too large, no small span can be joined with a neighbour, and merging again changes nothing. -/
theorem merge_fixed_point (cfg : ChunkingConfig K) (paragraph : Text) (spans : List Span) (similarities : Dict ℕ K)
    (tokenizer : Tokenizer) (count : Text → ℕ) (htiles : Tiles 0 spans paragraph.length)
    (hcounts : CountsSlices tokenizer paragraph count) :
    ∃ merged, mergeSmallCompatibleChunks cfg paragraph similarities tokenizer spans = .ok merged ∧
      Tiles 0 merged paragraph.length ∧
      Coarser (fun s => count (s.text paragraph) ≤ cfg.maxTokens) merged spans ∧
      (∀ xs l r ys, merged = xs ++ l :: r :: ys →
        count (l.text paragraph) < cfg.minTokens ∨ count (r.text paragraph) < cfg.minTokens →
          cfg.maxTokens < count (slice paragraph l.start r.stop)) ∧
      mergeSmallCompatibleChunks cfg paragraph similarities tokenizer merged = .ok merged := by
  obtain ⟨merged, hmerge, htiles', -, hcoarser, hsettled⟩ :=
    mergeSmallCompatibleChunks_spec similarities hcounts.solid htiles fun _ _ => trivial
  refine ⟨merged, hmerge, htiles', hcoarser, fun xs l r ys heq hsmall => ?_, ?_⟩
  · rw [heq, List.isChain_append_cons_cons] at hsettled
    exact Nat.not_le.mp (hsettled.2.1 hsmall)
  · exact mergeLoop_settled similarities hcounts.solid htiles' (fun _ _ => trivial) hsettled

/-- Characters as tokens. -/
def tokenizerSample : Tokenizer := fun text => .ok (text.map fun c => c.val)

theorem tokenizerSample_counts (text : Text) : CountsSlices tokenizerSample text List.length where
  counted _ _ := by simp [tokenCount, tokenizerSample, bind, Except.bind, pure, Except.pure]
  mono _ _ h _ := h.length_le

/-- A small span is joined with the more similar neighbour. -/
theorem merge_fixed_point_sample :
    ∃ merged, mergeSmallCompatibleChunks chunkingSample (lit "abcdefg") (Dict.empty.set 3 0) tokenizerSample
        [⟨0, 3⟩, ⟨3, 4⟩, ⟨4, 7⟩] = .ok merged ∧ Tiles 0 merged 7 :=
  have ⟨merged, hmerge, htiles, _⟩ := merge_fixed_point chunkingSample (lit "abcdefg") [⟨0, 3⟩, ⟨3, 4⟩, ⟨4, 7⟩]
    (Dict.empty.set 3 0) tokenizerSample List.length ⟨rfl, by decide, rfl, by decide, rfl, by decide, rfl⟩
    (tokenizerSample_counts _)
  ⟨merged, hmerge, htiles⟩

end Merge

end TenantRag

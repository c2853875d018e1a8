import TenantRag.Rag.RetrievalStages
import Mathlib.Data.List.GetD
import Mathlib.Order.Bounds.Basic

/-!
# What the selection stages choose

`_adaptive_k` cuts the eligible candidates at the largest gap of their scores, and `_mmr`
picks from what is left by score and by how little a candidate repeats of those picked
already.

## The model

The choices are stated without the loops that make them: a cut is at the first of the
largest gaps, a pick is the best place left, and the first of the best.

## What is proved

* `adaptiveK_cut` — the cut is after the first largest gap, or there is none.
* `adaptiveK_stable` — more candidates behind never make the cut earlier.
* `mmrSelect_greedy` — each place picked is the first of the best.
* `mmr_greedy` — MMR picks greedily, begins with the first candidate, and picks a prefix
  of what it would pick for a larger limit.
-/

namespace TenantRag

variable {K : Type} [LinearOrder K]

/-! ### The largest of some numbers -/

theorem isGreatest_maxOf (x : K) (xs : List K) : IsGreatest {y | y ∈ x :: xs} (maxOf x xs) := by
  induction xs generalizing x with
  | nil => exact ⟨List.mem_singleton_self x, fun y hy => (List.mem_singleton.mp hy).le⟩
  | cons z zs ih =>
    obtain ⟨hmem, hbound⟩ := ih (max x z)
    rw [maxOf, List.foldl_cons, ← maxOf]
    constructor
    · rcases List.mem_cons.mp hmem with hfirst | hrest
      · rcases max_choice x z with hx | hz
        · rw [hfirst, hx]
          exact List.mem_cons_self
        · rw [hfirst, hz]
          exact List.mem_cons_of_mem _ List.mem_cons_self
      · exact List.mem_cons_of_mem _ (List.mem_cons_of_mem _ hrest)
    · intro y hy
      have hmax : max x z ≤ maxOf (max x z) zs := hbound List.mem_cons_self
      rcases List.mem_cons.mp hy with rfl | hy
      · exact (le_max_left _ _).trans hmax
      rcases List.mem_cons.mp hy with rfl | hy
      · exact (le_max_right _ _).trans hmax
      · exact hbound (List.mem_cons_of_mem _ hy)

/-- `min(xs)`. -/
theorem isLeast_minOf (x : K) (xs : List K) : IsLeast {y | y ∈ x :: xs} (xs.foldl min x) :=
  @isGreatest_maxOf Kᵒᵈ _ x xs

/-- The place of the largest number is the first that has it. -/
theorem idxOf_maxOf (x : K) (xs : List K) :
    (x :: xs)[(x :: xs).idxOf (maxOf x xs)]? = some (maxOf x xs) ∧
      ∀ j y, (x :: xs)[j]? = some y → y ≤ maxOf x xs ∧ (j < (x :: xs).idxOf (maxOf x xs) → y < maxOf x xs) := by
  obtain ⟨hmem, hbound⟩ := isGreatest_maxOf x xs
  have hlt : (x :: xs).idxOf (maxOf x xs) < (x :: xs).length := List.idxOf_lt_length_of_mem hmem
  refine ⟨?_, fun j y hj => ⟨hbound (List.mem_of_getElem? hj), fun hbefore => ?_⟩⟩
  · rw [List.getElem?_eq_getElem hlt, List.getElem_idxOf hlt]
  · obtain ⟨hlength, rfl⟩ := List.getElem?_eq_some_iff.mp hj
    have hne : (x :: xs)[j] ≠ maxOf x xs := by
      have hnot := List.not_of_lt_findIdx (show j < (x :: xs).findIdx (· == maxOf x xs) from hbefore)
      simpa using hnot
    exact lt_of_le_of_ne (hbound (List.mem_of_getElem? hj)) hne

section Field

variable [Field K]

/-! ### The adaptive cut -/

/-- The candidate at this place and the next one differ by so much on the scale of the sigmoid. -/
def GapAt (sigmoid : K → K) (eligible : List (Candidate K)) (i : ℕ) (g : K) : Prop :=
  ∃ x y, eligible[i]? = some x ∧ eligible[i + 1]? = some y ∧ g = sigmoid x.rerankScore - sigmoid y.rerankScore

omit [LinearOrder K] in
theorem gaps_getElem?_eq_some_iff {sigmoid : K → K} {eligible : List (Candidate K)} {i : ℕ} {g : K} :
    (gaps (eligible.map fun c => sigmoid c.rerankScore))[i]? = some g ↔ GapAt sigmoid eligible i g := by
  rw [gaps, List.getElem?_zipWith_eq_some, GapAt]
  simp only [List.getElem?_tail, List.getElem?_map, Option.map_eq_some_iff]
  constructor
  · rintro ⟨_, _, ⟨x, hx, rfl⟩, ⟨y, hy, rfl⟩, rfl⟩
    exact ⟨x, y, hx, hy, rfl⟩
  · rintro ⟨x, y, hx, hy, rfl⟩
    exact ⟨_, _, ⟨x, hx, rfl⟩, ⟨y, hy, rfl⟩, rfl⟩

omit [LinearOrder K] in
theorem GapAt.lt_length {sigmoid : K → K} {eligible : List (Candidate K)} {i : ℕ} {g : K}
    (h : GapAt sigmoid eligible i g) : i + 1 < eligible.length := by
  obtain ⟨x, y, -, hy, -⟩ := h
  exact (List.getElem?_eq_some_iff.mp hy).1

omit [LinearOrder K] in
/-- Candidates behind leave the gaps as they are. -/
theorem gapAt_append_iff {sigmoid : K → K} {eligible more : List (Candidate K)} {i : ℕ} {g : K}
    (hi : i + 1 < eligible.length) : GapAt sigmoid (eligible ++ more) i g ↔ GapAt sigmoid eligible i g := by
  rw [GapAt, GapAt, List.getElem?_append_left (by omega), List.getElem?_append_left hi]

/-- A cut behind a gap that no other exceeds, that comes first of its size, and that is large enough. -/
structure CutAt (sigmoid : K → K) (threshold : K) (eligible : List (Candidate K)) (i : ℕ) (g : K) : Prop where
  /-- There is such a gap. -/
  gap : GapAt sigmoid eligible i g
  /-- It is the largest. -/
  largest : ∀ j g', GapAt sigmoid eligible j g' → g' ≤ g
  /-- Those before it are less. -/
  first : ∀ j g', GapAt sigmoid eligible j g' → j < i → g' < g
  /-- It is large enough. -/
  large : threshold ≤ g

/-- The cut is after the first largest gap; where no gap is large enough, nothing is cut. -/
theorem adaptiveK_cut (sigmoid : K → K) (C : RetrievalConfig K) {eligible : List (Candidate K)} (hne : eligible ≠ []) :
    (∃ i g, CutAt sigmoid C.adaptiveGapThreshold eligible i g ∧ adaptiveK sigmoid C eligible = i + 1) ∨
      (∀ i g, GapAt sigmoid eligible i g → g < C.adaptiveGapThreshold) ∧
        adaptiveK sigmoid C eligible = eligible.length := by
  rw [adaptiveK, if_neg (by simpa using hne)]
  cases hgaps : gaps (eligible.map fun c => sigmoid c.rerankScore) with
  | nil =>
    have hlength : (gaps (eligible.map fun c => sigmoid c.rerankScore)).length = eligible.length - 1 := by simp [gaps]
    rw [hgaps, List.length_nil] at hlength
    have hpos := List.length_pos_iff.mpr hne
    refine .inr ⟨fun i g hgap => ?_, by dsimp only; omega⟩
    have hlt := hgap.lt_length
    omega
  | cons x xs =>
    obtain ⟨hplace, hbound⟩ := idxOf_maxOf x xs
    have hgap {i : ℕ} {g : K} : (x :: xs)[i]? = some g ↔ GapAt sigmoid eligible i g := by
      rw [← hgaps, gaps_getElem?_eq_some_iff]
    dsimp only
    by_cases hless : maxOf x xs < C.adaptiveGapThreshold
    · rw [if_pos hless]
      exact .inr ⟨fun i g h => (hbound i g (hgap.mpr h)).1.trans_lt hless, rfl⟩
    · rw [if_neg hless]
      exact .inl ⟨_, _, ⟨hgap.mp hplace, fun j g' h => (hbound j g' (hgap.mpr h)).1,
        fun j g' h => (hbound j g' (hgap.mpr h)).2, not_lt.mp hless⟩, rfl⟩

/-- The cut of a longer list is not before that of the list. -/
theorem adaptiveK_append_le (sigmoid : K → K) (C : RetrievalConfig K) {eligible : List (Candidate K)}
    (hne : eligible ≠ []) (more : List (Candidate K)) :
    adaptiveK sigmoid C eligible ≤ adaptiveK sigmoid C (eligible ++ more) := by
  have hlonger : eligible ++ more ≠ [] := fun h => hne (List.append_eq_nil_iff.mp h).1
  rcases adaptiveK_cut sigmoid C hne with ⟨i, g, hcut, hk⟩ | ⟨hsmall, hk⟩ <;>
    rcases adaptiveK_cut sigmoid C hlonger with ⟨i', g', hcut', hk'⟩ | ⟨-, hk'⟩
  · rw [hk, hk']
    by_contra hbefore
    have hlt := hcut.gap.lt_length
    have hold : GapAt sigmoid eligible i' g' := (gapAt_append_iff (by omega)).mp hcut'.gap
    have hnew : GapAt sigmoid (eligible ++ more) i g := (gapAt_append_iff hlt).mpr hcut.gap
    -- the earlier gap would be less than the later one, which it is to exceed
    exact absurd (hcut.first i' g' hold (by omega)) (not_lt.mpr (hcut'.largest i g hnew))
  · have hlt := hcut.gap.lt_length
    rw [hk, hk', List.length_append]
    omega
  · rw [hk, hk']
    by_contra hbefore
    have hold : GapAt sigmoid eligible i' g' := (gapAt_append_iff (by omega)).mp hcut'.gap
    exact absurd (hsmall i' g' hold) (not_lt.mpr hcut'.large)
  · rw [hk, hk', List.length_append]
    omega

/-- The cut keeps at least one candidate, is after the first largest gap if that is large enough and
keeps all otherwise, and never removes a candidate because more are behind. -/
theorem adaptiveK_stable (sigmoid : K → K) (C : RetrievalConfig K) {eligible : List (Candidate K)} (hne : eligible ≠ []) :
    1 ≤ adaptiveK sigmoid C eligible ∧ adaptiveK sigmoid C eligible ≤ eligible.length ∧
      ((∃ i g, CutAt sigmoid C.adaptiveGapThreshold eligible i g ∧ adaptiveK sigmoid C eligible = i + 1) ∨
        (∀ i g, GapAt sigmoid eligible i g → g < C.adaptiveGapThreshold) ∧
          adaptiveK sigmoid C eligible = eligible.length) ∧
      ∀ more, adaptiveK sigmoid C eligible ≤ adaptiveK sigmoid C (eligible ++ more) ∧
        eligible.take (adaptiveK sigmoid C eligible) <+:
          (eligible ++ more).take (adaptiveK sigmoid C (eligible ++ more)) := by
  have hcut := adaptiveK_cut sigmoid C hne
  have hpos := List.length_pos_iff.mpr hne
  have hbounds : 1 ≤ adaptiveK sigmoid C eligible ∧ adaptiveK sigmoid C eligible ≤ eligible.length := by
    rcases hcut with ⟨i, g, hcut, hk⟩ | ⟨-, hk⟩
    · have hlt := hcut.gap.lt_length
      omega
    · omega
  refine ⟨hbounds.1, hbounds.2, hcut, fun more => ?_⟩
  have hle := adaptiveK_append_le sigmoid C hne more
  refine ⟨hle, ?_⟩
  have hsame : (eligible ++ more).take (adaptiveK sigmoid C eligible) = eligible.take (adaptiveK sigmoid C eligible) :=
    List.take_append_of_le_length hbounds.2
  rw [← hsame]
  exact List.take_prefix_take_left hle

/-! ### Greedy picks -/

/-- The place is the first of those with the largest value, among the places not picked yet. -/
structure BestPlace (value : List ℕ → ℕ → K) (n : ℕ) (before : List ℕ) (i : ℕ) : Prop where
  /-- It is a place. -/
  lt : i < n
  /-- It is not picked yet. -/
  fresh : i ∉ before
  /-- No place left has a larger value. -/
  best : ∀ j < n, j ∉ before → value before j ≤ value before i
  /-- None before it has the same one. -/
  first : ∀ j < n, j ∉ before → value before j = value before i → i ≤ j

/-- Each place is the best one after those before it. -/
def Greedy (value : List ℕ → ℕ → K) (n : ℕ) (places : List ℕ) : Prop :=
  ∀ before i behind, places = before ++ i :: behind → BestPlace value n before i

omit [Field K] in
theorem Greedy.nil (value : List ℕ → ℕ → K) (n : ℕ) : Greedy value n [] := by
  intro before i behind h
  exact absurd h.symm (List.append_ne_nil_of_right_ne_nil before (List.cons_ne_nil i behind))

omit [Field K] in
theorem Greedy.concat {value : List ℕ → ℕ → K} {n : ℕ} {places : List ℕ} {i : ℕ} (h : Greedy value n places)
    (hi : BestPlace value n places i) : Greedy value n (places ++ [i]) := by
  intro before j behind heq
  rcases List.eq_nil_or_concat behind with rfl | ⟨front, last, rfl⟩
  · obtain ⟨rfl, hlast⟩ := List.append_inj' heq rfl
    cases hlast
    exact hi
  · have hassoc : before ++ j :: (front ++ [last]) = before ++ j :: front ++ [last] := by simp
    rw [List.concat_eq_append, hassoc] at heq
    exact h before j front (List.append_inj' heq rfl).1

/-- The inner loop picks the first of the best, where the objective never raises. -/
theorem mmrBest_best {objective : ℕ → Except PyError K} {f : ℕ → K} {rest : List ℕ} {b : ℕ}
    (hsorted : (b :: rest).Pairwise (· < ·)) (hok : ∀ j ∈ rest, objective j = .ok (f j)) :
    ∃ c ∈ b :: rest, mmrBest objective rest (b, some (f b)) = .ok (c, some (f c)) ∧
      ∀ j ∈ b :: rest, f j ≤ f c ∧ (f j = f c → c ≤ j) := by
  induction rest generalizing b with
  | nil =>
    refine ⟨b, List.mem_cons_self, rfl, fun j hj => ?_⟩
    rw [List.mem_singleton.mp hj]
    exact ⟨le_rfl, fun _ => le_rfl⟩
  | cons index rest ih =>
    obtain ⟨hb, hrest⟩ := List.pairwise_cons.mp hsorted
    have hokrest : ∀ j ∈ rest, objective j = .ok (f j) := fun j hj => hok j (List.mem_cons_of_mem _ hj)
    simp only [mmrBest, hok index List.mem_cons_self, bind, Except.bind]
    by_cases hbetter : f b < f index
    · obtain ⟨c, hc, hrun, hbest⟩ := ih hrest hokrest
      refine ⟨c, List.mem_cons_of_mem _ hc, by simpa [hbetter] using hrun, fun j hj => ?_⟩
      rcases List.mem_cons.mp hj with rfl | hj
      · have hlt : f j < f c := hbetter.trans_le (hbest index List.mem_cons_self).1
        exact ⟨hlt.le, fun heq => absurd heq hlt.ne⟩
      · exact hbest j hj
    · have hsorted' : (b :: rest).Pairwise (· < ·) :=
        List.pairwise_cons.mpr ⟨fun j hj => hb j (List.mem_cons_of_mem _ hj), (List.pairwise_cons.mp hrest).2⟩
      obtain ⟨c, hc, hrun, hbest⟩ := ih hsorted' hokrest
      have hbc := hbest b List.mem_cons_self
      refine ⟨c, ?_, by simpa [hbetter] using hrun, fun j hj => ?_⟩
      · rcases List.mem_cons.mp hc with rfl | hc
        · exact List.mem_cons_self
        · exact List.mem_cons_of_mem _ (List.mem_cons_of_mem _ hc)
      rcases List.mem_cons.mp hj with rfl | hj
      · exact hbc
      rcases List.mem_cons.mp hj with rfl | hj
      · have hle : f j ≤ f b := not_lt.mp hbetter
        refine ⟨hle.trans hbc.1, fun heq => ?_⟩
        -- a place after `b` only has the best value where `b` has it
        have hsame : f b = f c := le_antisymm hbc.1 (heq ▸ hle)
        exact (hbc.2 hsame).trans (hb j List.mem_cons_self).le
      · exact hbest j (List.mem_cons_of_mem _ hj)

/-- The outer loop picks greedily, where the objective never raises. -/
theorem mmrSelect_greedy {objective : List ℕ → ℕ → Except PyError K} {value : List ℕ → ℕ → K} {n : ℕ}
    (hok : ∀ before, (∀ j ∈ before, j < n) → ∀ i < n, objective before i = .ok (value before i))
    (turns : ℕ) {remaining selected : List ℕ} (hsorted : remaining.Pairwise (· < ·))
    (hremaining : ∀ j, j ∈ remaining ↔ j < n ∧ j ∉ selected) (hselected : ∀ j ∈ selected, j < n)
    (hgreedy : Greedy value n selected) :
    ∃ places, mmrSelect objective turns remaining selected = .ok places ∧ Greedy value n places := by
  induction turns generalizing remaining selected with
  | zero => exact ⟨selected, rfl, hgreedy⟩
  | succ turns ih =>
    cases remaining with
    | nil => exact ⟨selected, rfl, hgreedy⟩
    | cons first rest =>
      have hvalue : ∀ j ∈ first :: rest, objective selected j = .ok (value selected j) := fun j hj =>
        hok selected hselected j ((hremaining j).mp hj).1
      obtain ⟨c, hc, hrun, hbest⟩ := mmrBest_best hsorted fun j hj =>
        hvalue j (List.mem_cons_of_mem _ hj)
      have hstart : mmrBest (objective selected) (first :: rest) (first, none) = .ok (c, some (value selected c)) := by
        rw [mmrBest, hvalue first List.mem_cons_self]
        exact hrun
      obtain ⟨hlt, hfresh⟩ := (hremaining c).mp hc
      have hplace : BestPlace value n selected c :=
        ⟨hlt, hfresh, fun j hj hout => (hbest j ((hremaining j).mpr ⟨hj, hout⟩)).1,
          fun j hj hout => (hbest j ((hremaining j).mpr ⟨hj, hout⟩)).2⟩
      have hleft : ∀ j, j ∈ (first :: rest).erase c ↔ j < n ∧ j ∉ selected ++ [c] := by
        intro j
        rw [List.Nodup.mem_erase_iff (hsorted.imp ne_of_lt), hremaining, List.mem_append, List.mem_singleton]
        tauto
      have hlater : ∀ j ∈ selected ++ [c], j < n := by
        intro j hj
        rcases List.mem_append.mp hj with hj | hj
        · exact hselected j hj
        · rw [List.mem_singleton.mp hj]
          exact hlt
      obtain ⟨places, hplaces, hall⟩ := ih (hsorted.sublist List.erase_sublist) hleft hlater (hgreedy.concat hplace)
      refine ⟨places, ?_, hall⟩
      simp only [mmrSelect, hstart, bind, Except.bind]
      exact hplaces

/-- A smaller limit picks the first of the places. -/
theorem mmrSelect_initial {objective : List ℕ → ℕ → Except PyError K} {m n : ℕ} (hmn : m ≤ n)
    {remaining selected few many : List ℕ} (hfew : mmrSelect objective m remaining selected = .ok few)
    (hmany : mmrSelect objective n remaining selected = .ok many) (hnodup : remaining.Nodup) : few <+: many := by
  induction m generalizing n remaining selected with
  | zero =>
    cases hfew
    obtain ⟨more, rfl, -⟩ := mmrSelect_spec hnodup hmany
    exact List.prefix_append _ _
  | succ m ih =>
    obtain ⟨n, rfl⟩ : ∃ k, n = k + 1 := ⟨n - 1, by omega⟩
    cases remaining with
    | nil =>
      cases hfew
      cases hmany
      exact List.prefix_rfl
    | cons first rest =>
      obtain ⟨best, hbest, hfew⟩ := bind_eq_ok_iff.mp hfew
      obtain ⟨best', hbest', hmany⟩ := bind_eq_ok_iff.mp hmany
      rw [hbest] at hbest'
      cases hbest'
      exact ih (by omega) hfew hmany (hnodup.erase _)

/-! ### The objective of MMR -/

/-- `_normalize_scores` of the pool, at one place. -/
def normalScore (pool : List (HydratedCandidate K)) (i : ℕ) : K :=
  (normalizeScores (pool.map fun c => c.rerankScore)).getD i 0

/-- The similarities of a place to those picked. -/
def similarities (cosine : List K → List K → K) (vector : ℕ → List K) (before : List ℕ) (i : ℕ) : Set K :=
  {s | ∃ j ∈ before, cosine (vector i) (vector j) = s}

/-- The largest similarity to the places picked, and none at first. -/
def redundancy (cosine : List K → List K → K) (vector : ℕ → List K) (before : List ℕ) (i : ℕ) : K :=
  match before.map fun j => cosine (vector i) (vector j) with
  | [] => 0
  | s :: ss => maxOf s ss

/-- The objective of a place, over vectors that are all there. -/
def placeValue (cosine : List K → List K → K) (C : RetrievalConfig K) (pool : List (HydratedCandidate K))
    (vector : ℕ → List K) (before : List ℕ) (i : ℕ) : K :=
  C.mmrLambda * normalScore pool i - (1 - C.mmrLambda) * redundancy cosine vector before i

theorem isGreatest_redundancy {cosine : List K → List K → K} {vector : ℕ → List K} {before : List ℕ} {i : ℕ}
    (hne : before ≠ []) : IsGreatest (similarities cosine vector before i) (redundancy cosine vector before i) := by
  cases before with
  | nil => exact absurd rfl hne
  | cons first rest =>
    have hset : similarities cosine vector (first :: rest) i =
        {y | y ∈ cosine (vector i) (vector first) :: rest.map fun j => cosine (vector i) (vector j)} := by
      ext y
      simp [similarities, eq_comm]
    rw [hset, redundancy, List.map_cons]
    exact isGreatest_maxOf _ _

/-- What the caller of `_mmr` sees to: the pool is in the order of its scores, and its vectors have one
dimension and positive norms. -/
structure MmrPool (V : VectorArithmetic K) (pool : List (HydratedCandidate K)) (vector : ℕ → List K) : Prop where
  /-- No score is larger than an earlier one. -/
  ordered : pool.Pairwise fun a b => b.rerankScore ≤ a.rerankScore
  /-- Every candidate has its vector. -/
  vectors : ∀ i c, pool[i]? = some c → c.diversityVector = some (vector i)
  /-- All have one dimension. -/
  dimension : ∀ i < pool.length, ∀ j < pool.length, (vector i).length = (vector j).length
  /-- Every norm is positive. -/
  norms : ∀ i < pool.length, V.positiveNorm (vector i) = true

omit [LinearOrder K] [Field K] in
theorem cosineSimilarity_ok {V : VectorArithmetic K} {left right : List K} (hlength : left.length = right.length)
    (hleft : V.positiveNorm left = true) (hright : V.positiveNorm right = true) :
    cosineSimilarity V left right = .ok (V.cosine left right) := by
  have hne : left.isEmpty = false := by
    cases left with
    | nil =>
      rw [V.positiveNorm_nil] at hleft
      cases hleft
    | cons x xs => rfl
  rw [cosineSimilarity, if_neg (by simp [hlength, hne]), if_neg (by simp [hleft, hright])]

/-- The objective of a place never raises on such a pool. -/
theorem mmrObjective_ok {V : VectorArithmetic K} {C : RetrievalConfig K} {pool : List (HydratedCandidate K)}
    {vector : ℕ → List K} (h : MmrPool V pool vector) {before : List ℕ} (hbefore : ∀ j ∈ before, j < pool.length) {i : ℕ}
    (hi : i < pool.length) :
    mmrObjective V C pool (normalizeScores (pool.map fun c => c.rerankScore)) before i =
      .ok (placeValue V.cosine C pool vector before i) := by
  have hvector : ∀ j < pool.length, vectorAt pool j = .ok (vector j) := by
    intro j hj
    have hplace := List.getElem?_eq_getElem hj
    rw [vectorAt, hplace]
    simp only [h.vectors j _ hplace]
  have hall : (before.mapM fun chosen => do
      cosineSimilarity V (← vectorAt pool i) (← vectorAt pool chosen)) =
        .ok (before.map fun j => V.cosine (vector i) (vector j)) := by
    refine mapM_ok fun j hj => ?_
    rw [hvector i hi, hvector j (hbefore j hj)]
    exact cosineSimilarity_ok (h.dimension i hi j (hbefore j hj)) (h.norms i hi) (h.norms j (hbefore j hj))
  rw [mmrObjective, hall]
  rfl

theorem normalizeScores_le_head {x : K} {xs : List K} (hordered : ∀ y ∈ xs, y ≤ x) [IsStrictOrderedRing K] (i : ℕ)
    (hi : i < (x :: xs).length) : (normalizeScores (x :: xs)).getD i 0 ≤ (normalizeScores (x :: xs)).getD 0 0 := by
  obtain ⟨-, hhigh⟩ := isGreatest_maxOf x xs
  obtain ⟨-, hlow⟩ := isLeast_minOf x xs
  have hx : (x :: xs)[i] ≤ x := by
    rcases List.mem_cons.mp (List.getElem_mem hi) with heq | hmem
    · exact heq.le
    · exact hordered _ hmem
  have hscale : 0 ≤ maxOf x xs - xs.foldl min x :=
    sub_nonneg.mpr ((hlow List.mem_cons_self).trans (hhigh List.mem_cons_self))
  rw [normalizeScores]
  split_ifs with heq
  · rw [List.getD_eq_getElem _ _ (by simpa using hi), List.getD_eq_getElem _ _ (by simp)]
    rw [List.getElem_map, List.getElem_map]
  · rw [List.getD_eq_getElem _ _ (by simpa using hi), List.getD_eq_getElem _ _ (by simp)]
    simp only [List.getElem_map, List.getElem_cons_zero]
    exact div_le_div_of_nonneg_right (sub_le_sub_right hx _) hscale

/-- The first candidate has the largest normalised score. -/
theorem normalScore_le_first [IsStrictOrderedRing K] {pool : List (HydratedCandidate K)}
    (hordered : pool.Pairwise fun a b => b.rerankScore ≤ a.rerankScore) {i : ℕ} (hi : i < pool.length) :
    normalScore pool i ≤ normalScore pool 0 := by
  cases pool with
  | nil => cases hi
  | cons c cs =>
    refine normalizeScores_le_head (fun y hy => ?_) i (by simpa using hi)
    obtain ⟨d, hd, rfl⟩ := List.mem_map.mp hy
    exact (List.pairwise_cons.mp hordered).1 d hd

/-- MMR picks greedily: it picks as many different places as it may, first that of the first candidate and
then always the first of those with the largest objective; for a smaller limit it picks a prefix. -/
theorem mmr_greedy [IsStrictOrderedRing K] (V : VectorArithmetic K) {C : RetrievalConfig K}
    (hlambda : 0 ≤ C.mmrLambda) {pool : List (HydratedCandidate K)} {vector : ℕ → List K} (h : MmrPool V pool vector)
    (k : ℕ) :
    (∃ places, mmr V C k pool = .ok (picks pool places) ∧ places.Nodup ∧ (∀ i ∈ places, i < pool.length) ∧
        (picks pool places).length = min k pool.length ∧ (∀ i, places.head? = some i → i = 0) ∧
        ∀ before i behind, places = before ++ i :: behind → BestPlace (placeValue V.cosine C pool vector) pool.length before i) ∧
      (∀ before i, before ≠ [] → IsGreatest (similarities V.cosine vector before i) (redundancy V.cosine vector before i)) ∧
      ∀ k', k ≤ k' → ∀ few many, mmr V C k pool = .ok few → mmr V C k' pool = .ok many → few <+: many := by
  refine ⟨?_, fun _ _ => isGreatest_redundancy, fun k' hk few many hfew hmany => ?_⟩
  · have hok : ∀ before, (∀ j ∈ before, j < pool.length) → ∀ i < pool.length,
        mmrObjective V C pool (normalizeScores (pool.map fun c => c.rerankScore)) before i =
          .ok (placeValue V.cosine C pool vector before i) := fun _ hbefore _ hi => mmrObjective_ok h hbefore hi
    obtain ⟨places, hplaces, hgreedy⟩ := mmrSelect_greedy hok (min k pool.length) (List.pairwise_lt_range (n := pool.length))
      (fun j => by simp) (fun j hj => absurd hj List.not_mem_nil) (Greedy.nil _ _)
    obtain ⟨more, hmore, hnodup, hsub, hlength⟩ := mmrSelect_spec List.nodup_range hplaces
    rw [List.nil_append] at hmore
    subst hmore
    have hlt : ∀ i ∈ places, i < pool.length := fun i hi => List.mem_range.mp (hsub hi)
    refine ⟨places, ?_, hnodup, hlt, ?_, fun i hi => ?_, hgreedy⟩
    · rw [mmr, hplaces]
      rfl
    · rw [picks_length hlt, hlength, List.length_range]
      omega
    · obtain ⟨rest, rfl⟩ := List.head?_eq_some_iff.mp hi
      have hbest := hgreedy [] i rest rfl
      have hpos : 0 < pool.length := (Nat.zero_le i).trans_lt hbest.lt
      -- nothing is picked yet, so that the objective is the weighted score
      have hvalue : ∀ j, placeValue V.cosine C pool vector [] j = C.mmrLambda * normalScore pool j := by
        intro j
        rw [placeValue, redundancy, List.map_nil]
        simp
      have hzero := hbest.best 0 hpos List.not_mem_nil
      have hle : placeValue V.cosine C pool vector [] i ≤ placeValue V.cosine C pool vector [] 0 := by
        rw [hvalue, hvalue]
        exact mul_le_mul_of_nonneg_left (normalScore_le_first h.ordered hbest.lt) hlambda
      exact Nat.le_zero.mp (hbest.first 0 hpos List.not_mem_nil (le_antisymm hzero hle))
  · obtain ⟨places, hplaces, hfew⟩ := bind_eq_ok_iff.mp hfew
    obtain ⟨places', hplaces', hmany⟩ := bind_eq_ok_iff.mp hmany
    cases hfew
    cases hmany
    exact (mmrSelect_initial (min_le_min_right _ hk) hplaces hplaces' List.nodup_range).filterMap _

end Field

/-! ### A pool -/

/-- A candidate with this score and vector. -/
def sampleCandidate (score : ℚ) (vector : List ℚ) : HydratedCandidate ℚ where
  objectId := ⟨List.replicate 32 0, Uuid.length_zeros⟩
  canonicalId := ⟨List.replicate 32 0, Uuid.length_zeros⟩
  retrievalText := lit "fact"
  segmentIndex := .none
  rerankScore := score
  segmentId := none
  rawText := lit "fact"
  diversityVector := some vector

/-- Three candidates, of which the second repeats the first. -/
def samplePool : List (HydratedCandidate ℚ) :=
  [sampleCandidate 3 [1, 0], sampleCandidate 2 [1, 0], sampleCandidate 1 [0, 1]]

/-- The vector at a place of that pool. -/
def sampleVector (i : ℕ) : List ℚ := (samplePool[i]?.bind fun c => c.diversityVector).getD []

/-- The inner product, which is the cosine of vectors of norm one. -/
def innerProduct (left right : List ℚ) : ℚ := (left.zipWith (· * ·) right).sum

/-- Exact arithmetic. -/
def exactVectors : VectorArithmetic ℚ where
  positiveNorm xs := 0 < innerProduct xs xs
  cosine := innerProduct
  positiveNorm_nil := rfl

/-- A configuration that weighs scores and repetition alike. -/
def sampleConfig : RetrievalConfig ℚ := ⟨3, 2, 0, 1, 1 / 2⟩

/-- Its candidates before they are hydrated, with equal gaps between their scores. -/
def sampleEligible : List (Candidate ℚ) := samplePool.map fun c => c.toCandidate

/-- A candidate far behind them. -/
def sampleFar : Candidate ℚ := (sampleCandidate (-2) [0, 1]).toCandidate

/-- The first of the equal gaps is the cut, and a larger gap behind moves it back. -/
theorem adaptiveK_stable_sample :
    adaptiveK id sampleConfig sampleEligible = 1 ∧ (∃ g, CutAt id 1 sampleEligible 0 g) ∧
      adaptiveK id sampleConfig (sampleEligible ++ [sampleFar]) = 3 ∧
      sampleEligible.take 1 <+: (sampleEligible ++ [sampleFar]).take 3 := by
  have hk : adaptiveK id sampleConfig sampleEligible = 1 := by decide +kernel
  have hfar : adaptiveK id sampleConfig (sampleEligible ++ [sampleFar]) = 3 := by decide +kernel
  obtain ⟨-, -, hcut, hmore⟩ := adaptiveK_stable id sampleConfig (show sampleEligible ≠ [] by decide)
  obtain ⟨-, hprefix⟩ := hmore [sampleFar]
  rw [hk, hfar] at hprefix
  rw [hk] at hcut
  refine ⟨hk, ?_, hfar, hprefix⟩
  rcases hcut with ⟨i, g, hcut, hi⟩ | ⟨-, hall⟩
  · obtain rfl : i = 0 := by omega
    exact ⟨g, hcut⟩
  · cases hall

theorem mmr_greedy_sample :
    ∃ places, mmr exactVectors sampleConfig 2 samplePool = .ok (picks samplePool places) ∧
      (picks samplePool places).length = 2 ∧
      ∀ before i behind, places = before ++ i :: behind →
        BestPlace (placeValue innerProduct sampleConfig samplePool sampleVector) 3 before i := by
  have hpool : MmrPool exactVectors samplePool sampleVector := by
    refine ⟨by decide +kernel, fun i c hc => ?_, by decide +kernel, by decide +kernel⟩
    have hsome : ∀ d ∈ samplePool, d.diversityVector = some (d.diversityVector.getD []) := by decide
    rw [sampleVector, hc]
    exact hsome c (List.mem_of_getElem? hc)
  obtain ⟨⟨places, hrun, -, -, hlength, -, hgreedy⟩, -⟩ :=
    mmr_greedy exactVectors (show 0 ≤ sampleConfig.mmrLambda by decide +kernel) hpool 2
  exact ⟨places, hrun, hlength, hgreedy⟩

end TenantRag

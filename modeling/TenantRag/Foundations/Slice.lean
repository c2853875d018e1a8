import Mathlib.Data.List.Infix
import TenantRag.Foundations.PyText

/-!
# Slices and spans

`t[a:b]`, and the lists of spans that cut a stretch of offsets into consecutive
pieces.

## The model

* `slice` — `t[a:b]` for offsets counted from the front.
* `Span` — a start and an end.
* `Tiles a spans b` — the spans follow each other without a gap, from `a` to `b`.
* `Coarser P merged spans` — each span of `merged` is one of `spans`, or joins consecutive ones and has `P`.

## What is proved

* `slice_append_slice` — slices with a common end are put together.
* `slice_within_slice` — a slice of narrower bounds lies inside.
* `Tiles.flatten` — the slices of a tiling are the whole stretch.
* `Coarser.join` — joining two neighbours coarsens further.
-/

namespace TenantRag

variable {α : Type}

/-- `t[a:b]`. -/
def slice (t : List α) (a b : ℕ) : List α := (t.take b).drop a

theorem slice_zero_length (t : List α) : slice t 0 t.length = t := by
  rw [slice, List.take_length, List.drop_zero]

@[simp] theorem slice_self (t : List α) (a : ℕ) : slice t a a = [] := by
  rw [slice, List.drop_eq_nil_iff]
  exact List.length_take_le a t

/-- `t[a:]`. -/
theorem slice_length (t : List α) (a : ℕ) : slice t a t.length = t.drop a := by
  rw [slice, List.take_length]

theorem length_slice {t : List α} {a b : ℕ} (hb : b ≤ t.length) : (slice t a b).length = b - a := by
  rw [slice, List.length_drop, List.length_take, Nat.min_eq_left hb]

theorem slice_ne_nil {t : List α} {a b : ℕ} (hab : a < b) (hb : b ≤ t.length) : slice t a b ≠ [] := by
  intro h
  have hlength := length_slice (a := a) hb
  rw [h, List.length_nil] at hlength
  omega

theorem slice_append_slice (t : List α) {a b c : ℕ} (hab : a ≤ b) (hbc : b ≤ c) :
    slice t a b ++ slice t b c = slice t a c := by
  have htake : t.take c = t.take b ++ (t.take c).drop b := by
    conv_lhs => rw [← List.take_append_drop b (t.take c), List.take_take, Nat.min_eq_left hbc]
  have hdrop : (t.take b).drop a ++ (t.take c).drop b = (t.take b ++ (t.take c).drop b).drop a := by
    rcases Nat.lt_or_ge (t.take b).length a with h | h
    · have hb : (t.take c).drop b = [] := by
        rw [List.length_take] at h
        rw [List.drop_eq_nil_iff, List.length_take]
        omega
      rw [hb, List.append_nil, List.append_nil]
    · rw [List.drop_append_of_le_length h]
  rw [slice, slice, hdrop, ← htake, slice]

theorem slice_within (t : List α) (a b : ℕ) : slice t a b <:+: t :=
  (List.drop_suffix a (t.take b)).isInfix.trans (List.take_prefix b t).isInfix

theorem slice_within_slice (t : List α) {a a' b b' : ℕ} (ha : a' ≤ a) (hab : a ≤ b) (hb : b ≤ b') :
    slice t a b <:+: slice t a' b' :=
  ⟨slice t a' a, slice t b b', by
    rw [slice_append_slice t ha hab, slice_append_slice t (ha.trans hab) hb]⟩

theorem mem_slice_iff {t : List α} {a b : ℕ} {c : α} : c ∈ slice t a b ↔ ∃ i, a ≤ i ∧ i < b ∧ t[i]? = some c := by
  rw [slice, List.mem_iff_getElem?]
  constructor
  · rintro ⟨i, hi⟩
    rw [List.getElem?_drop, List.getElem?_take] at hi
    split at hi
    · exact ⟨a + i, Nat.le_add_right a i, ‹_›, hi⟩
    · cases hi
  · rintro ⟨i, ha, hb, hi⟩
    refine ⟨i - a, ?_⟩
    rw [List.getElem?_drop, Nat.add_sub_cancel' ha, List.getElem?_take, if_pos hb, hi]

/-- One more character. -/
theorem slice_succ {t : List α} {a b : ℕ} {c : α} (hab : a ≤ b) (h : t[b]? = some c) :
    slice t a (b + 1) = slice t a b ++ [c] := by
  rw [← slice_append_slice t hab (Nat.le_succ b)]
  congr 1
  obtain ⟨hb, rfl⟩ := List.getElem?_eq_some_iff.mp h
  rw [slice, List.take_succ_eq_append_getElem hb, List.drop_append_of_le_length (by simp [hb.le]),
    List.drop_take_self, List.nil_append]

/-! ### Spans -/

/-- A start and an end in a text. -/
structure Span where
  start : ℕ
  stop : ℕ
  deriving DecidableEq

/-- The text of a span. -/
def Span.text (t : List α) (s : Span) : List α := slice t s.start s.stop

/-- The spans follow each other from `a` to `b`. -/
def Tiles : ℕ → List Span → ℕ → Prop
  | a, [], b => a = b
  | a, s :: rest, b => s.start = a ∧ a ≤ s.stop ∧ Tiles s.stop rest b

theorem tiles_append {a c : ℕ} {xs ys : List Span} : Tiles a (xs ++ ys) c ↔ ∃ b, Tiles a xs b ∧ Tiles b ys c := by
  induction xs generalizing a with
  | nil => simp [Tiles]
  | cons s xs ih =>
    simp only [List.cons_append, Tiles, ih]
    constructor
    · rintro ⟨hstart, hle, b, hxs, hys⟩
      exact ⟨b, ⟨hstart, hle, hxs⟩, hys⟩
    · rintro ⟨b, ⟨hstart, hle, hxs⟩, hys⟩
      exact ⟨hstart, hle, b, hxs, hys⟩

theorem Tiles.le {a b : ℕ} {spans : List Span} (h : Tiles a spans b) : a ≤ b := by
  induction spans generalizing a with
  | nil => exact le_of_eq h
  | cons s spans ih =>
    obtain ⟨-, hle, hrest⟩ := h
    exact hle.trans (ih hrest)

theorem Tiles.bounds {a b : ℕ} {spans : List Span} (h : Tiles a spans b) {s : Span} (hs : s ∈ spans) :
    a ≤ s.start ∧ s.start ≤ s.stop ∧ s.stop ≤ b := by
  obtain ⟨before, after, rfl⟩ := List.append_of_mem hs
  obtain ⟨c, hbefore, hstart, hle, hafter⟩ := tiles_append.mp h
  subst hstart
  exact ⟨hbefore.le, hle, hafter.le⟩

theorem Tiles.head_start {a b : ℕ} {spans : List Span} (h : Tiles a spans b) {s : Span} (hs : spans.head? = some s) :
    s.start = a := by
  cases spans with
  | nil => cases hs
  | cons first spans =>
    cases hs
    exact h.1

theorem Tiles.getLast_stop {a b : ℕ} {spans : List Span} (h : Tiles a spans b) {s : Span}
    (hs : spans.getLast? = some s) : s.stop = b := by
  induction spans generalizing a with
  | nil => cases hs
  | cons first spans ih =>
    obtain ⟨-, -, hrest⟩ := h
    cases spans with
    | nil =>
      cases hs
      exact hrest
    | cons next spans =>
      rw [List.getLast?_cons_cons] at hs
      exact ih hrest hs

/-- Of two spans of a tiling one ends before the other starts. -/
theorem Tiles.ordered {a b : ℕ} {spans : List Span} (h : Tiles a spans b) {s s' : Span} (hs : s ∈ spans)
    (hs' : s' ∈ spans) : s = s' ∨ s.stop ≤ s'.start ∨ s'.stop ≤ s.start := by
  induction spans generalizing a with
  | nil => cases hs
  | cons first spans ih =>
    obtain ⟨-, -, hrest⟩ := h
    rcases List.mem_cons.mp hs with heq | hin <;> rcases List.mem_cons.mp hs' with heq' | hin'
    · exact .inl (heq.trans heq'.symm)
    · exact .inr (.inl (heq ▸ (hrest.bounds hin').1))
    · exact .inr (.inr (heq' ▸ (hrest.bounds hin).1))
    · exact ih hrest hin hin'

/-- Each place of a stretch lies in a span of its tiling. -/
theorem Tiles.covers {a b : ℕ} {spans : List Span} (h : Tiles a spans b) {k : ℕ} (ha : a ≤ k) (hb : k < b) :
    ∃ s ∈ spans, s.start ≤ k ∧ k < s.stop := by
  induction spans generalizing a with
  | nil =>
    rw [Tiles] at h
    omega
  | cons s spans ih =>
    obtain ⟨rfl, -, hrest⟩ := h
    rcases Nat.lt_or_ge k s.stop with hk | hk
    · exact ⟨s, List.mem_cons_self, ha, hk⟩
    · obtain ⟨s', hs', hin⟩ := ih hrest hk
      exact ⟨s', List.mem_cons_of_mem s hs', hin⟩

/-- The slices of a tiling are the whole stretch. -/
theorem Tiles.flatten {a b : ℕ} {spans : List Span} (t : List α) (h : Tiles a spans b) :
    (spans.map (Span.text t)).flatten = slice t a b := by
  induction spans generalizing a with
  | nil =>
    cases h
    rw [slice_self]
    rfl
  | cons s spans ih =>
    obtain ⟨rfl, hle, hrest⟩ := h
    rw [List.map_cons, List.flatten_cons, ih hrest]
    exact slice_append_slice t hle hrest.le

/-- A tiling with two neighbours joined. -/
theorem Tiles.join {a b : ℕ} {xs ys : List Span} {s s' : Span} (h : Tiles a (xs ++ s :: s' :: ys) b) :
    Tiles a (xs ++ ⟨s.start, s'.stop⟩ :: ys) b := by
  obtain ⟨c, hxs, hstart, hle, hstart', hle', hys⟩ := tiles_append.mp h
  exact tiles_append.mpr ⟨c, hxs, hstart, by simp only; omega, hys⟩

/-- Each span of the first list is one of the second, or joins consecutive ones of it and has `P`. -/
inductive Coarser (P : Span → Prop) : List Span → List Span → Prop where
  /-- No spans. -/
  | nil : Coarser P [] []
  /-- One span on top of a group of consecutive ones. -/
  | cons {s : Span} {group merged spans : List Span} : group ≠ [] → Tiles s.start group s.stop → (group = [s] ∨ P s) →
      Coarser P merged spans → Coarser P (s :: merged) (group ++ spans)

theorem Coarser.refl {P : Span → Prop} {spans : List Span} (h : ∀ s ∈ spans, s.start ≤ s.stop) :
    Coarser P spans spans := by
  induction spans with
  | nil => exact Coarser.nil
  | cons s spans ih =>
    rw [List.forall_mem_cons] at h
    exact @Coarser.cons P s [s] spans spans (List.cons_ne_nil s []) ⟨rfl, h.1, rfl⟩ (.inl rfl) (ih h.2)

/-- Joining two neighbours whose join has `P` coarsens further. -/
theorem Coarser.join {P : Span → Prop} {xs ys spans : List Span} {s s' : Span}
    (h : Coarser P (xs ++ s :: s' :: ys) spans) (hmeet : s'.start = s.stop) (hP : P ⟨s.start, s'.stop⟩) :
    Coarser P (xs ++ ⟨s.start, s'.stop⟩ :: ys) spans := by
  induction xs generalizing spans with
  | nil =>
    rw [List.nil_append] at h ⊢
    obtain _ | ⟨hne, htiles, -, _ | ⟨-, htiles', -, hys⟩⟩ := h
    rw [← List.append_assoc]
    refine Coarser.cons (by simp [hne]) ?_ (.inr hP) hys
    rw [hmeet] at htiles'
    exact tiles_append.mpr ⟨s.stop, htiles, htiles'⟩
  | cons x xs ih =>
    obtain _ | ⟨hne, htiles, hx, hrest⟩ := h
    exact Coarser.cons hne htiles hx (ih hrest)

end TenantRag

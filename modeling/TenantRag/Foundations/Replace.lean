import Mathlib.Data.List.Infix

/-!
# Replacing the occurrences of a factor

`replaceAll old new t` replaces the occurrences of `old`, from the left to the right and
without overlaps, as Python's `str.replace` does for a non-empty `old`.

## The model

A scan with a bound on its turns, and `Replaced`, what a finished scan has done at each
place: a hit takes the whole factor, and a skip is only taken where the factor does not
begin.

## What is proved

* `replaced_replaceAll` — the scan finishes.
* `Replaced.factor_before` — a factor of the result that avoids both ends of what is put
  in was a factor before, and is not the factor replaced, or lies within what is put in.
-/

namespace TenantRag

universe u

variable {α : Type u}

section Scan

variable [DecidableEq α]

/-- `t.replace(old, new)` for a nonempty `old`, looking at no more than `n` places. -/
def replaceAllAux (old new : List α) : ℕ → List α → List α
  | 0, t => t
  | _ + 1, [] => []
  | n + 1, a :: t =>
      if old.isPrefixOf (a :: t) then new ++ replaceAllAux old new n ((a :: t).drop old.length)
      else a :: replaceAllAux old new n t

/-- `t.replace(old, new)` for a nonempty `old`. -/
def replaceAll (old new t : List α) : List α := replaceAllAux old new t.length t

end Scan

/-- One list is the other with the occurrences of a factor replaced. -/
inductive Replaced (old new : List α) : List α → List α → Prop
  /-- Nothing is left. -/
  | nil : Replaced old new [] []
  /-- The factor begins here. -/
  | hit {t r : List α} : Replaced old new t r → Replaced old new (old ++ t) (new ++ r)
  /-- It does not. -/
  | skip {a : α} {t r : List α} : ¬ old <+: a :: t → Replaced old new t r → Replaced old new (a :: t) (a :: r)

/-- The scan finishes: a turn for each element is enough. -/
theorem replaced_replaceAllAux [DecidableEq α] {old : List α} (new : List α) (hold : old ≠ []) {n : ℕ} {t : List α}
    (hn : t.length ≤ n) : Replaced old new t (replaceAllAux old new n t) := by
  induction n generalizing t with
  | zero =>
    obtain rfl : t = [] := List.length_eq_zero_iff.mp (by omega)
    exact .nil
  | succ n ih =>
    cases t with
    | nil => exact .nil
    | cons a t =>
      rw [List.length_cons] at hn
      have hpos := List.length_pos_iff.mpr hold
      rw [replaceAllAux]
      split_ifs with hprefix
      · obtain ⟨rest, hrest⟩ := List.isPrefixOf_iff_prefix.mp hprefix
        have hlength : rest.length + old.length = t.length + 1 := by
          rw [← List.length_cons (a := a), ← hrest, List.length_append]
          omega
        rw [← hrest, List.drop_left]
        exact .hit (ih (by omega))
      · exact .skip (fun h => hprefix (List.isPrefixOf_iff_prefix.mpr h)) (ih (by omega))

theorem replaced_replaceAll [DecidableEq α] {old : List α} (new : List α) (hold : old ≠ []) (t : List α) :
    Replaced old new t (replaceAll old new t) :=
  replaced_replaceAllAux new hold le_rfl

/-! ### Factors that avoid an element -/

/-- A prefix without the element ends before it. -/
theorem prefix_of_prefix_append_cons {x : α} {w u v : List α} (hx : x ∉ w) (h : w <+: u ++ x :: v) : w <+: u := by
  induction u generalizing w with
  | nil =>
    rcases List.prefix_cons_iff.mp h with rfl | ⟨w', rfl, -⟩
    · exact List.nil_prefix
    · exact absurd List.mem_cons_self hx
  | cons a u ih =>
    rcases List.prefix_cons_iff.mp h with rfl | ⟨w', rfl, hw⟩
    · exact List.nil_prefix
    · exact List.cons_prefix_cons.mpr ⟨rfl, ih (fun hin => hx (List.mem_cons_of_mem _ hin)) hw⟩

/-- A factor without the element lies before it or after it. -/
theorem infix_append_cons {x : α} {w u v : List α} (hx : x ∉ w) (h : w <:+: u ++ x :: v) : w <:+: u ∨ w <:+: v := by
  induction u with
  | nil =>
    rcases List.infix_cons_iff.mp h with hprefix | hinfix
    · exact .inl (prefix_of_prefix_append_cons hx hprefix).isInfix
    · exact .inr hinfix
  | cons a u ih =>
    rcases List.infix_cons_iff.mp h with hprefix | hinfix
    · exact .inl (prefix_of_prefix_append_cons (u := a :: u) hx hprefix).isInfix
    · rcases ih hinfix with hu | hv
      · exact .inl (hu.trans (List.suffix_cons a u).isInfix)
      · exact .inr hv

/-! ### What a replacement leaves -/

section Left

variable {old mid t r w : List α} {first last : α}

/-- A prefix of the result that avoids what is put in was there before. -/
theorem Replaced.start_before (h : Replaced old (first :: mid ++ [last]) t r) (hfirst : first ∉ w) (hw : w <+: r) :
    w <+: t := by
  induction h generalizing w with
  | nil => exact hw
  | hit _ _ =>
    rcases List.prefix_cons_iff.mp hw with rfl | ⟨w', rfl, -⟩
    · exact List.nil_prefix
    · exact absurd List.mem_cons_self hfirst
  | skip _ _ ih =>
    rcases List.prefix_cons_iff.mp hw with rfl | ⟨w', rfl, hw'⟩
    · exact List.nil_prefix
    · exact List.cons_prefix_cons.mpr ⟨rfl, ih (fun hin => hfirst (List.mem_cons_of_mem _ hin)) hw'⟩

/-- A factor of the result that avoids the ends of what is put in lies within it, or was there before
and is another one. -/
theorem Replaced.factor_before (h : Replaced old (first :: mid ++ [last]) t r) (hne : w ≠ []) (hfirst : first ∉ w)
    (hlast : last ∉ w) (hw : w <:+: r) : w <:+: mid ∨ w <:+: t ∧ w ≠ old := by
  induction h with
  | nil => exact absurd (List.infix_nil.mp hw) hne
  | @hit t r _ ih =>
    have hsplit : first :: mid ++ [last] ++ r = [] ++ first :: (mid ++ last :: r) := by simp
    rw [hsplit] at hw
    rcases infix_append_cons hfirst hw with hnil | hw
    · exact absurd (List.infix_nil.mp hnil) hne
    rcases infix_append_cons hlast hw with hmid | hrest
    · exact .inl hmid
    rcases ih hrest with hmid | ⟨hbefore, hother⟩
    · exact .inl hmid
    · exact .inr ⟨hbefore.trans (List.suffix_append old t).isInfix, hother⟩
  | @skip a t r hold hrest ih =>
    rcases List.infix_cons_iff.mp hw with hprefix | hinfix
    · -- the factor does not begin at a place that was skipped
      have hbefore : w <+: a :: t := (Replaced.skip hold hrest).start_before hfirst hprefix
      refine .inr ⟨hbefore.isInfix, ?_⟩
      rintro rfl
      exact hold hbefore
    · rcases ih hinfix with hmid | ⟨hbefore, hother⟩
      · exact .inl hmid
      · exact .inr ⟨hbefore.trans (List.suffix_cons a t).isInfix, hother⟩

end Left

end TenantRag

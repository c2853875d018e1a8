import Mathlib.Data.List.Infix

/-!
# Splitting at a separator

A list is split at the first place where a given list occurs in it. Joining two
lists with a separator and splitting the result again gives the two lists back
unless the separator occurs earlier, that is inside the first list or across its
end.

## What is proved

* `splitFirst_eq_some_iff` — the split is at an occurrence, and none is before it.
* `splitFirst_joined_iff` — when the two lists that were joined come back.
-/

namespace TenantRag

variable {α : Type} [DecidableEq α]

/-- What is before and behind the first occurrence of `sep`. -/
def splitFirst (sep : List α) : List α → Option (List α × List α)
  | [] => none
  | c :: cs =>
      if sep.isPrefixOf (c :: cs) then some ([], (c :: cs).drop sep.length)
      else (splitFirst sep cs).map fun p => (c :: p.1, p.2)

variable {sep : List α}

/-- The list is split where `sep` occurs and not before. -/
theorem splitFirst_eq_some_iff (hsep : sep ≠ []) {t a b : List α} :
    splitFirst sep t = some (a, b) ↔
      t = a ++ (sep ++ b) ∧ ∀ a' b', t = a' ++ (sep ++ b') → a.length ≤ a'.length := by
  induction t generalizing a with
  | nil =>
    constructor
    · intro h
      cases h
    · rintro ⟨h, -⟩
      have hlen := congrArg List.length h
      simp only [List.length_nil, List.length_append] at hlen
      exact absurd (List.length_eq_zero_iff.mp (by omega)) hsep
  | cons c cs ih =>
    by_cases hp : sep.isPrefixOf (c :: cs) = true
    · obtain ⟨r, hr⟩ := List.isPrefixOf_iff_prefix.mp hp
      rw [splitFirst, if_pos hp, ← hr, List.drop_left, Option.some.injEq, Prod.mk.injEq]
      constructor
      · rintro ⟨rfl, rfl⟩
        exact ⟨rfl, fun _ _ _ => Nat.zero_le _⟩
      · rintro ⟨h, hfirst⟩
        have hnil : a = [] := List.length_eq_zero_iff.mp (Nat.le_zero.mp (hfirst [] r rfl))
        subst hnil
        exact ⟨rfl, List.append_cancel_left h⟩
    · rw [splitFirst, if_neg hp]
      -- an occurrence in the list is one in its tail, since none is at its head
      have hshift : ∀ a' b', c :: cs = a' ++ (sep ++ b') → ∃ a₁, a' = c :: a₁ ∧ cs = a₁ ++ (sep ++ b') := by
        intro a' b' h
        cases a' with
        | nil => exact absurd (List.isPrefixOf_iff_prefix.mpr ⟨b', h.symm⟩) hp
        | cons d a₁ =>
          rw [List.cons_append, List.cons.injEq] at h
          exact ⟨a₁, by rw [h.1], h.2⟩
      constructor
      · intro h
        obtain ⟨⟨a₁, b₁⟩, hsplit, heq⟩ := Option.map_eq_some_iff.mp h
        rw [Prod.mk.injEq] at heq
        obtain ⟨rfl, rfl⟩ := heq
        obtain ⟨hcs, hfirst⟩ := ih.mp hsplit
        refine ⟨by rw [hcs, List.cons_append], fun a' b' h' => ?_⟩
        obtain ⟨a₂, rfl, h₂⟩ := hshift a' b' h'
        have hle := hfirst a₂ b' h₂
        simp only [List.length_cons]
        omega
      · rintro ⟨h, hfirst⟩
        obtain ⟨a₁, rfl, hcs⟩ := hshift a b h
        have hsplit : splitFirst sep cs = some (a₁, b) := by
          refine ih.mpr ⟨hcs, fun a' b' h' => ?_⟩
          have hle := hfirst (c :: a') b' (by rw [h', List.cons_append])
          simp only [List.length_cons] at hle
          omega
        rw [hsplit]
        rfl

/-- Two lists joined with a separator come back exactly where the separator does not occur in
the first one with all of the separator but its last element behind it. -/
theorem splitFirst_joined_iff (hsep : sep ≠ []) (q a : List α) :
    splitFirst sep (q ++ (sep ++ a)) = some (q, a) ↔ ¬ sep <:+: q ++ sep.dropLast := by
  have hlen : (q ++ sep.dropLast).length + 1 = q.length + sep.length := by
    have hpos := List.length_pos_of_ne_nil hsep
    simp only [List.length_append, List.length_dropLast]
    omega
  have hwhole : q ++ (sep ++ a) = (q ++ sep.dropLast) ++ (sep.getLast hsep :: a) := by
    conv_lhs => rw [← List.dropLast_append_getLast hsep]
    simp
  rw [splitFirst_eq_some_iff hsep]
  constructor
  · rintro ⟨-, hfirst⟩ ⟨a', c, hin⟩
    have hle := hfirst a' (c ++ (sep.getLast hsep :: a)) (by rw [hwhole, ← hin]; simp)
    have hshort := congrArg List.length hin
    simp only [List.length_append] at hshort hlen
    omega
  · refine fun hnot => ⟨rfl, fun a' b' h => ?_⟩
    by_contra hlt
    -- an earlier occurrence ends before the separator does
    have hpre : a' ++ sep <+: q ++ sep.dropLast := by
      have hleft : a' ++ sep <+: q ++ (sep ++ a) := ⟨b', by rw [h, List.append_assoc]⟩
      refine List.prefix_of_prefix_length_le hleft ⟨_, hwhole.symm⟩ ?_
      rw [List.length_append]
      omega
    obtain ⟨c, hc⟩ := hpre
    exact hnot ⟨a', c, hc⟩

end TenantRag

import Mathlib.Data.List.Basic
import Mathlib.Order.Lattice

/-!
# Lists of parties

A system keeps its parties in a list, each known by its place, and replaces one at
a time; a queue grows at its end. What a replacement leaves in the list, and where
an element of a queue that grew was before.

## What is proved

* `mem_set_cases` — after a replacement there are the new element and those of other places.
* `map_set_eq` — a replacement that keeps what a function reads keeps the mapped list.
* `split_append` — an element that is none of those added splits the list as before.
* `sublist_behind` — a part of a list keeps the order of the list.
* `foldl_pick_le` — a fold that takes what is better ends with the best.
-/

namespace TenantRag

variable {α β : Type}

theorem mem_set_cases {l : List α} {i : ℕ} {a x : α} (h : x ∈ l.set i a) : x = a ∨ ∃ j, j ≠ i ∧ l[j]? = some x := by
  obtain ⟨j, hj⟩ := List.mem_iff_getElem?.mp h
  rw [List.getElem?_set] at hj
  split_ifs at hj with hij hlt
  · exact .inl (Option.some.inj hj).symm
  · exact .inr ⟨j, Ne.symm hij, hj⟩

theorem mem_set_of_ne {l : List α} {i j : ℕ} {a x : α} (hij : j ≠ i) (h : l[j]? = some x) : x ∈ l.set i a :=
  List.mem_of_getElem? (i := j) (by rw [List.getElem?_set_ne hij.symm, h])

theorem mem_set_self {l : List α} {i : ℕ} {a x : α} (h : l[i]? = some x) : a ∈ l.set i a :=
  List.mem_set (List.getElem?_eq_some_iff.mp h).1 a

theorem map_set_eq {l : List α} {i : ℕ} {a x : α} {f : α → β} (h : l[i]? = some x) (hf : f a = f x) :
    (l.set i a).map f = l.map f := by
  rw [List.map_set, hf]
  refine List.ext_getElem? fun j => ?_
  rw [List.getElem?_set]
  split_ifs with hij hlt
  · subst hij
    simp [h]
  · subst hij
    exact absurd (List.getElem?_eq_some_iff.mp h).1 (by simpa using hlt)
  · rfl

theorem split_append {p : α → Prop} {xs ys before behind : List α} {x : α} (hx : p x) (hys : ∀ y ∈ ys, ¬ p y)
    (h : xs ++ ys = before ++ x :: behind) : ∃ behind', xs = before ++ x :: behind' ∧ behind = behind' ++ ys := by
  rcases List.append_eq_append_iff.mp h with ⟨cs, hbefore, hys'⟩ | ⟨cs, hxs, hbehind⟩
  · exact absurd hx (hys x (by rw [hys']; simp))
  · cases cs with
    | nil =>
      rw [List.nil_append] at hbehind
      exact absurd hx (hys x (by rw [← hbehind]; simp))
    | cons c cs =>
      simp only [List.cons_append, List.cons.injEq] at hbehind
      obtain ⟨rfl, rfl⟩ := hbehind
      exact ⟨cs, hxs, rfl⟩

/-- Behind an element that is there once, a part of a list has what the list has behind it. -/
theorem sublist_behind {front behind xs ys : List α} {x : α} (hn : (front ++ x :: behind).Nodup)
    (h : (xs ++ x :: ys).Sublist (front ++ x :: behind)) : ys.Sublist behind := by
  have hx : ∀ zs : List α, x ∈ zs ++ x :: ys := fun zs => by simp
  induction front generalizing xs with
  | nil =>
    obtain ⟨hnot, -⟩ := List.nodup_cons.mp hn
    cases xs with
    | nil => exact List.cons_sublist_cons.mp h
    | cons z zs =>
      cases h with
      | cons _ h => exact absurd (h.subset (hx (z :: zs))) hnot
      | cons_cons _ h => exact absurd (h.subset (hx zs)) hnot
  | cons y front ih =>
    obtain ⟨hnot, hn⟩ := List.nodup_cons.mp hn
    cases xs with
    | nil =>
      cases h with
      | cons _ h => exact ih hn (show ([] ++ x :: ys).Sublist _ from h)
      | cons_cons _ h => exact absurd (by simp) hnot
    | cons z zs =>
      cases h with
      | cons _ h => exact ih hn (show ((z :: zs) ++ x :: ys).Sublist _ from h)
      | cons_cons _ h => exact ih hn h

/-- A fold that chooses between what it has and the next element ends with an element. -/
theorem mem_foldl_pick {better : α → α → Bool} {l : List α} {a : α} :
    l.foldl (fun best b => if better best b then b else best) a ∈ a :: l := by
  induction l generalizing a with
  | nil => exact List.mem_singleton.mpr rfl
  | cons b l ih =>
    rw [List.foldl_cons]
    split
    · exact List.mem_cons_of_mem a ih
    · rcases List.mem_cons.mp (@ih a) with h | h
      · rw [h]
        exact List.mem_cons_self
      · exact List.mem_cons_of_mem a (List.mem_cons_of_mem b h)

/-- A fold that takes every element of a smaller key ends with an element of the smallest. -/
theorem foldl_pick_le [LinearOrder β] {key : α → β} {better : α → α → Bool}
    (hbetter : ∀ a b, better a b = true ↔ key b < key a) {l : List α} {a x : α} (hx : x ∈ a :: l) :
    key (l.foldl (fun best b => if better best b then b else best) a) ≤ key x := by
  induction l generalizing a x with
  | nil => rw [List.mem_singleton.mp hx, List.foldl_nil]
  | cons b l ih =>
    rw [List.foldl_cons]
    -- what is taken is no worse than either
    have hstep : key (if better a b then b else a) ≤ key a ∧ key (if better a b then b else a) ≤ key b := by
      split
      · exact ⟨((hbetter a b).mp ‹_›).le, le_rfl⟩
      · exact ⟨le_rfl, not_lt.mp fun hlt => ‹¬ _› ((hbetter a b).mpr hlt)⟩
    have htaken : key (l.foldl (fun best b => if better best b then b else best) (if better a b then b else a)) ≤
        key (if better a b then b else a) := ih List.mem_cons_self
    rcases List.mem_cons.mp hx with rfl | hx
    · exact htaken.trans hstep.1
    · rcases List.mem_cons.mp hx with rfl | hx
      · exact htaken.trans hstep.2
      · exact ih (List.mem_cons_of_mem _ hx)

end TenantRag

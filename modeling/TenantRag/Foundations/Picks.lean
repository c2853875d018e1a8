import Mathlib.Data.List.Perm.Subperm
import Mathlib.Data.List.Range

/-!
# Picking the elements of a list by their places

An algorithm that chooses among the elements of a list names them by their places;
no place is named twice. What it picks is then a part of the list in another order,
and all of it where there are as many places as elements.

## What is proved

* `picks_subperm`, `picks_perm` — what is picked is a part of the list, or all of it.
* `picks_length` — as many elements as places.
* `filterMap_zip_sublist` — what is left of a list whose items are looked at with their
  partners is a part of it in the same order.
-/

namespace TenantRag

universe u v w

variable {α : Type u} {β : Type v} {γ : Type w}

/-- The elements of a list at some places. -/
def picks (l : List α) (places : List ℕ) : List α := places.filterMap fun i => l[i]?

theorem picks_cons {l : List α} {i : ℕ} {a : α} (h : l[i]? = some a) (places : List ℕ) :
    picks l (i :: places) = a :: picks l places := by
  rw [picks, List.filterMap_cons, h, picks]

theorem picks_range (l : List α) : picks l (List.range l.length) = l := by
  induction l with
  | nil => rfl
  | cons a l ih =>
    rw [picks, List.length_cons, List.range_succ_eq_map, List.filterMap_cons, List.filterMap_map]
    simp only [List.getElem?_cons_zero, Function.comp_def, List.getElem?_cons_succ]
    rw [← picks, ih]

theorem picks_length {l : List α} {places : List ℕ} (h : ∀ i ∈ places, i < l.length) :
    (picks l places).length = places.length := by
  induction places with
  | nil => rfl
  | cons i places ih =>
    obtain ⟨hi, hrest⟩ := List.forall_mem_cons.mp h
    rw [picks_cons (List.getElem?_eq_getElem hi), List.length_cons, List.length_cons, ih hrest]

theorem picks_perm_of_perm {l : List α} {is js : List ℕ} (h : is.Perm js) : (picks l is).Perm (picks l js) :=
  h.filterMap _

/-- What is picked from places that differ is a part of the list. -/
theorem picks_subperm {l : List α} {places : List ℕ} (hnodup : places.Nodup) (h : ∀ i ∈ places, i < l.length) :
    (picks l places).Subperm l := by
  have hsub : places.Subperm (List.range l.length) := List.subperm_of_subset hnodup fun i hi => List.mem_range.mpr (h i hi)
  obtain ⟨js, hperm, hsub⟩ := hsub
  have hpicks := hsub.filterMap fun i => l[i]?
  rw [← picks, ← picks, picks_range] at hpicks
  exact ⟨picks l js, picks_perm_of_perm hperm, hpicks⟩

/-- As many places as elements pick all of the list. -/
theorem picks_perm {l : List α} {places : List ℕ} (hnodup : places.Nodup) (h : ∀ i ∈ places, i < l.length)
    (hlength : places.length = l.length) : (picks l places).Perm l :=
  (picks_subperm hnodup h).perm_of_length_le (by rw [picks_length h, hlength])

/-- What is left of a list whose items are looked at with their partners. -/
theorem filterMap_zip_sublist {f : α × β → Option γ} {g : γ → α} (hg : ∀ a b c, f (a, b) = some c → g c = a) :
    ∀ (l : List α) (m : List β), (((l.zip m).filterMap f).map g).Sublist l
  | [], _ => by simp
  | _ :: _, [] => by simp
  | a :: l, b :: m => by
      rw [List.zip_cons_cons, List.filterMap_cons]
      cases hf : f (a, b) with
      | none => exact (filterMap_zip_sublist hg l m).cons a
      | some c =>
        rw [List.map_cons, hg a b c hf]
        exact (filterMap_zip_sublist hg l m).cons_cons a

/-- An item of a list with its two partners. -/
theorem mem_zip_zip {a : α} {b : β} {c : γ} :
    ∀ {l : List α} {m : List β} {n : List γ}, (a, b, c) ∈ l.zip (m.zip n) → (a, b) ∈ l.zip m ∧ b ∈ m ∧ c ∈ n
  | [], _, _, h => by simp at h
  | _ :: _, [], _, h => by simp at h
  | _ :: _, _ :: _, [], h => by simp at h
  | x :: l, y :: m, z :: n, h => by
      rw [List.zip_cons_cons, List.zip_cons_cons, List.mem_cons] at h
      rw [List.zip_cons_cons, List.mem_cons, List.mem_cons, List.mem_cons]
      rcases h with h | h
      · cases h
        exact ⟨.inl rfl, .inl rfl, .inl rfl⟩
      · obtain ⟨hab, hb, hc⟩ := mem_zip_zip h
        exact ⟨.inr hab, .inr hb, .inr hc⟩

end TenantRag

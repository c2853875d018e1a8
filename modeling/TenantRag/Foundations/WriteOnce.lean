import Mathlib.Data.List.Nodup
import Mathlib.Data.List.Perm.Basic

/-!
# Registers written by a log

A state holds values under keys, and the entries of a log are applied to it one after
the other. Each entry writes some keys and leaves the value under every other key as
it is.

## What is proved

* `Registers.read_frame` — a key that no entry writes keeps its value.
* `Registers.read_once` — a key that is written once holds what that entry puts there,
  wherever in the log it stands.
-/

namespace TenantRag

/-- States that are read under keys, and entries that write some of the keys. -/
structure Registers (σ ρ κ ν : Type) where
  /-- An entry is applied to a state. -/
  apply : σ → ρ → σ
  /-- The value under a key. -/
  read : σ → κ → Option ν
  /-- The keys an entry writes. -/
  writes : ρ → List κ
  /-- No other key is written. -/
  frame : ∀ s r k, k ∉ writes r → read (apply s r) k = read s k

namespace Registers

variable {σ ρ κ ν : Type} (M : Registers σ ρ κ ν)

/-- The state after a log. -/
def run (s : σ) (log : List ρ) : σ := log.foldl M.apply s

/-- The keys that the entries of a log write, with repetition. -/
def written (log : List ρ) : List κ := log.flatMap M.writes

theorem read_frame {s : σ} {log : List ρ} {k : κ} (h : k ∉ M.written log) : M.read (M.run s log) k = M.read s k := by
  induction log generalizing s with
  | nil => rfl
  | cons r log ih =>
    rw [written, List.flatMap_cons, List.mem_append, not_or] at h
    change M.read (M.run (M.apply s r) log) k = M.read s k
    rw [ih h.2, M.frame s r k h.1]

/-- A key that is written once holds what its entry makes of its first value. -/
theorem read_once {s : σ} {log : List ρ} {r : ρ} {k : κ} {v : Option ν} (honce : (M.written log).Nodup) (hr : r ∈ log)
    (hk : k ∈ M.writes r) (hv : ∀ t, M.read t k = M.read s k → M.read (M.apply t r) k = v) :
    M.read (M.run s log) k = v := by
  obtain ⟨before, behind, rfl⟩ := List.append_of_mem hr
  rw [written, List.flatMap_append, List.flatMap_cons] at honce
  obtain ⟨-, hrest, hapart⟩ := List.nodup_append.mp honce
  obtain ⟨-, -, hapart'⟩ := List.nodup_append.mp hrest
  have hbefore : k ∉ M.written before := fun h => hapart k h k (List.mem_append_left _ hk) rfl
  have hbehind : k ∉ M.written behind := fun h => hapart' k hk k h rfl
  have hrun : M.run s (before ++ r :: behind) = M.run (M.apply (M.run s before) r) behind := by
    rw [run, List.foldl_append, List.foldl_cons]
    rfl
  rw [hrun, M.read_frame hbehind]
  exact hv _ (M.read_frame hbefore)

end Registers

end TenantRag

import Mathlib.Data.List.Basic
import Mathlib.Data.List.Sort
import Mathlib.Data.List.Nodup

/-!
# Dictionaries

The finite maps every other module is written with: a list of entries without a
repeated key, in insertion order. Assigning to a key that is present keeps its
place; assigning to a new key appends. Deleting a key keeps the order of the
others.

## What is proved

* `get?_set`, `get?_erase`, `get?_filter` — what a lookup finds after each update.
* `keys_set_of_mem`, `keys_set_of_not_mem` — which keys are left, in order.
* `mem_entries_iff` — an entry is listed exactly when its key looks it up.
* `get?_mix`, `mixed_mix` — what a change that was made in part leaves.
* `eq_of_pairwise` — dictionaries sorted by key are determined by their lookups.
* `values_eq_map` — dictionaries with the same keys have values that correspond.
-/

namespace TenantRag

universe u v

/-- An insertion-ordered finite map: no key occurs twice. -/
structure Dict (κ : Type u) (ν : Type v) where
  /-- The entries, oldest first. -/
  entries : List (κ × ν)
  /-- No key is listed twice. -/
  nodupKeys : (entries.map Prod.fst).Nodup
  deriving DecidableEq

namespace Dict

variable {κ : Type u} {ν : Type v} [DecidableEq κ]

omit [DecidableEq κ] in
theorem ext_entries {d e : Dict κ ν} (h : d.entries = e.entries) : d = e := by
  cases d
  cases e
  simpa using h

/-- The dictionary without entries. -/
def empty : Dict κ ν := ⟨[], List.nodup_nil⟩

instance : Inhabited (Dict κ ν) := ⟨empty⟩

/-- The keys, oldest first. -/
def keys (d : Dict κ ν) : List κ := d.entries.map Prod.fst

/-- The values, in the order of their keys. -/
def values (d : Dict κ ν) : List ν := d.entries.map Prod.snd

/-- The value of the first entry of `es` under `k`. -/
def lookup (k : κ) : List (κ × ν) → Option ν
  | [] => none
  | (k', v) :: es => if k' = k then some v else lookup k es

/-- The value under a key. -/
def get? (d : Dict κ ν) (k : κ) : Option ν := lookup k d.entries

/-- Whether a key is present. -/
def contains (d : Dict κ ν) (k : κ) : Bool := (d.get? k).isSome

/-! ### Looking up in a list of entries -/

theorem lookup_eq_none_iff {k : κ} {es : List (κ × ν)} : lookup k es = none ↔ k ∉ es.map Prod.fst := by
  induction es with
  | nil => simp [lookup]
  | cons e es ih =>
    obtain ⟨k', v⟩ := e
    simp only [lookup, List.map_cons, List.mem_cons, not_or]
    by_cases hk : k' = k
    · simp [hk]
    · simp [hk, ih, Ne.symm hk]

theorem lookup_eq_some_iff {k : κ} {v : ν} {es : List (κ × ν)} (h : (es.map Prod.fst).Nodup) :
    lookup k es = some v ↔ (k, v) ∈ es := by
  induction es with
  | nil => simp [lookup]
  | cons e es ih =>
    obtain ⟨k', w⟩ := e
    rw [List.map_cons, List.nodup_cons] at h
    simp only [lookup, List.mem_cons, Prod.mk.injEq]
    by_cases hk : k' = k
    · subst hk
      have hnot : (k', v) ∉ es := fun hmem => h.1 (List.mem_map.mpr ⟨_, hmem, rfl⟩)
      simp [hnot, eq_comm]
    · simp [hk, ih h.2, Ne.symm hk]

theorem lookup_append (k : κ) (es fs : List (κ × ν)) :
    lookup k (es ++ fs) = (lookup k es).or (lookup k fs) := by
  induction es with
  | nil => simp [lookup]
  | cons e es ih =>
    obtain ⟨k', v⟩ := e
    simp only [List.cons_append, lookup]
    split_ifs <;> simp [ih]

/-! ### Keys and entries -/

theorem mem_entries_iff {d : Dict κ ν} {k : κ} {v : ν} : (k, v) ∈ d.entries ↔ d.get? k = some v :=
  (lookup_eq_some_iff d.nodupKeys).symm

theorem get?_eq_none_iff {d : Dict κ ν} {k : κ} : d.get? k = none ↔ k ∉ d.keys := lookup_eq_none_iff

theorem mem_keys_iff {d : Dict κ ν} {k : κ} : k ∈ d.keys ↔ ∃ v, d.get? k = some v := by
  rw [← not_iff_not, ← get?_eq_none_iff]
  cases d.get? k <;> simp

theorem contains_iff {d : Dict κ ν} {k : κ} : d.contains k = true ↔ k ∈ d.keys := by
  rw [contains, Option.isSome_iff_exists, mem_keys_iff]

omit [DecidableEq κ] in
theorem nodup_keys (d : Dict κ ν) : d.keys.Nodup := d.nodupKeys

@[simp] theorem get?_empty (k : κ) : (empty : Dict κ ν).get? k = none := rfl

omit [DecidableEq κ] in
@[simp] theorem keys_empty : (empty : Dict κ ν).keys = [] := rfl

/-! ### Assignment -/

/-- The entries after `d[k] = v`: a present key keeps its place, a new one comes last. -/
def setEntries (k : κ) (v : ν) : List (κ × ν) → List (κ × ν)
  | [] => [(k, v)]
  | (k', w) :: es => if k' = k then (k, v) :: es else (k', w) :: setEntries k v es

theorem map_fst_setEntries (k : κ) (v : ν) (es : List (κ × ν)) :
    (setEntries k v es).map Prod.fst =
      if k ∈ es.map Prod.fst then es.map Prod.fst else es.map Prod.fst ++ [k] := by
  induction es with
  | nil => simp [setEntries]
  | cons e es ih =>
    obtain ⟨k', w⟩ := e
    simp only [setEntries]
    by_cases hk : k' = k
    · simp [hk]
    · simp only [hk, if_false, List.map_cons, ih, List.mem_cons, Ne.symm hk, false_or]
      split_ifs <;> simp

theorem lookup_setEntries (k : κ) (v : ν) (es : List (κ × ν)) (j : κ) :
    lookup j (setEntries k v es) = if k = j then some v else lookup j es := by
  induction es with
  | nil => simp [setEntries, lookup]
  | cons e es ih =>
    obtain ⟨k', w⟩ := e
    simp only [setEntries]
    by_cases hk : k' = k
    · subst hk
      by_cases hj : k' = j <;> simp [lookup, hj]
    · simp only [hk, if_false, lookup, ih]
      by_cases hj : k' = j
      · subst hj
        simp [Ne.symm hk]
      · simp [hj]

/-- `d[k] = v`. -/
def set (d : Dict κ ν) (k : κ) (v : ν) : Dict κ ν where
  entries := setEntries k v d.entries
  nodupKeys := by
    rw [map_fst_setEntries]
    split_ifs with h
    · exact d.nodupKeys
    · exact List.Nodup.append d.nodupKeys (List.nodup_singleton k) (by simpa using h)

theorem get?_set (d : Dict κ ν) (k : κ) (v : ν) (j : κ) :
    (d.set k v).get? j = if k = j then some v else d.get? j := lookup_setEntries k v d.entries j

@[simp] theorem get?_set_self (d : Dict κ ν) (k : κ) (v : ν) : (d.set k v).get? k = some v := by
  simp [get?_set]

theorem get?_set_ne (d : Dict κ ν) {k j : κ} (v : ν) (h : k ≠ j) : (d.set k v).get? j = d.get? j := by
  simp [get?_set, h]

theorem setEntries_setEntries (k : κ) (v w : ν) (es : List (κ × ν)) :
    setEntries k w (setEntries k v es) = setEntries k w es := by
  induction es with
  | nil => simp [setEntries]
  | cons e es ih =>
    obtain ⟨k', x⟩ := e
    by_cases hk : k' = k
    · simp [setEntries, hk]
    · simp [setEntries, hk, ih]

@[simp] theorem set_set (d : Dict κ ν) (k : κ) (v w : ν) : (d.set k v).set k w = d.set k w :=
  ext_entries (setEntries_setEntries k v w d.entries)

theorem setEntries_of_lookup {k : κ} {v : ν} {es : List (κ × ν)} (h : lookup k es = some v) :
    setEntries k v es = es := by
  induction es with
  | nil => simp [lookup] at h
  | cons e es ih =>
    obtain ⟨k', x⟩ := e
    by_cases hk : k' = k
    · simp_all [setEntries, lookup]
    · simp_all [setEntries, lookup]

/-- Assigning the value a key already has changes nothing. -/
theorem set_get?_self {d : Dict κ ν} {k : κ} {v : ν} (h : d.get? k = some v) : d.set k v = d :=
  ext_entries (setEntries_of_lookup h)

theorem keys_set_of_mem {d : Dict κ ν} {k : κ} (v : ν) (h : k ∈ d.keys) : (d.set k v).keys = d.keys := by
  simp only [keys, set, map_fst_setEntries] at h ⊢
  rw [if_pos h]

theorem keys_set_of_not_mem {d : Dict κ ν} {k : κ} (v : ν) (h : k ∉ d.keys) :
    (d.set k v).keys = d.keys ++ [k] := by
  simp only [keys, set, map_fst_setEntries] at h ⊢
  rw [if_neg h]

theorem setEntries_of_not_mem {k : κ} {v : ν} {es : List (κ × ν)} (h : k ∉ es.map Prod.fst) :
    setEntries k v es = es ++ [(k, v)] := by
  induction es with
  | nil => rfl
  | cons e es ih =>
    rw [List.map_cons, List.mem_cons, not_or] at h
    rw [setEntries, if_neg (Ne.symm h.1), ih h.2]
    rfl

/-- Entries with new keys are assigned one after another. -/
theorem entries_foldl_set (es : List (κ × ν)) (d : Dict κ ν) (h : ((d.entries ++ es).map Prod.fst).Nodup) :
    (es.foldl (fun d e => d.set e.1 e.2) d).entries = d.entries ++ es := by
  induction es generalizing d with
  | nil => exact (List.append_nil _).symm
  | cons e es ih =>
    have hnew : e.1 ∉ d.entries.map Prod.fst := by
      rw [List.map_append, List.map_cons] at h
      exact fun hmem => (List.nodup_append.mp h).2.2 e.1 hmem e.1 List.mem_cons_self rfl
    have hset : (d.set e.1 e.2).entries = d.entries ++ [e] := setEntries_of_not_mem hnew
    rw [List.foldl_cons, ih, hset, List.append_assoc, List.singleton_append]
    rw [hset, List.append_assoc, List.singleton_append]
    exact h

theorem mem_keys_set {d : Dict κ ν} {k j : κ} {v : ν} : j ∈ (d.set k v).keys ↔ j = k ∨ j ∈ d.keys := by
  simp only [mem_keys_iff, get?_set]
  by_cases h : k = j
  · simp [h]
  · simp [h, Ne.symm h]

/-! ### Deletion and filtering -/

/-- The entries satisfying a test. -/
def filter (d : Dict κ ν) (p : κ → ν → Bool) : Dict κ ν where
  entries := d.entries.filter fun e => p e.1 e.2
  nodupKeys := d.nodupKeys.sublist (List.Sublist.map _ List.filter_sublist)

theorem get?_filter (d : Dict κ ν) (p : κ → ν → Bool) (k : κ) :
    (d.filter p).get? k = (d.get? k).filter (p k) := by
  ext v
  rw [Option.filter_eq_some_iff, ← mem_entries_iff, ← mem_entries_iff]
  simp [filter]

/-- `del d[k]`, or `d.pop(k, None)`. -/
def erase (d : Dict κ ν) (k : κ) : Dict κ ν := d.filter fun j _ => j ≠ k

theorem get?_erase (d : Dict κ ν) (k j : κ) :
    (d.erase k).get? j = if k = j then none else d.get? j := by
  rw [erase, get?_filter]
  by_cases h : k = j
  · subst h
    cases d.get? k <;> simp
  · cases d.get? j <;> simp [h, Ne.symm h]

@[simp] theorem get?_erase_self (d : Dict κ ν) (k : κ) : (d.erase k).get? k = none := by
  simp [get?_erase]

theorem get?_erase_ne (d : Dict κ ν) {k j : κ} (h : k ≠ j) : (d.erase k).get? j = d.get? j := by
  simp [get?_erase, h]

theorem mem_keys_erase {d : Dict κ ν} {k j : κ} : j ∈ (d.erase k).keys ↔ j ≠ k ∧ j ∈ d.keys := by
  simp only [mem_keys_iff, get?_erase]
  by_cases h : k = j
  · simp [h]
  · simp [h, Ne.symm h]

omit [DecidableEq κ] in
theorem keys_filter (d : Dict κ ν) (p : κ → Bool) :
    (d.filter fun k _ => p k).keys = d.keys.filter p := by
  rw [keys, filter, keys, List.filter_map]
  rfl

/-- Many keys deleted. -/
theorem get?_foldl_erase (ks : List κ) (d : Dict κ ν) (j : κ) :
    (ks.foldl (fun d k => d.erase k) d).get? j = if j ∈ ks then none else d.get? j := by
  induction ks generalizing d with
  | nil => simp
  | cons k ks ih =>
    rw [List.foldl_cons, ih, get?_erase]
    by_cases hkj : k = j
    · simp [hkj]
    · simp [hkj, Ne.symm hkj]

/-- One value assigned to many keys. -/
theorem get?_foldl_set (ks : List κ) (d : Dict κ ν) (v : ν) (j : κ) :
    (ks.foldl (fun d k => d.set k v) d).get? j = if j ∈ ks then some v else d.get? j := by
  induction ks generalizing d with
  | nil => simp
  | cons k ks ih =>
    rw [List.foldl_cons, ih, get?_set]
    by_cases hkj : k = j
    · simp [hkj]
    · simp [hkj, Ne.symm hkj]

theorem mem_keys_foldl_set {ks : List κ} {d : Dict κ ν} {v : ν} {j : κ} :
    j ∈ (ks.foldl (fun d k => d.set k v) d).keys ↔ j ∈ ks ∨ j ∈ d.keys := by
  rw [mem_keys_iff, mem_keys_iff, get?_foldl_set]
  by_cases hj : j ∈ ks <;> simp [hj]

/-! ### Parts of a change -/

/-- What a change from one dictionary to another leaves where it is made under some keys only. -/
def mix (pick : κ → Bool) (d e : Dict κ ν) : Dict κ ν where
  entries := (d.filter fun k _ => !pick k).entries ++ (e.filter fun k _ => pick k).entries
  nodupKeys := by
    rw [List.map_append, List.nodup_append]
    refine ⟨(d.filter _).nodupKeys, (e.filter _).nodupKeys, ?_⟩
    rintro a ha b hb rfl
    simp only [filter, List.mem_map, List.mem_filter] at ha hb
    obtain ⟨x, ⟨-, hx⟩, rfl⟩ := ha
    obtain ⟨y, ⟨-, hy⟩, hxy⟩ := hb
    rw [hxy] at hy
    simp [hy] at hx

theorem get?_mix (pick : κ → Bool) (d e : Dict κ ν) (k : κ) :
    (mix pick d e).get? k = if pick k then e.get? k else d.get? k := by
  change lookup k ((d.filter fun k _ => !pick k).entries ++ (e.filter fun k _ => pick k).entries) = _
  rw [lookup_append]
  change ((d.filter fun k _ => !pick k).get? k).or ((e.filter fun k _ => pick k).get? k) = _
  rw [get?_filter, get?_filter]
  cases pick k
  · cases d.get? k <;> cases e.get? k <;> simp
  · cases d.get? k <;> cases e.get? k <;> simp

/-- Under each key stands what stands there in one of the two. -/
def Mixed (d e t : Dict κ ν) : Prop := ∀ k, t.get? k = d.get? k ∨ t.get? k = e.get? k

theorem mixed_mix (pick : κ → Bool) (d e : Dict κ ν) : Mixed d e (mix pick d e) := by
  intro k
  rw [get?_mix]
  split_ifs
  · exact .inr rfl
  · exact .inl rfl

theorem Mixed.right {d e t : Dict κ ν} (h : t = e) : Mixed d e t := fun k => .inr (by rw [h])

/-! ### Dictionaries sorted by key -/

/-- `dict(sorted(d.items()))`. -/
def sorted {ν : Type v} (d : Dict ℕ ν) : Dict ℕ ν where
  entries := d.entries.insertionSort fun x y => x.1 ≤ y.1
  nodupKeys := ((List.perm_insertionSort _ _).map Prod.fst).nodup_iff.mpr d.nodupKeys

theorem get?_sorted {ν : Type v} (d : Dict ℕ ν) (k : ℕ) : d.sorted.get? k = d.get? k := by
  ext v
  rw [← mem_entries_iff, ← mem_entries_iff]
  exact (List.perm_insertionSort _ _).mem_iff

theorem keys_sorted_pairwise {ν : Type v} (d : Dict ℕ ν) : d.sorted.keys.Pairwise (· < ·) := by
  have hle : d.sorted.keys.Pairwise (· ≤ ·) := by
    rw [keys, sorted, List.pairwise_map]
    exact List.pairwise_insertionSort (fun x y : ℕ × ν => x.1 ≤ y.1) d.entries
  exact hle.imp₂ (fun _ _ hab hne => lt_of_le_of_ne hab hne) d.sorted.nodupKeys

theorem mem_keys_sorted {ν : Type v} {d : Dict ℕ ν} {k : ℕ} : k ∈ d.sorted.keys ↔ k ∈ d.keys := by
  rw [mem_keys_iff, mem_keys_iff, get?_sorted]

theorem sorted_eq_self {ν : Type v} {d : Dict ℕ ν} (h : d.keys.Pairwise (· < ·)) : d.sorted = d := by
  apply ext_entries
  rw [sorted]
  refine List.Pairwise.insertionSort_eq ?_
  exact (List.pairwise_map.mp h).imp fun hlt => hlt.le

/-- Two dictionaries sorted by key that look up the same are the same. -/
theorem eq_of_pairwise {d e : Dict κ ν} {r : κ → κ → Prop} (hr : ∀ a b, r a b → ¬ r b a)
    (hd : d.keys.Pairwise r) (he : e.keys.Pairwise r) (h : ∀ k, d.get? k = e.get? k) : d = e := by
  have hperm : d.entries.Perm e.entries := by
    refine (List.perm_ext_iff_of_nodup ?_ ?_).mpr fun x => ?_
    · exact List.Nodup.of_map _ d.nodupKeys
    · exact List.Nodup.of_map _ e.nodupKeys
    · obtain ⟨k, v⟩ := x
      rw [mem_entries_iff, mem_entries_iff, h]
  have hd' : d.entries.Pairwise fun x y => r x.1 y.1 := List.pairwise_map.mp hd
  have he' : e.entries.Pairwise fun x y => r x.1 y.1 := List.pairwise_map.mp he
  exact ext_entries (hperm.eq_of_pairwise (fun x y _ _ hxy hyx => absurd hyx (hr _ _ hxy)) hd' he')

/-- Values under the same keys, each of them that of the other dictionary under a function. -/
theorem values_eq_map {μ : Type*} {d : Dict κ ν} {e : Dict κ μ} {f : μ → ν} (hkeys : e.keys = d.keys)
    (h : ∀ k v, e.get? k = some v → d.get? k = some (f v)) : d.values = e.values.map f := by
  have hlength : e.entries.length = d.entries.length := by
    simpa [keys] using congrArg List.length hkeys
  refine List.ext_getElem (by simp [values, hlength]) fun i hi hi' => ?_
  simp only [values, List.length_map] at hi hi'
  have hkey : e.entries[i].1 = d.entries[i].1 := by
    have hget := List.getElem_of_eq hkeys (by simpa [keys] using hi')
    simpa [keys] using hget
  have he : e.get? e.entries[i].1 = some e.entries[i].2 := mem_entries_iff.mp (List.getElem_mem hi')
  have hd : d.get? d.entries[i].1 = some d.entries[i].2 := mem_entries_iff.mp (List.getElem_mem hi)
  have hsame := h _ _ he
  rw [hkey, hd] at hsame
  simpa [values] using Option.some.inj hsame

/-! ### Numbered values -/

section Numbered

variable {α : Type v}

/-- `dict(enumerate(xs, start=1))`. -/
def numbered (xs : List α) : Dict ℕ α where
  entries := (List.range' 1 xs.length).zip xs
  nodupKeys := by
    rw [List.map_fst_zip (by rw [List.length_range'])]
    exact List.nodup_range'

theorem keys_numbered (xs : List α) : (numbered xs).keys = List.range' 1 xs.length :=
  List.map_fst_zip (by rw [List.length_range'])

theorem values_numbered (xs : List α) : (numbered xs).values = xs :=
  List.map_snd_zip (by rw [List.length_range'])

@[simp] theorem get?_numbered_zero (xs : List α) : (numbered xs).get? 0 = none := by
  rw [get?_eq_none_iff, keys_numbered, List.mem_range'_1]
  omega

@[simp] theorem get?_numbered_succ (xs : List α) (i : ℕ) : (numbered xs).get? (i + 1) = xs[i]? := by
  ext x
  rw [← mem_entries_iff, List.mem_iff_getElem?]
  change (∃ j, ((List.range' 1 xs.length).zip xs)[j]? = some (i + 1, x)) ↔ _
  simp only [List.getElem?_zip_eq_some]
  constructor
  · rintro ⟨j, hj, hx⟩
    rw [List.getElem?_eq_some_iff] at hj
    obtain ⟨hj, hij⟩ := hj
    rw [List.getElem_range'] at hij
    obtain rfl : j = i := by omega
    exact hx
  · intro hx
    have hi := (List.getElem?_eq_some_iff.mp hx).1
    refine ⟨i, ?_, hx⟩
    rw [List.getElem?_range' hi, Nat.one_mul, Nat.add_comm]

end Numbered

end Dict

end TenantRag

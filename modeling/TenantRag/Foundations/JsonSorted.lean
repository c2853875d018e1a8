import TenantRag.Foundations.JsonRoundTrip

/-!
# Objects with sorted keys

`sort_keys=True` of `json.dumps`: the members of every object in the order of
their keys. What reads an object by its keys does not see the difference.

## What is proved

* `get?_sortFields`, `hasKeys_sortFields` — a sorted object has the keys and the values it had.
* `plain_sortKeys` — sorting keeps a value readable.
* `loads_dumpsIndented` — a file that was written with `indent=2` and `sort_keys=True` is read back.
-/

namespace TenantRag

namespace Json

variable {F : Type}

/-- The members of an object in the order of their keys. -/
def sortFields (fields : List (Text × Json F)) : List (Text × Json F) :=
  fields.insertionSort fun a b => a.1 ≤ b.1

mutual

/-- The value with the members of its objects sorted. -/
def sortKeys : Json F → Json F
  | .null => .null
  | .bool b => .bool b
  | .int n => .int n
  | .num x => .num x
  | .str t => .str t
  | .arr items => .arr (sortItems items)
  | .obj fields => .obj (sortFields (sortMembers fields))

/-- So are the items of a list. -/
def sortItems : List (Json F) → List (Json F)
  | [] => []
  | v :: vs => sortKeys v :: sortItems vs

/-- So are the values of members. -/
def sortMembers : List (Text × Json F) → List (Text × Json F)
  | [] => []
  | (k, v) :: fs => (k, sortKeys v) :: sortMembers fs

end

theorem sortItems_eq_map (items : List (Json F)) : sortItems items = items.map sortKeys := by
  induction items with
  | nil => rfl
  | cons v vs ih => rw [sortItems, ih, List.map_cons]

theorem sortMembers_eq_map (fields : List (Text × Json F)) :
    sortMembers fields = fields.map fun f => (f.1, sortKeys f.2) := by
  induction fields with
  | nil => rfl
  | cons f fs ih => rw [sortMembers, ih, List.map_cons]

/-- `set(value) == keys`. -/
def hasKeys (fields : List (Text × Json F)) (keys : List Text) : Bool :=
  (fields.map Prod.fst).all (· ∈ keys) && keys.all (· ∈ fields.map Prod.fst)

theorem map_fst_sortMembers (fields : List (Text × Json F)) : (sortMembers fields).map Prod.fst = fields.map Prod.fst := by
  rw [sortMembers_eq_map, List.map_map]
  rfl

theorem perm_sortFields (fields : List (Text × Json F)) : (sortFields fields).Perm fields :=
  List.perm_insertionSort _ _

theorem keys_sortFields_perm (fields : List (Text × Json F)) :
    ((sortFields (sortMembers fields)).map Prod.fst).Perm (fields.map Prod.fst) := by
  rw [← map_fst_sortMembers fields]
  exact (perm_sortFields _).map Prod.fst

/-- A sorted object has the keys it had. -/
theorem hasKeys_sortFields (fields : List (Text × Json F)) (keys : List Text) :
    hasKeys (sortFields (sortMembers fields)) keys = hasKeys fields keys := by
  have hperm := keys_sortFields_perm fields
  have hmem : ∀ k, k ∈ (sortFields (sortMembers fields)).map Prod.fst ↔ k ∈ fields.map Prod.fst := fun k => hperm.mem_iff
  rw [Bool.eq_iff_iff, hasKeys, hasKeys]
  simp only [Bool.and_eq_true, List.all_eq_true, decide_eq_true_eq, hmem]

theorem get?_cons (k key : Text) (v : Json F) (fields : List (Text × Json F)) :
    get? ((k, v) :: fields) key = if key = k then some v else get? fields key := by
  rw [get?, List.lookup_cons]
  by_cases h : key = k
  · subst h
    simp
  · rw [if_neg h, beq_false_of_ne h]
    rfl

theorem get?_sortMembers (fields : List (Text × Json F)) (key : Text) :
    get? (sortMembers fields) key = (get? fields key).map sortKeys := by
  induction fields with
  | nil => rfl
  | cons f fs ih =>
    rw [sortMembers, get?_cons, get?_cons, ih]
    split_ifs <;> rfl

/-- A value under a key that occurs once. -/
theorem get?_eq_some_iff {fields : List (Text × Json F)} (h : (fields.map Prod.fst).Nodup) {key : Text} {v : Json F} :
    get? fields key = some v ↔ (key, v) ∈ fields := by
  induction fields with
  | nil => simp [get?]
  | cons f fs ih =>
    obtain ⟨k, w⟩ := f
    rw [List.map_cons, List.nodup_cons] at h
    rw [get?_cons, List.mem_cons, Prod.mk.injEq, ← ih h.2]
    by_cases hk : key = k
    · subst hk
      have hnot : get? fs key ≠ some v := fun hsome => h.1 (List.mem_map.mpr ⟨_, (ih h.2).mp hsome, rfl⟩)
      simp [hnot, eq_comm]
    · simp [hk]

/-- A sorted object has the values it had under its keys. -/
theorem get?_sortFields {fields : List (Text × Json F)} (h : (fields.map Prod.fst).Nodup) (key : Text) :
    get? (sortFields (sortMembers fields)) key = (get? fields key).map sortKeys := by
  have hkeys : ((sortMembers fields).map Prod.fst).Nodup := by rwa [map_fst_sortMembers]
  have hsorted : ((sortFields (sortMembers fields)).map Prod.fst).Nodup :=
    (keys_sortFields_perm fields).nodup_iff.mpr h
  rw [← get?_sortMembers]
  ext v
  rw [get?_eq_some_iff hsorted, get?_eq_some_iff hkeys, (perm_sortFields _).mem_iff]

theorem sortKeys_str (t : Text) : sortKeys (.str t : Json F) = .str t := by rw [sortKeys]

/-- Strings in a list are not changed. -/
theorem sortKeys_strings (ts : List Text) : sortKeys (.arr (ts.map .str) : Json F) = .arr (ts.map .str) := by
  rw [sortKeys, sortItems_eq_map, List.map_map]
  exact congrArg Json.arr (List.map_congr_left fun t _ => sortKeys_str t)

/-- `value.get(key)`, where it is a string. -/
def textAt (fields : List (Text × Json F)) (key : Text) : Option Text :=
  match get? fields key with
  | some (.str t) => some t
  | _ => none

/-- `value.get(key)`, where it is an integer. -/
def intAt (fields : List (Text × Json F)) (key : Text) : Option ℤ :=
  match get? fields key with
  | some (.int n) => some n
  | _ => none

theorem textAt_sortFields {fields : List (Text × Json F)} (h : (fields.map Prod.fst).Nodup) (key : Text) :
    textAt (sortFields (sortMembers fields)) key = textAt fields key := by
  rw [textAt, textAt, get?_sortFields h]
  cases get? fields key with
  | none => rfl
  | some v => cases v <;> simp [sortKeys]

theorem intAt_sortFields {fields : List (Text × Json F)} (h : (fields.map Prod.fst).Nodup) (key : Text) :
    intAt (sortFields (sortMembers fields)) key = intAt fields key := by
  rw [intAt, intAt, get?_sortFields h]
  cases get? fields key with
  | none => rfl
  | some v => cases v <;> simp [sortKeys]

section Plain

variable [PyFloat F]

/-- Sorting keeps a value readable. -/
theorem plain_sortKeys {v : Json F} (h : Plain v) : Plain (sortKeys v) := by
  induction v using inductOn with
  | null => exact h
  | bool b => exact h
  | int n => exact h
  | num x => exact h
  | str t => exact h
  | arr items ih =>
    rw [Plain, plainItems_iff] at h
    rw [sortKeys, Plain, plainItems_iff, sortItems_eq_map]
    intro w hw
    obtain ⟨v, hv, rfl⟩ := List.mem_map.mp hw
    exact ih v hv (h v hv)
  | obj fields ih =>
    rw [Plain, plainFields_iff] at h
    rw [sortKeys, Plain, plainFields_iff]
    refine ⟨(keys_sortFields_perm fields).nodup_iff.mpr h.1, fun g hg => ?_⟩
    rw [(perm_sortFields _).mem_iff, sortMembers_eq_map] at hg
    obtain ⟨f, hf, rfl⟩ := List.mem_map.mp hg
    exact ⟨(h.2 f hf).1, ih f hf (h.2 f hf).2⟩

/-- `json.dumps(value, separators=(",", ":"), sort_keys=True)`. -/
def dumpsSorted (v : Json F) : Text := dumps (sortKeys v)

/-- `json.dumps(value, indent=2, sort_keys=True) + "\n"`. -/
def dumpsIndented (v : Json F) : Text := write (Layout.indented 2) 0 (sortKeys v) ++ [10]

/-- A file of a plain value is read back, with sorted keys. -/
theorem loads_dumpsIndented {v : Json F} (h : Plain v) : loads (dumpsIndented v) = some (sortKeys v) :=
  loads_write (Layout.indented 2) (plain_sortKeys h) (by simp [isJsonSpace])

end Plain

end Json

end TenantRag

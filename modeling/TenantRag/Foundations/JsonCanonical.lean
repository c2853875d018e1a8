import TenantRag.Foundations.JsonVerbatim
import TenantRag.Foundations.Utf8

/-!
# Canonical bytes of a value

`json.dumps(value, ensure_ascii=False, allow_nan=False, separators=(",", ":"), sort_keys=True).encode("utf-8")`:
one text for all the orders of the members.

## What is proved

* `sortKeys_sortKeys` — sorted members stay where they are.
* `loads_canonicalBytes` — the bytes are read back as the value with sorted keys.
* `canonicalBytes_sortKeys` — values that differ in the order of members have the same bytes.
-/

namespace TenantRag

namespace Json

section Sorted

variable {F : Type}

instance : Std.Total fun a b : Text × Json F => a.1 ≤ b.1 := ⟨fun a b => le_total a.1 b.1⟩

instance : IsTrans (Text × Json F) fun a b => a.1 ≤ b.1 := ⟨fun _ _ _ => le_trans⟩

/-- Sorting members does not look at their values. -/
theorem sortMembers_sortFields (fields : List (Text × Json F)) :
    sortMembers (sortFields fields) = sortFields (sortMembers fields) := by
  rw [sortMembers_eq_map, sortMembers_eq_map, sortFields, sortFields]
  exact List.map_insertionSort _ _ _ _ fun _ _ _ _ => Iff.rfl

theorem sortFields_sortFields (fields : List (Text × Json F)) : sortFields (sortFields fields) = sortFields fields :=
  List.Pairwise.insertionSort_eq (List.pairwise_insertionSort _ _)

/-- Sorted members stay where they are. -/
theorem sortKeys_sortKeys (v : Json F) : sortKeys (sortKeys v) = sortKeys v := by
  induction v using inductOn with
  | null => rfl
  | bool b => rfl
  | int n => rfl
  | num x => rfl
  | str t => rfl
  | arr items ih =>
    rw [sortKeys, sortKeys, sortItems_eq_map, sortItems_eq_map, List.map_map]
    exact congrArg Json.arr (List.map_congr_left ih)
  | obj fields ih =>
    have hmembers : sortMembers (sortMembers fields) = sortMembers fields := by
      rw [sortMembers_eq_map, sortMembers_eq_map, List.map_map]
      exact List.map_congr_left fun f hf => Prod.ext rfl (ih f hf)
    rw [sortKeys, sortKeys, sortMembers_sortFields, hmembers, sortFields_sortFields]

end Sorted

variable {F : Type} [PyFloat F]

mutual

/-- No number of the value makes `json.dumps(value, allow_nan=False)` raise. -/
def isWritable : Json F → Bool
  | .null => true
  | .bool _ => true
  | .int n => (decimal n.natAbs).length ≤ intMaxStrDigits
  | .num x => PyFloat.isFinite x && !PyFloat.isNaN x
  | .str _ => true
  | .arr items => areWritable items
  | .obj fields => membersWritable fields

/-- So does none of the items. -/
def areWritable : List (Json F) → Bool
  | [] => true
  | v :: vs => isWritable v && areWritable vs

/-- So does none of the members. -/
def membersWritable : List (Text × Json F) → Bool
  | [] => true
  | (_, v) :: fs => isWritable v && membersWritable fs

end

theorem areWritable_eq_all (items : List (Json F)) : areWritable items = items.all isWritable := by
  induction items with
  | nil => rfl
  | cons v vs ih => rw [areWritable, ih, List.all_cons]

theorem membersWritable_eq_all (fields : List (Text × Json F)) : membersWritable fields = fields.all fun f => isWritable f.2 := by
  induction fields with
  | nil => rfl
  | cons f fs ih => rw [membersWritable, ih, List.all_cons]

theorem Legible.isWritable {v : Json F} (h : Legible v) : Json.isWritable v = true := by
  induction h with
  | null | bool b | str t => rfl
  | int hn => exact decide_eq_true hn
  | num hx => rw [Json.isWritable, hx.1, hx.2, Bool.not_false, Bool.and_self]
  | arr h ih => rwa [Json.isWritable, areWritable_eq_all, List.all_eq_true]
  | obj hkeys h ih => rwa [Json.isWritable, membersWritable_eq_all, List.all_eq_true]

/-- `_canonical_bytes(value)`. -/
def canonicalBytes (v : Json F) : Except PyError (List ℕ) :=
  if isWritable v then encodeUtf8 (writeVerbatim Layout.compact 0 (sortKeys v))
  else .error (valueError "Out of range float values are not JSON compliant")

theorem canonicalBytes_legible {v : Json F} (h : Legible v) :
    canonicalBytes v = encodeUtf8 (writeVerbatim Layout.compact 0 (sortKeys v)) := if_pos h.isWritable

/-- What is read of canonical bytes. -/
theorem loads_canonicalBytes {v : Json F} (h : Legible v) {bytes : List ℕ} (hbytes : canonicalBytes v = .ok bytes) :
    ∃ t, decodeUtf8 bytes = .ok t ∧ loads t = some (sortKeys v) := by
  rw [canonicalBytes_legible h] at hbytes
  refine ⟨_, decodeUtf8_encodeUtf8 hbytes, ?_⟩
  have hread := loads_writeVerbatim Layout.compact h.sortKeys (s := []) (List.forall_mem_nil _)
  rwa [List.append_nil] at hread

/-- The order of the members does not count. -/
theorem canonicalBytes_sortKeys {v w : Json F} (hv : Legible v) (hw : Legible w) (h : sortKeys v = sortKeys w) :
    canonicalBytes v = canonicalBytes w := by
  rw [canonicalBytes_legible hv, canonicalBytes_legible hw, h]

end Json

end TenantRag

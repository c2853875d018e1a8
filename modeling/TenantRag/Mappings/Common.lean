import TenantRag.Config.CollectionNames
import TenantRag.Foundations.Dict
import TenantRag.Foundations.Uuid

/-!
# Validation shared by the mappings

`backend/mappings/_common.py`: the checks every process-local map and registry
applies to the identifiers it is given. A user identifier is accepted when the
collection name it would give exists, which the configured `USER_ID_PATTERN`
decides; the pattern is a parameter.

## What is proved

* `keys_sorted_of_isSequential` — identifiers that are sequential are numbered from one on.
* `requiredUuid_str`, `requiredIdentifier_str` — a canonical UUID passes both checks unchanged.
-/

namespace TenantRag

/-- `required_identifier(value, name)`. -/
def requiredIdentifier (value : Text) (name : String) : Except PyError Text :=
  let normalized := strip value
  if normalized.isEmpty then .error (valueError s!"{name} must not be empty") else .ok normalized

/-- `required_uuid(value, name)`. -/
def requiredUuid (value : Text) (name : String) : Except PyError Uuid :=
  match requiredIdentifier value name with
  | .error e => .error e
  | .ok raw =>
      match Uuid.ofText raw with
      | none => .error (valueError s!"{name} must be a valid UUID")
      | some u => .ok u

/-- `validated_user_id(user_id)`. -/
def validatedUserId (pattern : UserIdPattern) (userId : Text) : Except PyError Text := do
  let _ ← getCollectionName pattern userId (lit "conversations")
  return userId

/-- `positive_paragraph_id(value)`. -/
def positiveParagraphId (value : ℤ) : Except PyError ℕ :=
  if value ≤ 0 then .error (valueError "paragraph_id must be greater than zero") else .ok value.toNat

/-- `set(ids) == set(range(1, len(ids) + 1))`. -/
def isSequential (ids : List ℕ) : Bool :=
  ids.all (· ∈ List.range' 1 ids.length) && (List.range' 1 ids.length).all (· ∈ ids)

theorem isSequential_range' (n : ℕ) : isSequential (List.range' 1 n) = true := by
  simp [isSequential]

/-- A dictionary numbered from one on, in any order, has its numbers in order once it is sorted. -/
theorem keys_sorted_of_isSequential {ν : Type} {d : Dict ℕ ν} (h : isSequential d.keys = true) :
    d.sorted.keys = List.range' 1 d.keys.length := by
  simp only [isSequential, Bool.and_eq_true, List.all_eq_true, decide_eq_true_eq] at h
  refine List.Perm.eq_of_pairwise (fun a b _ _ hab hba => absurd hab (lt_asymm hba)) d.keys_sorted_pairwise
    List.pairwise_lt_range' ?_
  refine (List.perm_ext_iff_of_nodup d.sorted.nodupKeys List.nodup_range').mpr fun k => ?_
  change k ∈ d.sorted.keys ↔ _
  rw [Dict.mem_keys_sorted]
  exact ⟨h.1 k, h.2 k⟩

/-- An accepted identifier is the argument without the white space around it. -/
theorem requiredIdentifier_eq {value key : Text} {name : String} (h : requiredIdentifier value name = .ok key) :
    key = strip value := by
  unfold requiredIdentifier at h
  dsimp only at h
  split_ifs at h
  simpa using h.symm

theorem requiredIdentifier_str (u : Uuid) (name : String) : requiredIdentifier u.str name = .ok u.str := by
  have hne : u.str.isEmpty = false := by
    rw [Bool.eq_false_iff]
    simpa using u.str_ne_nil
  simp [requiredIdentifier, Uuid.strip_str, hne]

theorem requiredUuid_str (u : Uuid) (name : String) : requiredUuid u.str name = .ok u := by
  simp [requiredUuid, requiredIdentifier_str, Uuid.ofText_str]

/-- An accepted user identifier is kept as it is. -/
theorem validatedUserId_eq {pattern : UserIdPattern} {userId user : Text}
    (h : validatedUserId pattern userId = .ok user) : user = userId := by
  obtain ⟨_, -, h⟩ := bind_eq_ok_iff.mp h
  cases h
  rfl

end TenantRag

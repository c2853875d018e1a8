import TenantRag.Foundations.PyError
import TenantRag.Foundations.Uuid

/-!
# Values that cross the storage boundary

What the Weaviate client hands out and takes, and the checks of
`backend/weaviate_client/_base.py` on it: texts, identifiers and vectors.

## The model

A value is a string, a `UUID`, an integer, a boolean, `None` or an object of
another kind, of which only its `str` matters. A number that `float` has read,
of a vector or a score, is of a type `K`; arithmetic on it is left to the modules
that compute with it.

## What is proved

* `vectorValues_numbers` — a vector of numbers is accepted as it is.
-/

namespace TenantRag

/-- A Python value in a property. -/
inductive PyValue where
  /-- `None`. -/
  | none
  /-- A `bool`. -/
  | bool (b : Bool)
  /-- An `int`. -/
  | int (n : ℤ)
  /-- A `str`. -/
  | str (t : Text)
  /-- A `UUID`. -/
  | uuid (u : Uuid)
  /-- A `float`, with the integer it equals, if any, and its `str`. -/
  | float (whole : Option ℤ) (str : Text)
  /-- Anything else, with its `str`. -/
  | other (str : Text)
  deriving DecidableEq

namespace PyValue

/-- `str(n)` of an `int`. -/
def intStr (n : ℤ) : Text := text (toString n).toList

/-- `str(value)`. -/
def toStr : PyValue → Text
  | .none => lit "None"
  | .bool true => lit "True"
  | .bool false => lit "False"
  | .int n => intStr n
  | .str t => t
  | .uuid u => u.str
  | .float _ s => s
  | .other s => s

/-- The integer that a number equals, if any; a boolean is a number. -/
def whole? : PyValue → Option ℤ
  | .bool b => some (if b then 1 else 0)
  | .int n => some n
  | .float whole _ => whole
  | _ => Option.none

/-- `a == b`: numbers are compared by their values. -/
def same (a b : PyValue) : Bool :=
  match a.whole?, b.whole? with
  | some m, some n => m = n
  | Option.none, Option.none => a = b ∧ a ≠ .float Option.none (lit "nan")
  | _, _ => false

/-- `isinstance(value, int) and not isinstance(value, bool) and value >= 0`, with the number. -/
def natural? : PyValue → Option ℕ
  | .int (.ofNat n) => some n
  | _ => Option.none

/-- `str(value) if isinstance(value, UUID) else value`. -/
def normalized : PyValue → PyValue
  | .uuid u => .str u.str
  | v => v

end PyValue

/-- The properties of an object. -/
abbrev Properties := List (Text × PyValue)

/-- `properties.get(name)`, after the `UUID`s among the values became strings. -/
def Properties.get (ps : Properties) (name : Text) : PyValue := ((ps.lookup name).getD .none).normalized

/-- `_required_text(value, name)`. -/
def requiredText (value : PyValue) (name : String) : Except PyError Text :=
  match value with
  | .str t => if isBlank t then .error (valueError s!"{name} must not be empty") else .ok t
  | _ => .error (typeError s!"{name} must be a string")

/-- `_uuid_text(value, name)` of a string. -/
def Weaviate.uuidText (value : Text) (name : String) : Except PyError Uuid :=
  if isBlank value then .error (valueError s!"{name} must not be empty")
  else
    match Uuid.ofText value with
    | none => .error (valueError s!"{name} must be a valid UUID")
    | some u => .ok u

/-- `WeaviateResponseError(message)`. -/
def weaviateResponseError (message : String) : PyError := ⟨.weaviateResponseError, message⟩

/-- `_result_uuid(value, name)`. -/
def resultUuid (value : PyValue) (name : String) : Except PyError Uuid :=
  match Uuid.ofText value.toStr with
  | none => .error (weaviateResponseError s!"hybrid result has an invalid {name}")
  | some u => .ok u

/-! ### Vectors -/

/-- An item of a vector, or a score, by what `float` makes of it. An `int` too large for any float,
on which `float` raises `OverflowError`, is left out: no caller catches that. -/
inductive VectorItem (K : Type) where
  /-- A `bool`. -/
  | bool
  /-- A finite number. -/
  | number (x : K)
  /-- An infinity or a NaN. -/
  | notFinite
  /-- What `float` refuses. -/
  | notNumber
  deriving DecidableEq

/-- A value where a vector is wanted. -/
inductive RawVector (K : Type) where
  /-- A sequence. -/
  | sequence (items : List (VectorItem K))
  /-- A string, or no sequence at all. -/
  | notSequence

/-- A value where a multi-vector is wanted. -/
inductive RawMatrix (K : Type) where
  /-- A sequence. -/
  | sequence (rows : List (RawVector K))
  /-- A string, or no sequence at all. -/
  | notSequence

variable {K : Type}

/-- The loop of `_vector_values`. -/
def vectorItems (name : String) : List (VectorItem K) → Except PyError (List K)
  | [] => .ok []
  | .bool :: _ | .notNumber :: _ => .error (typeError s!"{name} must contain only numbers")
  | .notFinite :: _ => .error (valueError s!"{name} values must be finite")
  | .number x :: items => (vectorItems name items).map (x :: ·)

/-- `_vector_values(vector, name)`. -/
def vectorValues (name : String) : RawVector K → Except PyError (List K)
  | .notSequence => .error (typeError s!"{name} must be a sequence of numbers")
  | .sequence items =>
      match vectorItems name items with
      | .error e => .error e
      | .ok [] => .error (valueError s!"{name} must not be empty")
      | .ok (x :: xs) => .ok (x :: xs)

/-- `LATEON_EMBEDDING_DIMENSION`. -/
def lateonEmbeddingDimension : ℕ := 128

/-- `_multi_vector_values(vector, name)`. -/
def multiVectorValues (name : String) : RawMatrix K → Except PyError (List (List K))
  | .notSequence => .error (typeError s!"{name} must be a sequence of vectors")
  | .sequence rows =>
      match rows.mapM (vectorValues (name ++ " row")) with
      | .error e => .error e
      | .ok [] => .error (valueError s!"{name} must not be empty")
      | .ok (row :: rest) =>
          if rest.any fun r => r.length ≠ row.length then
            .error (valueError s!"{name} rows must have consistent dimensions")
          else if row.length ≠ lateonEmbeddingDimension then
            .error (valueError s!"{name} rows must have exactly 128 dimensions")
          else .ok (row :: rest)

/-- A vector of numbers. -/
def RawVector.ofNumbers (xs : List K) : RawVector K := .sequence (xs.map .number)

theorem vectorItems_numbers (name : String) (xs : List K) : vectorItems name (xs.map .number) = .ok xs := by
  induction xs with
  | nil => rfl
  | cons x xs ih => rw [List.map_cons, vectorItems, ih, Except.map]

theorem vectorValues_numbers (name : String) {xs : List K} (h : xs ≠ []) :
    vectorValues name (.ofNumbers xs) = .ok xs := by
  obtain ⟨x, ys, rfl⟩ := List.exists_cons_of_ne_nil h
  rw [RawVector.ofNumbers, vectorValues, vectorItems_numbers]

/-- An accepted vector has an item. -/
theorem vectorValues_ne_nil {name : String} {v : RawVector K} {xs : List K} (h : vectorValues name v = .ok xs) :
    xs ≠ [] := by
  unfold vectorValues at h
  split at h
  · cases h
  · split at h
    · cases h
    · cases h
    · cases h
      simp

end TenantRag

import TenantRag.Foundations.PyFloat

/-!
# JSON values

What `json.dumps` takes and `json.loads` gives: `None`, `bool`, `int`, `float`,
`str`, `list` and `dict` with `str` keys. An object is the list of its items in
their order.
-/

namespace TenantRag

/-- A JSON value. -/
inductive Json (F : Type) where
  /-- `None`. -/
  | null
  /-- `True` and `False`. -/
  | bool (b : Bool)
  /-- An `int`. -/
  | int (n : ℤ)
  /-- A `float`. -/
  | num (x : F)
  /-- A `str`. -/
  | str (t : Text)
  /-- A `list`. -/
  | arr (items : List (Json F))
  /-- A `dict`. -/
  | obj (fields : List (Text × Json F))

namespace Json

variable {F : Type}

/-- `value.get(key)` of a mapping; `none` stands for a missing key. -/
def get? (fields : List (Text × Json F)) (key : Text) : Option (Json F) := fields.lookup key

/-- `value == t` for a string `t`. -/
def isStr (v : Option (Json F)) (t : Text) : Bool :=
  match v with
  | some (.str s) => s = t
  | _ => false

end Json

end TenantRag

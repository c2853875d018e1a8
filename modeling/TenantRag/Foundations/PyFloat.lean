import TenantRag.Foundations.Decimal

/-!
# Python floats

What the repository needs of `float`: addition, comparison with zero, rounding
to three digits and the shortest representation that reads back as the same
number. The values stand for the floats, those that are not finite included; the
laws are those of finite ones.

## What is proved

* `PyFloat WholeFloat` — the operations on floats without a fraction satisfy the laws.
-/

namespace TenantRag

/-- The parts of the representation of a finite float: a sign, digits without a leading
zero, then a fraction, an exponent or both. -/
structure FloatLiteral (t : Text) (sign whole fraction exponent : Text) : Prop where
  /-- The parts in order. -/
  parts : t = sign ++ (whole ++ (fraction ++ exponent))
  /-- The sign is a minus or missing. -/
  isSign : sign = [] ∨ sign = [45]
  /-- There are digits before the point. -/
  isWhole : IsWhole whole
  /-- The fraction is missing, or a point and digits. -/
  isFraction : fraction = [] ∨ ∃ d ds, fraction = 46 :: d :: ds ∧ ∀ c ∈ d :: ds, isDigit c = true
  /-- The exponent is missing, or its mark, a sign and digits. -/
  isExponent : exponent = [] ∨ ∃ s d ds, exponent = 101 :: s :: d :: ds ∧ (s.val = 43 ∨ s.val = 45) ∧
    ∀ c ∈ d :: ds, isDigit c = true
  /-- One of the two is there. -/
  isReal : fraction ≠ [] ∨ exponent ≠ []

/-- The operations of `float` and their documented behaviour on finite values. -/
class PyFloat (F : Type) where
  /-- `0.0`. -/
  zero : F
  /-- `x + y`. -/
  add : F → F → F
  /-- `x < 0.0`. -/
  isNegative : F → Bool
  /-- `math.isfinite(x)`. -/
  isFinite : F → Bool
  /-- `x != x`. -/
  isNaN : F → Bool
  /-- The integer `n` with `x == n`, if any. -/
  whole? : F → Option ℤ
  /-- `max(0.0, x)`. -/
  maxZero : F → F
  /-- `round(x, 3)`. -/
  round3 : F → F
  /-- `repr(x)`. -/
  repr : F → Text
  /-- `float(t)`. -/
  ofText : Text → Option F
  /-- Zero is finite. -/
  zero_finite : isFinite zero = true
  /-- Zero is not negative. -/
  zero_nonneg : isNegative zero = false
  /-- Adding to zero does not overflow. -/
  zero_add_finite : ∀ x, isFinite x = true → isFinite (add zero x) = true
  /-- Adding to zero keeps a value that is not negative so. -/
  zero_add_nonneg : ∀ x, isNegative x = false → isNegative (add zero x) = false
  /-- The larger of zero and a finite value is finite. -/
  maxZero_finite : ∀ x, isFinite x = true → isFinite (maxZero x) = true
  /-- The larger of zero and a value is not negative. -/
  maxZero_nonneg : ∀ x, isNegative (maxZero x) = false
  /-- Rounding keeps a finite value finite. -/
  round3_finite : ∀ x, isFinite x = true → isFinite (round3 x) = true
  /-- Rounding keeps a value that is not negative so. -/
  round3_nonneg : ∀ x, isNegative x = false → isNegative (round3 x) = false
  /-- A finite value is read back from its representation. -/
  ofText_repr : ∀ x, isFinite x = true → ofText (repr x) = some x
  /-- What the representation of a finite value looks like. -/
  repr_literal : ∀ x, isFinite x = true → ∃ sign whole fraction exponent,
    FloatLiteral (repr x) sign whole fraction exponent

/-! ### Floats without a fraction -/

/-- A float that is a natural number. -/
structure WholeFloat where
  /-- The number. -/
  val : ℕ
  deriving DecidableEq

namespace WholeFloat

/-- `repr(x)`, where it has no exponent. -/
def repr (x : WholeFloat) : Text := decimal x.val ++ lit ".0"

/-- `float(t)`, for a text without a fraction or an exponent. -/
def ofText (t : Text) : Option WholeFloat :=
  let whole := t.take (t.length - 2)
  if t.drop (t.length - 2) = lit ".0" ∧ whole.all isDigit then some ⟨ofDecimal whole⟩ else none

theorem repr_literal (x : WholeFloat) : FloatLiteral (repr x) [] (decimal x.val) (lit ".0") [] where
  parts := by rw [List.nil_append, List.append_nil, repr]
  isSign := .inl rfl
  isWhole := decimal_isWhole x.val
  isFraction := .inr ⟨48, [], rfl, fun c hc => by rw [List.mem_singleton.mp hc]; decide⟩
  isExponent := .inl rfl
  isReal := .inl (by decide)

theorem ofText_repr (x : WholeFloat) : ofText (repr x) = some x := by
  have hlen : (repr x).length - 2 = (decimal x.val).length := by
    rw [repr, List.length_append]
    exact Nat.add_sub_cancel _ 2
  have htake : (repr x).take (decimal x.val).length = decimal x.val := List.take_left
  have hdrop : (repr x).drop (decimal x.val).length = lit ".0" := List.drop_left
  have hall : (decimal x.val).all isDigit = true :=
    List.all_eq_true.mpr fun c hc => isDigit_of_mem_decimal hc
  simp only [ofText, hlen, htake, hdrop, hall, ofDecimal_decimal, and_self, if_true]

instance : PyFloat WholeFloat where
  zero := ⟨0⟩
  add x y := ⟨x.val + y.val⟩
  isNegative _ := false
  isFinite _ := true
  isNaN _ := false
  whole? x := some x.val
  maxZero x := x
  round3 x := x
  repr := repr
  ofText := ofText
  zero_finite := rfl
  zero_nonneg := rfl
  zero_add_finite _ _ := rfl
  zero_add_nonneg _ _ := rfl
  maxZero_finite _ h := h
  maxZero_nonneg _ := rfl
  round3_finite _ h := h
  round3_nonneg _ h := h
  ofText_repr x _ := ofText_repr x
  repr_literal x _ := ⟨_, _, _, _, repr_literal x⟩

end WholeFloat

end TenantRag

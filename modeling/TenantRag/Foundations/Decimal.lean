import TenantRag.Foundations.PyText
import Mathlib.Data.Nat.Digits.Lemmas

/-!
# Decimal numbers

`str(n)` of an `int` that is not negative, and `int(t)` of a text of digits.

## What is proved

* `decimal_isWhole` — the representation has digits only, and no leading zero.
* `ofDecimal_decimal` — the representation is read back as the number.
-/

namespace TenantRag

/-- A digit as a code point. -/
def isDigit (c : PyChar) : Bool := 48 ≤ c.val && c.val ≤ 57

/-- The code point of a digit. -/
def digitChar (d : ℕ) : PyChar := Fin.ofNat _ (48 + d)

/-- The digits of a number, the least significant first. -/
def decimalDigits (n : ℕ) : List ℕ := if n = 0 then [0] else Nat.digits 10 n

/-- `str(n)`. -/
def decimal (n : ℕ) : Text := (decimalDigits n).reverse.map digitChar

/-- `int(t)`, for a text of digits. -/
def ofDecimal (t : Text) : ℕ := Nat.ofDigits 10 (t.reverse.map fun c => c.val - 48)

/-- The text is a zero, or digits that do not begin with one. -/
def IsWhole (t : Text) : Prop :=
  ∃ c cs, t = c :: cs ∧ isDigit c = true ∧ (c.val = 48 → cs = []) ∧ ∀ d ∈ cs, isDigit d = true

theorem decimalDigits_lt (n : ℕ) : ∀ d ∈ decimalDigits n, d < 10 := by
  rw [decimalDigits]
  split_ifs
  · simp
  · exact fun d hd => Nat.digits_lt_base (by omega) hd

theorem ofDigits_decimalDigits (n : ℕ) : Nat.ofDigits 10 (decimalDigits n) = n := by
  rw [decimalDigits]
  split_ifs with h
  · simp [h]
  · exact Nat.ofDigits_digits 10 n

theorem digitChar_val {d : ℕ} (h : d < 10) : (digitChar d).val = 48 + d := by
  have hlt : 48 + d < 0x110000 := by omega
  simp [digitChar, Nat.mod_eq_of_lt hlt]

theorem isDigit_digitChar {d : ℕ} (h : d < 10) : isDigit (digitChar d) = true := by
  simp only [isDigit, digitChar_val h, Bool.and_eq_true, decide_eq_true_eq]
  omega

theorem isDigit_of_mem_decimal {n : ℕ} {c : PyChar} (hc : c ∈ decimal n) : isDigit c = true := by
  obtain ⟨d, hd, rfl⟩ := List.mem_map.mp hc
  exact isDigit_digitChar (decimalDigits_lt n d (List.mem_reverse.mp hd))

theorem ofDecimal_decimal (n : ℕ) : ofDecimal (decimal n) = n := by
  have hback : (decimal n).reverse.map (fun c => c.val - 48) = decimalDigits n := by
    rw [decimal, ← List.map_reverse, List.reverse_reverse, List.map_map]
    refine (List.map_congr_left fun d hd => ?_).trans (List.map_id _)
    simp only [Function.comp_apply, digitChar_val (decimalDigits_lt n d hd), id]
    omega
  rw [ofDecimal, hback, ofDigits_decimalDigits]

theorem decimal_isWhole (n : ℕ) : IsWhole (decimal n) := by
  by_cases hn : n = 0
  · subst hn
    exact ⟨digitChar 0, [], rfl, isDigit_digitChar (by omega), fun _ => rfl, by simp⟩
  · -- the digit of highest value comes first, and is not zero
    have hlast := Nat.getLast_digit_ne_zero 10 hn
    have hne : Nat.digits 10 n ≠ [] := Nat.digits_ne_nil_iff_ne_zero.mpr hn
    have hds : decimalDigits n = Nat.digits 10 n := if_neg hn
    have hcons : (decimalDigits n).reverse =
        (Nat.digits 10 n).getLast hne :: (Nat.digits 10 n).dropLast.reverse := by
      rw [hds]
      conv_lhs => rw [← List.dropLast_append_getLast hne]
      rw [List.reverse_append, List.reverse_singleton, List.singleton_append]
    have hlt : (Nat.digits 10 n).getLast hne < 10 := Nat.digits_lt_base (by omega) (List.getLast_mem hne)
    have hdecimal : decimal n = digitChar ((Nat.digits 10 n).getLast hne) ::
        (Nat.digits 10 n).dropLast.reverse.map digitChar := by
      rw [decimal, hcons, List.map_cons]
    refine ⟨_, _, hdecimal, isDigit_digitChar hlt, fun h => ?_, fun d hd => ?_⟩
    · rw [digitChar_val hlt] at h
      omega
    · exact isDigit_of_mem_decimal (hdecimal ▸ List.mem_cons_of_mem _ hd)

end TenantRag

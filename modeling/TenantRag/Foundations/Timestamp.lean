import TenantRag.Foundations.Decimal

/-!
# Timestamps

`datetime.now(timezone.utc).isoformat(timespec="milliseconds").replace("+00:00", "Z")`,
and `datetime.fromisoformat(t.replace("Z", "+00:00"))`, of which it is asked whether
it reads the text and whether what it reads has a timezone. `fromisoformat` reads
what `isoformat` writes; which other texts it reads is a parameter.

## What is proved

* `textReplace_append`, `textReplace_self` — replacing what is not in front, and what is all there is.
* `fromIsoFormat_timestamp` — a timestamp is read back, with a timezone.
-/

namespace TenantRag

/-! ### Replacing -/

/-- `t.replace(old, new)` for a nonempty `old`, looking at no more than `n` places. -/
def textReplaceAux (old new : Text) : ℕ → Text → Text
  | 0, t => t
  | _ + 1, [] => []
  | n + 1, c :: cs =>
      if old.isPrefixOf (c :: cs) then new ++ textReplaceAux old new n ((c :: cs).drop old.length)
      else c :: textReplaceAux old new n cs

/-- `t.replace(old, new)` for a nonempty `old`. -/
def textReplace (old new t : Text) : Text := textReplaceAux old new t.length t

theorem textReplaceAux_append {c : PyChar} {old new s : Text} (h : c ∉ s) (n : ℕ) (t : Text) :
    textReplaceAux (c :: old) new (s.length + n) (s ++ t) = s ++ textReplaceAux (c :: old) new n t := by
  induction s with
  | nil => rw [List.length_nil, Nat.zero_add, List.nil_append, List.nil_append]
  | cons d s ih =>
    rw [List.mem_cons, not_or] at h
    have hp : ¬ (c :: old).isPrefixOf (d :: (s ++ t)) = true := by
      rw [List.isPrefixOf_cons_cons, Bool.and_eq_true, beq_iff_eq]
      exact fun hcd => h.1 hcd.1
    rw [List.length_cons, Nat.add_right_comm, List.cons_append, textReplaceAux, if_neg hp, ih h.2, List.cons_append]

/-- Where the first code point of `old` does not occur, nothing is replaced. -/
theorem textReplace_append {c : PyChar} {old new s : Text} (h : c ∉ s) (t : Text) :
    textReplace (c :: old) new (s ++ t) = s ++ textReplace (c :: old) new t := by
  rw [textReplace, textReplace, List.length_append, textReplaceAux_append h]

theorem textReplaceAux_nil (old new : Text) (n : ℕ) : textReplaceAux old new n [] = [] := by
  cases n <;> rfl

theorem textReplace_self (c : PyChar) (old new : Text) : textReplace (c :: old) new (c :: old) = new := by
  have hp : (c :: old).isPrefixOf (c :: old) = true := List.isPrefixOf_iff_prefix.mpr (List.prefix_refl _)
  rw [textReplace, List.length_cons, textReplaceAux, if_pos hp, List.drop_length, textReplaceAux_nil, List.append_nil]

/-! ### Writing -/

/-- The days of a month. -/
def daysInMonth (year month : ℕ) : ℕ :=
  if month = 2 then (if year % 4 = 0 ∧ (year % 100 ≠ 0 ∨ year % 400 = 0) then 29 else 28)
  else if month = 4 ∨ month = 6 ∨ month = 9 ∨ month = 11 then 30
  else 31

/-- A `datetime` of UTC. -/
structure UtcTime where
  /-- `year`. -/
  year : ℕ
  /-- `month`. -/
  month : ℕ
  /-- `day`. -/
  day : ℕ
  /-- `hour`. -/
  hour : ℕ
  /-- `minute`. -/
  minute : ℕ
  /-- `second`. -/
  second : ℕ
  /-- `microsecond`. -/
  microsecond : ℕ
  /-- There is such a date. -/
  date : 1 ≤ year ∧ year ≤ 9999 ∧ 1 ≤ month ∧ month ≤ 12 ∧ 1 ≤ day ∧ day ≤ daysInMonth year month
  /-- There is such a time. -/
  time : hour < 24 ∧ minute < 60 ∧ second < 60 ∧ microsecond < 1000000

/-- A number with `k` digits, zeros in front. -/
def zeroPadded : ℕ → ℕ → Text
  | 0, _ => []
  | k + 1, n => digitChar (n / 10 ^ k) :: zeroPadded k (n % 10 ^ k)

/-- `"+00:00"`. -/
def utcOffset : Text := [43, 48, 48, 58, 48, 48]

/-- `isoformat(timespec="milliseconds")`, without the offset. -/
def UtcTime.isoformat (t : UtcTime) : Text :=
  zeroPadded 4 t.year ++ (45 :: (zeroPadded 2 t.month ++ (45 :: (zeroPadded 2 t.day ++ (84 ::
    (zeroPadded 2 t.hour ++ (58 :: (zeroPadded 2 t.minute ++ (58 :: (zeroPadded 2 t.second ++
      (46 :: zeroPadded 3 (t.microsecond / 1000))))))))))))

/-- `_timestamp()` at a time. -/
def timestamp (t : UtcTime) : Text := textReplace utcOffset [90] (t.isoformat ++ utcOffset)

/-! ### Reading -/

/-- The number of the `k` digits here, behind digits of a given value. -/
def readDigits : ℕ → ℕ → Text → Option (ℕ × Text)
  | 0, acc, t => some (acc, t)
  | _ + 1, _, [] => none
  | k + 1, acc, c :: cs => if isDigit c then readDigits k (10 * acc + (c.val - 48)) cs else none

/-- The text behind a code point. -/
def readChar (c : PyChar) : Text → Option Text
  | [] => none
  | d :: cs => if d = c then some cs else none

/-- The number of the `k` digits here, with the code point behind them. -/
def readField (k : ℕ) (c : PyChar) (t : Text) : Option (ℕ × Text) := do
  let (n, r) ← readDigits k 0 t
  let r ← readChar c r
  pure (n, r)

/-- The text is what `isoformat(timespec="milliseconds")` writes for a time of UTC. -/
def isIsoFormat (t : Text) : Bool :=
  ((do
    let (year, t) ← readField 4 45 t
    let (month, t) ← readField 2 45 t
    let (day, t) ← readField 2 84 t
    let (hour, t) ← readField 2 58 t
    let (minute, t) ← readField 2 58 t
    let (second, t) ← readField 2 46 t
    let (_, t) ← readDigits 3 0 t
    pure (decide ((1 ≤ year ∧ 1 ≤ month ∧ month ≤ 12 ∧ 1 ≤ day ∧ day ≤ daysInMonth year month) ∧
      (hour < 24 ∧ minute < 60 ∧ second < 60) ∧ t = utcOffset)) : Option Bool)).getD false

/-- `datetime.fromisoformat(t)`: whether what it reads has a timezone. -/
def fromIsoFormat (others : Text → Option Bool) (t : Text) : Option Bool := if isIsoFormat t then some true else others t

/-- A number with zeros in front is read back. -/
theorem readDigits_zeroPadded {k : ℕ} (acc : ℕ) {n : ℕ} (h : n < 10 ^ k) (r : Text) :
    readDigits k acc (zeroPadded k n ++ r) = some (acc * 10 ^ k + n, r) := by
  induction k generalizing acc n with
  | zero =>
    rw [pow_zero, Nat.lt_one_iff] at h
    rw [zeroPadded, List.nil_append, readDigits, h, pow_zero, Nat.mul_one, Nat.add_zero]
  | succ k ih =>
    have hpos : 0 < 10 ^ k := Nat.pow_pos (by decide)
    have hdigit : n / 10 ^ k < 10 := Nat.div_lt_of_lt_mul (by rwa [pow_succ] at h)
    have hvalue : (10 * acc + n / 10 ^ k) * 10 ^ k + n % 10 ^ k = acc * 10 ^ (k + 1) + n := by
      rw [Nat.add_mul, Nat.add_assoc, Nat.div_add_mod', pow_succ]
      ring
    rw [zeroPadded, List.cons_append, readDigits, if_pos (isDigit_digitChar hdigit), digitChar_val hdigit,
      Nat.add_sub_cancel_left, ih _ (Nat.mod_lt n hpos), hvalue]

theorem readField_zeroPadded {k n : ℕ} (h : n < 10 ^ k) (c : PyChar) (r : Text) :
    readField k c (zeroPadded k n ++ c :: r) = some (n, r) := by
  have hread : readDigits k 0 (zeroPadded k n ++ c :: r) = some (n, c :: r) := by
    rw [readDigits_zeroPadded 0 h, Nat.zero_mul, Nat.zero_add]
  have hchar : readChar c (c :: r) = some r := if_pos rfl
  rw [readField, hread]
  show (readChar c (c :: r)).bind _ = _
  rw [hchar]
  rfl

theorem daysInMonth_le (year month : ℕ) : daysInMonth year month ≤ 31 := by
  rw [daysInMonth]
  split_ifs <;> omega

theorem isIsoFormat_isoformat (t : UtcTime) : isIsoFormat (t.isoformat ++ utcOffset) = true := by
  obtain ⟨hyear, hyear', hmonth, hmonth', hday, hday'⟩ := t.date
  obtain ⟨hhour, hminute, hsecond, hmicro⟩ := t.time
  have hlast := daysInMonth_le t.year t.month
  have hmillis : t.microsecond / 1000 < 10 ^ 3 := by omega
  have hfields : t.year < 10 ^ 4 ∧ t.month < 10 ^ 2 ∧ t.day < 10 ^ 2 ∧ t.hour < 10 ^ 2 ∧ t.minute < 10 ^ 2 ∧
      t.second < 10 ^ 2 := by omega
  simp only [isIsoFormat, UtcTime.isoformat, List.append_assoc, List.cons_append, Option.bind_eq_bind, Option.bind_some,
    readField_zeroPadded hfields.1, readField_zeroPadded hfields.2.1, readField_zeroPadded hfields.2.2.1,
    readField_zeroPadded hfields.2.2.2.1, readField_zeroPadded hfields.2.2.2.2.1,
    readField_zeroPadded hfields.2.2.2.2.2, readDigits_zeroPadded 0 hmillis]
  simp [*]

theorem mem_zeroPadded {k n : ℕ} {c : PyChar} (h : n < 10 ^ k) (hc : c ∈ zeroPadded k n) : isDigit c = true := by
  induction k generalizing n with
  | zero => cases hc
  | succ k ih =>
    rcases List.mem_cons.mp hc with rfl | hc
    · exact isDigit_digitChar (Nat.div_lt_of_lt_mul (by rwa [pow_succ] at h))
    · exact ih (Nat.mod_lt n (Nat.pow_pos (by decide))) hc

/-- What a time is written with: digits, a hyphen, `T`, a colon and a point. -/
theorem mem_isoformat {t : UtcTime} {c : PyChar} (hc : c ∈ t.isoformat) :
    isDigit c = true ∨ c = 45 ∨ c = 84 ∨ c = 58 ∨ c = 46 := by
  obtain ⟨hyear, hyear', hmonth, hmonth', hday, hday'⟩ := t.date
  obtain ⟨hhour, hminute, hsecond, hmicro⟩ := t.time
  have hlast := daysInMonth_le t.year t.month
  have hmillis : t.microsecond / 1000 < 10 ^ 3 := by omega
  simp only [UtcTime.isoformat, List.mem_append, List.mem_cons] at hc
  rcases hc with hc | rfl | hc | rfl | hc | rfl | hc | rfl | hc | rfl | hc | rfl | hc
  all_goals first
    | exact .inl (mem_zeroPadded (by omega) hc)
    | simp

/-- A timestamp ends with the mark of UTC. -/
theorem timestamp_eq (t : UtcTime) : timestamp t = t.isoformat ++ [90] := by
  have hplus : (43 : PyChar) ∉ t.isoformat := by
    intro hc
    have hcases := mem_isoformat hc
    revert hcases
    decide
  rw [timestamp, utcOffset, textReplace_append hplus, textReplace_self]

/-- A timestamp is read back, and it has a timezone. -/
theorem fromIsoFormat_timestamp (others : Text → Option Bool) (t : UtcTime) :
    fromIsoFormat others (textReplace [90] utcOffset (timestamp t)) = some true := by
  have hmark : (90 : PyChar) ∉ t.isoformat := by
    intro hc
    have hcases := mem_isoformat hc
    revert hcases
    decide
  rw [timestamp_eq, textReplace_append hmark, textReplace_self, fromIsoFormat, if_pos (isIsoFormat_isoformat t)]

end TenantRag

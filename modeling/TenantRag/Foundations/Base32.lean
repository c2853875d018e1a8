import Mathlib.Algebra.Group.Nat.Defs
import Mathlib.Data.List.DropRight
import TenantRag.Foundations.PyText
import TenantRag.Foundations.Result
import TenantRag.Foundations.PyError

/-!
# Base32

`base64.b32encode` and `base64.b32decode`: five bytes are eight digits of five bits,
and a last group of fewer bytes is filled with zero bits and padded with `=`. Reading
ignores the bits that were filled in.

## The model

* `b32encode` — the digits, padded to a multiple of eight.
* `b32decode` — the bytes, where the length and the characters are right.

## What is proved

* `b32encode_eq` — an encoding is its digits and the padding that makes the length a multiple of eight.
* `b32decode_b32encode` — an encoding is decoded to the bytes.
-/

namespace TenantRag

/-! ### Digits -/

/-- The character of a digit, of `ABCDEFGHIJKLMNOPQRSTUVWXYZ234567`. -/
def base32Char (d : ℕ) : PyChar := Fin.ofNat _ (if d < 26 then 65 + d else 24 + d)

/-- What `[A-Z2-7]` matches. -/
def isBase32Char (c : PyChar) : Bool := (65 ≤ c.val && c.val ≤ 90) || (50 ≤ c.val && c.val ≤ 55)

/-- The digit of a character. -/
def base32Digit (c : PyChar) : Except PyError ℕ :=
  if 65 ≤ c.val ∧ c.val ≤ 90 then .ok (c.val - 65)
  else if 50 ≤ c.val ∧ c.val ≤ 55 then .ok (c.val - 24)
  else .error (valueError "Non-base32 digit found")

/-- The padding character. -/
def isPad (c : PyChar) : Bool := c.val == 61

theorem base32Char_val {d : ℕ} (h : d < 32) : (base32Char d).val = if d < 26 then 65 + d else 24 + d := by
  have hlt : (if d < 26 then 65 + d else 24 + d) < 0x110000 := by split_ifs <;> omega
  simp only [base32Char, Fin.ofNat, Nat.mod_eq_of_lt hlt]

theorem base32Digit_base32Char {d : ℕ} (h : d < 32) : base32Digit (base32Char d) = .ok d := by
  rw [base32Digit, base32Char_val h]
  by_cases hletter : d < 26
  · rw [if_pos hletter, if_pos (by omega), Nat.add_sub_cancel_left]
  · rw [if_neg hletter, if_neg (by omega), if_pos (by omega), Nat.add_sub_cancel_left]

theorem isBase32Char_base32Char {d : ℕ} (h : d < 32) : isBase32Char (base32Char d) = true := by
  simp only [isBase32Char, base32Char_val h, Bool.or_eq_true, Bool.and_eq_true, decide_eq_true_eq]
  split_ifs <;> omega

theorem not_isPad_of_isBase32Char {c : PyChar} (h : isBase32Char c = true) : isPad c = false := by
  simp only [isBase32Char, Bool.or_eq_true, Bool.and_eq_true, decide_eq_true_eq] at h
  simp only [isPad, beq_eq_false_iff_ne]
  omega

/-! ### Groups -/

/-- The number of a group of five bytes. -/
def groupNumber (a b c d e : ℕ) : ℕ := a * 4294967296 + b * 16777216 + c * 65536 + d * 256 + e

/-- `acc.to_bytes(5)`. -/
def groupBytes (n : ℕ) : List ℕ :=
  [n / 4294967296 % 256, n / 16777216 % 256, n / 65536 % 256, n / 256 % 256, n % 256]

/-- The eight digits of a group. -/
def groupDigits (n : ℕ) : List ℕ :=
  [n / 34359738368 % 32, n / 1073741824 % 32, n / 33554432 % 32, n / 1048576 % 32, n / 32768 % 32, n / 1024 % 32,
    n / 32 % 32, n % 32]

/-- The digits of some bytes, where the last group is filled with zeros and loses the digits that are zero. -/
def base32Digits : List ℕ → List ℕ
  | a :: b :: c :: d :: e :: rest => groupDigits (groupNumber a b c d e) ++ base32Digits rest
  | [] => []
  | [a] => (groupDigits (groupNumber a 0 0 0 0)).take 2
  | [a, b] => (groupDigits (groupNumber a b 0 0 0)).take 4
  | [a, b, c] => (groupDigits (groupNumber a b c 0 0)).take 5
  | [a, b, c, d] => (groupDigits (groupNumber a b c d 0)).take 7

/-- How many padding characters stand behind the digits of some bytes. -/
def padLength : List ℕ → ℕ
  | _ :: _ :: _ :: _ :: _ :: rest => padLength rest
  | [] => 0
  | [_] => 6
  | [_, _] => 4
  | [_, _, _] => 3
  | [_, _, _, _] => 1

/-- `base64.b32encode`, as a text. -/
def b32encode (bytes : List ℕ) : Text :=
  (base32Digits bytes).map base32Char ++ List.replicate (padLength bytes) 61

/-- The number of up to eight digits. -/
def digitsNumber (digits : List ℕ) : ℕ := digits.foldl (fun acc d => acc * 32 + d) 0

/-- The bytes of some digits, where the last group lacks as many digits as there are padding characters. -/
def base32Bytes (padChars : ℕ) : List ℕ → List ℕ
  | a :: b :: c :: d :: e :: f :: g :: h :: rest =>
      groupBytes (digitsNumber [a, b, c, d, e, f, g, h]) ++ base32Bytes padChars rest
  | [] => []
  | last => (groupBytes (digitsNumber last * 2 ^ (5 * padChars))).take ((43 - 5 * padChars) / 8)

/-- `base64.b32decode`. -/
def b32decode (s : Text) : Except PyError (List ℕ) := do
  if s.length % 8 ≠ 0 then throw (valueError "Incorrect padding")
  let stripped := s.rdropWhile isPad
  let padChars := s.length - stripped.length
  let digits ← stripped.mapM base32Digit
  if padChars ∉ [0, 1, 3, 4, 6] then throw (valueError "Incorrect padding")
  return base32Bytes padChars digits

/-! ### Reading what was written -/

theorem groupDigits_lt {n : ℕ} : ∀ d ∈ groupDigits n, d < 32 := by
  simp only [groupDigits, List.forall_mem_cons, List.not_mem_nil, false_implies, implies_true, and_true]
  omega

theorem base32Digits_lt (bytes : List ℕ) : ∀ d ∈ base32Digits bytes, d < 32 := by
  fun_induction base32Digits bytes with
  | case1 a b c d e rest ih =>
    rw [List.forall_mem_append]
    exact ⟨groupDigits_lt, ih⟩
  | case2 => simp
  | _ => exact fun d hd => groupDigits_lt d (List.mem_of_mem_take hd)

/-- The digits and the padding make up groups of eight. -/
theorem length_base32Digits (bytes : List ℕ) :
    ((base32Digits bytes).length + padLength bytes) % 8 = 0 ∧ padLength bytes < 8 ∧
      padLength bytes ∈ [0, 1, 3, 4, 6] := by
  fun_induction base32Digits bytes with
  | case1 a b c d e rest ih =>
    rw [padLength, List.length_append, Nat.add_assoc, groupDigits]
    obtain ⟨hmod, hlt, hmem⟩ := ih
    refine ⟨?_, hlt, hmem⟩
    simp only [List.length_cons, List.length_nil]
    omega
  | _ => simp [padLength, groupDigits]

/-- An encoding is its digits with the padding that makes the length a multiple of eight. -/
theorem b32encode_eq (bytes : List ℕ) :
    b32encode bytes = (base32Digits bytes).map base32Char ++
      List.replicate ((8 - ((base32Digits bytes).map base32Char).length % 8) % 8) 61 := by
  obtain ⟨hmod, hlt, -⟩ := length_base32Digits bytes
  have hpad : padLength bytes = (8 - ((base32Digits bytes).map base32Char).length % 8) % 8 := by
    rw [List.length_map]
    omega
  rw [b32encode, hpad]

/-- Without its padding an encoding is its digits. -/
theorem rstrip_b32encode (bytes : List ℕ) :
    (b32encode bytes).rdropWhile isPad = (base32Digits bytes).map base32Char := by
  have hpads : ∀ n, ((base32Digits bytes).map base32Char ++ List.replicate n 61).rdropWhile isPad =
      ((base32Digits bytes).map base32Char).rdropWhile isPad := by
    intro n
    induction n with
    | zero => rw [List.replicate_zero, List.append_nil]
    | succ n ih =>
      rw [List.replicate_succ', ← List.append_assoc, List.rdropWhile_concat_pos _ _ _ (by decide), ih]
  rw [b32encode, hpads, List.rdropWhile_eq_self_iff]
  intro hne
  obtain ⟨d, hd, hlast⟩ := List.mem_map.mp (List.getLast_mem hne)
  rw [← hlast, not_isPad_of_isBase32Char (isBase32Char_base32Char (base32Digits_lt bytes d hd))]
  decide

/-- The number of eight digits of a group is the number of the group. -/
theorem digitsNumber_groupDigits {n : ℕ} (h : n < 1099511627776) : digitsNumber (groupDigits n) = n := by
  simp only [digitsNumber, groupDigits, List.foldl_cons, List.foldl_nil]
  omega

theorem groupBytes_groupNumber {a b c d e : ℕ} (ha : a < 256) (hb : b < 256) (hc : c < 256) (hd : d < 256) (he : e < 256) :
    groupBytes (groupNumber a b c d e) = [a, b, c, d, e] := by
  simp only [groupBytes, groupNumber, List.cons.injEq, and_true]
  omega

theorem groupNumber_lt {a b c d e : ℕ} (ha : a < 256) (hb : b < 256) (hc : c < 256) (hd : d < 256) (he : e < 256) :
    groupNumber a b c d e < 1099511627776 := by
  rw [groupNumber]
  omega

/-- The first digits of a group, filled up with zeros, are the number, if it is a multiple of what is filled up. -/
theorem digitsNumber_take {n k : ℕ} (hk : k ∈ [2, 4, 5, 7]) (h : n < 1099511627776) (hdiv : n % 2 ^ (5 * (8 - k)) = 0) :
    digitsNumber ((groupDigits n).take k) * 2 ^ (5 * (8 - k)) = n := by
  simp only [List.mem_cons, List.not_mem_nil, or_false] at hk
  rcases hk with rfl | rfl | rfl | rfl
  all_goals
    simp only [digitsNumber, groupDigits, List.take_succ_cons, List.take_zero, List.foldl_cons, List.foldl_nil,
      Nat.reduceSub, Nat.reduceMul, Nat.reducePow] at hdiv ⊢
    omega

/-- The bytes of a group that is not full. -/
theorem base32Bytes_short {padChars : ℕ} {last : List ℕ} (hne : last ≠ []) (h : last.length < 8) :
    base32Bytes padChars last = (groupBytes (digitsNumber last * 2 ^ (5 * padChars))).take ((43 - 5 * padChars) / 8) := by
  unfold base32Bytes
  split
  · simp only [List.length_cons] at h
    omega
  · exact absurd rfl hne
  · rfl

/-- A group of fewer bytes than five is read back. -/
theorem base32Bytes_take {a b c d k : ℕ} (hk : k ∈ [2, 4, 5, 7]) (ha : a < 256) (hb : b < 256) (hc : c < 256) (hd : d < 256)
    (hdiv : groupNumber a b c d 0 % 2 ^ (5 * (8 - k)) = 0) :
    base32Bytes (8 - k) ((groupDigits (groupNumber a b c d 0)).take k) = [a, b, c, d, 0].take ((43 - 5 * (8 - k)) / 8) := by
  have hshort : 0 < k ∧ k < 8 := by
    simp only [List.mem_cons, List.not_mem_nil, or_false] at hk
    omega
  have hlength : ((groupDigits (groupNumber a b c d 0)).take k).length = k := by
    rw [List.length_take, groupDigits]
    simp only [List.length_cons, List.length_nil]
    omega
  rw [base32Bytes_short (List.ne_nil_of_length_pos (by rw [hlength]; exact hshort.1)) (by rw [hlength]; exact hshort.2),
    digitsNumber_take hk (groupNumber_lt ha hb hc hd (by decide)) hdiv, groupBytes_groupNumber ha hb hc hd (by decide)]

/-- The digits of some bytes are read back as the bytes. -/
theorem base32Bytes_base32Digits {bytes : List ℕ} (h : ∀ b ∈ bytes, b < 256) :
    base32Bytes (padLength bytes) (base32Digits bytes) = bytes := by
  fun_induction base32Digits bytes with
  | case1 a b c d e rest ih =>
    simp only [List.forall_mem_cons] at h
    obtain ⟨ha, hb, hc, hd, he, hrest⟩ := h
    have hnumber := digitsNumber_groupDigits (groupNumber_lt ha hb hc hd he)
    simp only [groupDigits] at hnumber
    simp only [groupDigits, List.cons_append, List.nil_append, base32Bytes, hnumber, padLength,
      groupBytes_groupNumber ha hb hc hd he, ih hrest]
  | case2 => rfl
  | case3 a =>
    simp only [List.forall_mem_cons] at h
    exact base32Bytes_take (k := 2) (by decide) h.1 (by decide) (by decide) (by decide) (by rw [groupNumber]; omega)
  | case4 a b =>
    simp only [List.forall_mem_cons] at h
    exact base32Bytes_take (k := 4) (by decide) h.1 h.2.1 (by decide) (by decide) (by rw [groupNumber]; omega)
  | case5 a b c =>
    simp only [List.forall_mem_cons] at h
    exact base32Bytes_take (k := 5) (by decide) h.1 h.2.1 h.2.2.1 (by decide) (by rw [groupNumber]; omega)
  | case6 a b c d =>
    simp only [List.forall_mem_cons] at h
    exact base32Bytes_take (k := 7) (by decide) h.1 h.2.1 h.2.2.1 h.2.2.2.1 (by rw [groupNumber]; omega)

/-- An encoding is decoded to the bytes. -/
theorem b32decode_b32encode {bytes : List ℕ} (h : ∀ b ∈ bytes, b < 256) : b32decode (b32encode bytes) = .ok bytes := by
  obtain ⟨hmod, hlt, hmem⟩ := length_base32Digits bytes
  have hlength : (b32encode bytes).length = (base32Digits bytes).length + padLength bytes := by
    rw [b32encode, List.length_append, List.length_map, List.length_replicate]
  have hpad : (b32encode bytes).length - ((base32Digits bytes).map base32Char).length = padLength bytes := by
    rw [hlength, List.length_map]
    omega
  have hdigits : ((base32Digits bytes).map base32Char).mapM base32Digit = .ok (base32Digits bytes) := by
    rw [mapM_eq_ok_iff, List.forall₂_map_left_iff, List.forall₂_same]
    exact fun d hd => base32Digit_base32Char (base32Digits_lt bytes d hd)
  have hmod' : (b32encode bytes).length % 8 = 0 := by rw [hlength, hmod]
  simp only [b32decode, rstrip_b32encode, hpad, hdigits, hmod', hmem, bind, Except.bind, pure, Except.pure, ne_eq,
    not_true_eq_false, if_false, base32Bytes_base32Digits h]

end TenantRag

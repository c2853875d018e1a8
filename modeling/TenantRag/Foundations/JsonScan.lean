import TenantRag.Foundations.JsonText

/-!
# Scanning JSON strings and numbers

What the scanner of `json.loads` makes of a string or a number that `json.dumps`
wrote, with any text behind it that does not continue it.

A text with a high surrogate right before a low one is written as the code point
that the two stand for, and is not read back; every other text is.

## What is proved

* `scanString_escape` — a text without such a pair is read back from its escapes.
* `scanNumber_int`, `scanNumber_float` — numbers are read back from their representation.
-/

namespace TenantRag

/-- A high surrogate. -/
def isHighSurrogate (c : PyChar) : Bool := 0xD800 ≤ c.val && c.val ≤ 0xDBFF

/-- A low surrogate. -/
def isLowSurrogate (c : PyChar) : Bool := 0xDC00 ≤ c.val && c.val ≤ 0xDFFF

/-- No high surrogate stands right before a low one. -/
def Unpaired (t : Text) : Prop := t.IsChain fun c d => ¬ (isHighSurrogate c = true ∧ isLowSurrogate d = true)

theorem unpaired_of_encodable {t : Text} (h : encodable t = true) : Unpaired t := by
  rw [encodable, List.all_eq_true] at h
  refine List.Pairwise.isChain (List.pairwise_of_forall_mem_list fun c hc d _ hpair => ?_)
  have hc' := h c hc
  simp only [isSurrogate, Bool.not_eq_true', Bool.and_eq_false_iff, decide_eq_false_iff_not] at hc'
  simp only [isHighSurrogate, Bool.and_eq_true, decide_eq_true_eq] at hpair
  omega

namespace Json

variable {F : Type} [PyFloat F]

/-! ### Escapes -/

omit [PyFloat F] in
theorem digitOfChar_hexChar_ofNat (n : ℕ) : digitOfChar (hexChar (Fin.ofNat 16 n)) = some (Fin.ofNat 16 n) :=
  digitOfChar_hexChar _

/-- The four digits of a unit are read back. -/
theorem scanUnit_unitDigits {n : ℕ} (h : n < 0x10000) (r : Text) : scanUnit (unitDigits n ++ r) = some (n, r) := by
  simp only [unitDigits, List.cons_append, List.nil_append, scanUnit, digitOfChar_hexChar_ofNat, Fin.val_ofNat]
  congr 2
  omega

theorem charOf_val (c : PyChar) : charOf c.val = c := by
  apply Fin.ext
  simp [charOf]

/-- A high surrogate before this text is read by itself. -/
def EndsUnit (t : Text) : Prop :=
  dropWord [92, 117] t = none ∨
    ∃ behind low r, dropWord [92, 117] t = some behind ∧ scanUnit behind = some (low, r) ∧ ¬ (0xDC00 ≤ low ∧ low ≤ 0xDFFF)

theorem dropWord_append (word t : Text) : dropWord word (word ++ t) = some t := by
  have hp : word.isPrefixOf (word ++ t) = true := List.isPrefixOf_iff_prefix.mpr (List.prefix_append _ _)
  rw [dropWord, if_pos hp, List.drop_left]

theorem dropWord_eq_none {c d : PyChar} {word t : Text} (h : c ≠ d) : dropWord (c :: word) (d :: t) = none := by
  have hp : ¬ (c :: word).isPrefixOf (d :: t) = true := by
    rw [List.isPrefixOf_cons_cons, Bool.and_eq_true, beq_iff_eq]
    exact fun hcd => h hcd.1
  rw [dropWord, if_neg hp]

/-- The escape of a unit below the surrogates' pairs is read back. -/
theorem scanEscape_unit {c : PyChar} (hc : c.val < 0x10000) {r : Text} (hr : isHighSurrogate c = true → EndsUnit r) :
    scanEscape (117 :: (unitDigits c.val ++ r)) = some (c, r) := by
  have hu : (117 : PyChar).val = 117 := rfl
  rw [scanEscape, if_pos hu, scanUnit_unitDigits hc]
  dsimp only
  by_cases hhigh : 0xD800 ≤ c.val ∧ c.val ≤ 0xDBFF
  case neg =>
    rw [if_neg hhigh, charOf_val]
  rw [if_pos hhigh]
  rcases hr (by simpa [isHighSurrogate] using hhigh) with hnone | ⟨behind, low, r', hbehind, hlow, hrange⟩
  · rw [hnone]
    dsimp only
    rw [charOf_val]
  · rw [hbehind]
    dsimp only
    rw [hlow]
    dsimp only
    rw [if_neg hrange, charOf_val]

/-- The escapes of a high and a low surrogate are read as one. -/
theorem scanEscape_pair {high low : ℕ} (hhigh : 0xD800 ≤ high ∧ high ≤ 0xDBFF) (hlow : 0xDC00 ≤ low ∧ low ≤ 0xDFFF)
    (r : Text) : scanEscape (117 :: (unitDigits high ++ (escapeUnit low ++ r))) =
      some (charOf (0x10000 + (high - 0xD800) * 1024 + (low - 0xDC00)), r) := by
  have hu : (117 : PyChar).val = 117 := rfl
  have hdrop : dropWord [92, 117] (escapeUnit low ++ r) = some (unitDigits low ++ r) := dropWord_append [92, 117] _
  rw [scanEscape, if_pos hu, scanUnit_unitDigits (by omega)]
  dsimp only
  rw [if_pos hhigh, hdrop]
  dsimp only
  rw [scanUnit_unitDigits (by omega)]
  dsimp only
  rw [if_pos hlow]

/-- A short escape is read back. -/
theorem scanEscape_short {c e : PyChar} (he : e.val ≠ 117) (hc : shortEscape e = some c) (r : Text) :
    scanEscape (e :: r) = some (c, r) := by
  rw [scanEscape, if_neg he, hc]
  rfl

/-- What stands for a code point: a short escape, the code point itself, or one or two units. -/
theorem escapeChar_cases (c : PyChar) :
    (∃ e, escapeChar c = [92, e] ∧ e.val ≠ 117 ∧ shortEscape e = some c) ∨
      (escapeChar c = [c] ∧ c.val ≠ 34 ∧ c.val ≠ 92 ∧ 32 ≤ c.val ∧ c.val ≤ 126) ∨
      (escapeChar c = escapeUnit c.val ∧ c.val < 0x10000) ∨
      escapeChar c = escapeUnit (0xD800 + (c.val - 0x10000) / 1024) ++ escapeUnit (0xDC00 + (c.val - 0x10000) % 1024) ∧
        ¬ c.val < 0x10000 := by
  have short {n : PyChar} (e : PyChar) (hc : c.val = n.val) (hn : shortEscape e = some n ∧ e.val ≠ 117) :
      ∃ e', [92, e] = [92, e'] ∧ e'.val ≠ 117 ∧ shortEscape e' = some c := by
    obtain rfl : c = n := Fin.ext hc
    exact ⟨e, rfl, hn.2, hn.1⟩
  rw [escapeChar]
  split_ifs with h92 h34 h8 h12 h10 h13 h9 hplain hunit
  · exact .inl (short (n := 92) 92 h92 (by decide))
  · exact .inl (short (n := 34) 34 h34 (by decide))
  · exact .inl (short (n := 8) 98 h8 (by decide))
  · exact .inl (short (n := 12) 102 h12 (by decide))
  · exact .inl (short (n := 10) 110 h10 (by decide))
  · exact .inl (short (n := 13) 114 h13 (by decide))
  · exact .inl (short (n := 9) 116 h9 (by decide))
  · exact .inr (.inl ⟨rfl, h34, h92, hplain⟩)
  · exact .inr (.inr (.inl ⟨rfl, hunit⟩))
  · exact .inr (.inr (.inr ⟨rfl, hunit⟩))

/-- An escape is read behind its backslash. -/
theorem scanStringAux_backslash {c : PyChar} {n : ℕ} {e r : Text} (h : scanEscape e = some (c, r)) :
    scanStringAux (n + 1) (92 :: e) = (scanStringAux n r).map fun p => (c :: p.1, p.2) := by
  rw [scanStringAux, if_neg (by decide), if_pos (by decide), h]

/-- The two escapes of a code point behind the first plane are read back as one. -/
theorem scanEscape_astral {c : PyChar} (hunit : ¬ c.val < 0x10000) (r : Text) :
    scanEscape (117 :: (unitDigits (0xD800 + (c.val - 0x10000) / 1024) ++
      (escapeUnit (0xDC00 + (c.val - 0x10000) % 1024) ++ r))) = some (c, r) := by
  have hlt := c.isLt
  have hhigh : 0xD800 ≤ 0xD800 + (c.val - 0x10000) / 1024 ∧ 0xD800 + (c.val - 0x10000) / 1024 ≤ 0xDBFF := by omega
  have hlow : 0xDC00 ≤ 0xDC00 + (c.val - 0x10000) % 1024 ∧ 0xDC00 + (c.val - 0x10000) % 1024 ≤ 0xDFFF := by omega
  rw [scanEscape_pair hhigh hlow, Nat.add_sub_cancel_left, Nat.add_sub_cancel_left, Nat.add_assoc, Nat.div_add_mod',
    Nat.add_sub_of_le (Nat.le_of_not_lt hunit), charOf_val]

/-- One code point of a string is read back. -/
theorem scanStringAux_escapeChar {c : PyChar} {n : ℕ} {r : Text} (hr : isHighSurrogate c = true → EndsUnit r) :
    scanStringAux (n + 1) (escapeChar c ++ r) = (scanStringAux n r).map fun p => (c :: p.1, p.2) := by
  rcases escapeChar_cases c with ⟨e, he, hne, hshort⟩ | ⟨he, h34, h92, h32, -⟩ | ⟨he, hunit⟩ | ⟨he, hunit⟩
  · rw [he, List.cons_append, List.singleton_append]
    exact scanStringAux_backslash (scanEscape_short hne hshort r)
  · rw [he, List.singleton_append, scanStringAux, if_neg h34, if_neg h92, if_neg (by omega)]
  · rw [he]
    exact scanStringAux_backslash (scanEscape_unit hunit hr)
  · rw [he, List.append_assoc]
    exact scanStringAux_backslash (scanEscape_astral hunit r)

/-- The escape of a unit that is no low surrogate. -/
theorem endsUnit_escapeUnit {n : ℕ} (hn : n < 0x10000) (hlow : ¬ (0xDC00 ≤ n ∧ n ≤ 0xDFFF)) (r : Text) :
    EndsUnit (escapeUnit n ++ r) :=
  .inr ⟨unitDigits n ++ r, n, r, dropWord_append [92, 117] (unitDigits n ++ r), scanUnit_unitDigits hn r, hlow⟩

/-- The text behind a code point that is no low surrogate. -/
theorem endsUnit_escapeChar {d : PyChar} (hd : isLowSurrogate d = false) (r : Text) : EndsUnit (escapeChar d ++ r) := by
  have hnot : ¬ (0xDC00 ≤ d.val ∧ d.val ≤ 0xDFFF) := by simpa [isLowSurrogate] using hd
  rcases escapeChar_cases d with ⟨e, he, hne, -⟩ | ⟨he, -, h92, -⟩ | ⟨he, hunit⟩ | ⟨he, hunit⟩
  · have hp : ¬ ([92, 117] : Text).isPrefixOf (92 :: e :: r) = true := by
      have hne' : ¬ (117 : PyChar) = e := fun h => hne (by rw [← h]; rfl)
      simp [List.isPrefixOf_cons_cons, hne']
    rw [he, List.cons_append, List.singleton_append]
    exact .inl (by rw [dropWord, if_neg hp])
  · rw [he]
    exact .inl (dropWord_eq_none fun h => h92 (by rw [← h]; rfl))
  · rw [he]
    exact endsUnit_escapeUnit hunit hnot r
  · have hlt := d.isLt
    rw [he, List.append_assoc]
    exact endsUnit_escapeUnit (by omega) (by omega) _

theorem endsUnit_quote (r : Text) : EndsUnit (34 :: r) := .inl (dropWord_eq_none (by decide))

/-- A text is read back from its escapes, up to the quote behind them. -/
theorem scanStringAux_escape {t : Text} (h : Unpaired t) {n : ℕ} (hn : t.length < n) (r : Text) :
    scanStringAux n (t.flatMap escapeChar ++ 34 :: r) = some (t, r) := by
  induction t generalizing n with
  | nil =>
    obtain ⟨m, rfl⟩ := Nat.exists_eq_succ_of_ne_zero (Nat.ne_of_gt hn)
    rw [List.flatMap_nil, List.nil_append, scanStringAux, if_pos (by decide)]
  | cons c t ih =>
    obtain ⟨m, rfl⟩ := Nat.exists_eq_succ_of_ne_zero (Nat.ne_of_gt (Nat.zero_lt_of_lt hn))
    have hends : isHighSurrogate c = true → EndsUnit (t.flatMap escapeChar ++ 34 :: r) := by
      intro hhigh
      cases t with
      | nil => exact endsUnit_quote r
      | cons d t =>
        have hd : isLowSurrogate d = false := by
          have hpair := (List.isChain_cons_cons.mp h).1
          simpa [hhigh] using hpair
        rw [List.flatMap_cons, List.append_assoc]
        exact endsUnit_escapeChar hd _
    rw [List.length_cons] at hn
    rw [List.flatMap_cons, List.append_assoc, scanStringAux_escapeChar hends, ih h.tail (by omega)]
    rfl

theorem length_escapeChar_pos (c : PyChar) : 1 ≤ (escapeChar c).length := by
  rcases escapeChar_cases c with ⟨e, he, -, -⟩ | ⟨he, -⟩ | ⟨he, -⟩ | ⟨he, -⟩
  · simp [he]
  · simp [he]
  · simp [he, escapeUnit]
  · simp [he, escapeUnit]

theorem length_le_flatMap_escapeChar (t : Text) : t.length ≤ (t.flatMap escapeChar).length := by
  induction t with
  | nil => exact Nat.zero_le _
  | cons c t ih =>
    have hc := length_escapeChar_pos c
    rw [List.flatMap_cons, List.length_append, List.length_cons]
    omega

/-- A string is read back from what stands between its quotes. -/
theorem scanString_escape {t : Text} (h : Unpaired t) (r : Text) :
    scanString (t.flatMap escapeChar ++ 34 :: r) = some (t, r) := by
  refine scanStringAux_escape h ?_ r
  have hlength := length_le_flatMap_escapeChar t
  rw [List.length_append, List.length_cons]
  omega

/-! ### Numbers -/

/-- What may stand behind a value: nothing, white space, a comma or a closing bracket. -/
def Stops (r : Text) : Prop := ∀ c ∈ r.head?, isJsonSpace c = true ∨ c.val = 44 ∨ c.val = 93 ∨ c.val = 125

theorem stops_nil : Stops [] := by
  intro c hc
  cases hc

theorem stops_cons {c : PyChar} {r : Text} (h : isJsonSpace c = true ∨ c.val = 44 ∨ c.val = 93 ∨ c.val = 125) :
    Stops (c :: r) := by
  intro d hd
  cases hd
  exact h

/-- White space in front of what may stand behind a value may stand there as well. -/
theorem stops_append {s r : Text} (hs : ∀ c ∈ s, isJsonSpace c = true) (hr : Stops r) : Stops (s ++ r) := by
  cases s with
  | nil => exact hr
  | cons c s => exact stops_cons (.inl (hs c List.mem_cons_self))

/-- What does not continue a number: no digit, no point and no mark of an exponent comes first. -/
def Loose (r : Text) : Prop := ∀ c ∈ r.head?, isDigit c = false ∧ c.val ≠ 46 ∧ c.val ≠ 101 ∧ c.val ≠ 69

theorem Stops.loose {r : Text} (h : Stops r) : Loose r := by
  intro c hc
  have hstop := h c hc
  simp only [isJsonSpace, Bool.or_eq_true, decide_eq_true_eq] at hstop
  refine ⟨?_, by omega, by omega, by omega⟩
  rw [isDigit, Bool.and_eq_false_iff, decide_eq_false_iff_not, decide_eq_false_iff_not]
  omega

theorem takeWhile_digits {ds r : Text} (hds : ∀ c ∈ ds, isDigit c = true) (hr : ∀ c ∈ r.head?, isDigit c = false) :
    (ds ++ r).takeWhile isDigit = ds ∧ (ds ++ r).dropWhile isDigit = r := by
  have hrest : r.takeWhile isDigit = [] ∧ r.dropWhile isDigit = r := by
    cases r with
    | nil => exact ⟨rfl, rfl⟩
    | cons c r => simp [hr c rfl]
  rw [List.takeWhile_append_of_pos hds, List.dropWhile_append_of_pos hds, hrest.1, hrest.2, List.append_nil]
  exact ⟨rfl, rfl⟩

theorem scanMinus_sign {sign r : Text} (hsign : sign = [] ∨ sign = [45]) (hr : ∀ c ∈ r.head?, c.val ≠ 45) :
    scanMinus (sign ++ r) = (sign, r) := by
  rcases hsign with rfl | rfl
  · cases r with
    | nil => rfl
    | cons c r => rw [List.nil_append, scanMinus, if_neg (hr c rfl)]
  · rfl

theorem scanWhole_whole {whole r : Text} (hwhole : IsWhole whole) (hr : ∀ c ∈ r.head?, isDigit c = false) :
    scanWhole (whole ++ r) = some (whole, r) := by
  obtain ⟨c, cs, rfl, hc, hzero, hcs⟩ := hwhole
  rw [List.cons_append, scanWhole]
  by_cases h48 : c.val = 48
  · rw [if_pos h48, hzero h48, List.nil_append]
  · obtain ⟨htake, hdrop⟩ := takeWhile_digits hcs hr
    rw [if_neg h48, if_pos hc, htake, hdrop]

theorem scanFraction_fraction {fraction r : Text}
    (hfraction : fraction = [] ∨ ∃ d ds, fraction = 46 :: d :: ds ∧ ∀ c ∈ d :: ds, isDigit c = true)
    (hr : ∀ c ∈ r.head?, isDigit c = false ∧ c.val ≠ 46) : scanFraction (fraction ++ r) = (fraction, r) := by
  rcases hfraction with rfl | ⟨d, ds, rfl, hds⟩
  · cases r with
    | nil => rfl
    | cons c r => rw [List.nil_append, scanFraction, if_neg fun h => (hr c rfl).2 h.1]
  · obtain ⟨htake, hdrop⟩ := takeWhile_digits hds fun c hc => (hr c hc).1
    rw [List.cons_append, scanFraction, htake, hdrop, if_pos ⟨by decide, List.cons_ne_nil _ _⟩]

/-- The parts of a number: a minus or none, digits, a point and digits or none, and the mark of an exponent
with a sign or none and digits, or none. -/
structure NumberParts (sign whole fraction exponent : Text) : Prop where
  /-- The sign is a minus or missing. -/
  isSign : sign = [] ∨ sign = [45]
  /-- The digits do not begin with a zero that others follow. -/
  isWhole : IsWhole whole
  /-- The fraction is missing, or a point and digits. -/
  isFraction : fraction = [] ∨ ∃ d ds, fraction = 46 :: d :: ds ∧ ∀ c ∈ d :: ds, isDigit c = true
  /-- The exponent is missing, or its mark, a sign or none, and digits. -/
  isExponent : exponent = [] ∨ ∃ m s d ds, exponent = m :: (s ++ d :: ds) ∧ (m.val = 101 ∨ m.val = 69) ∧
    (s = [] ∨ ∃ c : PyChar, s = [c] ∧ (c.val = 43 ∨ c.val = 45)) ∧ ∀ c ∈ d :: ds, isDigit c = true

theorem numberParts_float {t sign whole fraction exponent : Text} (h : FloatLiteral t sign whole fraction exponent) :
    NumberParts sign whole fraction exponent where
  isSign := h.isSign
  isWhole := h.isWhole
  isFraction := h.isFraction
  isExponent := by
    rcases h.isExponent with hnone | ⟨s, d, ds, heq, hs, hds⟩
    · exact .inl hnone
    · exact .inr ⟨101, [s], d, ds, heq, .inl rfl, .inr ⟨s, rfl, hs⟩, hds⟩

theorem scanSign_sign {s r : Text} (hs : s = [] ∨ ∃ c : PyChar, s = [c] ∧ (c.val = 43 ∨ c.val = 45))
    (hr : ∀ c ∈ r.head?, isDigit c = true) : scanSign (s ++ r) = (s, r) := by
  rcases hs with rfl | ⟨c, rfl, hc⟩
  · cases r with
    | nil => rfl
    | cons d r =>
      have hd := hr d rfl
      rw [isDigit, Bool.and_eq_true, decide_eq_true_eq, decide_eq_true_eq] at hd
      rw [List.nil_append, scanSign, if_neg (by omega)]
  · exact if_pos hc

theorem scanExponent_exponent {sign whole fraction exponent r : Text} (h : NumberParts sign whole fraction exponent)
    (hr : Loose r) : scanExponent (exponent ++ r) = (exponent, r) := by
  rcases h.isExponent with rfl | ⟨m, s, d, ds, rfl, hm, hs, hds⟩
  · cases r with
    | nil => rfl
    | cons c r =>
      rw [List.nil_append, scanExponent]
      exact if_neg fun h => h.1.elim (hr c rfl).2.2.1 (hr c rfl).2.2.2
  · obtain ⟨htake, hdrop⟩ := takeWhile_digits hds fun c hc => (hr c hc).1
    have hdigits : ∀ c ∈ (d :: ds ++ r).head?, isDigit c = true := by
      rintro c ⟨⟩
      exact hds d List.mem_cons_self
    rw [List.cons_append, List.append_assoc, scanExponent, scanSign_sign hs hdigits]
    dsimp only
    rw [htake, hdrop, if_pos ⟨hm, List.cons_ne_nil _ _⟩]

/-- The first character of a number is a digit or a minus. -/
theorem head_number {sign whole r : Text} (hsign : sign = [] ∨ sign = [45]) (hwhole : IsWhole whole) :
    ∃ c cs, sign ++ (whole ++ r) = c :: cs ∧ (isDigit c = true ∨ c.val = 45) := by
  obtain ⟨c, cs, rfl, hc, -⟩ := hwhole
  rcases hsign with rfl | rfl
  · exact ⟨c, cs ++ r, rfl, .inl hc⟩
  · exact ⟨45, c :: cs ++ r, rfl, .inr rfl⟩

/-- The parts of a number are found, with anything behind it that does not continue it. -/
theorem scanNumber_parts {sign whole fraction exponent r : Text} (h : NumberParts sign whole fraction exponent)
    (hr : Loose r) :
    scanMinus (sign ++ (whole ++ (fraction ++ (exponent ++ r)))) = (sign, whole ++ (fraction ++ (exponent ++ r))) ∧
      scanWhole (whole ++ (fraction ++ (exponent ++ r))) = some (whole, fraction ++ (exponent ++ r)) ∧
      scanFraction (fraction ++ (exponent ++ r)) = (fraction, exponent ++ r) ∧
      scanExponent (exponent ++ r) = (exponent, r) := by
  have hexponentHead : ∀ c ∈ (exponent ++ r).head?, isDigit c = false ∧ c.val ≠ 46 := by
    intro c hc
    rcases h.isExponent with rfl | ⟨m, s, d, ds, rfl, hm, -⟩
    · exact ⟨(hr c hc).1, (hr c hc).2.1⟩
    · cases hc
      refine ⟨?_, by omega⟩
      rw [isDigit, Bool.and_eq_false_iff, decide_eq_false_iff_not, decide_eq_false_iff_not]
      omega
  have hfractionHead : ∀ c ∈ (fraction ++ (exponent ++ r)).head?, isDigit c = false := by
    intro c hc
    rcases h.isFraction with rfl | ⟨d, ds, rfl, -⟩
    · exact (hexponentHead c hc).1
    · cases hc
      decide
  have hwholeHead : ∀ c ∈ (whole ++ (fraction ++ (exponent ++ r))).head?, c.val ≠ 45 := by
    obtain ⟨d, ds, rfl, hd, -⟩ := h.isWhole
    intro c hc
    cases hc
    rw [isDigit, Bool.and_eq_true, decide_eq_true_eq] at hd
    omega
  exact ⟨scanMinus_sign h.isSign hwholeHead, scanWhole_whole h.isWhole hfractionHead,
    scanFraction_fraction h.isFraction hexponentHead, scanExponent_exponent h hr⟩

/-- The sign of an `int`. -/
def intSign (n : ℤ) : Text := if n < 0 then [45] else []

omit [PyFloat F] in
theorem intText_eq (n : ℤ) : intText n = intSign n ++ decimal n.natAbs := by
  rw [intText, intSign]
  split_ifs <;> rfl

omit [PyFloat F] in
theorem intSign_cases (n : ℤ) : intSign n = [] ∨ intSign n = [45] := by
  rw [intSign]
  split_ifs
  · exact .inr rfl
  · exact .inl rfl

/-- An `int` is read back, where `int` takes that many digits. -/
theorem scanNumber_int {n : ℤ} (hn : (decimal n.natAbs).length ≤ intMaxStrDigits) {r : Text} (hr : Stops r) :
    scanNumber (F := F) (intText n ++ r) = some (.int n, r) := by
  obtain ⟨hminus, hwhole, hfraction, hexponent⟩ :=
    scanNumber_parts ⟨intSign_cases n, decimal_isWhole n.natAbs, .inl rfl, .inl rfl⟩ hr.loose
  simp only [List.nil_append] at hminus hwhole hfraction hexponent
  rw [intText_eq, List.append_assoc, scanNumber, hminus]
  simp only [hwhole, hfraction, hexponent, hn, and_self, if_true, ofDecimal_decimal]
  by_cases hneg : n < 0
  · have hsign : intSign n = [45] := if_pos hneg
    rw [hsign, if_neg (by simp)]
    have hval : -(n.natAbs : ℤ) = n := by omega
    rw [hval]
  · have hsign : intSign n = [] := if_neg hneg
    rw [hsign, if_pos rfl]
    have hval : (n.natAbs : ℤ) = n := by omega
    rw [hval]

/-- A finite `float` is read back. -/
theorem scanNumber_float {x : F} (hx : PyFloat.isFinite x = true) {r : Text} (hr : Stops r) :
    scanNumber (PyFloat.repr x ++ r) = some (.num x, r) := by
  obtain ⟨sign, whole, fraction, exponent, h⟩ := PyFloat.repr_literal x hx
  obtain ⟨hminus, hwhole, hfraction, hexponent⟩ := scanNumber_parts (numberParts_float h) hr.loose
  have hparts : PyFloat.repr x ++ r = sign ++ (whole ++ (fraction ++ (exponent ++ r))) := by
    rw [h.parts]
    simp only [List.append_assoc]
  have hreal : ¬ (fraction = [] ∧ exponent = []) := fun hnone => h.isReal.elim (· hnone.1) (· hnone.2)
  rw [hparts, scanNumber, hminus]
  simp only [hwhole, hfraction, hexponent]
  rw [if_neg hreal, ← h.parts, PyFloat.ofText_repr x hx]
  rfl

end Json

end TenantRag

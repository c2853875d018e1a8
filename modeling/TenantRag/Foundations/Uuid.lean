import TenantRag.Foundations.PyText
import Mathlib.Algebra.Group.Nat.Defs
import Mathlib.Data.List.Lex

/-!
# UUIDs

A UUID is its thirty-two hexadecimal digits. `Uuid.str` is `str(UUID(...))`, the
lower-case form with hyphens, and `Uuid.ofText` is `UUID(text)`: it drops `urn:`
and `uuid:`, strips braces, drops hyphens, wants thirty-two code points and
reads them as `int(text, 16)` does, that is with white space around them, a
sign, a `0x` prefix, single underscores between digits and the decimal digits of
other scripts.

## What is proved

* `ofText_str` — reading the canonical form of a UUID gives the UUID back.
* `str_injective` — the canonical form identifies the UUID.
* `strip_str` — the canonical form has no white space around it.
* `ofText_strip` — a text that is a UUID with the white space around it and without is the same UUID.
-/

namespace TenantRag

/-- A hexadecimal digit. -/
abbrev Digit := Fin 16

instance Digit.neZero : @NeZero ℕ .ofOfNat0 16 := ⟨by decide⟩

/-- A UUID: thirty-two hexadecimal digits, the most significant first. -/
structure Uuid where
  /-- The digits. -/
  digits : List Digit
  /-- There are thirty-two. -/
  length_digits : digits.length = 32
  deriving DecidableEq

/-- The lower-case code point of a digit. -/
def hexChar (d : Digit) : PyChar :=
  if h : d.val < 10 then ⟨48 + d.val, by omega⟩ else ⟨87 + d.val, by omega⟩

/-- The digit a code point stands for, if it is one of `0`–`9`, `a`–`f`, `A`–`F`. -/
def digitOfChar (c : PyChar) : Option Digit :=
  if h : 48 ≤ c.val ∧ c.val ≤ 57 then some ⟨c.val - 48, by omega⟩
  else if h : 97 ≤ c.val ∧ c.val ≤ 102 then some ⟨c.val - 87, by omega⟩
  else if h : 65 ≤ c.val ∧ c.val ≤ 70 then some ⟨c.val - 55, by omega⟩
  else none

theorem digitOfChar_hexChar (d : Digit) : digitOfChar (hexChar d) = some d := by
  revert d
  decide

theorem hexChar_injective : Function.Injective hexChar := by
  intro a b h
  have h' := congrArg digitOfChar h
  rw [digitOfChar_hexChar, digitOfChar_hexChar] at h'
  exact Option.some.inj h'

/-- What a lower-case digit is not: white space, a hyphen, a brace, a sign, `u` or `x`. -/
theorem hexChar_plain (d : Digit) :
    isSpace (hexChar d) = false ∧ hexChar d ≠ 45 ∧ hexChar d ≠ 43 ∧ hexChar d ≠ 117 ∧
      hexChar d ≠ 120 ∧ hexChar d ≠ 88 ∧ hexChar d ≠ 123 ∧ hexChar d ≠ 125 := by
  revert d
  decide

/-! ### Reading -/

/-- The digits of an integer literal of base sixteen, with single underscores between
digits; `after` says that a digit came last, so that the literal may end or have an underscore. -/
def digitsOf (after : Bool) : Text → Option (List Digit)
  | [] => if after then some [] else none
  | c :: cs =>
      if after = true ∧ c = 95 then digitsOf false cs
      else
        match digitOfChar c with
        | none => none
        | some d => (digitsOf true cs).map fun ds => d :: ds

/-- The literal without its `0x` prefix and the underscore that may follow it. -/
def dropPrefix : Text → Text
  | 48 :: c :: cs => if c = 120 ∨ c = 88 then (if cs.head? = some 95 then cs.tail else cs) else 48 :: c :: cs
  | t => t

/-- What `int` reads a code point as: white space as a space, a decimal digit as that of ASCII, and a question mark for
what else is not ASCII. -/
def asciiOf (c : PyChar) : PyChar :=
  if c.val < 127 then c
  else if isSpace c then 32
  else
    match h : decimalZeros.find? fun z => z ≤ c.val && c.val ≤ z + 9 with
    | some z => ⟨48 + (c.val - z), by
        have hz := List.find?_some h
        simp only [Bool.and_eq_true, decide_eq_true_eq] at hz
        omega⟩
    | none => 63

/-- The white space of ASCII that `int` takes around a number. -/
def isIntSpace (c : PyChar) : Bool := (9 ≤ c.val && c.val ≤ 13) || c.val == 32

/-- The digits of `int(t, 16)`, if the text is such an integer and it is not negative. -/
def intBase16 (t : Text) : Option (List Digit) :=
  match ((t.map asciiOf).dropWhile isIntSpace).rdropWhile isIntSpace with
  | 43 :: cs => digitsOf false (dropPrefix cs)
  | 45 :: cs => (digitsOf false (dropPrefix cs)).filter fun ds => ds.all (· == 0)
  | cs => digitsOf false (dropPrefix cs)

/-- The thirty-two last digits of a number, with zeros in front. -/
def padded (ds : List Digit) : List Digit := List.replicate (32 - ds.length) 0 ++ ds.take 32

theorem length_padded (ds : List Digit) : (padded ds).length = 32 := by
  simp only [padded, List.length_append, List.length_replicate, List.length_take]
  omega

/-- `UUID(t)`. -/
def Uuid.ofText (t : Text) : Option Uuid :=
  let bare := removeAll [117, 117, 105, 100, 58] (removeAll [117, 114, 110, 58] t)
  let unbraced := (bare.dropWhile fun c => c = 123 ∨ c = 125).rdropWhile fun c => c = 123 ∨ c = 125
  let digits := unbraced.filter fun c => c ≠ 45
  if digits.length = 32 then (intBase16 digits).map fun ds => ⟨padded ds, length_padded ds⟩ else none

/-! ### Writing -/

/-- `str(u)`: groups of 8, 4, 4, 4 and 12 lower-case digits with hyphens between them. -/
def Uuid.str (u : Uuid) : Text :=
  let cs := u.digits.map hexChar
  cs.take 8 ++ 45 :: ((cs.drop 8).take 4 ++ 45 :: ((cs.drop 12).take 4 ++ 45 ::
    ((cs.drop 16).take 4 ++ 45 :: cs.drop 20)))

namespace Uuid

theorem mem_str {u : Uuid} {c : PyChar} (h : c ∈ u.str) : c = 45 ∨ ∃ d, c = hexChar d := by
  have hmem : ∀ {cs : Text}, cs ⊆ u.digits.map hexChar → c ∈ cs → ∃ d, c = hexChar d := by
    intro cs hcs hc
    obtain ⟨d, -, rfl⟩ := List.mem_map.mp (hcs hc)
    exact ⟨d, rfl⟩
  have hdrop : ∀ n m, ((u.digits.map hexChar).drop n).take m ⊆ u.digits.map hexChar := fun n m =>
    ((List.take_sublist _ _).trans (List.drop_sublist _ _)).subset
  simp only [str, List.mem_append, List.mem_cons] at h
  rcases h with h | rfl | h | rfl | h | rfl | h | rfl | h
  · exact .inr (hmem (List.take_sublist _ _).subset h)
  · exact .inl rfl
  · exact .inr (hmem (hdrop 8 4) h)
  · exact .inl rfl
  · exact .inr (hmem (hdrop 12 4) h)
  · exact .inl rfl
  · exact .inr (hmem (hdrop 16 4) h)
  · exact .inl rfl
  · exact .inr (hmem (List.drop_sublist _ _).subset h)

theorem not_mem_str {u : Uuid} {c : PyChar} (hc : c ≠ 45) (hd : ∀ d, hexChar d ≠ c) : c ∉ u.str := by
  intro h
  rcases mem_str h with h | ⟨d, h⟩
  · exact hc h
  · exact hd d h.symm

theorem isSpace_of_mem_str {u : Uuid} {c : PyChar} (h : c ∈ u.str) : isSpace c = false := by
  rcases mem_str h with rfl | ⟨d, rfl⟩
  · decide
  · exact (hexChar_plain d).1

theorem length_str (u : Uuid) : u.str.length = 36 := by
  simp [str, u.length_digits]

theorem str_ne_nil (u : Uuid) : u.str ≠ [] := by
  simp [str]

theorem dropWhile_eq_self {α : Type*} {p : α → Bool} {l : List α} (h : ∀ x ∈ l, p x = false) :
    l.dropWhile p = l := by
  cases l with
  | nil => rfl
  | cons a l => simp [h a (by simp)]

theorem rdropWhile_eq_self {α : Type*} {p : α → Bool} {l : List α} (h : ∀ x ∈ l, p x = false) :
    l.rdropWhile p = l := by
  rw [List.rdropWhile_eq_self_iff]
  intro hne
  simp [h _ (List.getLast_mem hne)]

theorem strip_eq_self_of_all {t : Text} (h : ∀ c ∈ t, isSpace c = false) : strip t = t := by
  rw [strip, dropWhile_eq_self h, rdropWhile_eq_self h]

/-- `str(u).strip() == str(u)`. -/
theorem strip_str (u : Uuid) : strip u.str = u.str := strip_eq_self_of_all fun _ h => isSpace_of_mem_str h

/-- Dropping the hyphens of the canonical form leaves the digits. -/
theorem filter_str (u : Uuid) : u.str.filter (fun c => c ≠ 45) = u.digits.map hexChar := by
  have hself : ∀ {cs : Text}, cs ⊆ u.digits.map hexChar → cs.filter (fun c => decide (c ≠ 45)) = cs := by
    intro cs hcs
    rw [List.filter_eq_self]
    intro c hc
    obtain ⟨d, -, rfl⟩ := List.mem_map.mp (hcs hc)
    simpa using (hexChar_plain d).2.1
  have hdrop : ∀ n m, ((u.digits.map hexChar).drop n).take m ⊆ u.digits.map hexChar := fun n m =>
    ((List.take_sublist _ _).trans (List.drop_sublist _ _)).subset
  have hcons : ∀ cs : Text, (45 :: cs).filter (fun c => decide (c ≠ 45)) =
      cs.filter (fun c => decide (c ≠ 45)) := fun cs => by simp
  simp only [str, List.filter_append, hcons]
  rw [hself (List.take_sublist _ _).subset, hself (hdrop 8 4), hself (hdrop 12 4), hself (hdrop 16 4),
    hself (List.drop_sublist _ _).subset]
  conv_rhs => rw [← List.take_append_drop 8 (u.digits.map hexChar)]
  congr 1
  conv_rhs => rw [← List.take_append_drop 4 ((u.digits.map hexChar).drop 8)]
  rw [List.drop_drop]
  congr 1
  conv_rhs => rw [← List.take_append_drop 4 ((u.digits.map hexChar).drop (8 + 4))]
  rw [List.drop_drop]
  congr 1
  conv_rhs => rw [← List.take_append_drop 4 ((u.digits.map hexChar).drop (8 + 4 + 4))]
  rw [List.drop_drop]

/-- Lower-case digits are read back. -/
theorem digitsOf_map_hexChar : ∀ {ds : List Digit} {after : Bool}, (after = true ∨ ds ≠ []) →
    digitsOf after (ds.map hexChar) = some ds
  | [], after, h => by
      have hafter : after = true := by simpa using h
      simp [digitsOf, hafter]
  | d :: ds, after, _ => by
      have hne : hexChar d ≠ 95 := by
        clear * -
        revert d
        decide
      simp [digitsOf, hne, digitOfChar_hexChar, @digitsOf_map_hexChar ds true (.inl rfl)]

theorem dropPrefix_map_hexChar (ds : List Digit) : dropPrefix (ds.map hexChar) = ds.map hexChar := by
  rcases ds with _ | ⟨d, _ | ⟨d', ds⟩⟩
  · rfl
  · simp only [List.map_cons, List.map_nil]
    unfold dropPrefix
    split
    · rename_i h
      simp at h
    · rfl
  · simp only [List.map_cons]
    unfold dropPrefix
    split
    · rename_i h
      simp only [List.cons.injEq] at h
      obtain ⟨h1, h2, h3⟩ := h
      subst h2 h3
      have hp := hexChar_plain d'
      simp [hp.2.2.2.2.1, hp.2.2.2.2.2.1, h1]
    · rfl

theorem intBase16_map_hexChar {ds : List Digit} (h : ds ≠ []) : intBase16 (ds.map hexChar) = some ds := by
  have hascii : ∀ d, asciiOf (hexChar d) = hexChar d := fun d => if_pos (by revert d; decide)
  have hdigit : ∀ d, isIntSpace (hexChar d) = false := by decide
  have hspace : ∀ c ∈ ds.map hexChar, isIntSpace c = false := by
    intro c hc
    obtain ⟨d, -, rfl⟩ := List.mem_map.mp hc
    exact hdigit d
  have hs : (((ds.map hexChar).map asciiOf).dropWhile isIntSpace).rdropWhile isIntSpace = ds.map hexChar := by
    rw [List.map_map, Function.comp_def, funext hascii, dropWhile_eq_self hspace, rdropWhile_eq_self hspace]
  unfold intBase16
  rw [hs]
  cases ds with
  | nil => exact absurd rfl h
  | cons d ds =>
    have hp := hexChar_plain d
    split
    · rename_i hc
      simp only [List.map_cons, List.cons.injEq] at hc
      exact absurd hc.1 hp.2.2.1
    · rename_i hc
      simp only [List.map_cons, List.cons.injEq] at hc
      exact absurd hc.1 hp.2.1
    · rw [dropPrefix_map_hexChar, digitsOf_map_hexChar (by simp)]

/-- `UUID(str(u)) == u`. -/
theorem ofText_str (u : Uuid) : ofText u.str = some u := by
  have hu : (117 : PyChar) ∉ u.str := not_mem_str (by decide) (by decide)
  have hbrace : ∀ c ∈ u.str, (decide (c = 123 ∨ c = 125)) = false := by
    intro c hc
    rcases mem_str hc with rfl | ⟨d, rfl⟩
    · decide
    · have hp := hexChar_plain d
      simp [hp.2.2.2.2.2.2.1, hp.2.2.2.2.2.2.2]
  have hne : u.digits ≠ [] := by
    intro h
    have := u.length_digits
    simp [h] at this
  simp only [ofText, removeAll_eq_self hu, dropWhile_eq_self hbrace, rdropWhile_eq_self hbrace]
  rw [filter_str, intBase16_map_hexChar hne]
  have hpad : padded u.digits = u.digits := by
    simp [padded, u.length_digits, List.take_of_length_le]
  simp [u.length_digits, hpad]

theorem str_injective : Function.Injective str := by
  intro u v h
  have h' := congrArg ofText h
  rw [ofText_str, ofText_str] at h'
  exact Option.some.inj h'

/-! ### White space -/

section Ends

variable {α : Type*} {q : α → Bool} {xs ys : List α}

theorem dropWhile_append_of_none (hys : ∀ c ∈ ys, q c = false) (t : List α) : (t ++ ys).dropWhile q = t.dropWhile q ++ ys := by
  induction t with
  | nil => exact dropWhile_eq_self hys
  | cons c t ih =>
    rw [List.cons_append, List.dropWhile_cons, List.dropWhile_cons, ih]
    split_ifs <;> rfl

theorem rdropWhile_append_of_none (hxs : ∀ c ∈ xs, q c = false) (t : List α) : (xs ++ t).rdropWhile q = xs ++ t.rdropWhile q := by
  rw [List.rdropWhile, List.reverse_append, dropWhile_append_of_none (by simpa using hxs), List.reverse_append,
    List.reverse_reverse, List.rdropWhile]

theorem sublist_dropWhile_append (hxs : ∀ c ∈ xs, q c = false) (t : List α) : (xs ++ t.dropWhile q).Sublist ((xs ++ t).dropWhile q) := by
  cases xs with
  | nil => exact List.Sublist.refl _
  | cons x xs =>
    rw [List.cons_append, List.cons_append, List.dropWhile_cons_of_neg (by simp [hxs x List.mem_cons_self])]
    exact ((List.Sublist.refl xs).append (List.dropWhile_sublist q)).cons_cons x

theorem sublist_rdropWhile_append (hys : ∀ c ∈ ys, q c = false) (t : List α) :
    (t.rdropWhile q ++ ys).Sublist ((t ++ ys).rdropWhile q) := by
  have h : (ys.reverse ++ t.reverse.dropWhile q).Sublist ((ys.reverse ++ t.reverse).dropWhile q) :=
    sublist_dropWhile_append (by simpa using hys) t.reverse
  rw [← List.reverse_append] at h
  have h' := h.reverse
  rwa [List.reverse_append, List.reverse_reverse] at h'

theorem rdropWhile_sublist_of_suffix {t u : List α} (h : u <:+ t) : (u.rdropWhile q).Sublist (t.rdropWhile q) := by
  obtain ⟨s, rfl⟩ := h
  rw [List.rdropWhile, List.rdropWhile, List.reverse_append, List.dropWhile_append]
  refine List.Sublist.reverse ?_
  split_ifs with hnil
  · rw [List.isEmpty_iff.mp hnil]
    exact List.nil_sublist _
  · exact List.sublist_append_left _ _

/-- Dropping at both ends what does not stand around a list drops no more than it does of the list. -/
theorem sublist_trimmed (hxs : ∀ c ∈ xs, q c = false) (hys : ∀ c ∈ ys, q c = false) (t : List α) :
    (xs ++ ((t.dropWhile q).rdropWhile q ++ ys)).Sublist (((xs ++ (t ++ ys)).dropWhile q).rdropWhile q) := by
  cases xs with
  | nil =>
    rw [List.nil_append, List.nil_append, dropWhile_append_of_none hys]
    exact sublist_rdropWhile_append hys _
  | cons x xs =>
    have hself : ((x :: xs) ++ (t ++ ys)).dropWhile q = (x :: xs) ++ (t ++ ys) :=
      List.dropWhile_cons_of_neg (by simp [hxs x List.mem_cons_self])
    rw [hself, rdropWhile_append_of_none hxs]
    refine (List.Sublist.refl _).append (List.Sublist.trans ?_ (sublist_rdropWhile_append hys t))
    exact (rdropWhile_sublist_of_suffix (List.dropWhile_suffix q)).append (List.Sublist.refl ys)

end Ends

/-- Where a text is a UUID with the white space around it and without, there is none. -/
theorem ofText_strip {t : Text} {u v : Uuid} (h : ofText t = some u) (h' : ofText (strip t) = some v) : u = v := by
  obtain ⟨xs, ys, hxs, hys, ht⟩ := strip_split t
  rw [isBlank_iff] at hxs hys
  have hplain : ∀ p : Text, (∀ c ∈ p, isSpace c = false) → ∀ zs : Text, (∀ c ∈ zs, isSpace c = true) → ∀ c ∈ zs, c ∉ p := by
    intro p hp zs hzs c hc hmem
    have hfalse := hp c hmem
    rw [hzs c hc] at hfalse
    cases hfalse
  have hfree : ∀ zs : Text, (∀ c ∈ zs, isSpace c = true) → ∀ c ∈ zs, (decide (c = 123 ∨ c = 125)) = false := by
    intro zs hzs c hc
    rw [decide_eq_false_iff_not]
    rintro (rfl | rfl)
    · exact absurd (hzs _ hc) (by decide)
    · exact absurd (hzs _ hc) (by decide)
  have hdigits : ∀ zs : Text, (∀ c ∈ zs, isSpace c = true) → zs.filter (fun c => decide (c ≠ 45)) = zs := by
    intro zs hzs
    rw [List.filter_eq_self]
    intro c hc
    rw [decide_eq_true_eq]
    rintro rfl
    exact absurd (hzs _ hc) (by decide)
  have hurn : ∀ c ∈ ([117, 114, 110, 58] : Text), isSpace c = false := by
    simp only [List.forall_mem_cons, List.not_mem_nil, false_implies, implies_true, and_true]
    decide
  have huuid : ∀ c ∈ ([117, 117, 105, 100, 58] : Text), isSpace c = false := by
    simp only [List.forall_mem_cons, List.not_mem_nil, false_implies, implies_true, and_true]
    decide
  suffices hsame : xs = [] ∧ ys = [] by
    obtain ⟨rfl, rfl⟩ := hsame
    rw [List.nil_append, List.append_nil] at ht
    rw [← ht, h] at h'
    exact Option.some.inj h'
  simp only [ofText] at h h'
  split_ifs at h with hlen
  split_ifs at h' with hlen'
  rw [ht, removeAll_between (by decide) (hplain _ hurn xs hxs) (hplain _ hurn ys hys),
    removeAll_between (by decide) (hplain _ huuid xs hxs) (hplain _ huuid ys hys)] at hlen
  set bare := removeAll [117, 117, 105, 100, 58] (removeAll [117, 114, 110, 58] (strip t))
  have hle := ((sublist_trimmed (hfree xs hxs) (hfree ys hys) bare).filter fun c => decide (c ≠ 45)).length_le
  rw [hlen, List.filter_append, List.filter_append, hdigits xs hxs, hdigits ys hys, List.length_append, List.length_append,
    hlen'] at hle
  exact ⟨List.length_eq_zero_iff.mp (by omega), List.length_eq_zero_iff.mp (by omega)⟩

/-! ### Numbered -/

/-- The UUID whose last eight digits are those of `n`, zeros in front of them. -/
def ofNat (n : ℕ) : Uuid :=
  ⟨List.replicate 24 0 ++ (List.range 8).reverse.map fun i => Fin.ofNat 16 (n / 16 ^ i), by simp⟩

theorem length_zeros : (List.replicate 32 (0 : Digit)).length = 32 := List.length_replicate

end Uuid

end TenantRag

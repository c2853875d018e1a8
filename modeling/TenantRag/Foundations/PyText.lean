import Mathlib.Data.List.DropRight

/-!
# Python strings

A Python `str` is a sequence of code points, surrogates included, so a text is a
list of code points rather than a `String`. The operations are the ones the
repository calls: `strip`, `join`, `replace(p, "")`, the test for white space
that `strip` and `split` use, and the one for decimal digits.

## What is proved

* `strip_eq_nil_iff` — `not t.strip()` holds exactly of the texts of white space.
* `strip_eq_self` — stripping a text that begins and ends otherwise changes nothing.
* `strip_append`, `strip_split`, `strip_ends` — a text is its stripped text between white space.
* `removeAll_eq_self`, `removeAll_between` — removing a pattern does not touch what has none of its code points.
* `join_append`, `join_map_join` — joining in groups is joining all at once.
-/

namespace TenantRag

/-- A Unicode code point. -/
abbrev PyChar := Fin 0x110000

instance PyChar.neZero : @NeZero ℕ .ofOfNat0 0x110000 := ⟨by decide⟩

/-- The code point of a character. -/
def PyChar.ofChar (c : Char) : PyChar :=
  ⟨c.toNat, by
    have h := c.valid
    simp only [UInt32.isValidChar, Nat.isValidChar] at h
    simp only [Char.toNat]
    omega⟩

/-- A Python string. -/
abbrev Text := List PyChar

instance Text.lawfulBEq : LawfulBEq Text := inferInstance

/-- The text written with the given characters. -/
def text (cs : List Char) : Text := cs.map PyChar.ofChar

/-- A string literal. -/
def lit (s : String) : Text := text s.toList

/-- A text in an error message. -/
def shown (t : Text) : String := String.ofList (t.map fun c => Char.ofNat c.val)

/-- `c.isspace()`. -/
def isSpace (c : PyChar) : Bool :=
  let n := c.val
  (9 ≤ n && n ≤ 13) || (28 ≤ n && n ≤ 32) || n == 133 || n == 160 || n == 5760 ||
    (8192 ≤ n && n ≤ 8202) || n == 8232 || n == 8233 || n == 8239 || n == 8287 || n == 12288

/-- The zeros of the decimal digits of Unicode. -/
def decimalZeros : List ℕ :=
  [0x30, 0x660, 0x6F0, 0x7C0, 0x966, 0x9E6, 0xA66, 0xAE6, 0xB66, 0xBE6, 0xC66, 0xCE6, 0xD66, 0xDE6, 0xE50, 0xED0,
   0xF20, 0x1040, 0x1090, 0x17E0, 0x1810, 0x1946, 0x19D0, 0x1A80, 0x1A90, 0x1B50, 0x1BB0, 0x1C40, 0x1C50, 0xA620,
   0xA8D0, 0xA900, 0xA9D0, 0xA9F0, 0xAA50, 0xABF0, 0xFF10, 0x104A0, 0x10D30, 0x11066, 0x110F0, 0x11136, 0x111D0,
   0x112F0, 0x11450, 0x114D0, 0x11650, 0x116C0, 0x11730, 0x118E0, 0x11950, 0x11C50, 0x11D50, 0x11DA0, 0x11F50,
   0x16A60, 0x16AC0, 0x16B50, 0x1D7CE, 0x1D7D8, 0x1D7E2, 0x1D7EC, 0x1D7F6, 0x1E140, 0x1E2F0, 0x1E4F0, 0x1E950,
   0x1FBF0]

/-- `c.isdecimal()`. -/
def isDecimal (c : PyChar) : Bool := decimalZeros.any fun z => z ≤ c.val && c.val ≤ z + 9

/-- `t.strip()`. -/
def strip (t : Text) : Text := (t.dropWhile isSpace).rdropWhile isSpace

/-- `not t.strip()`. -/
def isBlank (t : Text) : Bool := (strip t).isEmpty

theorem strip_eq_nil_iff {t : Text} : strip t = [] ↔ ∀ c ∈ t, isSpace c = true := by
  rw [strip, List.rdropWhile_eq_nil_iff]
  constructor
  · intro h c hc
    rw [← List.takeWhile_append_dropWhile (p := isSpace) (l := t), List.mem_append] at hc
    rcases hc with hc | hc
    · exact List.mem_takeWhile_imp hc
    · exact h c hc
  · intro h c hc
    exact h c ((List.dropWhile_sublist _).subset hc)

theorem isBlank_iff {t : Text} : isBlank t = true ↔ ∀ c ∈ t, isSpace c = true := by
  rw [isBlank, List.isEmpty_iff, strip_eq_nil_iff]

/-- Text that begins and ends with something else than white space is its own `strip`. -/
theorem strip_eq_self {t : Text} (h : t ≠ []) (hhead : isSpace (t.head h) = false)
    (hlast : isSpace (t.getLast h) = false) : strip t = t := by
  have hd : t.dropWhile isSpace = t := by
    cases t with
    | nil => exact absurd rfl h
    | cons c cs => simpa using hhead
  rw [strip, hd, List.rdropWhile_eq_self_iff]
  intro hne
  simp [hlast]

/-- White space around a text is stripped. -/
theorem strip_append {xs ys t : Text} (hxs : isBlank xs = true) (hys : isBlank ys = true) :
    strip (xs ++ (t ++ ys)) = strip t := by
  rw [isBlank_iff] at hxs hys
  have hright : ∀ u : Text, (u ++ ys).rdropWhile isSpace = u.rdropWhile isSpace := by
    intro u
    have hreverse : ∀ c ∈ ys.reverse, isSpace c = true := fun c hc => hys c (List.mem_reverse.mp hc)
    rw [List.rdropWhile, List.reverse_append, List.dropWhile_append_of_pos hreverse]
    rfl
  rw [strip, strip, List.dropWhile_append_of_pos hxs, List.dropWhile_append]
  split
  · rename_i hempty
    rw [List.isEmpty_iff.mp hempty]
    have hnil : ys.dropWhile isSpace = [] := List.dropWhile_eq_nil_iff.mpr hys
    rw [hnil]
  · exact hright _

/-- White space behind a text is stripped. -/
theorem strip_append_right {t ys : Text} (hys : isBlank ys = true) : strip (t ++ ys) = strip t := by
  have hnil : isBlank ([] : Text) = true := rfl
  exact strip_append hnil hys

/-- A text is its stripped text between white space. -/
theorem strip_split (t : Text) : ∃ xs ys, isBlank xs = true ∧ isBlank ys = true ∧ t = xs ++ (strip t ++ ys) := by
  refine ⟨t.takeWhile isSpace, (t.dropWhile isSpace).rtakeWhile isSpace, ?_, ?_, ?_⟩
  · exact isBlank_iff.mpr fun c hc => List.mem_takeWhile_imp hc
  · exact isBlank_iff.mpr fun c hc => List.mem_rtakeWhile_imp hc
  · rw [strip, List.rdropWhile_append_rtakeWhile, List.takeWhile_append_dropWhile]

/-- A stripped text begins and ends with something else than white space. -/
theorem strip_ends {t : Text} (h : strip t ≠ []) :
    (∃ c cs, strip t = c :: cs ∧ isSpace c = false) ∧ ∃ cs c, strip t = cs ++ [c] ∧ isSpace c = false := by
  have hne : t.dropWhile isSpace ≠ [] := by
    intro hnil
    rw [strip, hnil] at h
    exact h rfl
  constructor
  · obtain ⟨ys, hys⟩ := List.rdropWhile_prefix isSpace (t.dropWhile isSpace)
    obtain ⟨c, cs, hstrip⟩ := List.exists_cons_of_ne_nil h
    have hstrip' : (t.dropWhile isSpace).rdropWhile isSpace = c :: cs := hstrip
    have hhead := List.head_dropWhile_not isSpace hne
    rw [hstrip'] at hys
    simp only [← hys, List.cons_append, List.head_cons] at hhead
    exact ⟨c, cs, hstrip, hhead⟩
  · have hlast := List.rdropWhile_last_not isSpace (t.dropWhile isSpace) h
    exact ⟨_, _, (List.dropLast_append_getLast h).symm, Bool.not_eq_true _ ▸ hlast⟩

/-- Stripping a stripped text changes nothing. -/
theorem strip_strip (t : Text) : strip (strip t) = strip t := by
  obtain ⟨xs, ys, hxs, hys, ht⟩ := strip_split t
  calc strip (strip t) = strip (xs ++ (strip t ++ ys)) := (strip_append hxs hys).symm
    _ = strip t := by rw [← ht]

/-- `t.replace(p, "")` for a nonempty `p`, looking at no more than `n` places. -/
def removeAllAux (p : Text) : ℕ → Text → Text
  | 0, t => t
  | _ + 1, [] => []
  | n + 1, c :: cs =>
      if p.isPrefixOf (c :: cs) then removeAllAux p n ((c :: cs).drop p.length)
      else c :: removeAllAux p n cs

/-- `t.replace(p, "")` for a nonempty `p`. -/
def removeAll (p t : Text) : Text := removeAllAux p t.length t

theorem removeAllAux_eq_self {c : PyChar} {p : Text} : ∀ (n : ℕ) {t : Text}, c ∉ t →
    removeAllAux (c :: p) n t = t
  | 0, _, _ => rfl
  | _ + 1, [], _ => rfl
  | n + 1, d :: ds, h => by
      rw [List.mem_cons, not_or] at h
      simp [removeAllAux, h.1, removeAllAux_eq_self n h.2]

theorem removeAll_eq_self {c : PyChar} {p t : Text} (h : c ∉ t) : removeAll (c :: p) t = t :=
  removeAllAux_eq_self _ h

theorem removeAllAux_length {p : Text} (hp : p ≠ []) : ∀ {n m : ℕ} {t : Text}, t.length ≤ n → t.length ≤ m →
    removeAllAux p n t = removeAllAux p m t := by
  intro n
  induction n with
  | zero =>
    intro m t hn _
    obtain rfl : t = [] := List.length_eq_zero_iff.mp (by omega)
    cases m <;> rfl
  | succ n ih =>
    intro m t hn hm
    cases t with
    | nil => cases m <;> rfl
    | cons c cs =>
      obtain ⟨m, rfl⟩ : ∃ k, m = k + 1 := ⟨m - 1, by simp at hm; omega⟩
      have hpos : 0 < p.length := List.length_pos_iff.mpr hp
      simp only [List.length_cons] at hn hm
      rw [removeAllAux, removeAllAux]
      split_ifs
      · refine ih ?_ ?_ <;> (rw [List.length_drop, List.length_cons]; omega)
      · rw [ih (m := m) (by omega) (by omega)]

/-- A pattern that begins before a text without any of its code points ends there. -/
theorem isPrefixOf_append_eq {p ys : Text} (hys : ∀ c ∈ ys, c ∉ p) (t : Text) : p.isPrefixOf (t ++ ys) = p.isPrefixOf t := by
  induction p generalizing t with
  | nil => rfl
  | cons q p ih =>
    have hys' : ∀ c ∈ ys, c ∉ p := fun c hc hp => hys c hc (List.mem_cons_of_mem q hp)
    cases t with
    | nil =>
      cases ys with
      | nil => rfl
      | cons y ys =>
        have hne : q ≠ y := fun heq => hys y List.mem_cons_self (heq ▸ List.mem_cons_self)
        rw [List.nil_append, List.isPrefixOf_cons_cons, beq_false_of_ne hne]
        rfl
    | cons c cs => rw [List.cons_append, List.isPrefixOf_cons_cons, List.isPrefixOf_cons_cons, ih hys' cs]

theorem removeAllAux_append {p : Text} (hp : p ≠ []) {ys : Text} (hys : ∀ c ∈ ys, c ∉ p) : ∀ (n : ℕ) (t : Text),
    (t ++ ys).length ≤ n → removeAllAux p n (t ++ ys) = removeAllAux p n t ++ ys := by
  intro n
  induction n with
  | zero =>
    intro t _
    rfl
  | succ n ih =>
    intro t hn
    cases t with
    | nil =>
      obtain ⟨q, qs, rfl⟩ := List.exists_cons_of_ne_nil hp
      rw [List.nil_append, removeAllAux_eq_self _ fun hq => hys q hq List.mem_cons_self]
      rfl
    | cons c cs =>
      rw [List.cons_append, removeAllAux, removeAllAux, ← List.cons_append, isPrefixOf_append_eq hys]
      have hpos : 0 < p.length := List.length_pos_iff.mpr hp
      rw [List.cons_append, List.length_cons] at hn
      split_ifs with h
      · have hle : p.length ≤ (c :: cs).length := (List.isPrefixOf_iff_prefix.mp h).length_le
        rw [List.drop_append_of_le_length hle]
        refine ih _ ?_
        rw [← List.drop_append_of_le_length hle, List.length_drop, List.cons_append, List.length_cons]
        omega
      · rw [ih cs (by omega)]
        rfl

theorem removeAllAux_prepend {p : Text} (hp : p ≠ []) {xs : Text} (hxs : ∀ c ∈ xs, c ∉ p) (n : ℕ) (t : Text) :
    removeAllAux p (xs.length + n) (xs ++ t) = xs ++ removeAllAux p n t := by
  induction xs with
  | nil => rw [List.length_nil, Nat.zero_add]; rfl
  | cons x xs ih =>
    rw [List.forall_mem_cons] at hxs
    have hfirst : p.isPrefixOf (x :: (xs ++ t)) = false := by
      obtain ⟨q, qs, rfl⟩ := List.exists_cons_of_ne_nil hp
      rw [List.isPrefixOf_cons_cons, beq_false_of_ne, Bool.false_and]
      rintro rfl
      exact hxs.1 List.mem_cons_self
    rw [List.length_cons, Nat.add_right_comm, List.cons_append, removeAllAux, hfirst, if_neg Bool.false_ne_true, ih hxs.2]
    rfl

/-- What is removed does not touch the text around, where that has none of its code points. -/
theorem removeAll_between {p xs ys : Text} (hp : p ≠ []) (hxs : ∀ c ∈ xs, c ∉ p) (hys : ∀ c ∈ ys, c ∉ p) (t : Text) :
    removeAll p (xs ++ (t ++ ys)) = xs ++ (removeAll p t ++ ys) := by
  rw [removeAll, List.length_append, removeAllAux_prepend hp hxs, removeAllAux_append hp hys _ _ le_rfl, removeAll]
  rw [removeAllAux_length hp (by rw [List.length_append]; omega) le_rfl]

/-- `sep.join(parts)`. -/
def join (sep : Text) (parts : List Text) : Text := List.flatten (parts.intersperse sep)

theorem join_cons_cons (sep a b : Text) (parts : List Text) : join sep (a :: b :: parts) = a ++ (sep ++ join sep (b :: parts)) := by
  rw [join, join, List.intersperse_cons_cons, List.flatten_cons, List.flatten_cons]

theorem join_singleton (sep a : Text) : join sep [a] = a := by
  rw [join, List.intersperse_singleton, List.flatten_singleton]

theorem join_append (sep : Text) {xs ys : List Text} (hxs : xs ≠ []) (hys : ys ≠ []) :
    join sep (xs ++ ys) = join sep xs ++ (sep ++ join sep ys) := by
  induction xs with
  | nil => exact absurd rfl hxs
  | cons x xs ih =>
    cases xs with
    | nil =>
      obtain ⟨y, ys, rfl⟩ := List.exists_cons_of_ne_nil hys
      rw [List.singleton_append, join_cons_cons, join_singleton]
    | cons x' xs =>
      have hrest := ih (List.cons_ne_nil x' xs)
      rw [List.cons_append] at hrest
      rw [List.cons_append, List.cons_append, join_cons_cons, hrest, join_cons_cons]
      simp only [List.append_assoc]

/-- The joins of groups join to the join of all. -/
theorem join_map_join (sep : Text) {groups : List (List Text)} (h : ∀ group ∈ groups, group ≠ []) :
    join sep (groups.map (join sep)) = join sep groups.flatten := by
  induction groups with
  | nil => rfl
  | cons group groups ih =>
    obtain ⟨hgroup, hrest⟩ := List.forall_mem_cons.mp h
    cases groups with
    | nil => rw [List.map_singleton, join_singleton, List.flatten_singleton]
    | cons next groups =>
      have hflatten : (next :: groups).flatten ≠ [] := by
        rw [List.flatten_cons]
        exact List.append_ne_nil_of_left_ne_nil (hrest next List.mem_cons_self) _
      have hjoin := ih hrest
      rw [List.map_cons] at hjoin
      have hall : (group :: next :: groups).flatten = group ++ (next :: groups).flatten := List.flatten_cons
      rw [List.map_cons, List.map_cons, join_cons_cons, hjoin, hall, join_append sep hgroup hflatten]

/-- A join is empty only where all its parts are. -/
theorem join_ne_nil (sep : Text) {parts : List Text} {part : Text} (h : part ∈ parts) (hne : part ≠ []) :
    join sep parts ≠ [] := by
  induction parts with
  | nil => cases h
  | cons a parts ih =>
    cases parts with
    | nil =>
      rw [join_singleton]
      rwa [List.mem_singleton.mp h] at hne
    | cons b parts =>
      rw [join_cons_cons]
      rcases List.mem_cons.mp h with rfl | hrest
      · exact List.append_ne_nil_of_left_ne_nil hne _
      · exact List.append_ne_nil_of_right_ne_nil _ (List.append_ne_nil_of_right_ne_nil _ (ih hrest))

end TenantRag

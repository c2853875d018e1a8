import TenantRag.Foundations.JsonHook

/-!
# The grammar of JSON texts

What stands between the quotes of a string, what a number is, and what a value, the items of
an array and the members of an object are made of: the texts of JSON, apart from the scanner that
reads them. An object has its members in their order, a name as often as it is there.

## What is proved

* `scanString_iff` — the scanner reads strings, and nothing else, as strings.
* `NumberText.scan`, `numberText_of_scan` — the same of numbers.
* `StringBody.cut` — white space at the end of what is between the quotes stands for itself.
* `StringBody.visible`, `NumberText.solid` — neither has control characters, and a number has no white space.
-/

namespace TenantRag

namespace Json

/-! ### Strings -/

/-- The four hexadecimal digits of a unit of UTF-16. -/
def UnitText (digits : Text) (n : ℕ) : Prop := scanUnit digits = some (n, [])

/-- `StringBody e q`: between quotes, `e` is written for the text `q`. -/
inductive StringBody : Text → Text → Prop where
  /-- Nothing. -/
  | nil : StringBody [] []
  /-- A character that stands for itself. -/
  | plain {c : PyChar} {e q : Text} : c.val ≠ 34 → c.val ≠ 92 → 32 ≤ c.val → StringBody e q →
      StringBody (c :: e) (c :: q)
  /-- A short escape. -/
  | short {d c : PyChar} {e q : Text} : d.val ≠ 117 → shortEscape d = some c → StringBody e q →
      StringBody (92 :: d :: e) (c :: q)
  /-- The escape of a unit that is no high surrogate. -/
  | unit {digits e q : Text} {n : ℕ} : UnitText digits n → ¬ (0xD800 ≤ n ∧ n ≤ 0xDBFF) → StringBody e q →
      StringBody (92 :: 117 :: (digits ++ e)) (charOf n :: q)
  /-- The escape of a high surrogate that no escape of a low one follows. -/
  | high {digits e q : Text} {n : ℕ} : UnitText digits n → 0xD800 ≤ n ∧ n ≤ 0xDBFF →
      (∀ digits' m rest, e = 92 :: 117 :: (digits' ++ rest) → UnitText digits' m → ¬ (0xDC00 ≤ m ∧ m ≤ 0xDFFF)) →
      StringBody e q → StringBody (92 :: 117 :: (digits ++ e)) (charOf n :: q)
  /-- The escapes of a high and a low surrogate. -/
  | pair {digits digits' e q : Text} {high low : ℕ} : UnitText digits high → 0xD800 ≤ high ∧ high ≤ 0xDBFF →
      UnitText digits' low → 0xDC00 ≤ low ∧ low ≤ 0xDFFF → StringBody e q →
      StringBody (92 :: 117 :: (digits ++ 92 :: 117 :: (digits' ++ e)))
        (charOf (0x10000 + (high - 0xD800) * 1024 + (low - 0xDC00)) :: q)

/-- Characters that stand for themselves. -/
theorem stringBody_plain {l : Text} (h : ∀ c ∈ l, c.val ≠ 34 ∧ c.val ≠ 92 ∧ 32 ≤ c.val) : StringBody l l := by
  induction l with
  | nil => exact .nil
  | cons c l ih =>
    obtain ⟨⟨h34, h92, h32⟩, hl⟩ := List.forall_mem_cons.mp h
    exact .plain h34 h92 h32 (ih hl)

theorem scanUnit_split {t r : Text} {n : ℕ} (h : scanUnit t = some (n, r)) :
    ∃ digits, t = digits ++ r ∧ UnitText digits n := by
  match t with
  | [] | [_] | [_, _] | [_, _, _] => cases h
  | a :: b :: c :: d :: t =>
    rw [scanUnit] at h
    split at h
    · rename_i va vb vc vd ha hb hc hd
      rw [Option.some.injEq, Prod.mk.injEq] at h
      obtain ⟨rfl, rfl⟩ := h
      refine ⟨[a, b, c, d], rfl, ?_⟩
      rw [UnitText, scanUnit, ha, hb, hc, hd]
    · cases h

theorem UnitText.scan {digits : Text} {n : ℕ} (h : UnitText digits n) (r : Text) :
    scanUnit (digits ++ r) = some (n, r) := by
  match digits with
  | [] | [_] | [_, _] | [_, _, _] => cases h
  | a :: b :: c :: d :: e :: _ =>
    rw [UnitText, scanUnit] at h
    split at h
    · cases h
    · cases h
  | [a, b, c, d] =>
    rw [UnitText, scanUnit] at h
    split at h
    · rename_i va vb vc vd ha hb hc hd
      rw [Option.some.injEq, Prod.mk.injEq] at h
      obtain ⟨rfl, -⟩ := h
      change scanUnit (a :: b :: c :: d :: r) = _
      rw [scanUnit, ha, hb, hc, hd]
    · cases h

/-- The digits are hexadecimal, and there are four of them. -/
theorem UnitText.digits {digits : Text} {n : ℕ} (h : UnitText digits n) :
    digits ≠ [] ∧ ∀ c ∈ digits, (digitOfChar c).isSome := by
  match digits with
  | [] | [_] | [_, _] | [_, _, _] => cases h
  | a :: b :: c :: d :: e :: _ =>
    rw [UnitText, scanUnit] at h
    split at h
    · cases h
    · cases h
  | [a, b, c, d] =>
    rw [UnitText, scanUnit] at h
    split at h
    · rename_i va vb vc vd ha hb hc hd
      simp [ha, hb, hc, hd]
    · cases h

theorem dropWord_eq_some {word t r : Text} : dropWord word t = some r ↔ t = word ++ r := by
  rw [dropWord]
  constructor
  · intro h
    split_ifs at h with hp
    obtain ⟨s, rfl⟩ := List.isPrefixOf_iff_prefix.mp hp
    rw [List.drop_left, Option.some.injEq] at h
    rw [h]
  · rintro rfl
    rw [if_pos (List.isPrefixOf_iff_prefix.mpr (List.prefix_append _ _)), List.drop_left]

/-- Behind a high surrogate that is read by itself, no escape of a low one stands. -/
theorem EndsUnit.not_low {digits rest : Text} {m : ℕ} (h : EndsUnit (92 :: 117 :: (digits ++ rest)))
    (hunit : UnitText digits m) : ¬ (0xDC00 ≤ m ∧ m ≤ 0xDFFF) := by
  have hdrop : dropWord [92, 117] (92 :: 117 :: (digits ++ rest)) = some (digits ++ rest) := dropWord_append [92, 117] _
  rcases h with hnone | ⟨behind, low, r', hbehind, hlow, hrange⟩
  · rw [hdrop] at hnone
    cases hnone
  · rw [hdrop, Option.some.injEq] at hbehind
    rw [← hbehind, hunit.scan, Option.some.injEq, Prod.mk.injEq] at hlow
    rw [hlow.1]
    exact hrange

/-- What an escape is, behind its backslash. -/
theorem scanEscape_cases {t r : Text} {c : PyChar} (h : scanEscape t = some (c, r)) :
    (∃ d, t = d :: r ∧ d.val ≠ 117 ∧ shortEscape d = some c) ∨
      (∃ digits n, t = 117 :: (digits ++ r) ∧ UnitText digits n ∧ c = charOf n ∧
        (¬ (0xD800 ≤ n ∧ n ≤ 0xDBFF) ∨ (0xD800 ≤ n ∧ n ≤ 0xDBFF) ∧ EndsUnit r)) ∨
      ∃ digits digits' high low, t = 117 :: (digits ++ 92 :: 117 :: (digits' ++ r)) ∧ UnitText digits high ∧
        (0xD800 ≤ high ∧ high ≤ 0xDBFF) ∧ UnitText digits' low ∧ (0xDC00 ≤ low ∧ low ≤ 0xDFFF) ∧
        c = charOf (0x10000 + (high - 0xD800) * 1024 + (low - 0xDC00)) := by
  cases t with
  | nil => cases h
  | cons e t =>
    rw [scanEscape] at h
    by_cases hu : e.val = 117
    case neg =>
      rw [if_neg hu, Option.map_eq_some_iff] at h
      obtain ⟨c', hc', heq⟩ := h
      rw [Prod.mk.injEq] at heq
      obtain ⟨rfl, rfl⟩ := heq
      exact .inl ⟨e, rfl, hu, hc'⟩
    rw [if_pos hu] at h
    obtain rfl : e = 117 := Fin.ext hu
    cases hunit : scanUnit t with
    | none =>
      rw [hunit] at h
      cases h
    | some p =>
      obtain ⟨high, behind⟩ := p
      rw [hunit] at h
      obtain ⟨digits, rfl, hdigits⟩ := scanUnit_split hunit
      dsimp only at h
      by_cases hhigh : 0xD800 ≤ high ∧ high ≤ 0xDBFF
      case neg =>
        rw [if_neg hhigh, Option.some.injEq, Prod.mk.injEq] at h
        obtain ⟨rfl, rfl⟩ := h
        exact .inr (.inl ⟨digits, high, rfl, hdigits, rfl, .inl hhigh⟩)
      rw [if_pos hhigh] at h
      cases hdrop : dropWord [92, 117] behind with
      | none =>
        rw [hdrop, Option.some.injEq, Prod.mk.injEq] at h
        obtain ⟨rfl, rfl⟩ := h
        exact .inr (.inl ⟨digits, high, rfl, hdigits, rfl, .inr ⟨hhigh, .inl hdrop⟩⟩)
      | some behind' =>
        rw [hdrop] at h
        dsimp only at h
        cases hlow : scanUnit behind' with
        | none =>
          rw [hlow] at h
          cases h
        | some p =>
          obtain ⟨low, behind''⟩ := p
          rw [hlow] at h
          dsimp only at h
          by_cases hrange : 0xDC00 ≤ low ∧ low ≤ 0xDFFF
          · rw [if_pos hrange, Option.some.injEq, Prod.mk.injEq] at h
            obtain ⟨rfl, rfl⟩ := h
            obtain ⟨digits', rfl, hdigits'⟩ := scanUnit_split hlow
            have hbehind := dropWord_eq_some.mp hdrop
            subst hbehind
            exact .inr (.inr ⟨digits, digits', high, low, rfl, hdigits, hhigh, hdigits', hrange, rfl⟩)
          · rw [if_neg hrange, Option.some.injEq, Prod.mk.injEq] at h
            obtain ⟨rfl, rfl⟩ := h
            exact .inr (.inl ⟨digits, high, rfl, hdigits, rfl, .inr ⟨hhigh, .inr ⟨behind', low, behind'', hdrop, hlow, hrange⟩⟩⟩)

/-- The escape of a unit that is no high surrogate, or that no escape of a low one follows, is read. -/
theorem UnitText.scanEscape {digits : Text} {n : ℕ} (h : UnitText digits n) {r : Text}
    (hr : 0xD800 ≤ n ∧ n ≤ 0xDBFF → EndsUnit r) : scanEscape (117 :: (digits ++ r)) = some (charOf n, r) := by
  have hu : (117 : PyChar).val = 117 := rfl
  rw [Json.scanEscape, if_pos hu, h.scan]
  dsimp only
  by_cases hhigh : 0xD800 ≤ n ∧ n ≤ 0xDBFF
  case neg => rw [if_neg hhigh]
  rw [if_pos hhigh]
  rcases hr hhigh with hnone | ⟨behind, low, r', hbehind, hlow, hrange⟩
  · rw [hnone]
  · rw [hbehind]
    dsimp only
    rw [hlow]
    dsimp only
    rw [if_neg hrange]

/-- The escapes of a high and a low surrogate are read as one. -/
theorem scanEscape_units {digits digits' : Text} {high low : ℕ} (hdigits : UnitText digits high)
    (hhigh : 0xD800 ≤ high ∧ high ≤ 0xDBFF) (hdigits' : UnitText digits' low) (hlow : 0xDC00 ≤ low ∧ low ≤ 0xDFFF)
    (r : Text) : scanEscape (117 :: (digits ++ 92 :: 117 :: (digits' ++ r))) =
      some (charOf (0x10000 + (high - 0xD800) * 1024 + (low - 0xDC00)), r) := by
  have hu : (117 : PyChar).val = 117 := rfl
  have hdrop : dropWord [92, 117] (92 :: 117 :: (digits' ++ r)) = some (digits' ++ r) := dropWord_append [92, 117] _
  rw [scanEscape, if_pos hu, hdigits.scan]
  dsimp only
  rw [if_pos hhigh, hdrop]
  dsimp only
  rw [hdigits'.scan]
  dsimp only
  rw [if_pos hlow]

/-- In front of a quote, what follows a high surrogate is the same as without it. -/
theorem StringBody.endsUnit {e q : Text} (h : StringBody e q)
    (hlow : ∀ digits m rest, e = 92 :: 117 :: (digits ++ rest) → UnitText digits m → ¬ (0xDC00 ≤ m ∧ m ≤ 0xDFFF))
    (r : Text) : EndsUnit (e ++ 34 :: r) := by
  have hunit {digits : Text} {n : ℕ} (hdigits : UnitText digits n) {rest : Text}
      (heq : e = 92 :: 117 :: (digits ++ rest)) : EndsUnit (e ++ 34 :: r) := by
    refine .inr ⟨digits ++ (rest ++ 34 :: r), n, rest ++ 34 :: r, ?_, hdigits.scan _, hlow digits n rest heq hdigits⟩
    rw [heq, dropWord_eq_some]
    simp
  cases h with
  | nil => exact endsUnit_quote r
  | plain h34 h92 h32 h => exact .inl (dropWord_eq_none fun heq => h92 (by rw [← heq]; rfl))
  | @short d c e q hd hc h =>
    refine .inl ?_
    cases hdrop : dropWord [92, 117] (92 :: d :: e ++ 34 :: r) with
    | none => rfl
    | some behind =>
      have heq := dropWord_eq_some.mp hdrop
      obtain rfl : d = 117 := (List.cons.inj (List.cons.inj heq).2).1
      exact absurd rfl hd
  | unit hdigits hrange h => exact hunit hdigits rfl
  | high hdigits hrange hnext h => exact hunit hdigits rfl
  | pair hdigits hhigh hdigits' hlow' h => exact hunit hdigits rfl

/-- What stands between quotes is read, up to the quote behind it. -/
theorem StringBody.scanAux {e q : Text} (h : StringBody e q) {n : ℕ} (hn : e.length < n) (r : Text) :
    scanStringAux n (e ++ 34 :: r) = some (q, r) := by
  induction h generalizing n with
  | nil =>
    obtain ⟨m, rfl⟩ := Nat.exists_eq_succ_of_ne_zero (Nat.ne_of_gt (Nat.zero_lt_of_lt hn))
    rw [List.nil_append, scanStringAux, if_pos (by decide)]
  | @plain c e q h34 h92 h32 h ih =>
    obtain ⟨m, rfl⟩ := Nat.exists_eq_succ_of_ne_zero (Nat.ne_of_gt (Nat.zero_lt_of_lt hn))
    rw [List.length_cons] at hn
    rw [List.cons_append, scanStringAux, if_neg h34, if_neg h92, if_neg (by omega), ih (by omega)]
    rfl
  | @short d c e q hd hc h ih =>
    obtain ⟨m, rfl⟩ := Nat.exists_eq_succ_of_ne_zero (Nat.ne_of_gt (Nat.zero_lt_of_lt hn))
    rw [List.length_cons, List.length_cons] at hn
    rw [List.cons_append, List.cons_append, scanStringAux_backslash (scanEscape_short hd hc _), ih (by omega)]
    rfl
  | @unit digits e q k hdigits hrange h ih =>
    obtain ⟨m, rfl⟩ := Nat.exists_eq_succ_of_ne_zero (Nat.ne_of_gt (Nat.zero_lt_of_lt hn))
    rw [List.length_cons, List.length_cons, List.length_append] at hn
    rw [List.cons_append, List.cons_append, List.append_assoc,
      scanStringAux_backslash (hdigits.scanEscape fun hhigh => absurd hhigh hrange), ih (by omega)]
    rfl
  | @high digits e q k hdigits hrange hnext h ih =>
    obtain ⟨m, rfl⟩ := Nat.exists_eq_succ_of_ne_zero (Nat.ne_of_gt (Nat.zero_lt_of_lt hn))
    rw [List.length_cons, List.length_cons, List.length_append] at hn
    rw [List.cons_append, List.cons_append, List.append_assoc,
      scanStringAux_backslash (hdigits.scanEscape fun _ => h.endsUnit hnext r), ih (by omega)]
    rfl
  | @pair digits digits' e q high low hdigits hhigh hdigits' hlow h ih =>
    obtain ⟨m, rfl⟩ := Nat.exists_eq_succ_of_ne_zero (Nat.ne_of_gt (Nat.zero_lt_of_lt hn))
    simp only [List.length_cons, List.length_append] at hn
    have hassoc : 92 :: 117 :: (digits ++ 92 :: 117 :: (digits' ++ e)) ++ 34 :: r =
        92 :: 117 :: (digits ++ 92 :: 117 :: (digits' ++ (e ++ 34 :: r))) := by simp
    rw [hassoc, scanStringAux_backslash (scanEscape_units hdigits hhigh hdigits' hlow _), ih (by omega)]
    rfl

/-- What the scanner reads as a string stands between quotes. -/
theorem stringBody_of_scanAux {n : ℕ} {t q r : Text} (h : scanStringAux n t = some (q, r)) :
    ∃ e, t = e ++ 34 :: r ∧ StringBody e q := by
  induction n generalizing t q with
  | zero => cases h
  | succ n ih =>
    cases t with
    | nil => cases h
    | cons c cs =>
      rw [scanStringAux] at h
      split_ifs at h with h34 h92 h32
      · rw [Option.some.injEq, Prod.mk.injEq] at h
        obtain ⟨rfl, rfl⟩ := h
        obtain rfl : c = 34 := Fin.ext h34
        exact ⟨[], rfl, .nil⟩
      · obtain rfl : c = 92 := Fin.ext h92
        cases hescape : scanEscape cs with
        | none =>
          rw [hescape] at h
          cases h
        | some p =>
          obtain ⟨d, r'⟩ := p
          rw [hescape, Option.map_eq_some_iff] at h
          obtain ⟨⟨q', r''⟩, hrest, heq⟩ := h
          rw [Prod.mk.injEq] at heq
          obtain ⟨rfl, rfl⟩ := heq
          obtain ⟨e, rfl, hbody⟩ := ih hrest
          rcases scanEscape_cases hescape with ⟨x, rfl, hx, hshort⟩ | ⟨digits, k, rfl, hdigits, rfl, hrange⟩ |
              ⟨digits, digits', high, low, rfl, hdigits, hhigh, hdigits', hlow, rfl⟩
          · exact ⟨92 :: x :: e, rfl, .short hx hshort hbody⟩
          · refine ⟨92 :: 117 :: (digits ++ e), by simp, ?_⟩
            rcases hrange with hrange | ⟨hhigh, hends⟩
            · exact .unit hdigits hrange hbody
            · refine .high hdigits hhigh ?_ hbody
              rintro digits' m rest rfl hunit
              rw [List.cons_append, List.cons_append, List.append_assoc] at hends
              exact hends.not_low hunit
          · exact ⟨92 :: 117 :: (digits ++ 92 :: 117 :: (digits' ++ e)), by simp, .pair hdigits hhigh hdigits' hlow hbody⟩
      · rw [Option.map_eq_some_iff] at h
        obtain ⟨⟨q', r'⟩, hrest, heq⟩ := h
        rw [Prod.mk.injEq] at heq
        obtain ⟨rfl, rfl⟩ := heq
        obtain ⟨e, rfl, hbody⟩ := ih hrest
        exact ⟨c :: e, rfl, .plain h34 h92 (by omega) hbody⟩

/-- The scanner reads what stands between quotes, and nothing else, as a string. -/
theorem scanString_iff {t q r : Text} : scanString t = some (q, r) ↔ ∃ e, t = e ++ 34 :: r ∧ StringBody e q := by
  constructor
  · exact stringBody_of_scanAux
  · rintro ⟨e, rfl, h⟩
    refine h.scanAux ?_ r
    rw [List.length_append, List.length_cons]
    omega

/-- Where a string ends is settled by its text. -/
theorem StringBody.unique {e e' q q' r r' : Text} (h : StringBody e q) (h' : StringBody e' q')
    (heq : e ++ 34 :: r = e' ++ 34 :: r') : e = e' ∧ q = q' ∧ r = r' := by
  have hscan : scanString (e ++ 34 :: r) = some (q, r) := scanString_iff.mpr ⟨e, rfl, h⟩
  rw [scanString_iff.mpr ⟨e', heq, h'⟩, Option.some.injEq, Prod.mk.injEq] at hscan
  obtain ⟨rfl, rfl⟩ := hscan
  exact ⟨List.append_cancel_right heq, rfl, rfl⟩

theorem digit_val {c : PyChar} (h : (digitOfChar c).isSome) : 48 ≤ c.val ∧ c.val ≤ 102 := by
  rw [digitOfChar] at h
  split_ifs at h
  · omega
  · omega
  · omega
  · cases h

theorem shortEscape_val {d c : PyChar} (h : shortEscape d = some c) : 34 ≤ d.val ∧ d.val ≤ 117 := by
  rw [shortEscape] at h
  split_ifs at h <;> omega

theorem isSpace_of_val {c : PyChar} (h : 33 ≤ c.val ∧ c.val ≤ 126) : isSpace c = false := by
  rw [isSpace]
  simp only [Bool.or_eq_false_iff, Bool.and_eq_false_iff, decide_eq_false_iff_not, beq_eq_false_iff_ne]
  omega

/-- There are no control characters between quotes. -/
theorem StringBody.visible {e q : Text} (h : StringBody e q) : ∀ c ∈ e, 32 ≤ c.val := by
  have h92 : 32 ≤ (92 : PyChar).val := by decide
  have h117 : 32 ≤ (117 : PyChar).val := by decide
  have hunit {digits : Text} {n : ℕ} (hdigits : UnitText digits n) : ∀ c ∈ digits, 32 ≤ c.val := by
    intro c hc
    have hval := digit_val (hdigits.digits.2 c hc)
    omega
  induction h with
  | nil => simp
  | plain h34 h92 h32 h ih => exact List.forall_mem_cons.mpr ⟨h32, ih⟩
  | short hd hc h ih =>
    have hval := shortEscape_val hc
    exact List.forall_mem_cons.mpr ⟨h92, List.forall_mem_cons.mpr ⟨by omega, ih⟩⟩
  | unit hdigits hrange h ih | high hdigits hrange hnext h ih =>
    exact List.forall_mem_cons.mpr ⟨h92, List.forall_mem_cons.mpr ⟨h117, List.forall_mem_append.mpr ⟨hunit hdigits, ih⟩⟩⟩
  | pair hdigits hhigh hdigits' hlow h ih =>
    refine List.forall_mem_cons.mpr ⟨h92, List.forall_mem_cons.mpr ⟨h117, List.forall_mem_append.mpr ⟨hunit hdigits, ?_⟩⟩⟩
    exact List.forall_mem_cons.mpr ⟨h92, List.forall_mem_cons.mpr ⟨h117, List.forall_mem_append.mpr ⟨hunit hdigits', ih⟩⟩⟩

/-- A white space character at the end of a text of escapes is behind the first of them. -/
theorem cut_escape {x y c : PyChar} {e e' : Text} (hc : isSpace c = true) (hx : 33 ≤ x.val ∧ x.val ≤ 126)
    (hy : 33 ≤ y.val ∧ y.val ≤ 126) (h : e ++ [c] = x :: y :: e') : ∃ e'', e = x :: y :: e'' ∧ e' = e'' ++ [c] := by
  have hnot {d : PyChar} (hd : 33 ≤ d.val ∧ d.val ≤ 126) : c ≠ d := by
    rintro rfl
    rw [isSpace_of_val hd] at hc
    cases hc
  match e with
  | [] =>
    rw [List.nil_append, List.cons.injEq] at h
    exact absurd h.1 (hnot hx)
  | [_] =>
    rw [List.cons_append, List.nil_append, List.cons.injEq, List.cons.injEq] at h
    exact absurd h.2.1 (hnot hy)
  | _ :: _ :: e =>
    rw [List.cons_append, List.cons_append, List.cons.injEq, List.cons.injEq] at h
    obtain ⟨rfl, rfl, rfl⟩ := h
    exact ⟨e, rfl, rfl⟩

/-- It is behind the digits of a unit. -/
theorem UnitText.cut {digits e e' : Text} {n : ℕ} {c : PyChar} (hdigits : UnitText digits n) (hc : isSpace c = true)
    (heq : e ++ [c] = digits ++ e') : ∃ e'', e = digits ++ e'' ∧ e' = e'' ++ [c] := by
  rcases List.eq_nil_or_concat e' with rfl | ⟨e'', d, rfl⟩
  · rw [List.append_nil] at heq
    have hmem : c ∈ digits := by
      rw [← heq]
      exact List.mem_append_right _ (List.mem_singleton_self c)
    have hval := digit_val (hdigits.digits.2 c hmem)
    rw [isSpace_of_val (by omega)] at hc
    cases hc
  · rw [List.concat_eq_append, ← List.append_assoc] at heq
    obtain ⟨rfl, hright⟩ := List.append_inj' heq rfl
    obtain rfl := (List.cons.inj hright).1
    exact ⟨e'', rfl, List.concat_eq_append⟩

/-- White space at the end of what is between the quotes stands for itself. -/
theorem StringBody.cut_last {e q : Text} {c : PyChar} (h : StringBody (e ++ [c]) q) (hc : isSpace c = true) :
    ∃ q', q = q' ++ [c] ∧ StringBody e q' := by
  generalize hE : e ++ [c] = E at h
  induction h generalizing e with
  | nil => simp at hE
  | @plain d e' q h34 h92 h32 h ih =>
    cases e with
    | nil =>
      rw [List.nil_append, List.cons.injEq] at hE
      obtain ⟨rfl, rfl⟩ := hE
      cases h
      exact ⟨[], rfl, .nil⟩
    | cons x e =>
      rw [List.cons_append, List.cons.injEq] at hE
      obtain ⟨rfl, hE⟩ := hE
      obtain ⟨q', rfl, hbody⟩ := ih hE
      exact ⟨x :: q', rfl, .plain h34 h92 h32 hbody⟩
  | @short d c' e' q hd hshort h ih =>
    have hval := shortEscape_val hshort
    obtain ⟨e'', rfl, htail⟩ := cut_escape hc (by decide) ⟨by omega, by omega⟩ hE
    obtain ⟨q', rfl, hbody⟩ := ih htail.symm
    exact ⟨c' :: q', rfl, .short hd hshort hbody⟩
  | @unit digits e' q n hdigits hrange h ih =>
    obtain ⟨e'', rfl, htail⟩ := cut_escape hc (by decide) (by decide) hE
    obtain ⟨e'', rfl, rfl⟩ := hdigits.cut hc htail.symm
    obtain ⟨q', rfl, hbody⟩ := ih rfl
    exact ⟨charOf n :: q', rfl, .unit hdigits hrange hbody⟩
  | @high digits e' q n hdigits hrange hnext h ih =>
    obtain ⟨e'', rfl, htail⟩ := cut_escape hc (by decide) (by decide) hE
    obtain ⟨e'', rfl, rfl⟩ := hdigits.cut hc htail.symm
    obtain ⟨q', rfl, hbody⟩ := ih rfl
    refine ⟨charOf n :: q', rfl, .high hdigits hrange (fun digits' m rest heq => hnext digits' m (rest ++ [c]) ?_) hbody⟩
    rw [heq]
    simp
  | @pair digits digits' e' q high low hdigits hhigh hdigits' hlow h ih =>
    obtain ⟨e'', rfl, htail⟩ := cut_escape hc (by decide) (by decide) hE
    obtain ⟨e'', rfl, hlast⟩ := hdigits.cut hc htail.symm
    obtain ⟨e'', rfl, hdigit⟩ := cut_escape hc (by decide) (by decide) hlast.symm
    obtain ⟨e'', rfl, rfl⟩ := hdigits'.cut hc hdigit.symm
    obtain ⟨q', rfl, hbody⟩ := ih rfl
    exact ⟨_ :: q', rfl, .pair hdigits hhigh hdigits' hlow hbody⟩

/-- So does all of it. -/
theorem StringBody.cut {e w q : Text} (h : StringBody (e ++ w) q) (hw : ∀ c ∈ w, isSpace c = true) :
    ∃ q', q = q' ++ w ∧ StringBody e q' := by
  induction w using List.reverseRecOn generalizing q with
  | nil =>
    rw [List.append_nil] at h
    exact ⟨q, (List.append_nil q).symm, h⟩
  | append_singleton w c ih =>
    rw [← List.append_assoc] at h
    obtain ⟨q', rfl, hbody⟩ := h.cut_last (hw c (by simp))
    obtain ⟨q'', rfl, hbody'⟩ := ih hbody fun d hd => hw d (List.mem_append_left _ hd)
    exact ⟨q'', by simp, hbody'⟩

/-! ### Numbers -/

section Numbers

variable {F : Type} [PyFloat F]

/-- The number of these parts, where it has not too many digits. -/
def numberOf (sign whole fraction exponent : Text) : Option (Json F) :=
  if fraction = [] ∧ exponent = [] then
    if whole.length ≤ intMaxStrDigits then
      some (.int (if sign = [] then (ofDecimal whole : ℤ) else -(ofDecimal whole : ℤ)))
    else none
  else (PyFloat.ofText (sign ++ (whole ++ (fraction ++ exponent)))).map .num

/-- The scanner makes this number of the parts it finds. -/
theorem scanNumber_eq {t sign whole fraction exponent r₁ r₂ r₃ r : Text} (hminus : scanMinus t = (sign, r₁))
    (hwhole : scanWhole r₁ = some (whole, r₂)) (hfraction : scanFraction r₂ = (fraction, r₃))
    (hexponent : scanExponent r₃ = (exponent, r)) :
    scanNumber t = (numberOf sign whole fraction exponent).map fun v : Json F => (v, r) := by
  rw [scanNumber, hminus]
  dsimp only
  rw [hwhole]
  dsimp only
  rw [hfraction]
  dsimp only
  rw [hexponent, numberOf]
  by_cases hint : fraction = [] ∧ exponent = []
  · rw [if_pos hint, if_pos hint]
    by_cases hlength : whole.length ≤ intMaxStrDigits
    · rw [if_pos hlength, if_pos hlength, Option.map_some]
    · rw [if_neg hlength, if_neg hlength, Option.map_none]
  · rw [if_neg hint, if_neg hint, Option.map_map]
    rfl

/-- `NumberText s v`: `s` is written for the number `v`. -/
inductive NumberText : Text → Json F → Prop where
  /-- Digits, with a fraction and an exponent or without. -/
  | parts {sign whole fraction exponent : Text} {v : Json F} : NumberParts sign whole fraction exponent →
      numberOf sign whole fraction exponent = some v → NumberText (sign ++ (whole ++ (fraction ++ exponent))) v
  /-- `NaN`. -/
  | nan {x : F} : PyFloat.ofText (lit "nan") = some x → NumberText (lit "NaN") (.num x)
  /-- `Infinity`. -/
  | infinity {x : F} : PyFloat.ofText (lit "inf") = some x → NumberText (lit "Infinity") (.num x)
  /-- `-Infinity`. -/
  | negInfinity {x : F} : PyFloat.ofText (lit "-inf") = some x → NumberText (lit "-Infinity") (.num x)

/-- A number is read, with anything behind it that does not continue it. -/
theorem NumberText.scan {s : Text} {v : Json F} (h : NumberText s v) {r : Text} (hr : Loose r) :
    scanNumber (s ++ r) = some (v, r) := by
  cases h with
  | @parts sign whole fraction exponent _ hparts hval =>
    obtain ⟨hminus, hwhole, hfraction, hexponent⟩ := scanNumber_parts hparts hr
    have hassoc : sign ++ (whole ++ (fraction ++ exponent)) ++ r = sign ++ (whole ++ (fraction ++ (exponent ++ r))) := by
      simp
    rw [hassoc, scanNumber_eq hminus hwhole hfraction hexponent, hval]
    rfl
  | nan hx =>
    have hconstant : scanConstant (F := F) (lit "NaN" ++ r) = (PyFloat.ofText (lit "nan")).map fun x => (.num x, r) := by
      rw [scanConstant, dropWord_append]
    rw [hx] at hconstant
    exact hconstant
  | infinity hx =>
    have hnan : dropWord (lit "NaN") (lit "Infinity" ++ r) = none := dropWord_eq_none (by decide)
    have hconstant : scanConstant (F := F) (lit "Infinity" ++ r) = (PyFloat.ofText (lit "inf")).map fun x => (.num x, r) := by
      rw [scanConstant, hnan, dropWord_append]
    rw [hx] at hconstant
    exact hconstant
  | negInfinity hx =>
    have hnan : dropWord (lit "NaN") (lit "-Infinity" ++ r) = none := dropWord_eq_none (by decide)
    have hinf : dropWord (lit "Infinity") (lit "-Infinity" ++ r) = none := dropWord_eq_none (by decide)
    have hconstant : scanConstant (F := F) (lit "-Infinity" ++ r) = (PyFloat.ofText (lit "-inf")).map fun x => (.num x, r) := by
      rw [scanConstant, hnan, hinf, dropWord_append]
    rw [hx] at hconstant
    exact hconstant

theorem scanMinus_split {t sign r : Text} (h : scanMinus t = (sign, r)) : t = sign ++ r ∧ (sign = [] ∨ sign = [45]) := by
  cases t with
  | nil =>
    cases h
    exact ⟨rfl, .inl rfl⟩
  | cons c cs =>
    rw [scanMinus] at h
    split_ifs at h with h45
    · cases h
      obtain rfl : c = 45 := Fin.ext h45
      exact ⟨rfl, .inr rfl⟩
    · cases h
      exact ⟨rfl, .inl rfl⟩

theorem all_takeWhile {p : PyChar → Bool} (t : Text) : ∀ c ∈ t.takeWhile p, p c = true := fun _ hc =>
  List.mem_takeWhile_imp hc

theorem scanWhole_split {t whole r : Text} (h : scanWhole t = some (whole, r)) : t = whole ++ r ∧ IsWhole whole := by
  cases t with
  | nil => cases h
  | cons c cs =>
    rw [scanWhole] at h
    split_ifs at h with h48 hdigit
    · cases h
      refine ⟨rfl, c, [], rfl, ?_, fun _ => rfl, by simp⟩
      rw [isDigit, h48]
      rfl
    · cases h
      refine ⟨by rw [List.cons_append, List.takeWhile_append_dropWhile], c, _, rfl, hdigit, fun hc => absurd hc h48, ?_⟩
      exact all_takeWhile cs

theorem scanFraction_split {t fraction r : Text} (h : scanFraction t = (fraction, r)) :
    t = fraction ++ r ∧ (fraction = [] ∨ ∃ d ds, fraction = 46 :: d :: ds ∧ ∀ c ∈ d :: ds, isDigit c = true) := by
  cases t with
  | nil =>
    cases h
    exact ⟨rfl, .inl rfl⟩
  | cons c cs =>
    rw [scanFraction] at h
    split_ifs at h with hpoint
    · cases h
      obtain rfl : c = 46 := Fin.ext hpoint.1
      obtain ⟨d, ds, hdigits⟩ := List.exists_cons_of_ne_nil hpoint.2
      refine ⟨by rw [List.cons_append, List.takeWhile_append_dropWhile], .inr ⟨d, ds, by rw [hdigits], ?_⟩⟩
      rw [← hdigits]
      exact all_takeWhile cs
    · cases h
      exact ⟨rfl, .inl rfl⟩

theorem scanSign_split {t : Text} : t = (scanSign t).1 ++ (scanSign t).2 ∧
    ((scanSign t).1 = [] ∨ ∃ c : PyChar, (scanSign t).1 = [c] ∧ (c.val = 43 ∨ c.val = 45)) := by
  cases t with
  | nil => exact ⟨rfl, .inl rfl⟩
  | cons c cs =>
    rw [scanSign]
    split_ifs with hc
    · exact ⟨rfl, .inr ⟨c, rfl, hc⟩⟩
    · exact ⟨rfl, .inl rfl⟩

theorem scanExponent_split {t exponent r : Text} (h : scanExponent t = (exponent, r)) :
    t = exponent ++ r ∧ (exponent = [] ∨ ∃ m s d ds, exponent = m :: (s ++ d :: ds) ∧ (m.val = 101 ∨ m.val = 69) ∧
      (s = [] ∨ ∃ c : PyChar, s = [c] ∧ (c.val = 43 ∨ c.val = 45)) ∧ ∀ c ∈ d :: ds, isDigit c = true) := by
  cases t with
  | nil =>
    cases h
    exact ⟨rfl, .inl rfl⟩
  | cons c cs =>
    rw [scanExponent] at h
    split_ifs at h with hmark
    · cases h
      obtain ⟨heq, hsign⟩ := scanSign_split (t := cs)
      obtain ⟨d, ds, hdigits⟩ := List.exists_cons_of_ne_nil hmark.2
      refine ⟨?_, .inr ⟨c, _, d, ds, by rw [hdigits], hmark.1, hsign, ?_⟩⟩
      · rw [List.cons_append, List.append_assoc, List.takeWhile_append_dropWhile, ← heq]
      · rw [← hdigits]
        exact all_takeWhile _
    · cases h
      exact ⟨rfl, .inl rfl⟩

/-- What the scanner reads as a constant is one. -/
theorem numberText_of_constant {t r : Text} {v : Json F} (h : scanConstant t = some (v, r)) :
    ∃ s, t = s ++ r ∧ NumberText s v := by
  rw [scanConstant] at h
  cases hnan : dropWord (lit "NaN") t with
  | some r' =>
    rw [hnan, Option.map_eq_some_iff] at h
    obtain ⟨x, hx, heq⟩ := h
    cases heq
    exact ⟨_, dropWord_eq_some.mp hnan, .nan hx⟩
  | none =>
    rw [hnan] at h
    dsimp only at h
    cases hinf : dropWord (lit "Infinity") t with
    | some r' =>
      rw [hinf, Option.map_eq_some_iff] at h
      obtain ⟨x, hx, heq⟩ := h
      cases heq
      exact ⟨_, dropWord_eq_some.mp hinf, .infinity hx⟩
    | none =>
      rw [hinf] at h
      dsimp only at h
      cases hneg : dropWord (lit "-Infinity") t with
      | some r' =>
        rw [hneg, Option.map_eq_some_iff] at h
        obtain ⟨x, hx, heq⟩ := h
        cases heq
        exact ⟨_, dropWord_eq_some.mp hneg, .negInfinity hx⟩
      | none =>
        rw [hneg] at h
        cases h

/-- What the scanner reads as a number is one. -/
theorem numberText_of_scan {t r : Text} {v : Json F} (h : scanNumber t = some (v, r)) :
    ∃ s, t = s ++ r ∧ NumberText s v := by
  cases hminus : scanMinus t with
  | mk sign r₁ =>
    cases hwhole : scanWhole r₁ with
    | none =>
      rw [scanNumber, hminus] at h
      dsimp only at h
      rw [hwhole] at h
      exact numberText_of_constant h
    | some p =>
      obtain ⟨whole, r₂⟩ := p
      cases hfraction : scanFraction r₂ with
      | mk fraction r₃ =>
        cases hexponent : scanExponent r₃ with
        | mk exponent r₄ =>
          rw [scanNumber_eq hminus hwhole hfraction hexponent, Option.map_eq_some_iff] at h
          obtain ⟨v', hval, heq⟩ := h
          cases heq
          obtain ⟨rfl, hisSign⟩ := scanMinus_split hminus
          obtain ⟨rfl, hisWhole⟩ := scanWhole_split hwhole
          obtain ⟨rfl, hisFraction⟩ := scanFraction_split hfraction
          obtain ⟨rfl, hisExponent⟩ := scanExponent_split hexponent
          exact ⟨_, by simp, .parts ⟨hisSign, hisWhole, hisFraction, hisExponent⟩ hval⟩

/-- A number is an `int` or a `float`. -/
theorem NumberText.isNumber {s : Text} {v : Json F} (h : NumberText s v) : (∃ n, v = .int n) ∨ ∃ x, v = .num x := by
  cases h with
  | @parts sign whole fraction exponent _ hparts hval =>
    rw [numberOf] at hval
    by_cases hint : fraction = [] ∧ exponent = []
    · rw [if_pos hint] at hval
      split_ifs at hval
      · exact .inl ⟨_, (Option.some.inj hval).symm⟩
      · exact .inl ⟨_, (Option.some.inj hval).symm⟩
    · rw [if_neg hint, Option.map_eq_some_iff] at hval
      obtain ⟨x, -, rfl⟩ := hval
      exact .inr ⟨x, rfl⟩
  | nan hx => exact .inr ⟨_, rfl⟩
  | infinity hx => exact .inr ⟨_, rfl⟩
  | negInfinity hx => exact .inr ⟨_, rfl⟩

theorem visible_of_all {s : Text} (h : (s.all fun c => decide (33 ≤ c.val ∧ c.val ≤ 126)) = true) :
    ∀ c ∈ s, 33 ≤ c.val ∧ c.val ≤ 126 := by
  simpa using h

/-- The characters of a number are neither white space nor control characters, and it begins with a digit, a minus
or the letter of a constant. -/
theorem NumberText.solid {s : Text} {v : Json F} (h : NumberText s v) :
    (∀ c ∈ s, 33 ≤ c.val ∧ c.val ≤ 126) ∧
      ∃ c cs, s = c :: cs ∧ (isDigit c = true ∨ c.val = 45 ∨ c.val = 73 ∨ c.val = 78) := by
  cases h with
  | @parts sign whole fraction exponent _ hparts hval =>
    have hdigit {c : PyChar} (hc : isDigit c = true) : 33 ≤ c.val ∧ c.val ≤ 126 := by
      rw [isDigit, Bool.and_eq_true, decide_eq_true_eq, decide_eq_true_eq] at hc
      omega
    have hsign : ∀ c ∈ sign, 33 ≤ c.val ∧ c.val ≤ 126 := by
      rcases hparts.isSign with rfl | rfl
      · simp
      · exact visible_of_all rfl
    have hwhole : ∀ c ∈ whole, 33 ≤ c.val ∧ c.val ≤ 126 := by
      obtain ⟨d, ds, rfl, hd, -, hds⟩ := hparts.isWhole
      exact List.forall_mem_cons.mpr ⟨hdigit hd, fun c hc => hdigit (hds c hc)⟩
    have hfraction : ∀ c ∈ fraction, 33 ≤ c.val ∧ c.val ≤ 126 := by
      rcases hparts.isFraction with rfl | ⟨d, ds, rfl, hds⟩
      · simp
      · exact List.forall_mem_cons.mpr ⟨by decide, fun c hc => hdigit (hds c hc)⟩
    have hexponent : ∀ c ∈ exponent, 33 ≤ c.val ∧ c.val ≤ 126 := by
      rcases hparts.isExponent with rfl | ⟨m, s, d, ds, rfl, hm, hs, hds⟩
      · simp
      · refine List.forall_mem_cons.mpr ⟨by omega, List.forall_mem_append.mpr ⟨?_, fun c hc => hdigit (hds c hc)⟩⟩
        rcases hs with rfl | ⟨c, rfl, hc⟩
        · simp
        · intro d hd
          rw [List.mem_singleton.mp hd]
          omega
    refine ⟨fun c hc => ?_, ?_⟩
    · simp only [List.mem_append] at hc
      rcases hc with hc | hc | hc | hc
      · exact hsign c hc
      · exact hwhole c hc
      · exact hfraction c hc
      · exact hexponent c hc
    · obtain ⟨c, cs, heq, hc⟩ := head_number (r := fraction ++ exponent) hparts.isSign hparts.isWhole
      exact ⟨c, cs, heq, hc.elim .inl fun h45 => .inr (.inl h45)⟩
  | nan hx => exact ⟨visible_of_all rfl, _, _, rfl, by decide⟩
  | infinity hx => exact ⟨visible_of_all rfl, _, _, rfl, by decide⟩
  | negInfinity hx => exact ⟨visible_of_all rfl, _, _, rfl, by decide⟩

end Numbers

end Json

end TenantRag

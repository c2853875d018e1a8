import TenantRag.Foundations.JsonReading

/-!
# JSON texts in lines

Where a text is split into lines by `str.splitlines`, and each line is meant to be a JSON text. A
string of JSON may have any character but the control characters as it is, and `str.splitlines` splits
at U+0085, U+2028 and U+2029 as well.

## What is proved

* `isLineBreak_of_noControl` — in a JSON text without line feeds and carriage returns the boundaries are these.
* `exists_first` — a text that has one is split at the first.
* `JsonText.not_cut` — what is in front of a boundary in a JSON text is no JSON text.
* `printable_dumps` — what `json.dumps` writes is printable ASCII, and so one line.
-/

namespace TenantRag

/-- Line boundaries other than the control characters. -/
def isWideBreak (c : PyChar) : Bool := c.val == 133 || c.val == 8232 || c.val == 8233

/-- A text that has such a character is split at the first one. -/
theorem exists_first {p : PyChar → Bool} {t : Text} (h : ¬ ∀ c ∈ t, p c = false) :
    ∃ a c b, t = a ++ c :: b ∧ (∀ d ∈ a, p d = false) ∧ p c = true := by
  obtain ⟨c, b, hdrop⟩ : ∃ c b, t.dropWhile (fun d => !p d) = c :: b := by
    refine List.exists_cons_of_ne_nil fun hnil => h fun d hd => ?_
    simpa using List.dropWhile_eq_nil_iff.mp hnil d hd
  refine ⟨t.takeWhile (fun d => !p d), c, b, ?_, fun d hd => ?_, ?_⟩
  · rw [← hdrop, List.takeWhile_append_dropWhile]
  · simpa using List.mem_takeWhile_imp hd
  · have hhead := List.head_dropWhile_not (fun d => !p d)  (by rw [hdrop]; exact List.cons_ne_nil c b)
    simpa [hdrop] using hhead

namespace Json

theorem isWideBreak_space {c : PyChar} (h : isWideBreak c = true) : isSpace c = true ∧ isJsonSpace c = false := by
  simp only [isWideBreak, Bool.or_eq_true, beq_iff_eq] at h
  constructor
  · rw [isSpace]
    simp only [Bool.or_eq_true, Bool.and_eq_true, decide_eq_true_eq, beq_iff_eq]
    omega
  · simp only [isJsonSpace, Bool.or_eq_false_iff, decide_eq_false_iff_not]
    omega

/-- In a text without control characters the boundaries are these. -/
theorem isLineBreak_of_noControl {t : Text} (hcontrol : NoControl t) (hline : ∀ c ∈ t, c.val ≠ 10 ∧ c.val ≠ 13) {c : PyChar}
    (hc : c ∈ t) : isLineBreak c = isWideBreak c := by
  have hval := hline c hc
  have hcontrol := hcontrol c hc
  rw [Bool.eq_iff_iff]
  simp only [isJsonSpace, Bool.or_eq_true, decide_eq_true_eq] at hcontrol
  simp only [isLineBreak, isWideBreak, Bool.or_eq_true, Bool.and_eq_true, decide_eq_true_eq, beq_iff_eq]
  omega

/-- White space does not continue a number. -/
theorem loose_of_space {y b : Text} {c : PyChar} (hy : isBlank y = true) (hc : isSpace c = true) :
    Loose (y ++ c :: b) := by
  have hsolid {d : PyChar} (hd : isSpace d = true) : isDigit d = false ∧ d.val ≠ 46 ∧ d.val ≠ 101 ∧ d.val ≠ 69 := by
    have hnot : ¬ (33 ≤ d.val ∧ d.val ≤ 126) := by
      intro h
      rw [isSpace_of_val h] at hd
      cases hd
    refine ⟨?_, by omega, by omega, by omega⟩
    rw [isDigit, Bool.and_eq_false_iff, decide_eq_false_iff_not, decide_eq_false_iff_not]
    omega
  intro d hd
  cases y with
  | nil =>
    cases hd
    exact hsolid hc
  | cons e y =>
    cases hd
    exact hsolid (isBlank_iff.mp hy _ List.mem_cons_self)

/-- What is in front of a boundary in a JSON text is no JSON text. -/
theorem JsonText.not_cut {F : Type} [PyFloat F] {a b : Text} {c : PyChar} {v v' : Json F} (h : JsonText (a ++ c :: b) v)
    (hc : isWideBreak c = true) : ¬ JsonText a v' := by
  intro hcut
  have hloose : Loose ([] ++ c :: b) := loose_of_space rfl (isWideBreak_space hc).1
  have hspaces := hcut.extend h hloose
  have hjson := hspaces c List.mem_cons_self
  rw [(isWideBreak_space hc).2] at hjson
  cases hjson

/-! ### Written values -/

/-- The characters are those of ASCII that are printed. -/
def Printable (t : Text) : Prop := ∀ c ∈ t, 32 ≤ c.val ∧ c.val ≤ 126

theorem Printable.append {s t : Text} (hs : Printable s) (ht : Printable t) : Printable (s ++ t) :=
  List.forall_mem_append.mpr ⟨hs, ht⟩

theorem Printable.cons {c : PyChar} {t : Text} (hc : 32 ≤ c.val ∧ c.val ≤ 126) (ht : Printable t) : Printable (c :: t) :=
  List.forall_mem_cons.mpr ⟨hc, ht⟩

theorem printable_nil : Printable [] := List.forall_mem_nil _

theorem printable_lit {s : String} (h : ((lit s).all fun c => decide (32 ≤ c.val ∧ c.val ≤ 126)) = true) : Printable (lit s) := by
  simpa [Printable] using h

/-- There is no line boundary in such a text. -/
theorem Printable.line {t : Text} (h : Printable t) : ∀ c ∈ t, isLineBreak c = false := by
  intro c hc
  have hval := h c hc
  simp only [isLineBreak, Bool.or_eq_false_iff, Bool.and_eq_false_iff, decide_eq_false_iff_not, beq_eq_false_iff_ne]
  omega

theorem Printable.join {sep : Text} (hsep : Printable sep) {ts : List Text} (h : ∀ t ∈ ts, Printable t) :
    Printable (join sep ts) := by
  induction ts with
  | nil => exact printable_nil
  | cons t ts ih =>
    obtain ⟨ht, hts⟩ := List.forall_mem_cons.mp h
    cases ts with
    | nil =>
      rw [join_singleton]
      exact ht
    | cons t' ts =>
      rw [join_cons_cons]
      exact ht.append (hsep.append (ih hts))

theorem printable_digits {t : Text} (h : ∀ c ∈ t, isDigit c = true) : Printable t := by
  intro c hc
  have hdigit := h c hc
  simp only [isDigit, Bool.and_eq_true, decide_eq_true_eq] at hdigit
  omega

theorem printable_whole {t : Text} (h : IsWhole t) : Printable t := by
  obtain ⟨c, cs, rfl, hc, -, hcs⟩ := h
  exact printable_digits (List.forall_mem_cons.mpr ⟨hc, hcs⟩)

theorem printable_escapeUnit (n : ℕ) : Printable (escapeUnit n) := by
  have hhex : ∀ d : Digit, 32 ≤ (hexChar d).val ∧ (hexChar d).val ≤ 126 := by decide
  exact .cons (by decide) (.cons (by decide) (.cons (hhex _) (.cons (hhex _) (.cons (hhex _) (.cons (hhex _) printable_nil)))))

theorem printable_escapeChar (c : PyChar) : Printable (escapeChar c) := by
  rcases escapeChar_cases c with ⟨e, he, -, hshort⟩ | ⟨he, -, -, hplain⟩ | ⟨he, -⟩ | ⟨he, -⟩
  · rw [he]
    have hval := shortEscape_val hshort
    exact .cons (by decide) (.cons ⟨by omega, by omega⟩ printable_nil)
  · rw [he]
    exact .cons hplain printable_nil
  · rw [he]
    exact printable_escapeUnit _
  · rw [he]
    exact (printable_escapeUnit _).append (printable_escapeUnit _)

theorem printable_quoted (t : Text) : Printable (quoted t) := by
  refine .cons (by decide) (.append ?_ (.cons (by decide) printable_nil))
  intro c hc
  obtain ⟨d, -, hd⟩ := List.mem_flatMap.mp hc
  exact printable_escapeChar d c hd

/-- A finite number is written in digits, signs, a point and the mark of an exponent. -/
theorem printable_repr {F : Type} [PyFloat F] {x : F} (h : PyFloat.isFinite x = true) : Printable (PyFloat.repr x) := by
  obtain ⟨sign, whole, fraction, exponent, hlit⟩ := PyFloat.repr_literal x h
  have hsign : Printable sign := by
    rcases hlit.isSign with rfl | rfl
    · exact printable_nil
    · exact .cons (by decide) printable_nil
  have hfraction : Printable fraction := by
    rcases hlit.isFraction with rfl | ⟨d, ds, rfl, hds⟩
    · exact printable_nil
    · exact .cons (by decide) (printable_digits hds)
  have hexponent : Printable exponent := by
    rcases hlit.isExponent with rfl | ⟨s, d, ds, rfl, hs, hds⟩
    · exact printable_nil
    · exact .cons (by decide) (.cons (by omega) (printable_digits hds))
  rw [hlit.parts]
  exact hsign.append ((printable_whole hlit.isWhole).append (hfraction.append hexponent))

theorem mem_dumpsItems {F : Type} [PyFloat F] {vs : List (Json F)} {t : Text} (h : t ∈ dumpsItems vs) : ∃ v ∈ vs, t = dumps v := by
  induction vs with
  | nil => cases h
  | cons v vs ih =>
    rcases List.mem_cons.mp h with rfl | h
    · exact ⟨v, List.mem_cons_self, rfl⟩
    · obtain ⟨w, hw, ht⟩ := ih h
      exact ⟨w, List.mem_cons_of_mem v hw, ht⟩

theorem mem_dumpsFields {F : Type} [PyFloat F] {fs : List (Text × Json F)} {t : Text} (h : t ∈ dumpsFields fs) :
    ∃ f ∈ fs, t = quoted f.1 ++ 58 :: dumps f.2 := by
  induction fs with
  | nil => cases h
  | cons f fs ih =>
    rcases List.mem_cons.mp h with rfl | h
    · exact ⟨f, List.mem_cons_self, rfl⟩
    · obtain ⟨g, hg, ht⟩ := ih h
      exact ⟨g, List.mem_cons_of_mem f hg, ht⟩

/-- Everything that is written is printable, for `ensure_ascii` escapes the rest. -/
theorem printable_dumps {F : Type} [PyFloat F] {v : Json F} (h : Plain v) : Printable (dumps v) := by
  induction v using inductOn with
  | null => exact printable_lit (by decide)
  | bool b => cases b <;> exact printable_lit (by decide)
  | int n =>
    rw [dumps, intText]
    have hdigits : Printable (decimal n.natAbs) := printable_whole (decimal_isWhole _)
    split_ifs
    · exact .cons (by decide) hdigits
    · exact hdigits
  | num x =>
    rw [dumps, floatText_eq h]
    exact printable_repr h.1
  | str t => exact printable_quoted t
  | arr items ih =>
    refine .cons (by decide) (.append (.join (.cons (by decide) printable_nil) fun t ht => ?_) (.cons (by decide) printable_nil))
    obtain ⟨v, hv, rfl⟩ := mem_dumpsItems ht
    exact ih v hv (plainItems_iff.mp h v hv)
  | obj fields ih =>
    refine .cons (by decide) (.append (.join (.cons (by decide) printable_nil) fun t ht => ?_) (.cons (by decide) printable_nil))
    obtain ⟨f, hf, rfl⟩ := mem_dumpsFields ht
    exact (printable_quoted f.1).append (.cons (by decide) (ih f hf (plainFields_iff.mp h.2 f hf).2))

end Json

end TenantRag

import TenantRag.Foundations.JsonScan
import TenantRag.Foundations.Sha256
import TenantRag.Foundations.Timestamp

/-!
# Texts without surrogates

What a digest, a timestamp or a UUID is written with is no surrogate, so that JSON
reads it back.

## What is proved

* `scalar_of_ofText`, `scalar_hexdigest`, `scalar_timestamp` — what has no surrogate.
* `Scalar.unpaired` — such a text is read back.
-/

namespace TenantRag

/-- No code point is a surrogate. -/
def Scalar (t : Text) : Prop := ∀ c ∈ t, isSurrogate c = false

theorem scalar_of_encodable {t : Text} (h : encodable t = true) : Scalar t := by
  intro c hc
  rw [encodable, List.all_eq_true] at h
  simpa using h c hc

theorem Scalar.unpaired {t : Text} (h : Scalar t) : Unpaired t :=
  unpaired_of_encodable (List.all_eq_true.mpr fun c hc => by rw [h c hc]; rfl)

theorem isSurrogate_of_lt {c : PyChar} (h : c.val < 0xD800) : isSurrogate c = false := by
  simp only [isSurrogate, Bool.and_eq_false_iff, decide_eq_false_iff_not]
  omega

theorem scalar_append {s t : Text} (hs : Scalar s) (ht : Scalar t) : Scalar (s ++ t) := fun c hc =>
  (List.mem_append.mp hc).elim (hs c) (ht c)

/-! ### Digests and timestamps -/

theorem scalar_hexdigest (d : Sha256) : Scalar d.hexdigest := by
  have hhex : ∀ digit, isSurrogate (hexChar digit) = false := by decide
  intro c hc
  obtain ⟨digit, -, rfl⟩ := List.mem_map.mp hc
  exact hhex digit

theorem scalar_timestamp (t : UtcTime) : Scalar (timestamp t) := by
  rw [timestamp_eq]
  refine scalar_append (fun c hc => ?_) (scalar_of_encodable rfl)
  rcases mem_isoformat hc with hdigit | rfl | rfl | rfl | rfl
  · simp only [isDigit, Bool.and_eq_true, decide_eq_true_eq] at hdigit
    exact isSurrogate_of_lt (by omega)
  · decide
  · decide
  · decide
  · decide

/-! ### What a UUID is read from -/

theorem mem_removeAll {p t : Text} {c : PyChar} (h : c ∈ t) : c ∈ p ∨ c ∈ removeAll p t := by
  suffices hgen : ∀ n (t : Text), c ∈ t → c ∈ p ∨ c ∈ removeAllAux p n t from hgen t.length t h
  intro n
  induction n with
  | zero => exact fun t ht => .inr ht
  | succ n ih =>
    intro t ht
    cases t with
    | nil => cases ht
    | cons d ds =>
      rw [removeAllAux]
      split_ifs with hp
      · obtain ⟨r, hr⟩ := List.isPrefixOf_iff_prefix.mp hp
        rw [← hr, List.mem_append] at ht
        rw [← hr, List.drop_left]
        exact ht.elim .inl (ih r)
      · rcases List.mem_cons.mp ht with rfl | ht
        · exact .inr List.mem_cons_self
        · exact (ih ds ht).imp_right (List.mem_cons_of_mem d)

theorem mem_dropWhile {p : PyChar → Bool} {t : Text} {c : PyChar} (h : c ∈ t) : p c = true ∨ c ∈ t.dropWhile p := by
  rw [← List.takeWhile_append_dropWhile (p := p) (l := t), List.mem_append] at h
  exact h.imp_left List.mem_takeWhile_imp

theorem mem_rdropWhile {p : PyChar → Bool} {t : Text} {c : PyChar} (h : c ∈ t) : p c = true ∨ c ∈ t.rdropWhile p := by
  rw [List.rdropWhile, List.mem_reverse]
  exact mem_dropWhile (List.mem_reverse.mpr h)

/-- A surrogate is no white space and no digit. -/
theorem asciiOf_surrogate {c : PyChar} (h : isSurrogate c = true) : asciiOf c = 63 := by
  simp only [isSurrogate, Bool.and_eq_true, decide_eq_true_eq] at h
  have hspace : isSpace c = false := by
    simp only [isSpace, Bool.or_eq_false_iff, Bool.and_eq_false_iff, decide_eq_false_iff_not, beq_eq_false_iff_ne]
    omega
  have hzeros : ∀ z ∈ decimalZeros, z + 9 < 0xD800 ∨ 0xDFFF < z := by decide
  have hnone : (decimalZeros.find? fun z => z ≤ c.val && c.val ≤ z + 9) = none := by
    rw [List.find?_eq_none]
    intro z hz
    have hout := hzeros z hz
    simp only [Bool.and_eq_true, decide_eq_true_eq]
    omega
  rw [asciiOf, if_neg (by omega), hspace, if_neg (by decide)]
  split
  case h_1 z hz =>
    rw [hnone] at hz
    cases hz
  case h_2 => rfl

theorem not_mem_of_digitsOf {after : Bool} {t : Text} (h : (digitsOf after t).isSome = true) : (63 : PyChar) ∉ t := by
  induction t generalizing after with
  | nil => exact List.not_mem_nil
  | cons d ds ih =>
    rw [digitsOf] at h
    rw [List.mem_cons, not_or]
    split_ifs at h with hscore
    · exact ⟨by rw [hscore.2]; decide, ih h⟩
    · cases hd : digitOfChar d with
      | none =>
        rw [hd] at h
        cases h
      | some digit =>
        rw [hd, Option.isSome_map] at h
        refine ⟨?_, ih h⟩
        rintro rfl
        cases hd

theorem not_mem_of_dropPrefix {t : Text} (h : (63 : PyChar) ∉ dropPrefix t) : (63 : PyChar) ∉ t := by
  unfold dropPrefix at h
  split at h
  · rename_i c cs
    split_ifs at h with hx hscore
    · obtain ⟨d, ds, rfl⟩ : ∃ d ds, cs = d :: ds := by
        cases cs with
        | nil => cases hscore
        | cons d ds => exact ⟨d, ds, rfl⟩
      obtain rfl : d = 95 := Option.some.inj hscore
      rcases hx with rfl | rfl <;> simpa using h
    · rcases hx with rfl | rfl <;> simpa using h
    · exact h
  · exact h

/-- What `int` reads has no question mark. -/
theorem not_mem_of_intBase16 {t : Text} (h : (intBase16 t).isSome = true) : (63 : PyChar) ∉ t.map asciiOf := by
  intro hmem
  have hspace : ¬ isIntSpace 63 = true := by decide
  have hmem := (mem_dropWhile (p := isIntSpace) hmem).resolve_left hspace
  have hmem := (mem_rdropWhile (p := isIntSpace) hmem).resolve_left hspace
  revert hmem
  rw [imp_false]
  unfold intBase16 at h
  split at h
  · rename_i cs heq
    rw [heq, List.mem_cons, not_or]
    exact ⟨by decide, not_mem_of_dropPrefix (not_mem_of_digitsOf h)⟩
  · rename_i cs heq
    rw [heq, List.mem_cons, not_or]
    have hsome : (digitsOf false (dropPrefix cs)).isSome = true := by
      cases hd : digitsOf false (dropPrefix cs) with
      | none =>
        rw [hd] at h
        cases h
      | some ds => rfl
    exact ⟨by decide, not_mem_of_dropPrefix (not_mem_of_digitsOf hsome)⟩
  · exact not_mem_of_dropPrefix (not_mem_of_digitsOf h)

theorem scalar_of_intBase16 {t : Text} (h : (intBase16 t).isSome = true) : Scalar t := by
  intro c hc
  rw [Bool.eq_false_iff]
  intro hsurrogate
  exact not_mem_of_intBase16 h (List.mem_map.mpr ⟨c, hc, asciiOf_surrogate hsurrogate⟩)

/-- A text that `UUID` reads has no surrogates. -/
theorem scalar_of_ofText {t : Text} (h : (Uuid.ofText t).isSome = true) : Scalar t := by
  have hurn : Scalar [117, 114, 110, 58] := by
    simp only [Scalar, List.forall_mem_cons, List.not_mem_nil, false_implies, implies_true, and_true]
    decide
  have huuid : Scalar [117, 117, 105, 100, 58] := by
    simp only [Scalar, List.forall_mem_cons, List.not_mem_nil, false_implies, implies_true, and_true]
    decide
  have hbrace : ∀ c : PyChar, decide (c = 123 ∨ c = 125) = true → isSurrogate c = false := by
    intro c hc
    rcases of_decide_eq_true hc with rfl | rfl <;> decide
  intro c hc
  simp only [Uuid.ofText] at h
  split_ifs at h with hlength
  case neg => cases h
  rw [Option.isSome_map] at h
  rcases mem_removeAll  hc with hp | hc
  · exact hurn c hp
  rcases mem_removeAll  hc with hp | hc
  · exact huuid c hp
  rcases mem_dropWhile (p := fun c => c = 123 ∨ c = 125) hc with hp | hc
  · exact hbrace c hp
  rcases mem_rdropWhile (p := fun c => c = 123 ∨ c = 125) hc with hp | hc
  · exact hbrace c hp
  by_cases h45 : c = 45
  · rw [h45]
    decide
  · exact scalar_of_intBase16 h c (List.mem_filter.mpr ⟨hc, by simpa using h45⟩)

end TenantRag

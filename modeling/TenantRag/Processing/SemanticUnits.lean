import TenantRag.Foundations.Slice
import TenantRag.Foundations.Unicode

/-!
# Semantic units

The units a text is embedded by: fenced blocks, headings, list items and
sentences, each with its place in the text. The patterns are those of the default
configuration.

## The model

* `markdownFence`, `markdownHeading`, `markdownListItem` — whether the default pattern matches at the head of a line.
* `sentenceBoundaries` — the matches of the default sentence pattern in a line.
* `normalizeForEmbedding` — runs of white space replaced by the separator, and both ends stripped.
* `semanticUnits` — the units, line by line; a fence goes on to the line of the next fence.

## What is proved

* `Covers a units b` — the units lie in order between `a` and `b`, none is blank, and white space only is left out.
* `covers_semanticUnits` — the units cover the text.
* `semanticUnits_eq_nil_iff` — there are none exactly if the text is blank.
-/

namespace TenantRag

/-! ### The default patterns -/

/-- ``^\s*(?:```|~~~)`` matches. -/
def markdownFence (line : Text) : Bool :=
  let rest := line.dropWhile isSpace
  (lit "```").isPrefixOf rest || (lit "~~~").isPrefixOf rest

/-- `\s+` matches at the head. -/
def spaceAhead (rest : Text) : Bool := rest.head?.any isSpace

/-- `^\s{0,3}#{1,6}(?:\s+|$)` matches. -/
def markdownHeading (line : Text) : Bool :=
  let indent := line.takeWhile isSpace
  let rest := line.dropWhile isSpace
  let marks := rest.takeWhile (·.val == 35)
  let behind := rest.dropWhile (·.val == 35)
  indent.length ≤ 3 && 1 ≤ marks.length && marks.length ≤ 6 && (behind.isEmpty || spaceAhead behind)

/-- `^\s*(?:[-*+]\s+|\d+[.)]\s+)` matches. -/
def markdownListItem (line : Text) : Bool :=
  match line.dropWhile isSpace with
  | [] => false
  | c :: cs =>
      if c.val == 45 || c.val == 42 || c.val == 43 then spaceAhead cs
      else
        isDecimal c &&
          match cs.dropWhile isDecimal with
          | [] => false
          | d :: ds => (d.val == 46 || d.val == 41) && spaceAhead ds

/-- What `[.!?]` matches. -/
def isSentenceStop (c : PyChar) : Bool := c.val == 46 || c.val == 33 || c.val == 63

/-- The matches of `(?<=[.!?])\s+` from `pos` on, where `behind` says whether a stop stands before `pos`. -/
def sentenceBoundaries (behind : Bool) (pos : ℕ) (rest : Text) : List Span :=
  match rest with
  | [] => []
  | c :: cs =>
      if behind && isSpace c then
        let run := cs.takeWhile isSpace
        ⟨pos, pos + 1 + run.length⟩ :: sentenceBoundaries false (pos + 1 + run.length) (cs.dropWhile isSpace)
      else sentenceBoundaries (isSentenceStop c) (pos + 1) cs
termination_by rest.length
decreasing_by
  · exact Nat.lt_succ_of_le (List.dropWhile_sublist _).length_le
  · exact Nat.lt_succ_self _

/-! ### Embedding texts -/

/-- `re.sub(r"\s+", separator, text)`; `inRun` says whether white space has just been replaced. -/
def subWhitespace (separator : Text) : Bool → Text → Text
  | _, [] => []
  | inRun, c :: cs =>
      if isSpace c then (if inRun then [] else separator) ++ subWhitespace separator true cs
      else c :: subWhitespace separator false cs

/-- `_normalize_for_embedding`; the separator is a text without backslashes, which `re.sub` puts in as it is. -/
def normalizeForEmbedding (separator text : Text) : Text := strip (subWhitespace separator false text)

theorem mem_subWhitespace {separator text : Text} {inRun : Bool} {c : PyChar} (hc : c ∈ text)
    (hspace : isSpace c = false) : c ∈ subWhitespace separator inRun text := by
  induction text generalizing inRun with
  | nil => cases hc
  | cons d ds ih =>
    rw [subWhitespace]
    rcases List.mem_cons.mp hc with rfl | hc
    · rw [hspace, if_neg (by decide)]
      exact List.mem_cons_self
    · split
      · exact List.mem_append_right _ (ih hc)
      · exact List.mem_cons_of_mem _ (ih hc)

theorem isBlank_nil : isBlank [] = true := isBlank_iff.mpr (by simp)

theorem not_isBlank_iff {t : Text} : isBlank t = false ↔ ∃ c ∈ t, isSpace c = false := by
  rw [← Bool.not_eq_true, isBlank_iff]
  simp

theorem isBlank_append {s t : Text} : isBlank (s ++ t) = true ↔ isBlank s = true ∧ isBlank t = true := by
  simp only [isBlank_iff, List.forall_mem_append]

/-- A text inside a blank one is blank. -/
theorem isBlank_of_within {s t : Text} (h : s <:+: t) (ht : isBlank t = true) : isBlank s = true :=
  isBlank_iff.mpr fun c hc => isBlank_iff.mp ht c (h.subset hc)

/-- What is left of a text that is not blank is not empty. -/
theorem normalizeForEmbedding_ne_nil {separator text : Text} (h : isBlank text = false) :
    normalizeForEmbedding separator text ≠ [] := by
  obtain ⟨c, hc, hspace⟩ := not_isBlank_iff.mp h
  intro hnil
  have hall := strip_eq_nil_iff.mp hnil c (mem_subWhitespace hc hspace)
  rw [hspace] at hall
  cases hall

/-! ### Units -/

/-- `_SemanticUnit`. -/
structure SemanticUnit where
  start : ℕ
  stop : ℕ
  embeddingText : Text
  deriving DecidableEq

section Scan
variable (separator text : Text)

/-- `_append_unit`: the unit it appends, if any. -/
def appendUnit (start stop : ℕ) : List SemanticUnit :=
  let embeddingText := normalizeForEmbedding separator (slice text start stop)
  if embeddingText = [] then [] else [⟨start, stop, embeddingText⟩]

/-- `_line_content_end`. -/
def lineContentEnd (line : Text) (lineStart : ℕ) : ℕ :=
  lineStart + (line.rdropWhile fun c => c.val == 13 || c.val == 10).length

/-- The lines with their starts. -/
def lineStarts : ℕ → List Text → List (ℕ × Text)
  | _, [] => []
  | offset, line :: lines => (offset, line) :: lineStarts (offset + line.length) lines

/-- The search for the closing fence: the end of the block, and the lines behind it. -/
def closingFence (blockEnd : ℕ) : List (ℕ × Text) → ℕ × List (ℕ × Text)
  | [] => (blockEnd, [])
  | (closingStart, line) :: rest =>
      let closingEnd := lineContentEnd line closingStart
      if markdownFence (slice text closingStart closingEnd) then (closingEnd, rest) else closingFence closingEnd rest

/-- The sentences of a line, from `relativeStart` on. -/
def sentenceUnits (lineStart contentEnd : ℕ) : ℕ → List Span → List SemanticUnit
  | relativeStart, [] => appendUnit separator text (lineStart + relativeStart) contentEnd
  | relativeStart, boundary :: rest =>
      appendUnit separator text (lineStart + relativeStart) (lineStart + boundary.start) ++
        sentenceUnits lineStart contentEnd boundary.stop rest

theorem length_closingFence (blockEnd : ℕ) (lines : List (ℕ × Text)) :
    (closingFence text blockEnd lines).2.length ≤ lines.length := by
  induction lines generalizing blockEnd with
  | nil => rfl
  | cons line rest ih =>
    rw [closingFence]
    split
    · exact Nat.le_succ _
    · exact (ih _).trans (Nat.le_succ _)

/-- The loop over the lines. -/
def unitsOfLines (lines : List (ℕ × Text)) : List SemanticUnit :=
  match lines with
  | [] => []
  | (lineStart, line) :: rest =>
      let contentEnd := lineContentEnd line lineStart
      let lineContent := slice text lineStart contentEnd
      if isBlank lineContent then unitsOfLines rest
      else if markdownFence lineContent then
        appendUnit separator text lineStart (closingFence text contentEnd rest).1 ++
          unitsOfLines (closingFence text contentEnd rest).2
      else if markdownHeading lineContent || markdownListItem lineContent then
        appendUnit separator text lineStart contentEnd ++ unitsOfLines rest
      else
        sentenceUnits separator text lineStart contentEnd 0 (sentenceBoundaries false 0 lineContent) ++ unitsOfLines rest
termination_by lines.length
decreasing_by
  · exact Nat.lt_succ_self _
  · exact Nat.lt_succ_of_le (length_closingFence text _ rest)
  · exact Nat.lt_succ_self _
  · exact Nat.lt_succ_self _

/-- `_semantic_units`. -/
def semanticUnits : List SemanticUnit :=
  if isBlank text then []
  else
    let lines := splitlinesKeepends text
    unitsOfLines separator text (lineStarts 0 (if lines = [] then [text] else lines))

end Scan

/-! ### Covering -/

/-- A unit of a text: its span is not blank, and it has something to embed. -/
structure SemanticUnit.Whole (text : Text) (u : SemanticUnit) : Prop where
  lt : u.start < u.stop
  le : u.stop ≤ text.length
  solid : isBlank (slice text u.start u.stop) = false
  embedded : u.embeddingText ≠ []

/-- The units lie in order between `a` and `b`, and they leave out nothing but white space. -/
def Covers (text : Text) : ℕ → List SemanticUnit → ℕ → Prop
  | a, [], b => a ≤ b ∧ isBlank (slice text a b) = true
  | a, u :: units, b => a ≤ u.start ∧ isBlank (slice text a u.start) = true ∧ u.Whole text ∧ Covers text u.stop units b

variable {separator text : Text}

theorem Covers.le {a b : ℕ} {units : List SemanticUnit} (h : Covers text a units b) : a ≤ b := by
  induction units generalizing a with
  | nil => exact h.1
  | cons u units ih =>
    obtain ⟨hle, -, hu, hrest⟩ := h
    exact hle.trans (hu.lt.le.trans (ih hrest))

/-- White space in front. -/
theorem Covers.skip {a a' b : ℕ} {units : List SemanticUnit} (hle : a ≤ a') (hblank : isBlank (slice text a a') = true)
    (h : Covers text a' units b) : Covers text a units b := by
  cases units with
  | nil =>
    refine ⟨hle.trans h.1, ?_⟩
    rw [← slice_append_slice text hle h.1, isBlank_append]
    exact ⟨hblank, h.2⟩
  | cons u units =>
    obtain ⟨hstart, hgap, hu, hrest⟩ := h
    refine ⟨hle.trans hstart, ?_, hu, hrest⟩
    rw [← slice_append_slice text hle hstart, isBlank_append]
    exact ⟨hblank, hgap⟩

theorem Covers.append {a b c : ℕ} {units units' : List SemanticUnit} (h : Covers text a units b)
    (h' : Covers text b units' c) : Covers text a (units ++ units') c := by
  induction units generalizing a with
  | nil => exact h'.skip h.1 h.2
  | cons u units ih =>
    obtain ⟨hstart, hgap, hu, hrest⟩ := h
    exact ⟨hstart, hgap, hu, ih hrest⟩

/-- `_append_unit` covers a slice that is empty or not blank. -/
theorem covers_appendUnit {a b : ℕ} (hab : a ≤ b) (hb : b ≤ text.length)
    (h : a = b ∨ isBlank (slice text a b) = false) : Covers text a (appendUnit separator text a b) b := by
  rw [appendUnit]
  rcases h with rfl | h
  · have hnil : normalizeForEmbedding separator (slice text a a) = [] := by
      rw [slice_self]
      rfl
    rw [if_pos hnil]
    exact ⟨le_rfl, by rw [slice_self, isBlank_nil]⟩
  · rw [if_neg (normalizeForEmbedding_ne_nil h)]
    have hlt : a < b := by
      refine lt_of_le_of_ne hab fun heq => ?_
      rw [heq, slice_self, isBlank_nil] at h
      cases h
    exact ⟨le_rfl, by rw [slice_self, isBlank_nil], ⟨hlt, hb, h, normalizeForEmbedding_ne_nil h⟩, le_rfl,
      by rw [slice_self, isBlank_nil]⟩

/-! ### Sentences -/

theorem slice_of_append {t ys : Text} {a b : ℕ} (xs zs : Text) (ht : t = xs ++ (ys ++ zs)) (ha : a = xs.length)
    (hb : b = xs.length + ys.length) : slice t a b = ys := by
  subst ht ha hb
  rw [slice, ← List.append_assoc, ← List.length_append, List.take_left, List.drop_left]

/-- The sentences of what is left of a line: `done` is cut off, `part` is scanned since. -/
theorem covers_sentenceUnits {lineStart contentEnd relativeStart pos : ℕ} {before done part rest behind : Text}
    {stopped : Bool} (htext : text = before ++ (done ++ (part ++ (rest ++ behind)))) (hline : lineStart = before.length)
    (hrelative : relativeStart = done.length) (hpos : pos = relativeStart + part.length)
    (hend : contentEnd = lineStart + pos + rest.length) (hstopped : stopped = true → isBlank part = false)
    (hsolid : part ++ rest = [] ∨ isBlank (part ++ rest) = false) :
    Covers text (lineStart + relativeStart)
      (sentenceUnits separator text lineStart contentEnd relativeStart (sentenceBoundaries stopped pos rest))
      contentEnd := by
  have hlength : text.length = before.length + (done.length + (part.length + (rest.length + behind.length))) := by
    rw [htext]
    simp only [List.length_append]
  have hpart : slice text (lineStart + relativeStart) (lineStart + pos) = part := by
    refine slice_of_append (before ++ done) (rest ++ behind) ?_ ?_ ?_
    · rw [htext, List.append_assoc]
    · rw [List.length_append, hline, hrelative]
    · rw [List.length_append, hline, hpos, hrelative, Nat.add_assoc]
  induction hn : rest.length using Nat.strong_induction_on generalizing done part rest relativeStart pos stopped with
  | _ n ih =>
  cases rest with
  | nil =>
    rw [sentenceBoundaries, sentenceUnits]
    rw [List.append_nil] at hsolid
    rw [List.length_nil, Nat.add_zero] at hend
    rw [hend]
    refine covers_appendUnit (by omega) (by omega) ?_
    rw [hpart]
    refine hsolid.imp_left fun hnil => ?_
    rw [hpos, hnil, List.length_nil, Nat.add_zero]
  | cons c cs =>
    rw [List.length_cons] at hend hlength hn
    rw [sentenceBoundaries]
    by_cases hboundary : (stopped && isSpace c) = true
    · -- a boundary: the part is a unit, the run of white space is left out
      rw [if_pos hboundary, sentenceUnits]
      rw [Bool.and_eq_true] at hboundary
      have hsplit : cs = cs.takeWhile isSpace ++ cs.dropWhile isSpace := List.takeWhile_append_dropWhile.symm
      have hlengths : cs.length = (cs.takeWhile isSpace).length + (cs.dropWhile isSpace).length := by
        rw [← List.length_append, ← hsplit]
      have hunit : Covers text (lineStart + relativeStart)
          (appendUnit separator text (lineStart + relativeStart) (lineStart + pos)) (lineStart + pos) :=
        covers_appendUnit (by omega) (by omega) (.inr (by rw [hpart]; exact hstopped hboundary.1))
      have hrunEnd : lineStart + pos ≤ lineStart + (pos + 1 + (cs.takeWhile isSpace).length) := by omega
      refine hunit.append (Covers.skip hrunEnd ?_ ?_)
      · have hrun : slice text (lineStart + pos) (lineStart + (pos + 1 + (cs.takeWhile isSpace).length)) =
            c :: cs.takeWhile isSpace := by
          refine slice_of_append (before ++ done ++ part) (cs.dropWhile isSpace ++ behind) ?_ ?_ ?_
          · rw [htext]
            simp only [List.append_assoc, List.cons_append]
            rw [← List.append_assoc (cs.takeWhile isSpace), ← hsplit]
          · simp only [List.length_append]
            omega
          · simp only [List.length_append, List.length_cons]
            omega
        rw [hrun]
        refine isBlank_iff.mpr fun d hd => ?_
        rcases List.mem_cons.mp hd with rfl | hd
        · exact hboundary.2
        · exact List.mem_takeWhile_imp hd
      · have hnext : text = before ++ ((done ++ part ++ c :: cs.takeWhile isSpace) ++ ([] ++
            (cs.dropWhile isSpace ++ behind))) := by
          rw [htext, List.nil_append]
          simp only [List.append_assoc, List.cons_append]
          rw [← List.append_assoc (cs.takeWhile isSpace), ← hsplit]
        refine ih (cs.dropWhile isSpace).length (by omega) hnext ?_ rfl (by omega) (by simp) ?_ ?_ ?_ rfl
        · simp only [List.length_append, List.length_cons]
          omega
        · rw [List.nil_append]
          cases hdrop : cs.dropWhile isSpace with
          | nil => exact .inl rfl
          | cons d ds =>
            have hhead := List.head_dropWhile_not isSpace (l := cs) (by rw [hdrop]; exact List.cons_ne_nil d ds)
            simp only [hdrop, List.head_cons] at hhead
            exact .inr (not_isBlank_iff.mpr ⟨d, List.mem_cons_self, by simpa using hhead⟩)
        · simp only [List.length_append, List.length_cons, List.length_nil]
          omega
        · exact slice_self _ _
    · -- one more character of the part
      rw [if_neg hboundary]
      have hnext : text = before ++ (done ++ ((part ++ [c]) ++ (cs ++ behind))) := by
        rw [htext]
        simp only [List.append_assoc, List.cons_append, List.nil_append]
      refine ih cs.length (by omega) hnext hrelative ?_ (by omega) ?_ ?_ ?_ ?_ rfl
      · rw [List.length_append, List.length_singleton, hpos, Nat.add_assoc]
      · intro hstop
        refine not_isBlank_iff.mpr ⟨c, by simp, ?_⟩
        simp only [isSentenceStop, Bool.or_eq_true, beq_iff_eq] at hstop
        simp only [isSpace]
        rcases hstop with (h | h) | h <;> simp [h]
      · rw [List.append_assoc, List.singleton_append]
        exact hsolid
      · simp only [List.length_append, List.length_singleton]
        omega
      · rw [← Nat.add_assoc, slice_succ (by omega), hpart]
        rw [htext, List.getElem?_append_right (by omega), List.getElem?_append_right (by omega),
          List.getElem?_append_right (by omega)]
        simp [hline, hpos, hrelative]

/-! ### Lines -/

/-- The lines follow each other from `a` to the end of the text. -/
def Lined (text : Text) : ℕ → List (ℕ × Text) → Prop
  | a, [] => a = text.length
  | a, (start, line) :: rest =>
      start = a ∧ (∃ before behind, text = before ++ (line ++ behind) ∧ a = before.length) ∧ Lined text (a + line.length) rest

theorem lined_lineStarts {before : Text} {lines : List Text} (htext : text = before ++ lines.flatten) :
    Lined text before.length (lineStarts before.length lines) := by
  induction lines generalizing before with
  | nil =>
    rw [List.flatten_nil, List.append_nil] at htext
    rw [htext]
    rfl
  | cons line lines ih =>
    rw [List.flatten_cons] at htext
    refine ⟨rfl, ⟨before, lines.flatten, htext, rfl⟩, ?_⟩
    have hnext : text = (before ++ line) ++ lines.flatten := by rw [htext, List.append_assoc]
    have hrest := ih hnext
    rwa [List.length_append] at hrest

theorem Lined.le {a : ℕ} {lines : List (ℕ × Text)} (h : Lined text a lines) : a ≤ text.length := by
  induction lines generalizing a with
  | nil => exact le_of_eq h
  | cons line lines ih =>
    obtain ⟨-, -, hrest⟩ := h
    exact (Nat.le_add_right _ _).trans (ih hrest)

/-- The content of a line and the ends behind it, which are white space. -/
theorem line_split {a : ℕ} {line before behind : Text} (htext : text = before ++ (line ++ behind)) (ha : a = before.length) :
    ∃ content ends, line = content ++ ends ∧ text = before ++ (content ++ (ends ++ behind)) ∧
      lineContentEnd line a = a + content.length ∧ slice text a (lineContentEnd line a) = content ∧
      isBlank (slice text (lineContentEnd line a) (a + line.length)) = true := by
  obtain ⟨ends, hends⟩ := List.rdropWhile_prefix (fun c : PyChar => c.val == 13 || c.val == 10) line
  have hall : ∀ c ∈ ends, isSpace c = true := by
    intro c hc
    have hmem : c ∈ line.rtakeWhile fun c : PyChar => c.val == 13 || c.val == 10 := by
      rwa [← List.append_cancel_left (hends.trans (List.rdropWhile_append_rtakeWhile ..).symm)]
    have hbreak := List.mem_rtakeWhile_imp hmem
    simp only [Bool.or_eq_true, beq_iff_eq] at hbreak
    rcases hbreak with h | h <;> simp [isSpace, h]
  have hend : lineContentEnd line a = a + (line.rdropWhile fun c => c.val == 13 || c.val == 10).length := rfl
  have hsplit : text = before ++ ((line.rdropWhile fun c => c.val == 13 || c.val == 10) ++ (ends ++ behind)) := by
    rw [← List.append_assoc _ ends, hends]
    exact htext
  refine ⟨_, ends, hends.symm, hsplit, hend, ?_, ?_⟩
  · rw [hend]
    exact slice_of_append before (ends ++ behind) hsplit ha (by rw [ha])
  · have hslice : slice text (lineContentEnd line a) (a + line.length) = ends := by
      refine slice_of_append _ behind (by rw [hsplit, ← List.append_assoc before]) ?_ ?_
      · rw [hend, List.length_append, ha]
      · have hlength := congrArg List.length hends
        simp only [List.length_append] at hlength ⊢
        omega
    rw [hslice]
    exact isBlank_iff.mpr hall

/-- The end of a fenced block, and the lines behind it. -/
theorem lined_closingFence {a blockEnd : ℕ} {lines : List (ℕ × Text)} (h : Lined text a lines) (hle : blockEnd ≤ a)
    (hblank : isBlank (slice text blockEnd a) = true) :
    ∃ b, blockEnd ≤ (closingFence text blockEnd lines).1 ∧ (closingFence text blockEnd lines).1 ≤ b ∧
      isBlank (slice text (closingFence text blockEnd lines).1 b) = true ∧
      Lined text b (closingFence text blockEnd lines).2 := by
  induction lines generalizing a blockEnd with
  | nil => exact ⟨a, le_rfl, hle, hblank, h⟩
  | cons line rest ih =>
    obtain ⟨start, line⟩ := line
    obtain ⟨rfl, ⟨before, behind, htext, hstart⟩, hrest⟩ := h
    obtain ⟨content, ends, hline, -, hend, -, hgap⟩ := line_split htext hstart
    have hend' : lineContentEnd line start ≤ start + line.length := by
      rw [hend, hline, List.length_append]
      omega
    have hmove : blockEnd ≤ lineContentEnd line start := hle.trans (by rw [hend]; exact Nat.le_add_right _ _)
    rw [closingFence]
    split
    · exact ⟨start + line.length, hmove, hend', hgap, hrest⟩
    · obtain ⟨b, hb, hb', hblank', hlined⟩ := ih hrest hend' hgap
      exact ⟨b, hmove.trans hb, hb', hblank', hlined⟩

/-- A slice that reaches further than one that is not blank is not blank. -/
theorem isBlank_slice_mono {a a' b b' : ℕ} (ha : a' ≤ a) (hab : a ≤ b) (hb : b ≤ b')
    (h : isBlank (slice text a b) = false) : isBlank (slice text a' b') = false := by
  rw [← Bool.not_eq_true] at h ⊢
  exact fun hblank => h (isBlank_of_within (slice_within_slice text ha hab hb) hblank)

/-- The units of the lines from `a` on cover the text from `a` on. -/
theorem covers_unitsOfLines {a : ℕ} {lines : List (ℕ × Text)} (h : Lined text a lines) :
    Covers text a (unitsOfLines separator text lines) text.length := by
  induction hn : lines.length using Nat.strong_induction_on generalizing a lines with
  | _ n ih =>
  cases lines with
  | nil =>
    rw [unitsOfLines]
    refine ⟨h.le, ?_⟩
    cases h
    rw [slice_self, isBlank_nil]
  | cons line rest =>
    obtain ⟨start, line⟩ := line
    obtain ⟨rfl, ⟨before, behind, htext, hstart⟩, hrest⟩ := h
    obtain ⟨content, ends, hline, hsplit, hend, hcontent, hgap⟩ := line_split htext hstart
    have hend' : lineContentEnd line start ≤ start + line.length := by
      rw [hend, hline, List.length_append]
      omega
    have hbound : start + line.length ≤ text.length := hrest.le
    rw [List.length_cons] at hn
    -- what is behind the content of this line
    have hbehind : Covers text (lineContentEnd line start) (unitsOfLines separator text rest) text.length :=
      (ih rest.length (by omega) hrest rfl).skip hend' hgap
    rw [unitsOfLines, hcontent]
    by_cases hblank : isBlank content = true
    · rw [if_pos hblank]
      exact hbehind.skip (by omega) (by rw [hcontent]; exact hblank)
    rw [if_neg hblank]
    rw [Bool.not_eq_true] at hblank
    by_cases hfence : markdownFence content = true
    · rw [if_pos hfence]
      obtain ⟨b, hblock, hb, hgap', hlined⟩ := lined_closingFence hrest hend' hgap
      have hlength := length_closingFence text (lineContentEnd line start) rest
      have hlater := ih _ (by omega) hlined rfl
      have hbound' := hlined.le
      refine (covers_appendUnit (by omega) (by omega) (.inr ?_)).append (hlater.skip hb hgap')
      refine isBlank_slice_mono le_rfl (by omega) hblock ?_
      rw [hcontent]
      exact hblank
    rw [if_neg hfence]
    by_cases hmarked : (markdownHeading content || markdownListItem content) = true
    · rw [if_pos hmarked]
      exact (covers_appendUnit (by omega) (by omega) (.inr (by rw [hcontent]; exact hblank))).append hbehind
    · rw [if_neg hmarked]
      refine Covers.append ?_ hbehind
      have hscan : text = before ++ ([] ++ ([] ++ (content ++ (ends ++ behind)))) := hsplit
      exact covers_sentenceUnits hscan hstart rfl rfl (by rw [hend, Nat.add_zero]) (by simp) (.inr hblank)

/-- The units cover the text. -/
theorem covers_semanticUnits (separator text : Text) : Covers text 0 (semanticUnits separator text) text.length := by
  rw [semanticUnits]
  split
  · exact ⟨Nat.zero_le _, by rwa [slice_zero_length]⟩
  · have hlines : text = [] ++
        (if splitlinesKeepends text = [] then [text] else splitlinesKeepends text).flatten := by
      split
      · simp
      · rw [flatten_splitlinesKeepends, List.nil_append]
    exact covers_unitsOfLines (lined_lineStarts hlines)

/-- There are no units exactly if the text is blank. -/
theorem semanticUnits_eq_nil_iff : semanticUnits separator text = [] ↔ isBlank text = true := by
  constructor
  · intro h
    have hcovers := covers_semanticUnits separator text
    rw [h] at hcovers
    have hblank := hcovers.2
    rwa [slice_zero_length] at hblank
  · intro h
    rw [semanticUnits, if_pos h]

end TenantRag

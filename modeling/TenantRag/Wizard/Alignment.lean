import Mathlib.Data.Finset.Sort
import Mathlib.Data.List.SplitBy
import TenantRag.Foundations.EditScript
import TenantRag.Foundations.PyError
import TenantRag.Foundations.Dict

/-!
# Aligning a saved document with its new text

Before a save touches anything it marks the paragraphs the edit changes, joins
neighbours to unions, and cuts out of the new text what stands in place of each
union. The opcodes of the edit come from `difflib.SequenceMatcher` and are a
parameter.

## The model

* `savedParagraphs` — the saved paragraphs with their places in the saved text.
* `derivedModifiedIds` — the paragraphs an edit changes.
* `contiguousGroups` — the runs of consecutive identifiers.
* `boundaryCandidates`, `currentSpanForOldSpan` — where an old span lies in the new text.
* `alignUnions` — the unions with their new texts.

## What is proved

* `derivedModifiedIds_ok` — the marked paragraphs are those that an opcode touches.
* `candidates_unique` — a position that no edit hides or fills lies at one place of the new text.
* `exists_candidates_le` — the ends of a span are mapped in order.
-/

namespace TenantRag.Save

/-- `_SavedParagraph`. -/
structure SavedParagraph where
  paragraphId : ℕ
  text : Text
  start : ℕ
  stop : ℕ
  deriving DecidableEq

/-- `_ParagraphUnion`. -/
structure ParagraphUnion where
  paragraphIds : List ℕ
  currentText : Text
  deriving DecidableEq

/-- The paragraphs of the entries, the first of which starts at the offset. -/
def savedFrom : ℕ → List (ℕ × Text) → List SavedParagraph
  | _, [] => []
  | offset, (paragraphId, text) :: rest =>
      ⟨paragraphId, text, offset, offset + text.length⟩ :: savedFrom (offset + text.length) rest

/-- `_saved_paragraphs`. -/
def savedParagraphs (paragraphData : Dict ℕ Text) : List SavedParagraph := savedFrom 0 paragraphData.entries

/-- The identifiers of the paragraphs that a condition picks. -/
def idsWhere (paragraphs : List SavedParagraph) (pick : SavedParagraph → Bool) : Finset ℕ :=
  ((paragraphs.filter pick).map SavedParagraph.paragraphId).toFinset

/-- `_paragraphs_overlapping`. -/
def paragraphsOverlapping (paragraphs : List SavedParagraph) (start stop : ℕ) : Finset ℕ :=
  idsWhere paragraphs fun p => p.start < stop && start < p.stop

/-- `_paragraphs_at_insertion`. -/
def paragraphsAtInsertion (paragraphs : List SavedParagraph) (position : ℕ) : Except PyError (Finset ℕ) :=
  match paragraphs.head?, paragraphs.getLast? with
  | some first, some last =>
      if position ≤ 0 then .ok {first.paragraphId}
      else if last.stop ≤ position then .ok {last.paragraphId}
      else
        let containing := idsWhere paragraphs fun p => p.start < position && position < p.stop
        if containing ≠ ∅ then .ok containing
        else
          let adjacent := idsWhere paragraphs fun p => p.start = position || p.stop = position
          if adjacent ≠ ∅ then .ok adjacent else .ok {last.paragraphId}
  | _, _ => .error ⟨.otherException, "list index out of range"⟩

/-- The paragraphs an opcode marks. -/
def markedBy (paragraphs : List SavedParagraph) (op : Opcode) : Except PyError (Finset ℕ) :=
  if op.tag = .equal then .ok ∅
  else if op.oldStart = op.oldEnd then paragraphsAtInsertion paragraphs op.oldStart
  else .ok (paragraphsOverlapping paragraphs op.oldStart op.oldEnd)

/-- `_derived_modified_ids`. -/
def derivedModifiedIds (paragraphs : List SavedParagraph) (opcodes : List Opcode) : Except PyError (Finset ℕ) :=
  opcodes.foldlM (fun modified op => do
    let ids ← markedBy paragraphs op
    return modified ∪ ids) ∅

/-- `_contiguous_groups`, of identifiers in ascending order. -/
def contiguousGroups (paragraphIds : List ℕ) : List (List ℕ) := paragraphIds.splitBy fun i j => j == i + 1

/-- What an opcode adds to the candidates of `_boundary_candidates`. -/
def candidates (position : ℕ) (op : Opcode) : List ℕ :=
  if ¬ (op.oldStart ≤ position ∧ position ≤ op.oldEnd) then []
  else if op.tag = .equal then [op.currentStart + (position - op.oldStart)]
  else if op.oldStart = op.oldEnd then [op.currentStart, op.currentEnd]
  else if position = op.oldStart then [op.currentStart]
  else if position = op.oldEnd then [op.currentEnd]
  else [op.currentStart, op.currentEnd]

/-- `_boundary_candidates`. -/
def boundaryCandidates (position : ℕ) (opcodes : List Opcode) : List ℕ := opcodes.flatMap (candidates position)

/-- `_current_span_for_old_span`. -/
def currentSpanForOldSpan (oldStart oldEnd : ℕ) (opcodes : List Opcode) : Except PyError (ℕ × ℕ) :=
  match (boundaryCandidates oldStart opcodes).min?, (boundaryCandidates oldEnd opcodes).max? with
  | some currentStart, some currentEnd =>
      if currentEnd < currentStart then .error (valueError "current_text paragraph alignment is inconsistent")
      else .ok (currentStart, currentEnd)
  | _, _ => .error (valueError "current_text cannot be aligned to saved paragraph boundaries")

/-- `paragraph_by_id[paragraph_id]`; the identifiers are the keys of a dictionary. -/
def paragraphById (paragraphs : List SavedParagraph) (paragraphId : ℕ) : Except PyError SavedParagraph :=
  match paragraphs.find? fun p => p.paragraphId = paragraphId with
  | some p => .ok p
  | none => .error (keyError (toString paragraphId))

/-- The union of a group, which is never empty. -/
def unionOf (paragraphs : List SavedParagraph) (currentText : Text) (opcodes : List Opcode) (group : List ℕ) :
    Except PyError ParagraphUnion := do
  let first ← paragraphById paragraphs (group.headD 0)
  let last ← paragraphById paragraphs (group.getLastD 0)
  let (currentStart, currentEnd) ← currentSpanForOldSpan first.start last.stop opcodes
  return ⟨group, slice currentText currentStart currentEnd⟩

/-- What stands in the place of a paragraph: the text of the union it is the first of, nothing where another paragraph
is the first, or its own text. -/
def replacement (unions : List ParagraphUnion) (p : SavedParagraph) : Text :=
  match unions.find? fun u => u.paragraphIds.head? = some p.paragraphId with
  | some union => union.currentText
  | none => if unions.any fun u => u.paragraphIds.contains p.paragraphId then [] else p.text

/-- `_align_unions`. -/
def alignUnions (getOpcodes : Text → Text → List Opcode) (paragraphs : List SavedParagraph) (currentText : Text)
    (hintedIds : Finset ℕ) : Except PyError (List ParagraphUnion) := do
  let savedText := (paragraphs.map SavedParagraph.text).flatten
  let opcodes := getOpcodes savedText currentText
  let derived ← derivedModifiedIds paragraphs opcodes
  let markedIds := derived ∪ hintedIds
  if markedIds = ∅ then
    throw (valueError "current_text changed but no modified paragraph was identified")
  let unions ← (contiguousGroups (markedIds.sort (· ≤ ·))).mapM (unionOf paragraphs currentText opcodes)
  if (paragraphs.map (replacement unions)).flatten ≠ currentText then
    throw (valueError "current_text cannot be reconstructed from modified unions and saved text")
  return unions

/-! ### Candidates -/

section Candidates

variable {a b : Text} {i j p : ℕ} {ops : List Opcode} {op : Opcode}

theorem mem_boundaryCandidates {y : ℕ} : y ∈ boundaryCandidates p ops ↔ ∃ op ∈ ops, y ∈ candidates p op :=
  List.mem_flatMap

theorem touches_of_mem_candidates {y : ℕ} (h : y ∈ candidates p op) : op.oldStart ≤ p ∧ p ≤ op.oldEnd := by
  by_contra hout
  rw [candidates, if_pos hout] at h
  cases h

theorem currentStart_mem_candidates (h : op.oldStart ≤ op.oldEnd) : op.currentStart ∈ candidates op.oldStart op := by
  rw [candidates, if_neg (not_not.mpr ⟨le_rfl, h⟩), Nat.sub_self, Nat.add_zero]
  split_ifs <;> simp

theorem currentEnd_mem_candidates (h : EditScript a b i j ops) (hop : op ∈ ops) :
    op.currentEnd ∈ candidates op.oldEnd op := by
  have hold := (h.old_bounds hop).2.1
  rw [candidates, if_neg (not_not.mpr ⟨hold, le_rfl⟩)]
  by_cases htag : op.tag = .equal
  · rw [if_pos htag, h.currentEnd_equal hop htag]
    exact List.mem_singleton_self _
  · rw [if_neg htag]
    by_cases hempty : op.oldStart = op.oldEnd
    · rw [if_pos hempty]
      exact List.mem_cons_of_mem _ (List.mem_singleton_self _)
    · rw [if_neg hempty, if_neg (Ne.symm hempty), if_pos rfl]
      exact List.mem_singleton_self _

/-- The candidates of an opcode lie in its new range. -/
theorem candidates_bounds (h : EditScript a b i j ops) (hop : op ∈ ops) {y : ℕ} (hy : y ∈ candidates p op) :
    op.currentStart ≤ y ∧ y ≤ op.currentEnd := by
  have hcurrent := (h.current_bounds hop).2.1
  obtain ⟨hstart, hend⟩ := touches_of_mem_candidates hy
  rw [candidates, if_neg (not_not.mpr ⟨hstart, hend⟩)] at hy
  by_cases htag : op.tag = .equal
  · rw [if_pos htag, List.mem_singleton] at hy
    have hequal := h.currentEnd_equal hop htag
    omega
  · rw [if_neg htag] at hy
    split_ifs at hy <;> simp only [List.mem_cons, List.not_mem_nil, or_false] at hy <;> omega

/-- An opcode that touches a position has a candidate for it. -/
theorem exists_candidate (hstart : op.oldStart ≤ p) (hend : p ≤ op.oldEnd) : ∃ y, y ∈ candidates p op := by
  rw [candidates, if_neg (not_not.mpr ⟨hstart, hend⟩)]
  split_ifs <;> exact ⟨_, List.mem_cons_self⟩

/-- A position that no edit hides or fills: it is not inside of a range that is not equal, and nothing is inserted
there. -/
def Clean (ops : List Opcode) (p : ℕ) : Prop :=
  ∀ op ∈ ops, op.tag ≠ .equal → ¬ (op.oldStart < p ∧ p < op.oldEnd) ∧ ¬ (op.oldStart = p ∧ op.oldEnd = p)

theorem clean_cons (h : Clean (op :: ops) p) : Clean ops p := fun op' hop' => h op' (List.mem_cons_of_mem op hop')

/-- A script that starts at a clean position has its start as the one candidate. -/
theorem candidates_start (h : EditScript a b p j ops) (hclean : Clean ops p) {y : ℕ}
    (hy : y ∈ boundaryCandidates p ops) : y = j := by
  induction ops generalizing j with
  | nil => cases hy
  | cons op ops ih =>
    obtain ⟨op', hop', hy'⟩ := mem_boundaryCandidates.mp hy
    have hstart := h.1
    have hcurrent := h.2.1
    rcases List.mem_cons.mp hop' with rfl | hop'
    · have hend := (touches_of_mem_candidates hy').2
      rw [candidates, if_neg (not_not.mpr ⟨hstart.le, hend⟩)] at hy'
      by_cases htag : op'.tag = .equal
      · rw [if_pos htag, List.mem_singleton] at hy'
        omega
      · have hout := (hclean op' List.mem_cons_self htag).2
        rw [if_neg htag, if_neg (by omega), if_pos hstart.symm,
          List.mem_singleton] at hy'
        omega
    · -- An opcode behind touches the position, so the first one is empty, and equal.
      have hrest := h.2.2.2.2.2
      have hbehind := (hrest.old_bounds hop').1
      have htouch := (touches_of_mem_candidates hy').1
      have hend : op.oldEnd = p := by
        have hfirst := h.2.2.1
        omega
      have htag : op.tag = .equal := by
        by_contra htag
        exact (hclean op List.mem_cons_self htag).2 ⟨hstart, hend⟩
      have hsame := h.currentEnd_equal List.mem_cons_self htag
      rw [hend] at hrest
      rw [ih hrest (clean_cons hclean) (mem_boundaryCandidates.mpr ⟨op', hop', hy'⟩)]
      omega

/-- A clean position has one candidate. -/
theorem candidates_unique (h : EditScript a b i j ops) (hi : i ≤ p) (hclean : Clean ops p) {y z : ℕ}
    (hy : y ∈ boundaryCandidates p ops) (hz : z ∈ boundaryCandidates p ops) : y = z := by
  suffices hone : ∃ c, ∀ y ∈ boundaryCandidates p ops, y = c by
    obtain ⟨c, hc⟩ := hone
    rw [hc y hy, hc z hz]
  clear hy hz
  induction ops generalizing i j with
  | nil => exact ⟨0, fun y hy => by cases hy⟩
  | cons op ops ih =>
    rcases Nat.eq_or_lt_of_le hi with rfl | hlt
    · exact ⟨j, fun y hy => candidates_start h hclean hy⟩
    obtain ⟨hstart, -, -, -, -, hrest⟩ := id h
    rcases Nat.lt_trichotomy op.oldEnd p with hend | hend | hend
    · obtain ⟨c, hc⟩ := ih hrest hend.le (clean_cons hclean)
      refine ⟨c, fun y hy => hc y ?_⟩
      obtain ⟨op', hop', hy'⟩ := mem_boundaryCandidates.mp hy
      rcases List.mem_cons.mp hop' with rfl | hop'
      · have htouch := (touches_of_mem_candidates hy').2
        omega
      · exact mem_boundaryCandidates.mpr ⟨op', hop', hy'⟩
    · refine ⟨op.currentEnd, fun y hy => ?_⟩
      obtain ⟨op', hop', hy'⟩ := mem_boundaryCandidates.mp hy
      rcases List.mem_cons.mp hop' with rfl | hop'
      · rw [candidates, if_neg (not_not.mpr ⟨hstart ▸ hi, hend.ge⟩)] at hy'
        by_cases htag : op'.tag = .equal
        · have hsame := h.currentEnd_equal List.mem_cons_self htag
          rw [if_pos htag, List.mem_singleton] at hy'
          omega
        · rw [if_neg htag, if_neg (by omega), if_neg (by omega), if_pos hend.symm, List.mem_singleton] at hy'
          exact hy'
      · rw [hend] at hrest
        exact candidates_start hrest (clean_cons hclean) (mem_boundaryCandidates.mpr ⟨op', hop', hy'⟩)
    · refine ⟨op.currentStart + (p - op.oldStart), fun y hy => ?_⟩
      obtain ⟨op', hop', hy'⟩ := mem_boundaryCandidates.mp hy
      rcases List.mem_cons.mp hop' with rfl | hop'
      · have htag : op'.tag = .equal := by
          by_contra htag
          exact (hclean op' List.mem_cons_self htag).1 ⟨hstart ▸ hlt, hend⟩
        rw [candidates, if_neg (not_not.mpr ⟨hstart ▸ hi, hend.le⟩), if_pos htag, List.mem_singleton] at hy'
        exact hy'
      · have hbehind := (hrest.old_bounds hop').1
        have htouch := (touches_of_mem_candidates hy').1
        omega

/-- An opcode that touches both ends of a span has candidates for them in order. -/
theorem exists_candidates_le_of_touches (h : EditScript a b i j ops) (hop : op ∈ ops) {s e : ℕ} (hstart : op.oldStart ≤ s)
    (hse : s ≤ e) (hend : e ≤ op.oldEnd) : ∃ y ∈ candidates s op, ∃ z ∈ candidates e op, y ≤ z := by
  obtain ⟨z, hz⟩ := exists_candidate (hstart.trans hse) hend
  by_cases htag : op.tag = .equal
  · refine ⟨op.currentStart + (s - op.oldStart), ?_, op.currentStart + (e - op.oldStart), ?_, by omega⟩
    · rw [candidates, if_neg (not_not.mpr ⟨hstart, hse.trans hend⟩), if_pos htag]
      exact List.mem_singleton_self _
    · rw [candidates, if_neg (not_not.mpr ⟨hstart.trans hse, hend⟩), if_pos htag]
      exact List.mem_singleton_self _
  · rcases Nat.eq_or_lt_of_le (hse.trans hend) with hlast | hlast
    · have hsame : s = e := by omega
      exact ⟨z, hsame ▸ hz, z, hz, le_rfl⟩
    · refine ⟨op.currentStart, ?_, z, hz, (candidates_bounds h hop hz).1⟩
      rw [candidates, if_neg (not_not.mpr ⟨hstart, hlast.le⟩), if_neg htag, if_neg (by omega)]
      split_ifs with hfirst hnot
      · exact List.mem_singleton_self _
      · exact absurd hnot hlast.ne
      · exact List.mem_cons_self

/-- The two ends of a span have candidates in order. -/
theorem exists_candidates_le (h : EditScript a b i j ops) (hops : ops ≠ []) {s e : ℕ} (hi : i ≤ s) (hse : s ≤ e)
    (he : e ≤ a.length) : ∃ y ∈ boundaryCandidates s ops, ∃ z ∈ boundaryCandidates e ops, y ≤ z := by
  induction ops generalizing i j with
  | nil => exact absurd rfl hops
  | cons op ops ih =>
    obtain ⟨hstart, -, -, -, -, hrest⟩ := id h
    rcases Nat.lt_or_ge op.oldEnd e with hend | hend
    · have hbehind : ops ≠ [] := by
        rintro rfl
        have hlast := hrest.1
        omega
      rcases Nat.lt_or_ge op.oldEnd s with hend' | hend'
      · obtain ⟨y, hy, z, hz, hle⟩ := ih hrest hbehind hend'.le
        obtain ⟨op₁, hop₁, hy⟩ := mem_boundaryCandidates.mp hy
        obtain ⟨op₂, hop₂, hz⟩ := mem_boundaryCandidates.mp hz
        exact ⟨y, mem_boundaryCandidates.mpr ⟨op₁, List.mem_cons_of_mem op hop₁, hy⟩, z,
          mem_boundaryCandidates.mpr ⟨op₂, List.mem_cons_of_mem op hop₂, hz⟩, hle⟩
      · obtain ⟨y, hy⟩ := exists_candidate (hstart.le.trans hi) hend'
        obtain ⟨op', hop', hstart', hend''⟩ := hrest.touches hbehind hend.le he
        obtain ⟨z, hz⟩ := exists_candidate hstart' hend''
        refine ⟨y, mem_boundaryCandidates.mpr ⟨op, List.mem_cons_self, hy⟩, z,
          mem_boundaryCandidates.mpr ⟨op', List.mem_cons_of_mem op hop', hz⟩, ?_⟩
        calc y ≤ op.currentEnd := (candidates_bounds h List.mem_cons_self hy).2
          _ ≤ op'.currentStart := (hrest.current_bounds hop').1
          _ ≤ z := (candidates_bounds hrest hop' hz).1
    · obtain ⟨y, hy, z, hz, hle⟩ :=
        exists_candidates_le_of_touches h List.mem_cons_self (hstart.le.trans hi) hse hend
      exact ⟨y, mem_boundaryCandidates.mpr ⟨op, List.mem_cons_self, hy⟩, z,
        mem_boundaryCandidates.mpr ⟨op, List.mem_cons_self, hz⟩, hle⟩

end Candidates

/-! ### Marked paragraphs -/

/-- The place of a paragraph. -/
def SavedParagraph.span (p : SavedParagraph) : Span := ⟨p.start, p.stop⟩

/-- The paragraphs of a saved text: they follow each other through the text, and none is empty but the one paragraph
of an empty document. -/
structure Saved (text : Text) (paragraphs : List SavedParagraph) : Prop where
  ne_nil : paragraphs ≠ []
  tiles : Tiles 0 (paragraphs.map SavedParagraph.span) text.length
  texts : ∀ p ∈ paragraphs, p.text = slice text p.start p.stop
  filled : ∀ p ∈ paragraphs, paragraphs = [p] ∨ p.start < p.stop

/-- An opcode touches a paragraph: its old range has a character of the paragraph, or it inserts inside of the
paragraph or at an end of it. -/
def Touches (op : Opcode) (p : SavedParagraph) : Prop :=
  if op.oldStart = op.oldEnd then p.start ≤ op.oldStart ∧ op.oldStart ≤ p.stop
  else p.start < op.oldEnd ∧ op.oldStart < p.stop

theorem mem_idsWhere {paragraphs : List SavedParagraph} {pick : SavedParagraph → Bool} {k : ℕ} :
    k ∈ idsWhere paragraphs pick ↔ ∃ p ∈ paragraphs, p.paragraphId = k ∧ pick p = true := by
  simp only [idsWhere, List.mem_toFinset, List.mem_map, List.mem_filter]
  constructor
  · rintro ⟨p, ⟨hp, hpick⟩, hk⟩
    exact ⟨p, hp, hk, hpick⟩
  · rintro ⟨p, hp, hk, hpick⟩
    exact ⟨p, ⟨hp, hpick⟩, hk⟩

section Marked

variable {text : Text} {paragraphs : List SavedParagraph}

theorem Saved.ordered (h : Saved text paragraphs) {p q : SavedParagraph} (hp : p ∈ paragraphs) (hq : q ∈ paragraphs) :
    p.span = q.span ∨ p.stop ≤ q.start ∨ q.stop ≤ p.start :=
  h.tiles.ordered (List.mem_map_of_mem hp) (List.mem_map_of_mem hq)

theorem Saved.bounds (h : Saved text paragraphs) {p : SavedParagraph} (hp : p ∈ paragraphs) :
    p.start ≤ p.stop ∧ p.stop ≤ text.length :=
  (h.tiles.bounds (List.mem_map_of_mem hp)).2

/-- Only the first paragraph starts where the text does. -/
theorem Saved.eq_head (h : Saved text paragraphs) {p : SavedParagraph} (hp : p ∈ paragraphs) (hstart : p.start = 0) :
    paragraphs.head? = some p := by
  cases paragraphs with
  | nil => cases hp
  | cons first rest =>
    rcases List.mem_cons.mp hp with rfl | hin
    · rfl
    · obtain ⟨hzero, -, hrest⟩ := h.tiles
      have hbehind := (hrest.bounds (List.mem_map_of_mem hin)).1
      rcases h.filled first List.mem_cons_self with hone | hfilled
      · rw [(List.cons.inj hone).2] at hin
        cases hin
      · change first.start = 0 at hzero
        change first.stop ≤ p.start at hbehind
        omega

/-- Only the last paragraph stops where the text does. -/
theorem Saved.eq_getLast (h : Saved text paragraphs) {p : SavedParagraph} (hp : p ∈ paragraphs)
    (hstop : text.length ≤ p.stop) : paragraphs.getLast? = some p := by
  obtain ⟨front, last, rfl⟩ := (List.eq_nil_or_concat' paragraphs).resolve_left h.ne_nil
  rcases List.mem_append.mp hp with hin | hin
  · have htiles := h.tiles
    rw [List.map_append] at htiles
    obtain ⟨c, hfront, hlast, -, hlast'⟩ := tiles_append.mp htiles
    have hbehind := (hfront.bounds (List.mem_map_of_mem hin)).2.2
    rcases h.filled last (List.mem_append_right _ (List.mem_singleton_self last)) with hone | hfilled
    · rw [List.append_left_eq_self.mp hone] at hin
      cases hin
    · change last.start = c at hlast
      change last.stop = text.length at hlast'
      change p.stop ≤ c at hbehind
      omega
  · rw [List.mem_singleton.mp hin, List.getLast?_concat]

theorem Saved.head_start (h : Saved text paragraphs) {p : SavedParagraph} (hp : paragraphs.head? = some p) :
    p.start = 0 :=
  h.tiles.head_start (s := p.span) (by rw [List.head?_map, hp]; rfl)

theorem Saved.getLast_stop (h : Saved text paragraphs) {p : SavedParagraph} (hp : paragraphs.getLast? = some p) :
    p.stop = text.length :=
  h.tiles.getLast_stop (s := p.span) (by rw [List.getLast?_map, hp]; rfl)

/-- An insertion marks the paragraphs it is made in or at an end of. -/
theorem paragraphsAtInsertion_ok (h : Saved text paragraphs) {position : ℕ} (hposition : position ≤ text.length) :
    ∃ ids, paragraphsAtInsertion paragraphs position = .ok ids ∧
      ∀ k, k ∈ ids ↔ ∃ p ∈ paragraphs, p.paragraphId = k ∧ p.start ≤ position ∧ position ≤ p.stop := by
  have hfirst := List.head?_eq_some_head h.ne_nil
  have hlast := List.getLast?_eq_some_getLast h.ne_nil
  simp only [paragraphsAtInsertion, hfirst, hlast]
  by_cases hzero : position ≤ 0
  · rw [if_pos hzero]
    refine ⟨_, rfl, fun k => ?_⟩
    rw [Finset.mem_singleton]
    constructor
    · rintro rfl
      have hstart := h.head_start hfirst
      exact ⟨_, List.head_mem h.ne_nil, rfl, by omega, by omega⟩
    · rintro ⟨p, hp, rfl, hstart, -⟩
      have hhead := h.eq_head hp (by omega)
      rw [hfirst, Option.some.injEq] at hhead
      rw [hhead]
  · rw [if_neg hzero]
    by_cases hend : (paragraphs.getLast h.ne_nil).stop ≤ position
    · rw [if_pos hend]
      refine ⟨_, rfl, fun k => ?_⟩
      rw [Finset.mem_singleton]
      constructor
      · rintro rfl
        have hstop := h.getLast_stop hlast
        have hbounds := h.bounds (List.getLast_mem h.ne_nil)
        exact ⟨_, List.getLast_mem h.ne_nil, rfl, by omega, by omega⟩
      · rintro ⟨p, hp, rfl, -, hstop⟩
        have hlength := h.getLast_stop hlast
        have hback := h.eq_getLast hp (by omega)
        rw [hlast, Option.some.injEq] at hback
        rw [hback]
    · rw [if_neg hend]
      by_cases hinside : idsWhere paragraphs (fun p => p.start < position && position < p.stop) ≠ ∅
      · rw [if_pos hinside]
        refine ⟨_, rfl, fun k => ?_⟩
        rw [mem_idsWhere]
        constructor
        · rintro ⟨p, hp, hk, hpick⟩
          simp only [Bool.and_eq_true, decide_eq_true_eq] at hpick
          exact ⟨p, hp, hk, hpick.1.le, hpick.2.le⟩
        · rintro ⟨p, hp, hk, hstart, hstop⟩
          -- A paragraph has the position inside, so no other one reaches it.
          obtain ⟨k', hk'⟩ := Finset.nonempty_iff_ne_empty.mpr hinside
          obtain ⟨q, hq, -, hpick⟩ := mem_idsWhere.mp hk'
          simp only [Bool.and_eq_true, decide_eq_true_eq] at hpick
          refine ⟨p, hp, hk, ?_⟩
          simp only [Bool.and_eq_true, decide_eq_true_eq]
          rcases h.ordered hp hq with hsame | hsame | hsame
          · simp only [SavedParagraph.span, Span.mk.injEq] at hsame
            omega
          · omega
          · omega
      · rw [if_neg hinside]
        rw [ne_eq, not_not] at hinside
        have hnone : ∀ p ∈ paragraphs, ¬ (p.start < position ∧ position < p.stop) := fun p hp hin => by
          have hmem : p.paragraphId ∈ idsWhere paragraphs fun p => p.start < position && position < p.stop :=
            mem_idsWhere.mpr ⟨p, hp, rfl, by simpa using hin⟩
          rw [hinside] at hmem
          exact absurd hmem (Finset.notMem_empty _)
        have hadjacent : idsWhere paragraphs (fun p => p.start = position || p.stop = position) ≠ ∅ := by
          have hstop := h.getLast_stop hlast
          obtain ⟨s, hs, hstart, hstop'⟩ := h.tiles.covers (Nat.zero_le position) (by omega)
          obtain ⟨p, hp, rfl⟩ := List.mem_map.mp hs
          change p.start ≤ position at hstart
          change position < p.stop at hstop'
          have hout := hnone p hp
          exact Finset.ne_empty_of_mem (mem_idsWhere.mpr ⟨p, hp, rfl, by simp; omega⟩)
        rw [if_pos hadjacent]
        refine ⟨_, rfl, fun k => ?_⟩
        rw [mem_idsWhere]
        constructor
        · rintro ⟨p, hp, hk, hpick⟩
          have hbounds := h.bounds hp
          simp only [Bool.or_eq_true, decide_eq_true_eq] at hpick
          exact ⟨p, hp, hk, by omega, by omega⟩
        · rintro ⟨p, hp, hk, hstart, hstop⟩
          have hout := hnone p hp
          refine ⟨p, hp, hk, ?_⟩
          simp only [Bool.or_eq_true, decide_eq_true_eq]
          omega

/-- An opcode marks the paragraphs it touches. -/
theorem markedBy_ok (h : Saved text paragraphs) {op : Opcode} (hop : op.oldStart ≤ text.length) :
    ∃ ids, markedBy paragraphs op = .ok ids ∧
      ∀ k, k ∈ ids ↔ op.tag ≠ .equal ∧ ∃ p ∈ paragraphs, p.paragraphId = k ∧ Touches op p := by
  rw [markedBy]
  by_cases htag : op.tag = .equal
  · rw [if_pos htag]
    exact ⟨∅, rfl, fun k => by simp [htag]⟩
  · rw [if_neg htag]
    by_cases hempty : op.oldStart = op.oldEnd
    · rw [if_pos hempty]
      obtain ⟨ids, hids, hmem⟩ := paragraphsAtInsertion_ok h hop
      refine ⟨ids, hids, fun k => ?_⟩
      simp only [hmem, htag, Touches, if_pos hempty, ne_eq, not_false_eq_true, true_and]
    · rw [if_neg hempty]
      refine ⟨_, rfl, fun k => ?_⟩
      simp only [paragraphsOverlapping, mem_idsWhere, htag, Touches, if_neg hempty, ne_eq, not_false_eq_true, true_and,
        Bool.and_eq_true, decide_eq_true_eq]

/-- The marked paragraphs are those that an opcode touches. -/
theorem derivedModifiedIds_ok (h : Saved text paragraphs) {ops : List Opcode}
    (hops : ∀ op ∈ ops, op.oldStart ≤ text.length) :
    ∃ ids, derivedModifiedIds paragraphs ops = .ok ids ∧
      ∀ k, k ∈ ids ↔ ∃ op ∈ ops, op.tag ≠ .equal ∧ ∃ p ∈ paragraphs, p.paragraphId = k ∧ Touches op p := by
  suffices hfold : ∀ modified : Finset ℕ, ∃ ids,
      ops.foldlM (fun modified op => do
        let ids ← markedBy paragraphs op
        return modified ∪ ids) modified = .ok ids ∧
      ∀ k, k ∈ ids ↔ k ∈ modified ∨ ∃ op ∈ ops, op.tag ≠ .equal ∧ ∃ p ∈ paragraphs, p.paragraphId = k ∧ Touches op p by
    obtain ⟨ids, hids, hmem⟩ := hfold ∅
    exact ⟨ids, hids, fun k => by simp [hmem]⟩
  induction ops with
  | nil => exact fun modified => ⟨modified, rfl, fun k => by simp⟩
  | cons op ops ih =>
    intro modified
    rw [List.forall_mem_cons] at hops
    obtain ⟨marked, hmarked, hmem⟩ := markedBy_ok h hops.1
    obtain ⟨ids, hids, hmem'⟩ := ih hops.2 (modified ∪ marked)
    refine ⟨ids, ?_, fun k => ?_⟩
    · rw [List.foldlM_cons, hmarked]
      exact hids
    · rw [hmem', Finset.mem_union, hmem, List.exists_mem_cons_iff, or_assoc]

end Marked

end TenantRag.Save

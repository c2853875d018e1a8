import TenantRag.Foundations.Slice

/-!
# Edit scripts

An edit script cuts two texts into consecutive ranges, as many of the one as of the
other, and says of each pair of ranges whether the text is the same.

## The model

* `Opcode` — a pair of ranges and its tag.
* `EditScript a b i j ops` — the opcodes cut `a` from `i` on and `b` from `j` on.

## What is proved

* `EditScript.covers`, `EditScript.touches` — each place of the first text lies in an opcode.
* `EditScript.getElem?_equal` — a place of an equal range, and its image.
* `EditScript.drop_eq` — a script of equal ranges alone has the same text twice.
-/

namespace TenantRag

variable {α : Type} {a b : List α}

/-- What becomes of a range. -/
inductive EditTag where
  /-- `"equal"`. -/
  | equal
  /-- `"replace"`. -/
  | replace
  /-- `"delete"`. -/
  | delete
  /-- `"insert"`. -/
  | insert
  deriving DecidableEq

/-- An opcode: a tag, a range of the old text and one of the current text. -/
structure Opcode where
  tag : EditTag
  oldStart : ℕ
  oldEnd : ℕ
  currentStart : ℕ
  currentEnd : ℕ

/-- The opcodes cut `a`, from `i` to its end, and `b`, from `j` to its end, into consecutive ranges, and ranges that
are called equal are. -/
def EditScript (a b : List α) : ℕ → ℕ → List Opcode → Prop
  | i, j, [] => i = a.length ∧ j = b.length
  | i, j, op :: ops =>
      op.oldStart = i ∧ op.currentStart = j ∧ i ≤ op.oldEnd ∧ j ≤ op.currentEnd ∧
        (op.tag = .equal → slice a i op.oldEnd = slice b j op.currentEnd) ∧ EditScript a b op.oldEnd op.currentEnd ops

namespace EditScript

variable {i j : ℕ} {ops : List Opcode} {op : Opcode}

theorem le (h : EditScript a b i j ops) : i ≤ a.length ∧ j ≤ b.length := by
  induction ops generalizing i j with
  | nil => exact ⟨h.1.le, h.2.le⟩
  | cons op ops ih =>
    obtain ⟨-, -, hold, hcurrent, -, hrest⟩ := h
    obtain ⟨hold', hcurrent'⟩ := ih hrest
    exact ⟨hold.trans hold', hcurrent.trans hcurrent'⟩

/-- The opcodes behind an opcode are a script from its ends on. -/
theorem of_mem (h : EditScript a b i j ops) (hop : op ∈ ops) :
    i ≤ op.oldStart ∧ j ≤ op.currentStart ∧ ∃ rest, EditScript a b op.oldStart op.currentStart (op :: rest) := by
  induction ops generalizing i j with
  | nil => cases hop
  | cons first ops ih =>
    rcases List.mem_cons.mp hop with rfl | hop
    · obtain ⟨rfl, rfl, -⟩ := id h
      exact ⟨le_rfl, le_rfl, ops, h⟩
    · obtain ⟨-, -, hold, hcurrent, -, hrest⟩ := h
      obtain ⟨hold', hcurrent', hbehind⟩ := ih hrest hop
      exact ⟨hold.trans hold', hcurrent.trans hcurrent', hbehind⟩

theorem old_bounds (h : EditScript a b i j ops) (hop : op ∈ ops) :
    i ≤ op.oldStart ∧ op.oldStart ≤ op.oldEnd ∧ op.oldEnd ≤ a.length := by
  obtain ⟨hi, -, rest, -, -, hle, -, -, hrest⟩ := h.of_mem hop
  exact ⟨hi, hle, hrest.le.1⟩

theorem current_bounds (h : EditScript a b i j ops) (hop : op ∈ ops) :
    j ≤ op.currentStart ∧ op.currentStart ≤ op.currentEnd ∧ op.currentEnd ≤ b.length := by
  obtain ⟨-, hj, rest, -, -, -, hle, -, hrest⟩ := h.of_mem hop
  exact ⟨hj, hle, hrest.le.2⟩

/-- Equal ranges have the same text. -/
theorem slice_equal (h : EditScript a b i j ops) (hop : op ∈ ops) (htag : op.tag = .equal) :
    slice a op.oldStart op.oldEnd = slice b op.currentStart op.currentEnd := by
  obtain ⟨-, -, rest, -, -, -, -, hequal, -⟩ := h.of_mem hop
  exact hequal htag

/-- Equal ranges have the same length. -/
theorem currentEnd_equal (h : EditScript a b i j ops) (hop : op ∈ ops) (htag : op.tag = .equal) :
    op.currentEnd = op.currentStart + (op.oldEnd - op.oldStart) := by
  have hlength := congrArg List.length (h.slice_equal hop htag)
  rw [length_slice (h.old_bounds hop).2.2, length_slice (h.current_bounds hop).2.2] at hlength
  have hcurrent := (h.current_bounds hop).2.1
  omega

/-- A place of an equal range has the character of its image. -/
theorem getElem?_equal (h : EditScript a b i j ops) (hop : op ∈ ops) (htag : op.tag = .equal) {k : ℕ}
    (hstart : op.oldStart ≤ k) (hend : k < op.oldEnd) : a[k]? = b[op.currentStart + (k - op.oldStart)]? := by
  have hcurrent := h.currentEnd_equal hop htag
  have hread := congrArg (fun t => t[k - op.oldStart]?) (h.slice_equal hop htag)
  simp only [slice, List.getElem?_drop, List.getElem?_take] at hread
  rwa [if_pos (by omega), if_pos (by omega), Nat.add_sub_cancel' hstart] at hread

/-- Each place of the text lies in an opcode. -/
theorem covers (h : EditScript a b i j ops) {k : ℕ} (hi : i ≤ k) (hk : k < a.length) :
    ∃ op ∈ ops, op.oldStart ≤ k ∧ k < op.oldEnd := by
  induction ops generalizing i j with
  | nil =>
    have hlength := h.1
    omega
  | cons op ops ih =>
    obtain ⟨hstart, -, -, -, -, hrest⟩ := h
    rcases Nat.lt_or_ge k op.oldEnd with hend | hend
    · exact ⟨op, List.mem_cons_self, by omega, hend⟩
    · obtain ⟨op', hop', hin⟩ := ih hrest hend
      exact ⟨op', List.mem_cons_of_mem op hop', hin⟩

/-- Each position of the text, its end included, lies in an opcode or at its ends. -/
theorem touches (h : EditScript a b i j ops) (hops : ops ≠ []) {p : ℕ} (hi : i ≤ p) (hp : p ≤ a.length) :
    ∃ op ∈ ops, op.oldStart ≤ p ∧ p ≤ op.oldEnd := by
  rcases Nat.lt_or_ge p a.length with hlt | hge
  · obtain ⟨op, hop, hstart, hend⟩ := h.covers hi hlt
    exact ⟨op, hop, hstart, hend.le⟩
  · refine ⟨ops.getLast hops, List.getLast_mem hops, (h.old_bounds (List.getLast_mem hops)).2.1.trans
      ((h.old_bounds (List.getLast_mem hops)).2.2.trans hge), ?_⟩
    induction ops generalizing i j with
    | nil => exact absurd rfl hops
    | cons op ops ih =>
      obtain ⟨-, -, -, -, -, hrest⟩ := h
      cases ops with
      | nil =>
        rw [List.getLast_singleton, hrest.1]
        exact hp
      | cons op' ops =>
        rw [List.getLast_cons (List.cons_ne_nil op' ops)]
        exact ih hrest (List.cons_ne_nil op' ops) (hrest.le.1.trans hge)

/-- Where all ranges are equal, the texts are. -/
theorem drop_eq (h : EditScript a b i j ops) (hequal : ∀ op ∈ ops, op.tag = .equal) : a.drop i = b.drop j := by
  induction ops generalizing i j with
  | nil => rw [h.1, h.2, List.drop_length, List.drop_length]
  | cons op ops ih =>
    obtain ⟨-, -, hold, hcurrent, hslice, hrest⟩ := h
    rw [List.forall_mem_cons] at hequal
    have hbehind := ih hrest hequal.2
    rw [← slice_length, ← slice_length] at hbehind ⊢
    rw [← slice_append_slice a hold hrest.le.1, ← slice_append_slice b hcurrent hrest.le.2, hslice hequal.1, hbehind]

end EditScript

end TenantRag

import TenantRag.Foundations.PyError
import TenantRag.Foundations.PyText
import TenantRag.Foundations.Separator

/-!
# Surrogates, UTF-8 and lines

`str.encode("utf-8")`, `str.splitlines()` and `str.partition`.

## What is proved

* `encodeUtf8_of_encodable` — a text without surrogates has an encoding.
* `flatten_splitlinesKeepends` — the lines with their ends are the text.
* `splitlines_cut` — a line without a boundary, ended by one, is split off.
* `splitlines_join` — the lines of joined texts without boundaries are the texts.
* `partition_append` — a text is parted at the first separator.
-/

namespace TenantRag

/-- A surrogate. -/
def isSurrogate (c : PyChar) : Bool := 0xD800 ≤ c.val && c.val ≤ 0xDFFF

/-- The text has an encoding in UTF-8. -/
def encodable (t : Text) : Bool := t.all fun c => !isSurrogate c

/-- The bytes of a code point in UTF-8. -/
def utf8Bytes (c : PyChar) : List ℕ :=
  let n := c.val
  if n < 0x80 then [n]
  else if n < 0x800 then [0xC0 + n / 64, 0x80 + n % 64]
  else if n < 0x10000 then [0xE0 + n / 4096, 0x80 + n / 64 % 64, 0x80 + n % 64]
  else [0xF0 + n / 262144, 0x80 + n / 4096 % 64, 0x80 + n / 64 % 64, 0x80 + n % 64]

/-- `t.encode("utf-8")`; a `UnicodeEncodeError` is a `ValueError`. -/
def encodeUtf8 (t : Text) : Except PyError (List ℕ) :=
  if encodable t then .ok (t.flatMap utf8Bytes) else .error (valueError "surrogates not allowed")

theorem encodeUtf8_of_encodable {t : Text} (h : encodable t = true) : encodeUtf8 t = .ok (t.flatMap utf8Bytes) := by
  rw [encodeUtf8, if_pos h]

theorem encodable_append {s t : Text} : encodable (s ++ t) = (encodable s && encodable t) := List.all_append

theorem encodable_flatten {ts : List Text} (h : ∀ t ∈ ts, encodable t = true) : encodable ts.flatten = true := by
  induction ts with
  | nil => rfl
  | cons t ts ih =>
    rw [List.flatten_cons, encodable_append, h t List.mem_cons_self, Bool.true_and]
    exact ih fun s hs => h s (List.mem_cons_of_mem t hs)

/-! ### Lines -/

/-- A code point that `splitlines` splits at. -/
def isLineBreak (c : PyChar) : Bool :=
  let n := c.val
  (10 ≤ n && n ≤ 13) || (28 ≤ n && n ≤ 30) || n == 133 || n == 8232 || n == 8233

/-- `t.splitlines()`. -/
def splitlines : Text → List Text
  | [] => []
  | c :: cs =>
      if c.val = 13 then
        -- a carriage return and a line feed are one boundary
        match cs with
        | [] => [[]]
        | d :: ds => if d.val = 10 then [] :: splitlines ds else [] :: splitlines (d :: ds)
      else if isLineBreak c then [] :: splitlines cs
      else
        match splitlines cs with
        | [] => [[c]]
        | l :: ls => (c :: l) :: ls

theorem splitlines_cons {c : PyChar} (h : c.val ≠ 13) (cs : Text) :
    splitlines (c :: cs) =
      if isLineBreak c then [] :: splitlines cs
      else
        match splitlines cs with
        | [] => [[c]]
        | l :: ls => (c :: l) :: ls := by
  cases cs <;> simp [splitlines, h]

/-- A line without a boundary, ended by one, is split off. -/
theorem splitlines_cut {l : Text} (hl : ∀ c ∈ l, isLineBreak c = false) {c : PyChar} (hc : isLineBreak c = true)
    (hcr : c.val ≠ 13) (t : Text) : splitlines (l ++ c :: t) = l :: splitlines t := by
  induction l with
  | nil => rw [List.nil_append, splitlines_cons hcr, if_pos hc]
  | cons d ds ih =>
    have hd : isLineBreak d = false := hl d List.mem_cons_self
    have hdr : d.val ≠ 13 := by
      intro heq
      simp [isLineBreak, heq] at hd
    rw [List.cons_append, splitlines_cons hdr, hd, if_neg (by decide), ih fun x hx => hl x (List.mem_cons_of_mem d hx)]

theorem splitlines_line {l : Text} (h : ∀ c ∈ l, isLineBreak c = false) (t : Text) :
    splitlines (l ++ 10 :: t) = l :: splitlines t :=
  splitlines_cut h (by decide) (by decide) t

/-- A line without a boundary that nothing ends is the only one. -/
theorem splitlines_single {l : Text} (hne : l ≠ []) (h : ∀ c ∈ l, isLineBreak c = false) : splitlines l = [l] := by
  induction l with
  | nil => exact absurd rfl hne
  | cons c cs ih =>
    have hc : isLineBreak c = false := h c List.mem_cons_self
    have hcr : c.val ≠ 13 := by
      intro heq
      simp [isLineBreak, heq] at hc
    rw [splitlines_cons hcr, hc, if_neg (by decide)]
    cases cs with
    | nil => rfl
    | cons d ds => rw [ih (List.cons_ne_nil d ds) fun x hx => h x (List.mem_cons_of_mem c hx)]

/-- The lines of joined texts without boundaries are the texts. -/
theorem splitlines_join {ts : List Text} (h : ∀ t ∈ ts, t ≠ [] ∧ ∀ c ∈ t, isLineBreak c = false) {final : Text}
    (hfinal : final = [] ∨ final = [10]) (hne : ts ≠ []) : splitlines (join [10] ts ++ final) = ts := by
  induction ts with
  | nil => exact absurd rfl hne
  | cons t ts ih =>
    obtain ⟨⟨htne, ht⟩, hts⟩ := List.forall_mem_cons.mp h
    cases ts with
    | nil =>
      rw [join_singleton]
      rcases hfinal with rfl | rfl
      · rw [List.append_nil]
        exact splitlines_single htne ht
      · rw [splitlines_line ht []]
        rfl
    | cons t' ts =>
      rw [join_cons_cons, List.append_assoc, List.append_assoc, List.singleton_append, splitlines_line ht,
        ih hts (List.cons_ne_nil t' ts)]

/-- `t.splitlines(keepends=True)`. -/
def splitlinesKeepends : Text → List Text
  | [] => []
  | c :: cs =>
      if c.val = 13 then
        match cs with
        | [] => [[c]]
        | d :: ds => if d.val = 10 then [c, d] :: splitlinesKeepends ds else [c] :: splitlinesKeepends (d :: ds)
      else if isLineBreak c then [c] :: splitlinesKeepends cs
      else
        match splitlinesKeepends cs with
        | [] => [[c]]
        | l :: ls => (c :: l) :: ls

theorem flatten_splitlinesKeepends (t : Text) : (splitlinesKeepends t).flatten = t := by
  fun_induction splitlinesKeepends t with
  | case1 => rfl
  | case2 => rfl
  | case3 _ _ _ _ _ ih => simp [ih]
  | case4 _ _ _ _ _ ih => simpa using ih
  | case5 _ _ _ _ ih => simp [ih]
  | case6 _ _ _ _ hlines ih =>
    rw [hlines] at ih
    rw [← ih]
    rfl
  | case7 _ _ _ _ _ _ hlines ih =>
    rw [hlines, List.flatten_cons] at ih
    rw [List.flatten_cons, List.cons_append, ih]

/-! ### Parting -/

/-- `t.partition(sep)`: what is before the first separator, the separator, and what is behind it. -/
def partition (sep t : Text) : Text × Text × Text :=
  match splitFirst sep t with
  | none => (t, [], [])
  | some (before, behind) => (before, sep, behind)

theorem partition_append {c : PyChar} {s : Text} (h : c ∉ s) (t : Text) :
    partition [c] (s ++ c :: t) = (s, [c], t) := by
  have hsplit : splitFirst [c] (s ++ ([c] ++ t)) = some (s, t) := by
    refine (splitFirst_joined_iff (by simp) s t).mpr fun hin => h ?_
    rw [List.dropLast_singleton, List.append_nil] at hin
    exact hin.subset List.mem_cons_self
  rw [List.singleton_append] at hsplit
  rw [partition, hsplit]

end TenantRag

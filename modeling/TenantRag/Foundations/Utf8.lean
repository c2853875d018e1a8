import TenantRag.Foundations.Unicode

/-!
# Decoding UTF-8

`bytes.decode("utf-8")`, which accepts the shortest form of each code point that is
no surrogate, and nothing else.

## What is proved

* `utf8Head_utf8Bytes` — the bytes of a code point are read back as the code point.
* `decodeUtf8_encodeUtf8` — an encoded text is decoded to the text.
-/

namespace TenantRag

/-- A byte that continues a code point. -/
def isContinuation (b : ℕ) : Bool := 0x80 ≤ b && b < 0xC0

/-- The code point a number stands for, if it is one and not a surrogate, and what follows it. -/
def codePoint (n : ℕ) (rest : List ℕ) : Option (PyChar × List ℕ) :=
  if h : n < 0x110000 then
    if isSurrogate ⟨n, h⟩ then none else some (⟨n, h⟩, rest)
  else none

/-- A code point of several bytes: those behind the first continue it, and no shorter form exists. -/
def continued (least n : ℕ) (continuations rest : List ℕ) : Option (PyChar × List ℕ) :=
  if continuations.all isContinuation ∧ least ≤ n then codePoint n rest else none

/-- The first code point, read from its first byte and the bytes behind it. -/
def utf8Head (a : ℕ) (rest : List ℕ) : Option (PyChar × List ℕ) :=
  if a < 0x80 then codePoint a rest
  else if 0xC2 ≤ a ∧ a < 0xE0 then
    match rest with
    | b :: rest => continued 0x80 ((a - 0xC0) * 64 + (b - 0x80)) [b] rest
    | _ => none
  else if 0xE0 ≤ a ∧ a < 0xF0 then
    match rest with
    | b :: c :: rest => continued 0x800 ((a - 0xE0) * 4096 + (b - 0x80) * 64 + (c - 0x80)) [b, c] rest
    | _ => none
  else if 0xF0 ≤ a ∧ a < 0xF5 then
    match rest with
    | b :: c :: d :: rest =>
        continued 0x10000 ((a - 0xF0) * 262144 + (b - 0x80) * 4096 + (c - 0x80) * 64 + (d - 0x80)) [b, c, d] rest
    | _ => none
  else none

theorem codePoint_length {n : ℕ} {rest : List ℕ} {p : PyChar × List ℕ} (h : codePoint n rest = some p) : p.2 = rest := by
  rw [codePoint] at h
  split_ifs at h with hlt
  cases h
  rfl

theorem continued_length {least n : ℕ} {continuations rest : List ℕ} {p : PyChar × List ℕ}
    (h : continued least n continuations rest = some p) : p.2 = rest := by
  rw [continued] at h
  split_ifs at h
  exact codePoint_length h

theorem utf8Head_length {a : ℕ} {rest : List ℕ} {p : PyChar × List ℕ} (h : utf8Head a rest = some p) :
    p.2.length ≤ rest.length := by
  unfold utf8Head at h
  split_ifs at h
  · rw [codePoint_length h]
  all_goals
    split at h
    · rw [continued_length h]
      simp only [List.length_cons]
      omega
    · cases h

/-- `bytes.decode("utf-8")`; a `UnicodeDecodeError` is a `ValueError`. -/
def decodeUtf8 : List ℕ → Except PyError Text
  | [] => .ok []
  | a :: rest =>
      match _h : utf8Head a rest with
      | none => .error (valueError "invalid UTF-8")
      | some p => (decodeUtf8 p.2).map (p.1 :: ·)
termination_by bytes => bytes.length
decreasing_by exact Nat.lt_succ_of_le (utf8Head_length ‹_›)

theorem codePoint_val {c : PyChar} (h : isSurrogate c = false) {n : ℕ} (hn : n = c.val) (rest : List ℕ) :
    codePoint n rest = some (c, rest) := by
  subst hn
  rw [codePoint, dif_pos c.isLt, if_neg]
  rw [Bool.not_eq_true]
  exact h

theorem continued_val {c : PyChar} (h : isSurrogate c = false) {least n : ℕ} {ds : List ℕ} (hn : n = c.val)
    (hleast : least ≤ n) (hds : ∀ d ∈ ds, 0x80 ≤ d ∧ d < 0xC0) (rest : List ℕ) :
    continued least n ds rest = some (c, rest) := by
  have hall : ds.all isContinuation = true := by
    rw [List.all_eq_true]
    intro d hd
    simpa only [isContinuation, Bool.and_eq_true, decide_eq_true_eq] using hds d hd
  rw [continued, if_pos ⟨hall, hleast⟩]
  exact codePoint_val h hn rest

/-- The bytes of a code point are read back as the code point. -/
theorem utf8Head_utf8Bytes {c : PyChar} (h : isSurrogate c = false) (rest : List ℕ) :
    ∃ a bs, utf8Bytes c = a :: bs ∧ utf8Head a (bs ++ rest) = some (c, rest) := by
  have hlt : c.val < 0x110000 := c.isLt
  simp only [utf8Bytes]
  split_ifs with h1 h2 h3
  all_goals
    refine ⟨_, _, rfl, ?_⟩
    unfold utf8Head
  · rw [if_pos h1]
    exact codePoint_val h rfl rest
  · rw [if_neg (by omega), if_pos (by omega)]
    exact continued_val h (by omega) (by omega) (by simp only [List.forall_mem_cons]; simp; omega) rest
  · rw [if_neg (by omega), if_neg (by omega), if_pos (by omega)]
    exact continued_val h (by omega) (by omega) (by simp only [List.forall_mem_cons]; simp; omega) rest
  · rw [if_neg (by omega), if_neg (by omega), if_neg (by omega), if_pos (by omega)]
    exact continued_val h (by omega) (by omega) (by simp only [List.forall_mem_cons]; simp; omega) rest

theorem decodeUtf8_utf8Bytes {c : PyChar} (h : isSurrogate c = false) (rest : List ℕ) :
    decodeUtf8 (utf8Bytes c ++ rest) = (decodeUtf8 rest).map (c :: ·) := by
  obtain ⟨a, bs, hbytes, hhead⟩ := utf8Head_utf8Bytes h rest
  rw [hbytes, List.cons_append, decodeUtf8]
  split
  · rename_i hnone
    rw [hhead] at hnone
    cases hnone
  · rename_i hsome
    rw [hhead] at hsome
    cases hsome
    rfl

/-- An encoded text is decoded to the text. -/
theorem decodeUtf8_encodeUtf8 {t : Text} {bytes : List ℕ} (h : encodeUtf8 t = .ok bytes) : decodeUtf8 bytes = .ok t := by
  rw [encodeUtf8] at h
  split_ifs at h with hall
  cases h
  induction t with
  | nil => rw [List.flatMap_nil, decodeUtf8]
  | cons c t ih =>
    rw [encodable, List.all_cons, Bool.and_eq_true, Bool.not_eq_true'] at hall
    rw [List.flatMap_cons, decodeUtf8_utf8Bytes hall.1, ih hall.2]
    rfl

/-- Every byte of an encoding is one. -/
theorem utf8Bytes_lt (c : PyChar) : ∀ b ∈ utf8Bytes c, b < 256 := by
  have hlt : c.val < 0x110000 := c.isLt
  simp only [utf8Bytes]
  split_ifs <;> simp only [List.forall_mem_cons, List.not_mem_nil, false_implies, implies_true, and_true] <;> omega

theorem bytes_lt {t : Text} {bytes : List ℕ} (h : encodeUtf8 t = .ok bytes) : ∀ b ∈ bytes, b < 256 := by
  rw [encodeUtf8] at h
  split_ifs at h
  cases h
  intro b hb
  obtain ⟨c, -, hc⟩ := List.mem_flatMap.mp hb
  exact utf8Bytes_lt c b hc

end TenantRag

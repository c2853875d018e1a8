import TenantRag.Foundations.JsonScan

/-!
# JSON texts are read back

Writing a value with white space of one's own choice, of which `json.dumps` with the
separators `,` and `:` and `json.dumps(..., indent=2)` are two cases, and reading it
back.

## What is proved

* `scanValue_write`, `scanItems_write`, `scanMembers_write` — the scanner on each kind of value.
* `loads_write` — a value that is plain is read back from any layout.
* `dumps_eq_write`, `loads_dumps` — the compact layout is that of `dumps`.
-/

namespace TenantRag

namespace Json

variable {F : Type} [PyFloat F]

/-- The white space of a text: behind an opening bracket or a comma and in front of a closing
bracket, where so many brackets are open, and behind a colon. -/
structure Layout where
  /-- Behind an opening bracket or a comma. -/
  gap : ℕ → Text
  /-- In front of a closing bracket. -/
  close : ℕ → Text
  /-- Behind a colon. -/
  colon : Text
  /-- It is white space. -/
  gap_space : ∀ n, ∀ c ∈ gap n, isJsonSpace c = true
  /-- It is white space. -/
  close_space : ∀ n, ∀ c ∈ close n, isJsonSpace c = true
  /-- It is white space. -/
  colon_space : ∀ c ∈ colon, isJsonSpace c = true

/-- No white space. -/
def Layout.compact : Layout := ⟨fun _ => [], fun _ => [], [], by simp, by simp, by simp⟩

/-- `indent=n`: a line for each item, and a space behind a colon. -/
def Layout.indented (n : ℕ) : Layout where
  gap k := 10 :: List.replicate (n * (k + 1)) 32
  close k := 10 :: List.replicate (n * k) 32
  colon := [32]
  gap_space k c hc := by
    rcases List.mem_cons.mp hc with rfl | hc
    · rfl
    · rw [List.eq_of_mem_replicate hc]
      rfl
  close_space k c hc := by
    rcases List.mem_cons.mp hc with rfl | hc
    · rfl
    · rw [List.eq_of_mem_replicate hc]
      rfl
  colon_space c hc := by
    rw [List.mem_singleton.mp hc]
    rfl

mutual

/-- The text of a value, where so many brackets are open. -/
def write (L : Layout) : ℕ → Json F → Text
  | _, .null => lit "null"
  | _, .bool true => lit "true"
  | _, .bool false => lit "false"
  | _, .int n => intText n
  | _, .num x => floatText x
  | _, .str t => quoted t
  | _, .arr [] => [91, 93]
  | k, .arr (v :: vs) => 91 :: (L.gap k ++ (write L (k + 1) v ++ writeItems L k vs))
  | _, .obj [] => [123, 125]
  | k, .obj ((key, v) :: fs) =>
      123 :: (L.gap k ++ (quoted key ++ 58 :: (L.colon ++ (write L (k + 1) v ++ writeMembers L k fs))))

/-- What stands behind an item. -/
def writeItems (L : Layout) : ℕ → List (Json F) → Text
  | k, [] => L.close k ++ [93]
  | k, v :: vs => 44 :: (L.gap k ++ (write L (k + 1) v ++ writeItems L k vs))

/-- What stands behind a member. -/
def writeMembers (L : Layout) : ℕ → List (Text × Json F) → Text
  | k, [] => L.close k ++ [125]
  | k, (key, v) :: fs =>
      44 :: (L.gap k ++ (quoted key ++ 58 :: (L.colon ++ (write L (k + 1) v ++ writeMembers L k fs))))

end

mutual

/-- Every text has no surrogates that would be read as one code point, every number can be read,
and no key occurs twice. -/
def Plain : Json F → Prop
  | .null | .bool _ => True
  | .int n => (decimal n.natAbs).length ≤ intMaxStrDigits
  | .num x => PyFloat.isFinite x = true ∧ PyFloat.isNaN x = false
  | .str t => Unpaired t
  | .arr items => PlainItems items
  | .obj fields => (fields.map Prod.fst).Nodup ∧ PlainFields fields

/-- So is every item. -/
def PlainItems : List (Json F) → Prop
  | [] => True
  | v :: vs => Plain v ∧ PlainItems vs

/-- So is every member. -/
def PlainFields : List (Text × Json F) → Prop
  | [] => True
  | (k, v) :: fs => Unpaired k ∧ Plain v ∧ PlainFields fs

end

/-! ### Induction over a value -/

omit [PyFloat F] in
/-- Induction over a value, with the values of a list and of a dictionary. -/
@[elab_as_elim]
theorem inductOn {P : Json F → Prop} (null : P .null) (bool : ∀ b, P (.bool b)) (int : ∀ n, P (.int n))
    (num : ∀ x, P (.num x)) (str : ∀ t, P (.str t)) (arr : ∀ items, (∀ v ∈ items, P v) → P (.arr items))
    (obj : ∀ fields : List (Text × Json F), (∀ f ∈ fields, P f.2) → P (.obj fields)) (v : Json F) : P v := by
  match v with
  | .null => exact null
  | .bool b => exact bool b
  | .int n => exact int n
  | .num x => exact num x
  | .str t => exact str t
  | .arr items => exact arr items fun v _ => inductOn null bool int num str arr obj v
  | .obj fields => exact obj fields fun f _ => inductOn null bool int num str arr obj f.2
termination_by sizeOf v
decreasing_by
  · have hmem : v ∈ items := by assumption
    have hlt := List.sizeOf_lt_of_mem hmem
    rw [Json.arr.sizeOf_spec]
    omega
  · have hmem : f ∈ fields := by assumption
    have hlt := List.sizeOf_lt_of_mem hmem
    have hsnd : sizeOf f.2 < sizeOf f := by
      cases f
      simp
    rw [Json.obj.sizeOf_spec]
    omega
theorem plainItems_iff {items : List (Json F)} : PlainItems items ↔ ∀ v ∈ items, Plain v := by
  induction items with
  | nil => simp [PlainItems]
  | cons v vs ih => rw [PlainItems, ih, List.forall_mem_cons]

theorem plainFields_iff {fields : List (Text × Json F)} :
    PlainFields fields ↔ ∀ f ∈ fields, Unpaired f.1 ∧ Plain f.2 := by
  induction fields with
  | nil => simp [PlainFields]
  | cons f fs ih => rw [PlainFields, ih, List.forall_mem_cons, and_assoc]

/-! ### The parts of a text -/

theorem skipSpace_append {s r : Text} (hs : ∀ c ∈ s, isJsonSpace c = true) (hr : ∀ c ∈ r.head?, isJsonSpace c = false) :
    skipSpace (s ++ r) = r := by
  rw [skipSpace, List.dropWhile_append_of_pos hs]
  cases r with
  | nil => rfl
  | cons c r => exact List.dropWhile_cons_of_neg (by simp [hr c rfl])

/-- How the text of a value begins. -/
def Begins (t : Text) : Prop := ∃ c cs, t = c :: cs ∧ isJsonSpace c = false ∧ c.val ≠ 93 ∧ c.val < 128

theorem Begins.append {t : Text} (h : Begins t) (r : Text) : Begins (t ++ r) := by
  obtain ⟨c, cs, rfl, hc⟩ := h
  exact ⟨c, cs ++ r, rfl, hc⟩

theorem Begins.head {t : Text} (h : Begins t) : ∀ c ∈ t.head?, isJsonSpace c = false := by
  obtain ⟨c, cs, rfl, hc, -⟩ := h
  intro d hd
  cases hd
  exact hc

theorem begins_number {sign whole r : Text} (hsign : sign = [] ∨ sign = [45]) (hwhole : IsWhole whole) :
    Begins (sign ++ (whole ++ r)) := by
  obtain ⟨c, cs, heq, hc⟩ := head_number (r := r) hsign hwhole
  refine ⟨c, cs, heq, ?_, ?_, ?_⟩
  all_goals
    simp only [isDigit, Bool.and_eq_true, decide_eq_true_eq] at hc
  · simp only [isJsonSpace, Bool.or_eq_false_iff, decide_eq_false_iff_not]
    omega
  · omega
  · omega

theorem floatText_eq {x : F} (h : PyFloat.isFinite x = true ∧ PyFloat.isNaN x = false) : floatText x = PyFloat.repr x := by
  rw [floatText, if_neg (by simp [h.2]), if_pos h.1]

theorem begins_write (L : Layout) (k : ℕ) {v : Json F} (h : Plain v) : Begins (write L k v) := by
  cases v with
  | null => exact ⟨_, _, rfl, rfl, by decide, by decide⟩
  | bool b => cases b <;> exact ⟨_, _, rfl, rfl, by decide, by decide⟩
  | int n =>
    have hbegins : Begins (intText n) := by
      have happend := begins_number (r := []) (intSign_cases n) (decimal_isWhole n.natAbs)
      rwa [List.append_nil, ← intText_eq] at happend
    rwa [write]
  | num x =>
    rw [Plain] at h
    obtain ⟨sign, whole, fraction, exponent, hparts⟩ := PyFloat.repr_literal x h.1
    rw [write, floatText_eq h, hparts.parts]
    exact begins_number hparts.isSign hparts.isWhole
  | str t =>
    rw [write]
    exact ⟨34, _, rfl, rfl, by decide, by decide⟩
  | arr items =>
    cases items with
    | nil =>
      rw [write]
      exact ⟨91, _, rfl, rfl, by decide, by decide⟩
    | cons v vs =>
      rw [write]
      exact ⟨91, _, rfl, rfl, by decide, by decide⟩
  | obj fields =>
    cases fields with
    | nil =>
      rw [write]
      exact ⟨123, _, rfl, rfl, by decide, by decide⟩
    | cons f fs =>
      rw [write]
      exact ⟨123, _, rfl, rfl, by decide, by decide⟩

/-- Behind an item stands what may stand behind a value. -/
theorem stops_writeItems (L : Layout) (k : ℕ) (vs : List (Json F)) (r : Text) : Stops (writeItems L k vs ++ r) := by
  cases vs with
  | nil =>
    rw [writeItems, List.append_assoc]
    exact stops_append (L.close_space k) (stops_cons (.inr (.inr (.inl rfl))))
  | cons v vs =>
    rw [writeItems]
    exact stops_cons (.inr (.inl rfl))

/-- So it does behind a member. -/
theorem stops_writeMembers (L : Layout) (k : ℕ) (fs : List (Text × Json F)) (r : Text) :
    Stops (writeMembers L k fs ++ r) := by
  cases fs with
  | nil =>
    rw [writeMembers, List.append_assoc]
    exact stops_append (L.close_space k) (stops_cons (.inr (.inr (.inr rfl))))
  | cons f fs =>
    rw [writeMembers]
    exact stops_cons (.inr (.inl rfl))

/-! ### Reading -/

/-- A string is read behind its quote. -/
theorem scanValue_str {t : Text} (h : Unpaired t) (n : ℕ) (r : Text) :
    scanValue (F := F) (n + 1) (quoted t ++ r) = some (.str t, r) := by
  rw [quoted, List.cons_append, List.append_assoc, List.singleton_append, scanValue, if_pos (by decide),
    scanString_escape h]
  rfl

/-- What begins with a digit or a minus is a number. -/
theorem scanValue_number {t : Text} (h : ∃ c cs, t = c :: cs ∧ (isDigit c = true ∨ c.val = 45)) (n : ℕ) :
    scanValue (F := F) (n + 1) t = scanNumber t := by
  obtain ⟨c, cs, rfl, hc⟩ := h
  have hrange : c.val = 45 ∨ 48 ≤ c.val ∧ c.val ≤ 57 := by
    simpa [isDigit, or_comm] using hc
  have hne {d : PyChar} (hd : ¬ (d.val = 45 ∨ 48 ≤ d.val ∧ d.val ≤ 57)) : d ≠ c := by
    rintro rfl
    exact hd hrange
  have hnull : dropWord (lit "null") (c :: cs) = none := dropWord_eq_none (d := c) (hne (d := 110) (by decide))
  have htrue : dropWord (lit "true") (c :: cs) = none := dropWord_eq_none (d := c) (hne (d := 116) (by decide))
  have hfalse : dropWord (lit "false") (c :: cs) = none := dropWord_eq_none (d := c) (hne (d := 102) (by decide))
  rw [scanValue, if_neg (by omega), if_neg (by omega), if_neg (by omega), hnull, htrue, hfalse]

/-- The white space of a text is skipped in front of a value. -/
theorem skipSpace_write {L : Layout} {s : Text} (hs : ∀ c ∈ s, isJsonSpace c = true) {k : ℕ} {v : Json F} (h : Plain v)
    (r : Text) : skipSpace (s ++ (write L k v ++ r)) = write L k v ++ r :=
  skipSpace_append hs ((begins_write L k h).append r).head

/-- So it is in front of a key. -/
theorem skipSpace_quoted {s : Text} (hs : ∀ c ∈ s, isJsonSpace c = true) (key r : Text) :
    skipSpace (s ++ (quoted key ++ r)) = 34 :: (key.flatMap escapeChar ++ 34 :: r) := by
  rw [skipSpace_append hs (by rw [quoted]; rintro c ⟨⟩; rfl), quoted, List.cons_append, List.append_assoc,
    List.singleton_append]

theorem skipSpace_colon (r : Text) : skipSpace (58 :: r) = 58 :: r := rfl

theorem skipSpace_comma (r : Text) : skipSpace (44 :: r) = 44 :: r := rfl

omit [PyFloat F] in
theorem setField_of_not_mem {key : Text} {d : List (Text × Json F)} (h : key ∉ d.map Prod.fst) (v : Json F) :
    setField key v d = d ++ [(key, v)] := by
  induction d with
  | nil => rfl
  | cons p d ih =>
    rw [List.map_cons, List.mem_cons, not_or] at h
    rw [setField, if_neg (Ne.symm h.1), ih h.2, List.cons_append]

omit [PyFloat F] in
/-- A dictionary of different keys has the items it is made of. -/
theorem dictOf_eq {pairs : List (Text × Json F)} (h : (pairs.map Prod.fst).Nodup) : dictOf pairs = pairs := by
  suffices hgen : ∀ d : List (Text × Json F), ((d ++ pairs).map Prod.fst).Nodup →
      pairs.foldl (fun d p => setField p.1 p.2 d) d = d ++ pairs from hgen [] h
  clear h
  induction pairs with
  | nil => exact fun d _ => (List.append_nil d).symm
  | cons p pairs ih =>
    intro d hd
    rw [← List.singleton_append, ← List.append_assoc] at hd
    have hnot : p.1 ∉ d.map Prod.fst := by
      rw [List.map_append, List.map_append, List.nodup_append, List.nodup_append] at hd
      exact fun hmem => hd.1.2.2 p.1 hmem p.1 (List.mem_singleton_self _) rfl
    rw [List.foldl_cons, setField_of_not_mem hnot, ih _ hd, List.append_assoc, List.singleton_append]

/-- The value is read back, with enough calls and what may stand behind it. -/
def Scans (L : Layout) (v : Json F) : Prop :=
  ∀ (k n : ℕ) (r : Text), (write L k v).length ≤ n → Stops r → scanValue n (write L k v ++ r) = some (v, r)

theorem exists_succ {L : Layout} {k : ℕ} {v : Json F} (h : Plain v) {n m : ℕ} (hn : (write L k v).length + m ≤ n) :
    ∃ n', n = n' + 1 := by
  obtain ⟨c, cs, heq, -⟩ := begins_write L k h
  rw [heq, List.length_cons] at hn
  exact ⟨n - 1, by omega⟩

/-- The items of an array are read back when each of them is. -/
theorem scanItems_write (L : Layout) (k : ℕ) {v : Json F} {vs : List (Json F)}
    (h : ∀ w ∈ v :: vs, Plain w ∧ Scans L w) {n : ℕ} {r : Text}
    (hn : (write L (k + 1) v ++ writeItems L k vs).length ≤ n) :
    scanItems n (write L (k + 1) v ++ (writeItems L k vs ++ r)) = some (v :: vs, r) := by
  induction vs generalizing v n with
  | nil =>
    obtain ⟨hplain, hscans⟩ := h v List.mem_cons_self
    rw [List.length_append] at hn
    obtain ⟨n, rfl⟩ := exists_succ hplain hn
    rw [writeItems, List.length_append, List.length_singleton] at hn
    have hvalue := hscans (k + 1) n (writeItems L k ([] : List (Json F)) ++ r) (by omega) (stops_writeItems L k [] r)
    have hskip : skipSpace (L.close k ++ 93 :: r) = 93 :: r := skipSpace_append (L.close_space k) (by rintro c ⟨⟩; rfl)
    rw [scanItems, hvalue]
    dsimp only
    rw [writeItems, List.append_assoc, List.singleton_append, hskip]
    rfl
  | cons w ws ih =>
    obtain ⟨hplain, hscans⟩ := h v List.mem_cons_self
    have hws : ∀ u ∈ w :: ws, Plain u ∧ Scans L u := fun u hu => h u (List.mem_cons_of_mem v hu)
    rw [List.length_append] at hn
    obtain ⟨n, rfl⟩ := exists_succ hplain hn
    rw [writeItems, List.length_cons, List.length_append] at hn
    have hvalue := hscans (k + 1) n (writeItems L k (w :: ws) ++ r) (by omega) (stops_writeItems L k (w :: ws) r)
    have hitems := ih hws (n := n) (by omega)
    have hskip : skipSpace (L.gap k ++ (write L (k + 1) w ++ (writeItems L k ws ++ r))) =
        write L (k + 1) w ++ (writeItems L k ws ++ r) := skipSpace_write (L.gap_space k) (hws w List.mem_cons_self).1 _
    rw [scanItems, hvalue]
    dsimp only
    rw [writeItems, List.cons_append, List.append_assoc, List.append_assoc, skipSpace_comma]
    dsimp only
    rw [if_neg (by decide), if_pos (by decide), hskip, hitems]
    rfl

/-- The members of an object are read back when the value of each of them is. -/
theorem scanMembers_write (L : Layout) (k : ℕ) {key : Text} {v : Json F} {fs : List (Text × Json F)}
    (h : ∀ f ∈ (key, v) :: fs, Unpaired f.1 ∧ Plain f.2 ∧ Scans L f.2) {n : ℕ} {r : Text}
    (hn : (write L (k + 1) v ++ writeMembers L k fs).length ≤ n) :
    scanMembers n (key.flatMap escapeChar ++ 34 :: 58 :: (L.colon ++ (write L (k + 1) v ++ (writeMembers L k fs ++ r)))) =
      some ((key, v) :: fs, r) := by
  induction fs generalizing key v n with
  | nil =>
    obtain ⟨hkey, hplain, hscans⟩ : Unpaired key ∧ Plain v ∧ Scans L v := h (key, v) List.mem_cons_self
    rw [List.length_append] at hn
    obtain ⟨n, rfl⟩ := exists_succ hplain hn
    rw [writeMembers, List.length_append, List.length_singleton] at hn
    have hvalue := hscans (k + 1) n (writeMembers L k ([] : List (Text × Json F)) ++ r) (by omega) (stops_writeMembers L k [] r)
    have hcolon : skipSpace (L.colon ++ (write L (k + 1) v ++ (writeMembers L k ([] : List (Text × Json F)) ++ r))) =
        write L (k + 1) v ++ (writeMembers L k [] ++ r) := skipSpace_write L.colon_space hplain _
    have hskip : skipSpace (L.close k ++ 125 :: r) = 125 :: r := skipSpace_append (L.close_space k) (by rintro c ⟨⟩; rfl)
    rw [scanMembers, scanString_escape hkey]
    dsimp only
    rw [skipSpace_colon]
    dsimp only
    rw [if_neg (by decide), hcolon, hvalue]
    dsimp only
    rw [writeMembers, List.append_assoc, List.singleton_append, hskip]
    rfl
  | cons f fs ih =>
    obtain ⟨key', w⟩ := f
    obtain ⟨hkey, hplain, hscans⟩ : Unpaired key ∧ Plain v ∧ Scans L v := h (key, v) List.mem_cons_self
    have hfs : ∀ f ∈ (key', w) :: fs, Unpaired f.1 ∧ Plain f.2 ∧ Scans L f.2 :=
      fun f hf => h f (List.mem_cons_of_mem _ hf)
    rw [List.length_append] at hn
    obtain ⟨n, rfl⟩ := exists_succ hplain hn
    rw [writeMembers, List.length_cons] at hn
    have hlength : (write L (k + 1) w ++ writeMembers L k fs).length ≤ n := by
      simp only [List.length_cons, List.length_append] at hn ⊢
      omega
    have hvalue := hscans (k + 1) n (writeMembers L k ((key', w) :: fs) ++ r) (by omega)
      (stops_writeMembers L k ((key', w) :: fs) r)
    have hmembers := ih hfs hlength
    have hcolon : skipSpace (L.colon ++ (write L (k + 1) v ++ (writeMembers L k ((key', w) :: fs) ++ r))) =
        write L (k + 1) v ++ (writeMembers L k ((key', w) :: fs) ++ r) := skipSpace_write L.colon_space hplain _
    have hskip := skipSpace_quoted (L.gap_space k) key'
      (58 :: (L.colon ++ (write L (k + 1) w ++ (writeMembers L k fs ++ r))))
    rw [scanMembers, scanString_escape hkey]
    dsimp only
    rw [skipSpace_colon]
    dsimp only
    rw [if_neg (by decide), hcolon, hvalue]
    dsimp only
    rw [writeMembers, List.cons_append, List.append_assoc, List.append_assoc, List.cons_append, List.append_assoc,
      List.append_assoc, skipSpace_comma]
    dsimp only
    rw [if_neg (by decide), if_pos (by decide), hskip]
    dsimp only
    rw [if_pos (by decide), hmembers]
    rfl

/-- A plain value is read back. -/
theorem scanValue_write (L : Layout) {v : Json F} (h : Plain v) : Scans L v := by
  intro k n r hn hr
  obtain ⟨n, rfl⟩ := exists_succ h (m := 0) hn
  induction v using inductOn generalizing k n r with
  | null => rfl
  | bool b => cases b <;> rfl
  | int i =>
    rw [Plain] at h
    rw [write, scanValue_number, scanNumber_int h hr]
    rw [intText_eq, List.append_assoc]
    exact head_number (intSign_cases i) (decimal_isWhole i.natAbs)
  | num x =>
    rw [Plain] at h
    obtain ⟨sign, whole, fraction, exponent, hparts⟩ := PyFloat.repr_literal x h.1
    rw [write, floatText_eq h, scanValue_number, scanNumber_float h.1 hr]
    rw [hparts.parts, List.append_assoc, List.append_assoc]
    exact head_number hparts.isSign hparts.isWhole
  | str t =>
    rw [Plain] at h
    rw [write, scanValue_str h]
  | arr items ih =>
    rw [Plain, plainItems_iff] at h
    cases items with
    | nil => rfl
    | cons v vs =>
      have hv := h v List.mem_cons_self
      have hscans : ∀ w ∈ v :: vs, Plain w ∧ Scans L w := by
        intro w hw
        refine ⟨h w hw, fun k n r hn hr => ?_⟩
        obtain ⟨n, rfl⟩ := exists_succ (h w hw) (m := 0) hn
        exact ih w hw (h w hw) k r hr n hn
      rw [write, List.length_cons, List.length_append] at hn
      obtain ⟨c, cs, heq, hspace, h93, -⟩ := (begins_write L (k + 1) hv).append (writeItems L k vs ++ r)
      have hitems := scanItems_write L k hscans (n := n) (r := r) (by omega)
      have hskip : skipSpace (L.gap k ++ (write L (k + 1) v ++ (writeItems L k vs ++ r))) = c :: cs := by
        rw [skipSpace_write (L.gap_space k) hv, heq]
      rw [write, List.cons_append, List.append_assoc, List.append_assoc, scanValue, if_neg (by decide),
        if_neg (by decide), if_pos (by decide), hskip]
      dsimp only
      rw [if_neg h93, ← heq, hitems]
      rfl
  | obj fields ih =>
    rw [Plain, plainFields_iff] at h
    obtain ⟨hnodup, h⟩ := h
    cases fields with
    | nil => rfl
    | cons f fs =>
      obtain ⟨key, v⟩ := f
      have hscans : ∀ f ∈ (key, v) :: fs, Unpaired f.1 ∧ Plain f.2 ∧ Scans L f.2 := by
        intro f hf
        obtain ⟨hkey, hplain⟩ := h f hf
        refine ⟨hkey, hplain, fun k n r hn hr => ?_⟩
        obtain ⟨n, rfl⟩ := exists_succ hplain (m := 0) hn
        exact ih f hf hplain k r hr n hn
      have hlength : (write L (k + 1) v ++ writeMembers L k fs).length ≤ n := by
        simp only [write, List.length_cons, List.length_append] at hn ⊢
        omega
      have hmembers := scanMembers_write L k hscans hlength (r := r)
      have hskip := skipSpace_quoted (L.gap_space k) key
        (58 :: (L.colon ++ (write L (k + 1) v ++ (writeMembers L k fs ++ r))))
      rw [write, List.cons_append, List.append_assoc, List.append_assoc, List.cons_append, List.append_assoc,
        List.append_assoc, scanValue, if_neg (by decide), if_pos (by decide), hskip]
      dsimp only
      rw [if_neg (by decide), if_pos (by decide), hmembers]
      exact congrArg (fun fields => some (Json.obj fields, r)) (dictOf_eq hnodup)

omit [PyFloat F] in
theorem stops_of_space {s : Text} (hs : ∀ c ∈ s, isJsonSpace c = true) : Stops s := by
  rw [← List.append_nil s]
  exact stops_append hs stops_nil

/-- A text of a value is read back, with white space behind it. -/
theorem loads_write (L : Layout) {v : Json F} (h : Plain v) {s : Text} (hs : ∀ c ∈ s, isJsonSpace c = true) :
    loads (write L 0 v ++ s) = some v := by
  have hbegins := (begins_write L 0 h).append s
  have hmark : (write L 0 v ++ s).head? ≠ some 0xFEFF := by
    obtain ⟨c, cs, heq, -, -, hlt⟩ := hbegins
    rw [heq, List.head?_cons]
    intro hc
    rw [Option.some.inj hc] at hlt
    exact absurd hlt (by decide)
  have hskip : skipSpace (write L 0 v ++ s) = write L 0 v ++ s :=
    skipSpace_append (s := []) (by simp) hbegins.head
  have hvalue : scanValue (2 * (write L 0 v ++ s).length + 2) (write L 0 v ++ s) = some (v, s) :=
    scanValue_write L h 0 _ s (by rw [List.length_append]; omega) (stops_of_space hs)
  have hrest : skipSpace s = [] := List.dropWhile_eq_nil_iff.mpr hs
  rw [loads, if_neg hmark, hskip, hvalue]
  dsimp only
  rw [if_pos hrest]

/-! ### The texts of `json.dumps` -/

theorem dumpsItems_write (k : ℕ) (a : Text) (vs : List (Json F)) (h : ∀ v ∈ vs, dumps v = write Layout.compact (k + 1) v) :
    join [44] (a :: dumpsItems vs) ++ [93] = a ++ writeItems Layout.compact k vs := by
  induction vs generalizing a with
  | nil =>
    rw [dumpsItems, join_singleton, writeItems]
    rfl
  | cons v vs ih =>
    obtain ⟨hv, hvs⟩ := List.forall_mem_cons.mp h
    rw [dumpsItems, join_cons_cons, List.append_assoc, List.append_assoc, ih _ hvs, hv, writeItems]
    rfl

theorem dumpsFields_write (k : ℕ) (a : Text) (fs : List (Text × Json F))
    (h : ∀ f ∈ fs, dumps f.2 = write Layout.compact (k + 1) f.2) :
    join [44] (a :: dumpsFields fs) ++ [125] = a ++ writeMembers Layout.compact k fs := by
  induction fs generalizing a with
  | nil =>
    rw [dumpsFields, join_singleton, writeMembers]
    rfl
  | cons f fs ih =>
    obtain ⟨hf, hfs⟩ := List.forall_mem_cons.mp h
    rw [dumpsFields, join_cons_cons, List.append_assoc, List.append_assoc, ih _ hfs, hf, writeMembers, List.append_assoc]
    rfl

/-- The texts without white space are those of `dumps`. -/
theorem dumps_eq_write (k : ℕ) (v : Json F) : dumps v = write Layout.compact k v := by
  induction v using inductOn generalizing k with
  | null => rfl
  | bool b => cases b <;> rfl
  | int i => rw [dumps, write]
  | num x => rw [dumps, write]
  | str t => rw [dumps, write]
  | arr items ih =>
    cases items with
    | nil => rfl
    | cons v vs =>
      obtain ⟨hv, hvs⟩ := List.forall_mem_cons.mp ih
      rw [dumps, dumpsItems, dumpsItems_write k _ vs fun w hw => hvs w hw (k + 1), hv (k + 1), write]
      rfl
  | obj fields ih =>
    cases fields with
    | nil => rfl
    | cons f fs =>
      obtain ⟨hf, hfs⟩ := List.forall_mem_cons.mp ih
      rw [dumps, dumpsFields, dumpsFields_write k _ fs fun w hw => hfs w hw (k + 1), hf (k + 1), write, List.append_assoc]
      rfl

/-- A plain value is read back. -/
theorem loads_dumps {v : Json F} (h : Plain v) : loads (dumps v) = some v := by
  rw [dumps_eq_write 0 v, ← List.append_nil (write Layout.compact 0 v)]
  exact loads_write Layout.compact h (by simp)

end Json

end TenantRag

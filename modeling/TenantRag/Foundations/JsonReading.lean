import TenantRag.Foundations.JsonGrammar
import TenantRag.Foundations.Result

/-!
# What JSON texts read as

The texts of values, of the items of an array and of the members of an object, by a grammar; the
value a text reads as still has every member of its objects. `json.loads` with a hook accepts exactly
the texts of the grammar, and gives what the hook makes of the value, from the inside out.

## What is proved

* `Reads.shape` — a value begins and ends with a character that is not white space, and control
  characters occur in it as white space only.
* `Reads.scan` — every text of the grammar is read, whatever follows that does not continue it.
* `reads_of_scan` — nothing else is.
* `loadsWith_ok_iff`, `loads_iff` — so are whole texts.
* `JsonText.unique`, `JsonText.extend` — a text reads as one value, and what can be added to it is white space.
-/

namespace TenantRag

namespace Json

variable {F ε : Type} [PyFloat F]

/-- White space. -/
def Spaces (w : Text) : Prop := ∀ c ∈ w, isJsonSpace c = true

/-- What a part of a text is. -/
inductive Part (F : Type) where
  /-- A value. -/
  | value (v : Json F)
  /-- The items of an array, up to its bracket. -/
  | items (vs : List (Json F))
  /-- The members of an object, from behind the quote of the first name up to the brace. -/
  | members (ms : List (Text × Json F))

/-- `Reads s part`: the text `s` is written for this part. -/
inductive Reads : Text → Part F → Prop where
  /-- `null`. -/
  | wordNull : Reads (lit "null") (.value .null)
  /-- `true`. -/
  | wordTrue : Reads (lit "true") (.value (.bool true))
  /-- `false`. -/
  | wordFalse : Reads (lit "false") (.value (.bool false))
  /-- A number. -/
  | number {s : Text} {v : Json F} : NumberText s v → Reads s (.value v)
  /-- A string. -/
  | str {e q : Text} : StringBody e q → Reads (34 :: (e ++ [34])) (.value (.str q))
  /-- An array without items. -/
  | emptyArr {w : Text} : Spaces w → Reads (91 :: (w ++ [93])) (.value (.arr []))
  /-- An array. -/
  | arr {w s : Text} {vs : List (Json F)} : Spaces w → Reads s (.items vs) → Reads (91 :: (w ++ s)) (.value (.arr vs))
  /-- The last item. -/
  | last {s w : Text} {v : Json F} : Reads s (.value v) → Spaces w → Reads (s ++ (w ++ [93])) (.items [v])
  /-- An item and those behind it. -/
  | item {s w w' s' : Text} {v : Json F} {vs : List (Json F)} : Reads s (.value v) → Spaces w → Spaces w' →
      Reads s' (.items vs) → Reads (s ++ (w ++ 44 :: (w' ++ s'))) (.items (v :: vs))
  /-- An object without members. -/
  | emptyObj {w : Text} : Spaces w → Reads (123 :: (w ++ [125])) (.value (.obj []))
  /-- An object. -/
  | obj {w s : Text} {ms : List (Text × Json F)} : Spaces w → Reads s (.members ms) →
      Reads (123 :: (w ++ 34 :: s)) (.value (.obj ms))
  /-- The last member. -/
  | lastMember {e key w w' s w'' : Text} {v : Json F} : StringBody e key → Spaces w → Spaces w' → Reads s (.value v) →
      Spaces w'' → Reads (e ++ 34 :: (w ++ 58 :: (w' ++ (s ++ (w'' ++ [125]))))) (.members [(key, v)])
  /-- A member and those behind it. -/
  | member {e key w w' s w'' u s' : Text} {v : Json F} {ms : List (Text × Json F)} : StringBody e key →
      Spaces w → Spaces w' → Reads s (.value v) → Spaces w'' → Spaces u → Reads s' (.members ms) →
      Reads (e ++ 34 :: (w ++ 58 :: (w' ++ (s ++ (w'' ++ 44 :: (u ++ 34 :: s')))))) (.members ((key, v) :: ms))

/-- `JsonText t v`: the text `t` is a JSON text for the value `v`. -/
def JsonText (t : Text) (v : Json F) : Prop :=
  ∃ w s w', Spaces w ∧ Spaces w' ∧ t = w ++ (s ++ w') ∧ Reads s (.value v)

/-! ### White space -/

theorem isSpace_of_isJsonSpace {c : PyChar} (h : isJsonSpace c = true) : isSpace c = true := by
  simp only [isJsonSpace, Bool.or_eq_true, decide_eq_true_eq] at h
  rw [isSpace]
  simp only [Bool.or_eq_true, Bool.and_eq_true, decide_eq_true_eq, beq_iff_eq]
  omega

theorem spaces_skipped (t : Text) : ∃ w, Spaces w ∧ t = w ++ skipSpace t :=
  ⟨t.takeWhile isJsonSpace, fun _ hc => List.mem_takeWhile_imp hc, (List.takeWhile_append_dropWhile).symm⟩

theorem Spaces.skip {w r : Text} (hw : Spaces w) (hr : ∀ c ∈ r.head?, isJsonSpace c = false) : skipSpace (w ++ r) = r :=
  skipSpace_append hw hr

theorem Spaces.skip_cons {w r : Text} {c : PyChar} (hw : Spaces w) (hc : isJsonSpace c = false) :
    skipSpace (w ++ c :: r) = c :: r :=
  hw.skip (by rintro d ⟨⟩; exact hc)

theorem Spaces.skip_all {w : Text} (hw : Spaces w) : skipSpace w = [] := List.dropWhile_eq_nil_iff.mpr hw

theorem spaces_of_skip {t : Text} (h : skipSpace t = []) : Spaces t := List.dropWhile_eq_nil_iff.mp h

/-! ### How a value begins and ends -/

section Shape

/-- Control characters are white space. -/
def NoControl (s : Text) : Prop := ∀ c ∈ s, isJsonSpace c = true ∨ 32 ≤ c.val

theorem NoControl.cons {c : PyChar} {s : Text} (hs : NoControl s) (hc : 32 ≤ c.val) : NoControl (c :: s) :=
  List.forall_mem_cons.mpr ⟨.inr hc, hs⟩

theorem NoControl.append {s s' : Text} (hs : NoControl s) (hs' : NoControl s') : NoControl (s ++ s') :=
  List.forall_mem_append.mpr ⟨hs, hs'⟩

theorem noControl_singleton {c : PyChar} (hc : 32 ≤ c.val) : NoControl [c] :=
  NoControl.cons (fun _ h => absurd h (by simp)) hc

theorem Spaces.noControl {w : Text} (hw : Spaces w) : NoControl w := fun c hc => .inl (hw c hc)

theorem StringBody.noControl {e q : Text} (h : StringBody e q) : NoControl e := fun c hc => .inr (h.visible c hc)

/-- The text does not end with white space. -/
def EndsSolid (s : Text) : Prop := ∃ cs c, s = cs ++ [c] ∧ isSpace c = false

theorem EndsSolid.cons {s : Text} (h : EndsSolid s) (c : PyChar) : EndsSolid (c :: s) := by
  obtain ⟨cs, d, rfl, hd⟩ := h
  exact ⟨c :: cs, d, rfl, hd⟩

theorem EndsSolid.append {s : Text} (h : EndsSolid s) (t : Text) : EndsSolid (t ++ s) := by
  obtain ⟨cs, d, rfl, hd⟩ := h
  exact ⟨t ++ cs, d, (List.append_assoc _ _ _).symm, hd⟩

theorem endsSolid_singleton {c : PyChar} (hc : isSpace c = false) : EndsSolid [c] := ⟨[], c, rfl, hc⟩

theorem endsSolid_of_forall {s : Text} (hne : s ≠ []) (h : ∀ c ∈ s, 33 ≤ c.val ∧ c.val ≤ 126) : EndsSolid s :=
  ⟨_, _, (List.dropLast_append_getLast hne).symm, isSpace_of_val (h _ (List.getLast_mem hne))⟩

/-- What is known of the text of each part: how a value or an item begins, how each part ends, and that there are no
control characters but white space. -/
def Shape (s : Text) : Part F → Prop
  | .value _ | .items _ => Begins s ∧ EndsSolid s ∧ NoControl s
  | .members _ => EndsSolid s ∧ NoControl s

theorem begins_of_val {c : PyChar} (h : 33 ≤ c.val ∧ c.val ≤ 126) (h93 : c.val ≠ 93) (cs : Text) : Begins (c :: cs) := by
  refine ⟨c, cs, rfl, ?_, h93, by omega⟩
  simp only [isJsonSpace, Bool.or_eq_false_iff, decide_eq_false_iff_not]
  omega

/-- Each part has its shape. -/
theorem Reads.shape {s : Text} {part : Part F} (h : Reads s part) : Shape s part := by
  have word {c : PyChar} {cs : Text} {v : Json F} (hc : c.val ≠ 93)
      (hall : ((c :: cs).all fun c => decide (33 ≤ c.val ∧ c.val ≤ 126)) = true) : Shape (c :: cs) (.value v) := by
    have hsolid := visible_of_all hall
    refine ⟨begins_of_val (hsolid c List.mem_cons_self) hc cs, endsSolid_of_forall (List.cons_ne_nil c cs) hsolid, ?_⟩
    intro d hd
    have hval := hsolid d hd
    exact .inr (by omega)
  induction h with
  | wordNull => exact word (by decide) rfl
  | wordTrue => exact word (by decide) rfl
  | wordFalse => exact word (by decide) rfl
  | @number s v h =>
    obtain ⟨hall, c, cs, rfl, hc⟩ := h.solid
    refine word ?_ (List.all_eq_true.mpr fun d hd => decide_eq_true (hall d hd))
    simp only [isDigit, Bool.and_eq_true, decide_eq_true_eq] at hc
    omega
  | @str e q h =>
    refine ⟨begins_of_val (by decide) (by decide) _, ?_, ?_⟩
    · exact ((endsSolid_singleton (by decide)).append e).cons 34
    · exact (h.noControl.append (noControl_singleton (by decide))).cons (by decide)
  | @emptyArr w hw =>
    refine ⟨begins_of_val (by decide) (by decide) _, ?_, ?_⟩
    · exact ((endsSolid_singleton (by decide)).append w).cons 91
    · exact (hw.noControl.append (noControl_singleton (by decide))).cons (by decide)
  | @arr w s vs hw h ih =>
    obtain ⟨-, hends, hcontrol⟩ := ih
    exact ⟨begins_of_val (by decide) (by decide) _, (hends.append w).cons 91, (hw.noControl.append hcontrol).cons (by decide)⟩
  | @last s w v h hw ih =>
    obtain ⟨hbegins, -, hcontrol⟩ := ih
    refine ⟨hbegins.append _, ?_, ?_⟩
    · exact ((endsSolid_singleton (by decide)).append w).append s
    · exact hcontrol.append (hw.noControl.append (noControl_singleton (by decide)))
  | @item s w w' s' v vs h hw hw' h' ih ih' =>
    obtain ⟨hbegins, -, hcontrol⟩ := ih
    obtain ⟨-, hends', hcontrol'⟩ := ih'
    refine ⟨hbegins.append _, ?_, ?_⟩
    · exact (((hends'.append w').cons 44).append w).append s
    · exact hcontrol.append (hw.noControl.append ((hw'.noControl.append hcontrol').cons (by decide)))
  | @emptyObj w hw =>
    refine ⟨begins_of_val (by decide) (by decide) _, ?_, ?_⟩
    · exact ((endsSolid_singleton (by decide)).append w).cons 123
    · exact (hw.noControl.append (noControl_singleton (by decide))).cons (by decide)
  | @obj w s ms hw h ih =>
    obtain ⟨hends, hcontrol⟩ := ih
    refine ⟨begins_of_val (by decide) (by decide) _, ((hends.cons 34).append w).cons 123, ?_⟩
    exact (hw.noControl.append (hcontrol.cons (by decide))).cons (by decide)
  | @lastMember e key w w' s w'' v hkey hw hw' h hw'' ih =>
    obtain ⟨-, -, hcontrol⟩ := ih
    constructor
    · exact ((((((endsSolid_singleton (by decide)).append w'').append s).append w').cons 58).append w).cons 34 |>.append e
    · have hvalue := hw'.noControl.append (hcontrol.append (hw''.noControl.append (noControl_singleton (c := 125) (by decide))))
      exact hkey.noControl.append ((hw.noControl.append (hvalue.cons (by decide))).cons (by decide))
  | @member e key w w' s w'' u s' v ms hkey hw hw' h hw'' hu h' ih ih' =>
    obtain ⟨-, -, hcontrol⟩ := ih
    obtain ⟨hends', hcontrol'⟩ := ih'
    constructor
    · have hbehind := (((hends'.cons 34).append u).cons 44).append w''
      exact ((((hbehind.append s).append w').cons 58).append w).cons 34 |>.append e
    · have hbehind := hw''.noControl.append ((hu.noControl.append (hcontrol'.cons (c := 34) (by decide))).cons (c := 44) (by decide))
      have hvalue := hw'.noControl.append (hcontrol.append hbehind)
      exact hkey.noControl.append ((hw.noControl.append (hvalue.cons (by decide))).cons (by decide))

end Shape

/-! ### The hook from the inside out -/

section Hooked

variable (hook : List (Text × Json F) → Except ε (Json F))

mutual

/-- What the hook makes of a value, from the inside out. -/
def hooked : Json F → Except ε (Json F)
  | .null => .ok .null
  | .bool b => .ok (.bool b)
  | .int n => .ok (.int n)
  | .num x => .ok (.num x)
  | .str t => .ok (.str t)
  | .arr items => (hookedItems items).map .arr
  | .obj members =>
      match hookedMembers members with
      | .error e => .error e
      | .ok members => hook members

/-- The items. -/
def hookedItems : List (Json F) → Except ε (List (Json F))
  | [] => .ok []
  | v :: vs =>
      match hooked v with
      | .error e => .error e
      | .ok v => (hookedItems vs).map (v :: ·)

/-- The members. -/
def hookedMembers : List (Text × Json F) → Except ε (List (Text × Json F))
  | [] => .ok []
  | (key, v) :: ms =>
      match hooked v with
      | .error e => .error e
      | .ok v => (hookedMembers ms).map ((key, v) :: ·)

end

/-! ### Every text of the grammar is read -/

/-- What the scanner makes of the text of a part, given enough calls. -/
def ScansAs (s : Text) : Part F → Prop
  | .value v => ∀ n r, s.length ≤ n → Loose r →
      scanValueWith hook n (s ++ r) = (called (hooked hook v)).map fun v => (v, r)
  | .items vs => ∀ n r, s.length ≤ n →
      scanItemsWith hook n (s ++ r) = (called (hookedItems hook vs)).map fun vs => (vs, r)
  | .members ms => ∀ n r, s.length ≤ n →
      scanMembersWith hook n (s ++ r) = (called (hookedMembers hook ms)).map fun ms => (ms, r)

theorem Spaces.loose {w r : Text} {c : PyChar} (hw : Spaces w)
    (hc : isJsonSpace c = true ∨ c.val = 44 ∨ c.val = 93 ∨ c.val = 125) : Loose (w ++ c :: r) :=
  (stops_append hw (stops_cons hc)).loose

/-- What begins with a digit, a minus or the letter of a constant is a number. -/
theorem scanValueWith_number {c : PyChar} (hc : isDigit c = true ∨ c.val = 45 ∨ c.val = 73 ∨ c.val = 78) (n : ℕ)
    (cs : Text) : scanValueWith hook (n + 1) (c :: cs) = decoded (scanNumber (c :: cs)) := by
  have hrange : c.val = 45 ∨ c.val = 73 ∨ c.val = 78 ∨ 48 ≤ c.val ∧ c.val ≤ 57 := by
    simp only [isDigit, Bool.and_eq_true, decide_eq_true_eq] at hc
    omega
  have hne {d : PyChar} (hd : ¬ (d.val = 45 ∨ d.val = 73 ∨ d.val = 78 ∨ 48 ≤ d.val ∧ d.val ≤ 57)) : d ≠ c := by
    rintro rfl
    exact hd hrange
  have hnull : dropWord (lit "null") (c :: cs) = none := dropWord_eq_none (d := c) (hne (d := 110) (by decide))
  have htrue : dropWord (lit "true") (c :: cs) = none := dropWord_eq_none (d := c) (hne (d := 116) (by decide))
  have hfalse : dropWord (lit "false") (c :: cs) = none := dropWord_eq_none (d := c) (hne (d := 102) (by decide))
  rw [scanValueWith, if_neg (by omega), if_neg (by omega), if_neg (by omega), hnull, htrue, hfalse]

/-- One more call than a bound on what is left. -/
theorem exists_call {m n : ℕ} (h : m + 1 ≤ n) : ∃ k, n = k + 1 ∧ m ≤ k := ⟨n - 1, by omega, by omega⟩

theorem scansAs_number {s : Text} {v : Json F} (h : NumberText s v) : ScansAs hook s (.value v) := by
  intro n r hn hr
  obtain ⟨hall, c, cs, rfl, hc⟩ := h.solid
  obtain ⟨n, rfl, -⟩ := exists_call hn
  have hscan := h.scan hr
  rw [List.cons_append] at hscan ⊢
  rw [scanValueWith_number hook hc, hscan]
  rcases h.isNumber with ⟨k, rfl⟩ | ⟨x, rfl⟩ <;> rfl

theorem scansAs_str {e q : Text} (h : StringBody e q) : ScansAs hook (34 :: (e ++ [34])) (.value (.str q)) := by
  intro n r hn hr
  obtain ⟨n, rfl, -⟩ := exists_call hn
  have hscan : scanString (e ++ 34 :: r) = some (q, r) := scanString_iff.mpr ⟨e, rfl, h⟩
  rw [List.cons_append, List.append_assoc, List.singleton_append, scanValueWith, if_pos (by decide), hscan]
  rfl

theorem scansAs_emptyArr {w : Text} (hw : Spaces w) : ScansAs hook (91 :: (w ++ [93])) (.value (.arr [])) := by
  intro n r hn hr
  obtain ⟨n, rfl, -⟩ := exists_call hn
  rw [List.cons_append, List.append_assoc, List.singleton_append, scanValueWith, if_neg (by decide), if_neg (by decide),
    if_pos (by decide), hw.skip_cons (by decide)]
  rfl

theorem scansAs_arr {w s : Text} {vs : List (Json F)} (hw : Spaces w) (hbegins : Begins s)
    (hitems : ScansAs hook s (.items vs)) : ScansAs hook (91 :: (w ++ s)) (.value (.arr vs)) := by
  intro n r hn hr
  obtain ⟨n, rfl, hlength⟩ := exists_call hn
  rw [List.length_append] at hlength
  obtain ⟨c, cs, rfl, hc, h93, -⟩ := hbegins
  have hscan := hitems n r (by omega)
  rw [List.cons_append] at hscan
  rw [List.cons_append, List.append_assoc, scanValueWith, if_neg (by decide), if_neg (by decide), if_pos (by decide),
    List.cons_append, hw.skip_cons hc]
  dsimp only
  rw [if_neg h93, hscan, hooked]
  cases hookedItems hook vs <;> rfl

theorem scansAs_last {s w : Text} {v : Json F} (hvalue : ScansAs hook s (.value v)) (hw : Spaces w) :
    ScansAs hook (s ++ (w ++ [93])) (.items [v]) := by
  intro n r hn
  simp only [List.length_append, List.length_singleton] at hn
  obtain ⟨n, rfl, hlength⟩ := exists_call (m := s.length + w.length) (n := n) (by omega)
  have hscan := hvalue n (w ++ 93 :: r) (by omega) (hw.loose (.inr (.inr (.inl rfl))))
  rw [List.append_assoc, List.append_assoc, List.singleton_append, scanItemsWith, hscan, hookedItems]
  cases hooked hook v with
  | error e => rfl
  | ok v =>
    dsimp only [called, Except.mapError, Except.map]
    rw [hw.skip_cons (by decide)]
    rfl

theorem scansAs_item {s w w' s' : Text} {v : Json F} {vs : List (Json F)} (hvalue : ScansAs hook s (.value v))
    (hw : Spaces w) (hw' : Spaces w') (hbegins : Begins s') (hitems : ScansAs hook s' (.items vs)) :
    ScansAs hook (s ++ (w ++ 44 :: (w' ++ s'))) (.items (v :: vs)) := by
  intro n r hn
  simp only [List.length_append, List.length_cons] at hn
  obtain ⟨n, rfl, hlength⟩ := exists_call (m := s.length + w.length + w'.length + s'.length) (n := n) (by omega)
  have hassoc : s ++ (w ++ 44 :: (w' ++ s')) ++ r = s ++ (w ++ 44 :: (w' ++ (s' ++ r))) := by simp
  have hscan := hvalue n (w ++ 44 :: (w' ++ (s' ++ r))) (by omega) (hw.loose (.inr (.inl rfl)))
  have hscan' := hitems n r (by omega)
  rw [hassoc, scanItemsWith, hscan, hookedItems]
  cases hooked hook v with
  | error e => rfl
  | ok v =>
    dsimp only [called, Except.mapError, Except.map]
    rw [hw.skip_cons (by decide)]
    dsimp only
    rw [if_neg (by decide), if_pos (by decide), hw'.skip (hbegins.append r).head, hscan']
    cases hookedItems hook vs <;> rfl

theorem scansAs_emptyObj {w : Text} (hw : Spaces w) : ScansAs hook (123 :: (w ++ [125])) (.value (.obj [])) := by
  intro n r hn hr
  obtain ⟨n, rfl, -⟩ := exists_call hn
  rw [List.cons_append, List.append_assoc, List.singleton_append, scanValueWith, if_neg (by decide), if_pos (by decide),
    hw.skip_cons (by decide)]
  rfl

theorem scansAs_obj {w s : Text} {ms : List (Text × Json F)} (hw : Spaces w) (hmembers : ScansAs hook s (.members ms)) :
    ScansAs hook (123 :: (w ++ 34 :: s)) (.value (.obj ms)) := by
  intro n r hn hr
  obtain ⟨n, rfl, hlength⟩ := exists_call hn
  rw [List.length_append, List.length_cons] at hlength
  have hscan := hmembers n r (by omega)
  rw [List.cons_append, List.append_assoc, List.cons_append, scanValueWith, if_neg (by decide), if_pos (by decide),
    hw.skip_cons (by decide)]
  dsimp only
  rw [if_neg (by decide), if_pos (by decide), hscan, hooked]
  cases hookedMembers hook ms <;> rfl

/-- What is read behind the value of a member. -/
def membersBehind (n : ℕ) (key : Text) (v : Json F) (r : Text) :
    Except (LoadError ε) (List (Text × Json F) × Text) :=
  match skipSpace r with
  | [] => .error .decode
  | d :: ds =>
      if d.val = 125 then .ok ([(key, v)], ds)
      else if d.val = 44 then
        match skipSpace ds with
        | [] => .error .decode
        | e :: es =>
            if e.val = 34 then (scanMembersWith hook n es).map fun p => ((key, v) :: p.1, p.2)
            else .error .decode
      else .error .decode

/-- A name and its colon are read, then the value, then what is behind it. -/
theorem scanMembersWith_named {e key w w' t : Text} (hkey : StringBody e key) (hw : Spaces w) (hw' : Spaces w')
    (ht : ∀ c ∈ t.head?, isJsonSpace c = false) (n : ℕ) :
    scanMembersWith hook (n + 1) (e ++ 34 :: (w ++ 58 :: (w' ++ t))) =
      match scanValueWith hook n t with
      | .error x => .error x
      | .ok (v, r) => membersBehind hook n key v r := by
  have hscan : scanString (e ++ 34 :: (w ++ 58 :: (w' ++ t))) = some (key, w ++ 58 :: (w' ++ t)) :=
    scanString_iff.mpr ⟨e, rfl, hkey⟩
  rw [scanMembersWith, hscan]
  dsimp only
  rw [hw.skip_cons (by decide)]
  dsimp only
  rw [if_neg (by decide), hw'.skip ht]
  rfl

theorem scansAs_lastMember {e key w w' s w'' : Text} {v : Json F} (hkey : StringBody e key) (hw : Spaces w)
    (hw' : Spaces w') (hbegins : Begins s) (hvalue : ScansAs hook s (.value v)) (hw'' : Spaces w'') :
    ScansAs hook (e ++ 34 :: (w ++ 58 :: (w' ++ (s ++ (w'' ++ [125]))))) (.members [(key, v)]) := by
  intro n r hn
  simp only [List.length_append, List.length_cons, List.length_nil] at hn
  obtain ⟨n, rfl, hlength⟩ := exists_call (m := s.length) (n := n) (by omega)
  have hassoc : e ++ 34 :: (w ++ 58 :: (w' ++ (s ++ (w'' ++ [125])))) ++ r =
      e ++ 34 :: (w ++ 58 :: (w' ++ (s ++ (w'' ++ 125 :: r)))) := by simp
  have hscan := hvalue n (w'' ++ 125 :: r) (by omega) (hw''.loose (.inr (.inr (.inr rfl))))
  rw [hassoc, scanMembersWith_named hook hkey hw hw' (hbegins.append _).head, hscan, hookedMembers]
  cases hooked hook v with
  | error x => rfl
  | ok v =>
    dsimp only [called, Except.mapError, Except.map]
    rw [membersBehind, hw''.skip_cons (by decide)]
    rfl

theorem scansAs_member {e key w w' s w'' u s' : Text} {v : Json F} {ms : List (Text × Json F)}
    (hkey : StringBody e key) (hw : Spaces w) (hw' : Spaces w') (hbegins : Begins s)
    (hvalue : ScansAs hook s (.value v)) (hw'' : Spaces w'') (hu : Spaces u) (hmembers : ScansAs hook s' (.members ms)) :
    ScansAs hook (e ++ 34 :: (w ++ 58 :: (w' ++ (s ++ (w'' ++ 44 :: (u ++ 34 :: s')))))) (.members ((key, v) :: ms)) := by
  intro n r hn
  simp only [List.length_append, List.length_cons] at hn
  obtain ⟨n, rfl, hlength⟩ := exists_call (m := s.length + s'.length) (n := n) (by omega)
  have hassoc : e ++ 34 :: (w ++ 58 :: (w' ++ (s ++ (w'' ++ 44 :: (u ++ 34 :: s'))))) ++ r =
      e ++ 34 :: (w ++ 58 :: (w' ++ (s ++ (w'' ++ 44 :: (u ++ 34 :: (s' ++ r)))))) := by simp
  have hscan := hvalue n (w'' ++ 44 :: (u ++ 34 :: (s' ++ r))) (by omega) (hw''.loose (.inr (.inl rfl)))
  have hscan' := hmembers n r (by omega)
  rw [hassoc, scanMembersWith_named hook hkey hw hw' (hbegins.append _).head, hscan, hookedMembers]
  cases hooked hook v with
  | error x => rfl
  | ok v =>
    dsimp only [called, Except.mapError, Except.map]
    rw [membersBehind, hw''.skip_cons (by decide)]
    dsimp only
    rw [if_neg (by decide), if_pos (by decide), hu.skip_cons (by decide)]
    dsimp only
    rw [if_pos (by decide), hscan']
    cases hookedMembers hook ms <;> rfl

/-- The text of a part is scanned to its end, and the hook has its say. -/
theorem Reads.scan {s : Text} {part : Part F} (h : Reads s part) : ScansAs hook s part := by
  induction h with
  | wordNull | wordTrue | wordFalse =>
    intro n r hn hr
    obtain ⟨n, rfl, -⟩ := exists_call hn
    rfl
  | number h => exact scansAs_number hook h
  | str h => exact scansAs_str hook h
  | emptyArr hw => exact scansAs_emptyArr hook hw
  | arr hw h ih => exact scansAs_arr hook hw h.shape.1 ih
  | last h hw ih => exact scansAs_last hook ih hw
  | item h hw hw' h' ih ih' => exact scansAs_item hook ih hw hw' h'.shape.1 ih'
  | emptyObj hw => exact scansAs_emptyObj hook hw
  | obj hw h ih => exact scansAs_obj hook hw ih
  | lastMember hkey hw hw' h hw'' ih => exact scansAs_lastMember hook hkey hw hw' h.shape.1 ih hw''
  | member hkey hw hw' h hw'' hu h' ih ih' => exact scansAs_member hook hkey hw hw' h.shape.1 ih hw'' hu ih'

end Hooked

/-! ### Nothing else is read -/

section Sound

variable {hook : List (Text × Json F) → Except ε (Json F)}

theorem decoded_eq_ok {α : Type} {read : Option α} {a : α} : (decoded read : Except (LoadError ε) α) = .ok a ↔ read = some a := by
  cases read <;> simp [decoded]

theorem called_eq_ok {α : Type} {result : Except ε α} {a : α} : called result = .ok a ↔ result = .ok a := by
  cases result <;> simp [called, Except.mapError]

/-- The white space in front of what comes next. -/
theorem skipSpace_eq_cons {t r : Text} {c : PyChar} (h : skipSpace t = c :: r) : ∃ w, Spaces w ∧ t = w ++ c :: r := by
  obtain ⟨w, hw, ht⟩ := spaces_skipped t
  rw [h] at ht
  exact ⟨w, hw, ht⟩

/-- What is scanned behind a brace: no members, or the members of an object, with what the hook makes of them. -/
theorem scanValueWith_brace {n : ℕ} {cs r : Text} {v : Json F}
    (h : scanValueWith hook (n + 1) (123 :: cs) = .ok (v, r)) :
    ∃ w, Spaces w ∧
      (cs = w ++ 125 :: r ∧ hook [] = .ok v ∨
        ∃ u ms, cs = w ++ 34 :: u ∧ scanMembersWith hook n u = .ok (ms, r) ∧ hook ms = .ok v) := by
  rw [scanValueWith, if_neg (by decide), if_pos (by decide)] at h
  cases hskip : skipSpace cs with
  | nil =>
    rw [hskip] at h
    cases h
  | cons d ds =>
    rw [hskip] at h
    dsimp only at h
    obtain ⟨w, hw, rfl⟩ := skipSpace_eq_cons hskip
    refine ⟨w, hw, ?_⟩
    split_ifs at h with h125 hquote
    · obtain rfl : d = 125 := Fin.ext h125
      obtain ⟨v', hhook, heq⟩ := map_eq_ok_iff.mp h
      cases heq
      exact .inl ⟨rfl, called_eq_ok.mp hhook⟩
    · obtain rfl : d = 34 := Fin.ext hquote
      cases hmembers : scanMembersWith hook n ds with
      | error e =>
        rw [hmembers] at h
        cases h
      | ok p =>
        obtain ⟨ms, r'⟩ := p
        rw [hmembers] at h
        obtain ⟨v', hhook, heq⟩ := map_eq_ok_iff.mp h
        cases heq
        exact .inr ⟨ds, ms, rfl, hmembers, called_eq_ok.mp hhook⟩

/-- What is scanned behind a bracket: no items, or the items of an array. -/
theorem scanValueWith_bracket {n : ℕ} {cs r : Text} {v : Json F}
    (h : scanValueWith hook (n + 1) (91 :: cs) = .ok (v, r)) :
    ∃ w, Spaces w ∧
      (cs = w ++ 93 :: r ∧ v = .arr [] ∨
        ∃ u vs, cs = w ++ u ∧ scanItemsWith hook n u = .ok (vs, r) ∧ v = .arr vs) := by
  rw [scanValueWith, if_neg (by decide), if_neg (by decide), if_pos (by decide)] at h
  cases hskip : skipSpace cs with
  | nil =>
    rw [hskip] at h
    cases h
  | cons d ds =>
    rw [hskip] at h
    dsimp only at h
    obtain ⟨w, hw, rfl⟩ := skipSpace_eq_cons hskip
    refine ⟨w, hw, ?_⟩
    split_ifs at h with h93
    · obtain rfl : d = 93 := Fin.ext h93
      cases h
      exact .inl ⟨rfl, rfl⟩
    · obtain ⟨⟨vs, r'⟩, hitems, heq⟩ := map_eq_ok_iff.mp h
      cases heq
      exact .inr ⟨d :: ds, vs, rfl, hitems, rfl⟩

/-- What is scanned elsewhere is a string, a word or a number, which the hook does not see. -/
theorem scanValueWith_leaf {n : ℕ} {c : PyChar} {cs r : Text} {v : Json F} (h123 : c.val ≠ 123) (h91 : c.val ≠ 91)
    (h : scanValueWith hook (n + 1) (c :: cs) = .ok (v, r)) :
    ∃ s, c :: cs = s ++ r ∧ Reads s (.value v) ∧ hooked hook v = .ok v := by
  rw [scanValueWith, if_neg h123, if_neg h91] at h
  split_ifs at h with h34
  · obtain rfl : c = 34 := Fin.ext h34
    obtain ⟨⟨q, r'⟩, hscan, heq⟩ := map_eq_ok_iff.mp h
    cases heq
    obtain ⟨e, rfl, hbody⟩ := scanString_iff.mp (decoded_eq_ok.mp hscan)
    exact ⟨34 :: (e ++ [34]), by simp, .str hbody, rfl⟩
  cases hnull : dropWord (lit "null") (c :: cs) with
  | some r' =>
    rw [hnull] at h
    cases h
    exact ⟨_, dropWord_eq_some.mp hnull, .wordNull, rfl⟩
  | none =>
    rw [hnull] at h
    dsimp only at h
    cases htrue : dropWord (lit "true") (c :: cs) with
    | some r' =>
      rw [htrue] at h
      cases h
      exact ⟨_, dropWord_eq_some.mp htrue, .wordTrue, rfl⟩
    | none =>
      rw [htrue] at h
      dsimp only at h
      cases hfalse : dropWord (lit "false") (c :: cs) with
      | some r' =>
        rw [hfalse] at h
        cases h
        exact ⟨_, dropWord_eq_some.mp hfalse, .wordFalse, rfl⟩
      | none =>
        rw [hfalse] at h
        obtain ⟨s, hsplit, hnumber⟩ := numberText_of_scan (decoded_eq_ok.mp h)
        refine ⟨s, hsplit, .number hnumber, ?_⟩
        rcases hnumber.isNumber with ⟨k, rfl⟩ | ⟨x, rfl⟩ <;> rfl

/-- What is scanned as items: a value, and the bracket or a comma and the items behind it. -/
theorem scanItemsWith_cases {n : ℕ} {t r : Text} {vs : List (Json F)}
    (h : scanItemsWith hook (n + 1) t = .ok (vs, r)) :
    ∃ v r', scanValueWith hook n t = .ok (v, r') ∧ ∃ w, Spaces w ∧
      (r' = w ++ 93 :: r ∧ vs = [v] ∨
        ∃ w' u vs', Spaces w' ∧ r' = w ++ 44 :: (w' ++ u) ∧ scanItemsWith hook n u = .ok (vs', r) ∧ vs = v :: vs') := by
  rw [scanItemsWith] at h
  cases hvalue : scanValueWith hook n t with
  | error e =>
    rw [hvalue] at h
    cases h
  | ok p =>
    obtain ⟨v, r'⟩ := p
    rw [hvalue] at h
    dsimp only at h
    cases hskip : skipSpace r' with
    | nil =>
      rw [hskip] at h
      cases h
    | cons d ds =>
      rw [hskip] at h
      dsimp only at h
      obtain ⟨w, hw, rfl⟩ := skipSpace_eq_cons hskip
      refine ⟨v, _, rfl, w, hw, ?_⟩
      split_ifs at h with h93 h44
      · obtain rfl : d = 93 := Fin.ext h93
        cases h
        exact .inl ⟨rfl, rfl⟩
      · obtain rfl : d = 44 := Fin.ext h44
        obtain ⟨⟨vs', r''⟩, hitems, heq⟩ := map_eq_ok_iff.mp h
        cases heq
        obtain ⟨w', hw', hds⟩ := spaces_skipped ds
        exact .inr ⟨w', skipSpace ds, vs', hw', congrArg (w ++ 44 :: ·) hds, hitems, rfl⟩

/-- What is scanned behind the value of a member: the brace, or a comma and the members behind it. -/
theorem membersBehind_cases {n : ℕ} {key r r' : Text} {v : Json F} {ms : List (Text × Json F)}
    (h : membersBehind hook n key v r' = .ok (ms, r)) :
    ∃ w, Spaces w ∧
      (r' = w ++ 125 :: r ∧ ms = [(key, v)] ∨
        ∃ u s ms', Spaces u ∧ r' = w ++ 44 :: (u ++ 34 :: s) ∧ scanMembersWith hook n s = .ok (ms', r) ∧
          ms = (key, v) :: ms') := by
  rw [membersBehind] at h
  cases hskip : skipSpace r' with
  | nil =>
    rw [hskip] at h
    cases h
  | cons d ds =>
    rw [hskip] at h
    dsimp only at h
    obtain ⟨w, hw, rfl⟩ := skipSpace_eq_cons hskip
    refine ⟨w, hw, ?_⟩
    split_ifs at h with h125 h44
    · obtain rfl : d = 125 := Fin.ext h125
      cases h
      exact .inl ⟨rfl, rfl⟩
    · obtain rfl : d = 44 := Fin.ext h44
      cases hskip' : skipSpace ds with
      | nil =>
        rw [hskip'] at h
        cases h
      | cons x xs =>
        rw [hskip'] at h
        dsimp only at h
        obtain ⟨u, hu, rfl⟩ := skipSpace_eq_cons hskip'
        split_ifs at h with hquote
        obtain rfl : x = 34 := Fin.ext hquote
        obtain ⟨⟨ms', r''⟩, hmembers, heq⟩ := map_eq_ok_iff.mp h
        cases heq
        exact .inr ⟨u, xs, ms', hu, rfl, hmembers, rfl⟩

/-- What is scanned as members: a name, a colon, a value, and what is behind it. -/
theorem scanMembersWith_cases {n : ℕ} {t r : Text} {ms : List (Text × Json F)}
    (h : scanMembersWith hook (n + 1) t = .ok (ms, r)) :
    ∃ e key w w' u v r', StringBody e key ∧ Spaces w ∧ Spaces w' ∧ t = e ++ 34 :: (w ++ 58 :: (w' ++ u)) ∧
      scanValueWith hook n u = .ok (v, r') ∧ membersBehind hook n key v r' = .ok (ms, r) := by
  rw [scanMembersWith] at h
  cases hscan : scanString t with
  | none =>
    rw [hscan] at h
    cases h
  | some p =>
    obtain ⟨key, r₁⟩ := p
    rw [hscan] at h
    dsimp only at h
    obtain ⟨e, rfl, hkey⟩ := scanString_iff.mp hscan
    cases hskip : skipSpace r₁ with
    | nil =>
      rw [hskip] at h
      cases h
    | cons c cs =>
      rw [hskip] at h
      dsimp only at h
      obtain ⟨w, hw, rfl⟩ := skipSpace_eq_cons hskip
      by_cases h58 : c.val = 58
      case neg =>
        rw [if_pos h58] at h
        cases h
      rw [if_neg (not_not_intro h58)] at h
      obtain rfl : c = 58 := Fin.ext h58
      obtain ⟨w', hw', hcs⟩ := spaces_skipped cs
      cases hvalue : scanValueWith hook n (skipSpace cs) with
      | error e =>
        rw [hvalue] at h
        cases h
      | ok p =>
        obtain ⟨v, r'⟩ := p
        rw [hvalue] at h
        exact ⟨e, key, w, w', skipSpace cs, v, r', hkey, hw, hw', congrArg (fun u => e ++ 34 :: (w ++ 58 :: u)) hcs,
          hvalue, h⟩

variable (hook) in
/-- Within `n` calls, what is scanned as a part of a text is the text of one. -/
structure ScansSound (n : ℕ) : Prop where
  /-- A value. -/
  value : ∀ t v r, scanValueWith hook n t = .ok (v, r) →
    ∃ s raw, t = s ++ r ∧ Reads s (.value raw) ∧ hooked hook raw = .ok v
  /-- The items of an array. -/
  items : ∀ t vs r, scanItemsWith hook n t = .ok (vs, r) →
    ∃ s raws, t = s ++ r ∧ Reads s (.items raws) ∧ hookedItems hook raws = .ok vs
  /-- The members of an object. -/
  members : ∀ t ms r, scanMembersWith hook n t = .ok (ms, r) →
    ∃ s raws, t = s ++ r ∧ Reads s (.members raws) ∧ hookedMembers hook raws = .ok ms

theorem ScansSound.value_succ {n : ℕ} (hsound : ScansSound hook n) (t : Text) (v : Json F) (r : Text)
    (h : scanValueWith hook (n + 1) t = .ok (v, r)) :
    ∃ s raw, t = s ++ r ∧ Reads s (.value raw) ∧ hooked hook raw = .ok v := by
  cases t with
  | nil =>
    rw [scanValueWith] at h
    cases h
  | cons c cs =>
    by_cases h123 : c.val = 123
    case pos =>
      obtain rfl : c = 123 := Fin.ext h123
      obtain ⟨w, hw, ⟨rfl, hhook⟩ | ⟨u, ms, rfl, hmembers, hhook⟩⟩ := scanValueWith_brace h
      · exact ⟨123 :: (w ++ [125]), .obj [], by simp, .emptyObj hw, hhook⟩
      · obtain ⟨s, raws, rfl, hreads, hraws⟩ := hsound.members u ms r hmembers
        refine ⟨123 :: (w ++ 34 :: s), .obj raws, by simp, .obj hw hreads, ?_⟩
        rw [hooked, hraws]
        exact hhook
    by_cases h91 : c.val = 91
    case pos =>
      obtain rfl : c = 91 := Fin.ext h91
      obtain ⟨w, hw, ⟨rfl, rfl⟩ | ⟨u, vs, rfl, hitems, rfl⟩⟩ := scanValueWith_bracket h
      · exact ⟨91 :: (w ++ [93]), .arr [], by simp, .emptyArr hw, rfl⟩
      · obtain ⟨s, raws, rfl, hreads, hraws⟩ := hsound.items u vs r hitems
        refine ⟨91 :: (w ++ s), .arr raws, by simp, .arr hw hreads, ?_⟩
        rw [hooked, hraws]
        rfl
    obtain ⟨s, hsplit, hreads, hv⟩ := scanValueWith_leaf h123 h91 h
    exact ⟨s, v, hsplit, hreads, hv⟩

theorem ScansSound.items_succ {n : ℕ} (hsound : ScansSound hook n) (t : Text) (vs : List (Json F)) (r : Text)
    (h : scanItemsWith hook (n + 1) t = .ok (vs, r)) :
    ∃ s raws, t = s ++ r ∧ Reads s (.items raws) ∧ hookedItems hook raws = .ok vs := by
  obtain ⟨v, r', hvalue, w, hw, hbehind⟩ := scanItemsWith_cases h
  obtain ⟨s, raw, rfl, hreads, hraw⟩ := hsound.value t v r' hvalue
  rcases hbehind with ⟨rfl, rfl⟩ | ⟨w', u, vs', hw', rfl, hitems, rfl⟩
  · refine ⟨s ++ (w ++ [93]), [raw], by simp, .last hreads hw, ?_⟩
    rw [hookedItems, hraw]
    rfl
  · obtain ⟨s', raws, rfl, hreads', hraws⟩ := hsound.items u vs' r hitems
    refine ⟨s ++ (w ++ 44 :: (w' ++ s')), raw :: raws, by simp, .item hreads hw hw' hreads', ?_⟩
    rw [hookedItems, hraw]
    dsimp only
    rw [hraws]
    rfl

theorem ScansSound.members_succ {n : ℕ} (hsound : ScansSound hook n) (t : Text) (ms : List (Text × Json F)) (r : Text)
    (h : scanMembersWith hook (n + 1) t = .ok (ms, r)) :
    ∃ s raws, t = s ++ r ∧ Reads s (.members raws) ∧ hookedMembers hook raws = .ok ms := by
  obtain ⟨e, key, w, w', u, v, r', hkey, hw, hw', rfl, hvalue, hbehind⟩ := scanMembersWith_cases h
  obtain ⟨s, raw, rfl, hreads, hraw⟩ := hsound.value u v r' hvalue
  obtain ⟨w'', hw'', ⟨rfl, rfl⟩ | ⟨x, u', ms', hx, rfl, hmembers, rfl⟩⟩ := membersBehind_cases hbehind
  · refine ⟨_, [(key, raw)], ?_, .lastMember hkey hw hw' hreads hw'', ?_⟩
    · simp
    · rw [hookedMembers, hraw]
      rfl
  · obtain ⟨s', raws, rfl, hreads', hraws⟩ := hsound.members u' ms' r hmembers
    refine ⟨_, (key, raw) :: raws, ?_, .member hkey hw hw' hreads hw'' hx hreads', ?_⟩
    · simp
    · rw [hookedMembers, hraw]
      dsimp only
      rw [hraws]
      rfl

/-- What is scanned as a part of a text is the text of one. -/
theorem reads_of_scan (n : ℕ) : ScansSound hook n := by
  induction n with
  | zero =>
    refine ⟨fun t v r h => ?_, fun t vs r h => ?_, fun t ms r h => ?_⟩
    · rw [scanValueWith] at h
      cases h
    · rw [scanItemsWith] at h
      cases h
    · rw [scanMembersWith] at h
      cases h
  | succ n hsound => exact ⟨hsound.value_succ, hsound.items_succ, hsound.members_succ⟩

/-! ### Whole texts -/

/-- `json.loads` with a hook accepts the JSON texts whose objects the hook accepts, and gives what it makes of them. -/
theorem loadsWith_ok_iff {t : Text} {v : Json F} :
    loadsWith hook t = .ok v ↔ ∃ raw, JsonText t raw ∧ hooked hook raw = .ok v := by
  rw [loadsWith]
  constructor
  · intro h
    split_ifs at h
    cases hscan : scanValueWith hook (2 * t.length + 2) (skipSpace t) with
    | error e =>
      rw [hscan] at h
      cases h
    | ok p =>
      obtain ⟨v', r⟩ := p
      rw [hscan] at h
      dsimp only at h
      split_ifs at h with hrest
      cases h
      obtain ⟨s, raw, hsplit, hreads, hraw⟩ := (reads_of_scan _).value _ _ _ hscan
      obtain ⟨w, hw, ht⟩ := spaces_skipped t
      rw [hsplit] at ht
      exact ⟨raw, ⟨w, s, r, hw, spaces_of_skip hrest, ht, hreads⟩, hraw⟩
  · rintro ⟨raw, ⟨w, s, w', hw, hw', rfl, hreads⟩, hraw⟩
    have hbegins := hreads.shape.1
    have hmark : ¬ (w ++ (s ++ w')).head? = some 0xFEFF := by
      intro hhead
      cases w with
      | nil =>
        obtain ⟨c, cs, rfl, -, -, hc⟩ := hbegins
        cases hhead
        exact absurd hc (by decide)
      | cons c w =>
        cases hhead
        exact absurd (hw _ List.mem_cons_self) (by decide)
    have hloose : Loose w' := by
      have hstops := stops_append hw' stops_nil
      rw [List.append_nil] at hstops
      exact hstops.loose
    have hscan := hreads.scan hook (2 * (w ++ (s ++ w')).length + 2) w' (by simp only [List.length_append]; omega) hloose
    rw [hraw] at hscan
    rw [if_neg hmark, hw.skip (hbegins.append w').head, hscan]
    simp only [called, Except.mapError, Except.map]
    rw [if_pos hw'.skip_all]

/-- The hook that leaves every object as it is. -/
def rawHook (members : List (Text × Json F)) : Except ε (Json F) := .ok (.obj members)

omit [PyFloat F] in
theorem hooked_raw (v : Json F) : hooked (rawHook (ε := ε)) v = .ok v := by
  induction v using inductOn with
  | null => rw [hooked]
  | bool b => rw [hooked]
  | int n => rw [hooked]
  | num x => rw [hooked]
  | str t => rw [hooked]
  | arr items ih =>
    have hitems : hookedItems (rawHook (ε := ε)) items = .ok items := by
      induction items with
      | nil => rw [hookedItems]
      | cons v vs ihs =>
        rw [hookedItems, ih v List.mem_cons_self]
        dsimp only
        rw [ihs fun w hw => ih w (List.mem_cons_of_mem v hw)]
        rfl
    rw [hooked, hitems]
    rfl
  | obj fields ih =>
    have hmembers : hookedMembers (rawHook (ε := ε)) fields = .ok fields := by
      induction fields with
      | nil => rw [hookedMembers]
      | cons f fs ihs =>
        rw [hookedMembers, ih f List.mem_cons_self]
        dsimp only
        rw [ihs fun g hg => ih g (List.mem_cons_of_mem f hg)]
        rfl
    rw [hooked, hmembers]
    rfl

/-- A text is a JSON text for one value. -/
theorem JsonText.unique {t : Text} {v v' : Json F} (h : JsonText t v) (h' : JsonText t v') : v = v' := by
  have hload {v : Json F} (h : JsonText t v) : loadsWith (rawHook (ε := Empty)) t = .ok v :=
    loadsWith_ok_iff.mpr ⟨v, h, hooked_raw v⟩
  have heq := (hload h).symm.trans (hload h')
  exact Except.ok.inj heq

/-- `json.loads` without a hook. -/
theorem loads_iff {t : Text} {v : Json F} :
    loads t = some v ↔ ∃ raw, JsonText t raw ∧ hooked (dictHook (ε := Empty)) raw = .ok v := by
  rw [loads_eq_with Empty, ← loadsWith_ok_iff]
  cases loadsWith (F := F) (dictHook (ε := Empty)) t <;> simp [Except.toOption]

end Sound

/-! ### Texts within texts -/

section Texts

/-- Control characters in a JSON text are white space. -/
theorem JsonText.noControl {t : Text} {v : Json F} (h : JsonText t v) : NoControl t := by
  obtain ⟨w, s, w', hw, hw', rfl, hreads⟩ := h
  exact hw.noControl.append (hreads.shape.2.2.append hw'.noControl)

theorem Spaces.blank {w : Text} (hw : Spaces w) : isBlank w = true :=
  isBlank_iff.mpr fun c hc => isSpace_of_isJsonSpace (hw c hc)

/-- A value begins with a character that is not white space. -/
theorem Reads.begins_solid {s : Text} {v : Json F} (h : Reads s (.value v)) : ∃ c cs, s = c :: cs ∧ isSpace c = false := by
  obtain ⟨⟨c, cs, rfl, hspace, -, h128⟩, -, hcontrol⟩ := h.shape
  have h32 : 32 ≤ c.val := by
    rcases hcontrol c List.mem_cons_self with hjson | h32
    · rw [hspace] at hjson
      cases hjson
    · exact h32
  have hne : c.val ≠ 32 := by
    intro h
    simp [isJsonSpace, h] at hspace
  refine ⟨c, cs, rfl, ?_⟩
  rw [isSpace]
  simp only [Bool.or_eq_false_iff, Bool.and_eq_false_iff, decide_eq_false_iff_not, beq_eq_false_iff_ne]
  omega

theorem Reads.strip_eq {s : Text} {v : Json F} (h : Reads s (.value v)) : strip s = s := by
  obtain ⟨c, cs, rfl, hc⟩ := h.begins_solid
  obtain ⟨ds, d, heq, hd⟩ := h.shape.2.1
  refine strip_eq_self (List.cons_ne_nil c cs) hc ?_
  simp only [heq, List.getLast_append_singleton]
  exact hd

/-- Stripping a JSON text leaves its value. -/
theorem JsonText.strip_reads {t : Text} {v : Json F} (h : JsonText t v) : Reads (strip t) (.value v) := by
  obtain ⟨w, s, w', hw, hw', rfl, hreads⟩ := h
  rw [strip_append hw.blank hw'.blank, hreads.strip_eq]
  exact hreads

theorem Reads.jsonText {s : Text} {v : Json F} (h : Reads s (.value v)) : JsonText s v :=
  ⟨[], s, [], by simp [Spaces], by simp [Spaces], by simp, h⟩

theorem loads_strip {t : Text} {v : Json F} (h : loads t = some v) : loads (strip t) = some v := by
  obtain ⟨raw, htext, hraw⟩ := loads_iff.mp h
  exact loads_iff.mpr ⟨raw, htext.strip_reads.jsonText, hraw⟩

/-- A JSON text goes on with white space only, where what goes on does not continue a number. -/
theorem JsonText.extend {t r : Text} {v v' : Json F} (h : JsonText t v) (h' : JsonText (t ++ r) v') (hr : Loose r) :
    Spaces r := by
  obtain ⟨w, s, w', hw, hw', rfl, hreads⟩ := h
  have hload : loadsWith (rawHook (ε := Empty)) (w ++ (s ++ w') ++ r) = .ok v' :=
    loadsWith_ok_iff.mpr ⟨v', h', hooked_raw v'⟩
  have hassoc : w ++ (s ++ w') ++ r = w ++ (s ++ (w' ++ r)) := by simp
  have hloose : Loose (w' ++ r) := by
    cases w' with
    | nil => exact hr
    | cons c w' => exact (stops_cons (.inl (hw' c List.mem_cons_self))).loose
  have hscan := hreads.scan (rawHook (ε := Empty)) (2 * (w ++ (s ++ w') ++ r).length + 2) (w' ++ r)
    (by simp only [List.length_append]; omega) hloose
  rw [hooked_raw] at hscan
  rw [loadsWith] at hload
  split_ifs at hload
  rw [hassoc, hw.skip (hreads.shape.1.append (w' ++ r)).head, ← hassoc, hscan] at hload
  simp only [called, Except.mapError, Except.map] at hload
  split_ifs at hload with hrest
  exact fun c hc => spaces_of_skip hrest c (List.mem_append_right w' hc)

/-- The text of an object is one without members, or the text of its members. -/
theorem Reads.obj_cases {s : Text} {ms : List (Text × Json F)} (h : Reads s (.value (.obj ms))) :
    (∃ w, Spaces w ∧ s = 123 :: (w ++ [125]) ∧ ms = []) ∨
      ∃ w S, Spaces w ∧ s = 123 :: (w ++ 34 :: S) ∧ Reads S (.members ms) := by
  generalize hpart : Part.value (Json.obj ms) = part at h
  cases h with
  | emptyObj hw =>
    cases hpart
    exact .inl ⟨_, hw, rfl, rfl⟩
  | obj hw h =>
    cases hpart
    exact .inr ⟨_, _, hw, rfl, h⟩
  | number h => rcases h.isNumber with ⟨k, rfl⟩ | ⟨x, rfl⟩ <;> cases hpart
  | _ => cases hpart

/-- It begins with a brace. -/
theorem Reads.obj_begins {s : Text} {ms : List (Text × Json F)} (h : Reads s (.value (.obj ms))) : ∃ u, s = 123 :: u := by
  rcases h.obj_cases with ⟨w, -, rfl, -⟩ | ⟨w, S, -, rfl, -⟩ <;> exact ⟨_, rfl⟩

omit [PyFloat F] in
/-- A value the hook makes an object of is an object, where it makes objects of objects only. -/
theorem hooked_obj {hook : List (Text × Json F) → Except ε (Json F)} {raw : Json F} {fields : List (Text × Json F)}
    (h : hooked hook raw = .ok (.obj fields)) :
    ∃ ms ms', raw = .obj ms ∧ hookedMembers hook ms = .ok ms' ∧ hook ms' = .ok (.obj fields) := by
  cases raw with
  | obj ms =>
    rw [hooked] at h
    cases hms : hookedMembers hook ms with
    | error e =>
      rw [hms] at h
      cases h
    | ok ms' =>
      rw [hms] at h
      exact ⟨ms, ms', rfl, hms, h⟩
  | arr items =>
    rw [hooked] at h
    obtain ⟨vs, -, hvs⟩ := map_eq_ok_iff.mp h
    cases hvs
  | _ =>
    rw [hooked] at h
    cases h

end Texts

end Json

end TenantRag

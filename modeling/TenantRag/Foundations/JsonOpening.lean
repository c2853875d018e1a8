import TenantRag.Foundations.JsonMembers

/-!
# Texts that open a string of an object

A text that goes up to the opening quote of a string, the value of a member of an object, such as a
model is given to continue. What continues it to a JSON text is the rest of a string, its quote, and
the rest of the object.

## What is proved

* `stringBody_iff_loads` — what is written for a text between quotes is what `json.loads` reads as it.
* `OpensMembers.close` — a value and a brace behind the colon make it an object.
* `opensMembers_of_reads` — what is in front of the last value of an object opens it.
* `OpensObject.continue_begins` — how every continuation to a JSON text begins.
* `opensObject_of_jsonText` — a text is opened up to the quote where `"}` makes it an object with an empty last value.
* `loads_cut` — what is written for an object is read only when all of it is there.
-/

namespace TenantRag

namespace Json

variable {F : Type} [PyFloat F]

/-! ### Where a part ends -/

theorem spaces_unique {w w' r r' : Text} (hw : Spaces w) (hw' : Spaces w') (hr : ∀ c ∈ r.head?, isJsonSpace c = false)
    (hr' : ∀ c ∈ r'.head?, isJsonSpace c = false) (h : w ++ r = w' ++ r') : r = r' := by
  have hskip := hw.skip hr
  rw [h, hw'.skip hr'] at hskip
  exact hskip.symm

/-- White space behind a character that is none ends no text that ends with such a character. -/
theorem spaces_behind {t w r : Text} {c d : PyChar} (hw : Spaces w) (hc : isJsonSpace c = false)
    (h : t ++ [c] = r ++ d :: w) : w = [] ∧ t = r ∧ c = d := by
  rcases List.eq_nil_or_concat w with rfl | ⟨w', x, rfl⟩
  · obtain ⟨ht, hcd⟩ := List.append_inj' h rfl
    exact ⟨rfl, ht, (List.cons.inj hcd).1⟩
  · rw [List.concat_eq_append, ← List.cons_append, ← List.append_assoc] at h
    obtain ⟨-, hcx⟩ := List.append_inj' h rfl
    obtain rfl := (List.cons.inj hcx).1
    have hspace := hw c (by simp)
    rw [hc] at hspace
    cases hspace

/-- Where a value ends is settled by its text. -/
theorem Reads.unique {s s' r r' : Text} {v v' : Json F} (h : Reads s (.value v)) (h' : Reads s' (.value v'))
    (hr : Loose r) (hr' : Loose r') (heq : s ++ r = s' ++ r') : r = r' := by
  have hscan := h.scan (rawHook (ε := Empty)) (s.length + s'.length) r (by omega) hr
  have hscan' := h'.scan (rawHook (ε := Empty)) (s.length + s'.length) r' (by omega) hr'
  rw [heq, hscan', hooked_raw, hooked_raw] at hscan
  simp only [called, Except.mapError, Except.map, Except.ok.injEq, Prod.mk.injEq] at hscan
  exact hscan.2.symm

/-- A text between quotes has no quote that ends another one. -/
theorem StringBody.no_quote {e q e' q' : Text} (h : StringBody e q) (h' : StringBody e' q') (r : Text) :
    e ≠ e' ++ 34 :: r := by
  intro heq
  have hends : e ++ 34 :: [] = e' ++ 34 :: (r ++ [34]) := by rw [heq]; simp
  obtain ⟨-, -, hnil⟩ := h.unique h' hends
  exact absurd hnil (by simp)

/-- The text of a string is quoted. -/
theorem Reads.str_quoted {s q : Text} (h : Reads (F := F) s (.value (.str q))) : ∃ e, s = 34 :: (e ++ [34]) ∧ StringBody e q := by
  generalize hpart : Part.value (Json.str q) = part at h
  cases h with
  | str hbody =>
    cases hpart
    exact ⟨_, rfl, hbody⟩
  | number h => rcases h.isNumber with ⟨k, rfl⟩ | ⟨x, rfl⟩ <;> cases hpart
  | _ => cases hpart

/-- What is written for a text between quotes is what `json.loads` reads as it. -/
theorem stringBody_iff_loads {e q : Text} : StringBody e q ↔ loads (34 :: (e ++ [34])) = some (.str q : Json F) := by
  rw [loads_iff]
  constructor
  · intro h
    exact ⟨.str q, (Reads.str h).jsonText, by rw [hooked]⟩
  · rintro ⟨raw, htext, hraw⟩
    obtain rfl := hooked_eq_str (fun ms t h => by cases h) hraw
    obtain ⟨w, s, w', hw, hw', heq, hreads⟩ := htext
    obtain ⟨e', rfl, hbody⟩ := hreads.str_quoted
    cases w with
    | nil =>
      have hquotes : (e : Text) ++ [34] = e' ++ 34 :: w' := by simpa using heq
      obtain ⟨-, rfl, -⟩ := spaces_behind hw' (by decide) hquotes
      exact hbody
    | cons c w =>
      obtain rfl := (List.cons.inj heq).1
      exact absurd (hw 34 List.mem_cons_self) (by decide)

/-- A value that begins with a quote is a string. -/
theorem Reads.quote_begins {u : Text} {v : Json F} (h : Reads (34 :: u) (.value v)) : ∃ e q, u = e ++ [34] ∧ StringBody e q := by
  generalize htext : (34 : PyChar) :: u = s at h
  generalize hpart : Part.value v = part at h
  cases h with
  | str hbody => exact ⟨_, _, (List.cons.inj htext).2, hbody⟩
  | number h =>
    obtain ⟨-, c, cs, rfl, hc⟩ := h.solid
    obtain rfl := (List.cons.inj htext).1
    exact absurd hc (by decide)
  | wordNull | wordTrue | wordFalse => exact absurd (List.cons.inj htext).1 (by decide)
  | emptyArr | arr | emptyObj | obj => exact absurd (List.cons.inj htext).1 (by decide)
  | _ => cases hpart

/-- A value that begins with a brace is an object: its brace is closed, or a member begins. -/
theorem Reads.brace_begins {u : Text} {v : Json F} (h : Reads (123 :: u) (.value v)) :
    (∃ w, Spaces w ∧ u = w ++ [125]) ∨ ∃ w s ms, Spaces w ∧ u = w ++ 34 :: s ∧ Reads (F := F) s (.members ms) := by
  generalize htext : (123 : PyChar) :: u = s at h
  generalize hpart : Part.value v = part at h
  cases h with
  | emptyObj hw => exact .inl ⟨_, hw, (List.cons.inj htext).2⟩
  | obj hw h => exact .inr ⟨_, _, _, hw, (List.cons.inj htext).2, h⟩
  | number h =>
    obtain ⟨-, c, cs, rfl, hc⟩ := h.solid
    obtain rfl := (List.cons.inj htext).1
    exact absurd hc (by decide)
  | wordNull | wordTrue | wordFalse => exact absurd (List.cons.inj htext).1 (by decide)
  | emptyArr | arr | str => exact absurd (List.cons.inj htext).1 (by decide)
  | _ => cases hpart

/-- How the members of an object begin: a name, a colon, a value, and a brace or a comma and the members behind it. -/
theorem Reads.members_begin {S : Text} {ms : List (Text × Json F)} (h : Reads S (.members ms)) :
    ∃ e key w w' s v w'' d rest, StringBody e key ∧ Spaces w ∧ Spaces w' ∧ Reads s (.value v) ∧ Spaces w'' ∧
      S = e ++ 34 :: (w ++ 58 :: (w' ++ (s ++ (w'' ++ d :: rest)))) ∧
      (d = 125 ∧ rest = [] ∧ ms = [(key, v)] ∨
        d = 44 ∧ ∃ u S' ms', Spaces u ∧ rest = u ++ 34 :: S' ∧ Reads S' (.members ms') ∧ ms = (key, v) :: ms') := by
  generalize hpart : Part.members ms = part at h
  cases h with
  | lastMember hkey hw hw' h hw'' =>
    cases hpart
    exact ⟨_, _, _, _, _, _, _, 125, [], hkey, hw, hw', h, hw'', rfl, .inl ⟨rfl, rfl, rfl⟩⟩
  | member hkey hw hw' h hw'' hu h' =>
    cases hpart
    exact ⟨_, _, _, _, _, _, _, 44, _, hkey, hw, hw', h, hw'', rfl, .inr ⟨rfl, _, _, _, hu, rfl, h', rfl⟩⟩
  | _ => cases hpart

/-! ### Up to a value -/

/-- `OpensMembers y ms key`: `y` goes from behind the quote of the first name over the members `ms` and the
name `key` up to where its value begins. -/
inductive OpensMembers : Text → List (Text × Json F) → Text → Prop where
  /-- The name and its colon. -/
  | last {e key w w' : Text} : StringBody e key → Spaces w → Spaces w' → OpensMembers (e ++ 34 :: (w ++ 58 :: w')) [] key
  /-- A member in front. -/
  | member {e name w w' s w'' u y key : Text} {v : Json F} {ms : List (Text × Json F)} : StringBody e name →
      Spaces w → Spaces w' → Reads s (.value v) → Spaces w'' → Spaces u → OpensMembers y ms key →
      OpensMembers (e ++ 34 :: (w ++ 58 :: (w' ++ (s ++ (w'' ++ 44 :: (u ++ 34 :: y)))))) ((name, v) :: ms) key

/-- A value and a brace close the object. -/
theorem OpensMembers.close {y key s w : Text} {v : Json F} {ms : List (Text × Json F)} (h : OpensMembers y ms key)
    (hs : Reads s (.value v)) (hw : Spaces w) : Reads (y ++ (s ++ (w ++ [125]))) (.members (ms ++ [(key, v)])) := by
  induction h with
  | last hkey hw₁ hw₂ =>
    have hreads := Reads.lastMember hkey hw₁ hw₂ hs hw
    simpa using hreads
  | member hname hw₁ hw₂ hvalue hw₃ hu h ih =>
    have hreads := Reads.member hname hw₁ hw₂ hvalue hw₃ hu ih
    simpa using hreads

/-- What is in front of the last value of an object opens it. -/
theorem opensMembers_of_reads {ms : List (Text × Json F)} {S key : Text} {v : Json F}
    (h : Reads S (.members (ms ++ [(key, v)]))) :
    ∃ y s w, OpensMembers y ms key ∧ Reads s (.value v) ∧ Spaces w ∧ S = y ++ (s ++ (w ++ [125])) := by
  induction ms generalizing S with
  | nil =>
    obtain ⟨e, name, w, w', s, v', w'', d, rest, hname, hw, hw', hs, hw'', rfl, hcase⟩ := h.members_begin
    rcases hcase with ⟨rfl, rfl, heq⟩ | ⟨-, u, S', ms', -, -, h', heq⟩
    · cases heq
      exact ⟨_, s, w'', .last hname hw hw', hs, hw'', by simp⟩
    · rw [List.nil_append, List.cons.injEq] at heq
      obtain ⟨-, rfl⟩ := heq
      obtain ⟨_, _, _, _, _, _, _, _, _, -, -, -, -, -, -, hempty⟩ := h'.members_begin
      rcases hempty with ⟨-, -, heq⟩ | ⟨-, _, _, _, -, -, -, heq⟩ <;> cases heq
  | cons m ms ih =>
    obtain ⟨e, name, w, w', s, v', w'', d, rest, hname, hw, hw', hs, hw'', rfl, hcase⟩ := h.members_begin
    rcases hcase with ⟨-, -, heq⟩ | ⟨rfl, u, S', ms', hu, rfl, h', heq⟩
    · simp at heq
    · rw [List.cons_append, List.cons.injEq] at heq
      obtain ⟨rfl, rfl⟩ := heq
      obtain ⟨y, s', w₁, hopens, hs', hw₁, rfl⟩ := ih h'
      exact ⟨_, s', w₁, .member hname hw hw' hs hw'' hu hopens, hs', hw₁, by simp⟩

/-- How a string goes on that is open: the rest of it, its quote, and a brace or a comma. -/
def StringEnds (x : Text) : Prop :=
  ∃ e q w d r, x = e ++ 34 :: (w ++ d :: r) ∧ StringBody e q ∧ Spaces w ∧ (d = 125 ∨ d = 44)

theorem head_solid {r : Text} {c : PyChar} (hc : isJsonSpace c = false) : ∀ d ∈ (c :: r).head?, isJsonSpace d = false := by
  rintro d ⟨⟩
  exact hc

/-- Members that go on where a string is open. -/
theorem OpensMembers.continue_begins {y key x z S : Text} {ms ms' : List (Text × Json F)} (h : OpensMembers y ms key)
    (hS : Reads S (.members ms')) (heq : S ++ z = y ++ 34 :: x) : StringEnds x := by
  induction h generalizing S ms' with
  | @last e key w w' hkey hw hw' =>
    obtain ⟨e₁, name, w₁, w₁', s, v, w₂, d, rest, hname, hw₁, hw₁', hs, hw₂, rfl, hcase⟩ := hS.members_begin
    have hkeys : e₁ ++ 34 :: (w₁ ++ 58 :: (w₁' ++ (s ++ (w₂ ++ d :: (rest ++ z))))) =
        e ++ 34 :: (w ++ 58 :: (w' ++ 34 :: x)) := by simpa using heq
    obtain ⟨-, -, hcolons⟩ := hname.unique hkey hkeys
    have hvalues := (List.cons.inj (spaces_unique hw₁ hw (head_solid (by decide)) (head_solid (by decide)) hcolons)).2
    have hstring := spaces_unique hw₁' hw' (hs.shape.1.append _).head (head_solid (by decide)) hvalues
    obtain ⟨c, cs, rfl, -⟩ := hs.shape.1
    obtain ⟨rfl, hrest⟩ := List.cons.inj hstring
    obtain ⟨e', q, rfl, hbody⟩ := hs.quote_begins
    have hd : d = 125 ∨ d = 44 := hcase.elim (fun h => .inl h.1) fun h => .inr h.1
    exact ⟨e', q, w₂, d, rest ++ z, by rw [← hrest]; simp, hbody, hw₂, hd⟩
  | @member e name w w' s w'' u y key v ms hname hw hw' hs hw'' hu h ih =>
    obtain ⟨e₁, name₁, w₁, w₁', s₁, v₁, w₂, d, rest, hname₁, hw₁, hw₁', hs₁, hw₂, rfl, hcase⟩ := hS.members_begin
    have hkeys : e₁ ++ 34 :: (w₁ ++ 58 :: (w₁' ++ (s₁ ++ (w₂ ++ d :: (rest ++ z))))) =
        e ++ 34 :: (w ++ 58 :: (w' ++ (s ++ (w'' ++ 44 :: (u ++ 34 :: (y ++ 34 :: x)))))) := by simpa using heq
    obtain ⟨-, -, hcolons⟩ := hname₁.unique hname hkeys
    have hvalues := (List.cons.inj (spaces_unique hw₁ hw (head_solid (by decide)) (head_solid (by decide)) hcolons)).2
    have hsame := spaces_unique hw₁' hw' (hs₁.shape.1.append _).head (hs.shape.1.append _).head hvalues
    have hd : isJsonSpace d = true ∨ d.val = 44 ∨ d.val = 93 ∨ d.val = 125 := by
      rcases hcase with ⟨rfl, -⟩ | ⟨rfl, -⟩
      · exact .inr (.inr (.inr rfl))
      · exact .inr (.inl rfl)
    have hbehind := hs₁.unique hs (hw₂.loose hd) (hw''.loose (.inr (.inl rfl))) hsame
    have hdsolid : isJsonSpace d = false := by
      rcases hcase with ⟨rfl, -⟩ | ⟨rfl, -⟩ <;> decide
    obtain ⟨rfl, hrest⟩ := List.cons.inj (spaces_unique hw₂ hw'' (head_solid hdsolid) (head_solid (by decide)) hbehind)
    rcases hcase with ⟨h125, -⟩ | ⟨-, u₁, S', ms₁, hu₁, rfl, hS', -⟩
    · exact absurd h125 (by decide)
    · rw [List.append_assoc] at hrest
      have hmembers := (List.cons.inj (spaces_unique hu₁ hu (head_solid (by decide)) (head_solid (by decide)) hrest)).2
      exact ih hS' hmembers

/-! ### Up to the quote of a string -/

/-- `OpensObject p ms key`: `p` goes over the members `ms` of an object and the name `key` up to the quote of its value. -/
def OpensObject (p : Text) (ms : List (Text × Json F)) (key : Text) : Prop :=
  ∃ w w' y, Spaces w ∧ Spaces w' ∧ OpensMembers y ms key ∧ p = w ++ 123 :: (w' ++ 34 :: (y ++ [34]))

/-- The rest of the string, its quote and a brace close the object. -/
theorem OpensObject.close {p key e q w w' : Text} {ms : List (Text × Json F)} (h : OpensObject p ms key)
    (he : StringBody e q) (hw : Spaces w) (hw' : Spaces w') :
    JsonText (p ++ (e ++ 34 :: (w ++ 125 :: w'))) (.obj (ms ++ [(key, .str q)])) := by
  obtain ⟨w₁, w₂, y, hw₁, hw₂, hopens, rfl⟩ := h
  have hreads := Reads.obj hw₂ (hopens.close (Reads.str he) hw)
  exact ⟨w₁, _, w', hw₁, hw', by simp, hreads⟩

/-- How every continuation to a JSON text begins. -/
theorem OpensObject.continue_begins {p key x : Text} {ms : List (Text × Json F)} {v : Json F} (h : OpensObject p ms key)
    (hx : JsonText (p ++ x) v) : StringEnds x := by
  obtain ⟨w₁, w₂, y, hw₁, hw₂, hopens, rfl⟩ := h
  obtain ⟨w, s, w', hw, -, heq, hs⟩ := hx
  have hassoc : w₁ ++ 123 :: (w₂ ++ 34 :: (y ++ [34])) ++ x = w₁ ++ 123 :: (w₂ ++ 34 :: (y ++ 34 :: x)) := by simp
  rw [hassoc] at heq
  have hvalue := spaces_unique hw hw₁ (hs.shape.1.append w').head (head_solid (by decide)) heq.symm
  obtain ⟨c, cs, rfl, -⟩ := hs.shape.1
  obtain rfl := (List.cons.inj hvalue).1
  rcases hs.brace_begins with ⟨w₃, hw₃, rfl⟩ | ⟨w₃, S, ms', hw₃, rfl, hS⟩
  · have hrest : w₃ ++ 125 :: w' = w₂ ++ 34 :: (y ++ 34 :: x) := by simpa using hvalue
    have hbrace := spaces_unique hw₃ hw₂ (head_solid (by decide)) (head_solid (by decide)) hrest
    exact absurd (List.cons.inj hbrace).1 (by decide)
  · have hrest : w₃ ++ 34 :: (S ++ w') = w₂ ++ 34 :: (y ++ 34 :: x) := by simpa using hvalue
    have hmembers := (List.cons.inj (spaces_unique hw₃ hw₂ (head_solid (by decide)) (head_solid (by decide)) hrest)).2
    exact hopens.continue_begins hS hmembers

/-- A text opens a string where a quote and a brace make it an object whose last value is the empty string. -/
theorem opensObject_of_jsonText {p key : Text} {ms : List (Text × Json F)}
    (h : JsonText (p ++ [34, 125]) (.obj (ms ++ [(key, .str [])]))) : OpensObject p ms key := by
  obtain ⟨w, s, w', hw, hw', heq, hs⟩ := h
  rcases hs.obj_cases with ⟨-, -, -, hempty⟩ | ⟨w₁, S, hw₁, rfl, hS⟩
  · simp at hempty
  · obtain ⟨y, s', w₂, hopens, hs', hw₂, rfl⟩ := opensMembers_of_reads hS
    obtain ⟨e, rfl, hbody⟩ := hs'.str_quoted
    cases hbody
    have hbrace : (p ++ [34]) ++ [125] = (w ++ 123 :: (w₁ ++ 34 :: (y ++ 34 :: 34 :: w₂))) ++ 125 :: w' := by
      simpa using heq
    obtain ⟨rfl, hquote, -⟩ := spaces_behind hw' (by decide) hbrace
    have hquote : p ++ [34] = (w ++ 123 :: (w₁ ++ 34 :: (y ++ [34]))) ++ 34 :: w₂ := by simpa using hquote
    obtain ⟨rfl, hp, -⟩ := spaces_behind hw₂ (by decide) hquote
    exact ⟨w, w₁, y, hw, hw₁, hopens, hp⟩

/-! ### Objects cut short -/

/-- Where an object ends is settled by its text, whatever is behind it. -/
theorem Reads.brace_unique {u u' r r' : Text} {v v' : Json F} (h : Reads (123 :: u) (.value v))
    (h' : Reads (123 :: u') (.value v')) (heq : u ++ r = u' ++ r') : r = r' := by
  have hbrace : ∀ t : Text, ∀ c ∈ (125 :: t).head?, isJsonSpace c = false := fun t => head_solid (by decide)
  have hquote : ∀ t : Text, ∀ c ∈ (34 :: t).head?, isJsonSpace c = false := fun t => head_solid (by decide)
  rcases h.brace_begins with ⟨w, hw, rfl⟩ | ⟨w, S, ms, hw, rfl, hS⟩ <;>
    rcases h'.brace_begins with ⟨w', hw', rfl⟩ | ⟨w', S', ms', hw', rfl, hS'⟩
  · have hends : 125 :: r = 125 :: r' := spaces_unique hw hw' (hbrace r) (hbrace r') (by simpa using heq)
    exact (List.cons.inj hends).2
  · have hends : 125 :: r = 34 :: (S' ++ r') := spaces_unique hw hw' (hbrace r) (hquote _) (by simpa using heq)
    exact absurd (List.cons.inj hends).1 (by decide)
  · have hends : 34 :: (S ++ r) = 125 :: r' := spaces_unique hw hw' (hquote _) (hbrace r') (by simpa using heq)
    exact absurd (List.cons.inj hends).1 (by decide)
  · have hends : 34 :: (S ++ r) = 34 :: (S' ++ r') := spaces_unique hw hw' (hquote _) (hquote _) (by simpa using heq)
    have hscan := hS.scan (rawHook (ε := Empty)) (S.length + S'.length) r (by omega)
    have hscan' := hS'.scan (rawHook (ε := Empty)) (S.length + S'.length) r' (by omega)
    have htotal : ∀ ms : List (Text × Json F), ∃ ms', hookedMembers (rawHook (ε := Empty)) ms = .ok ms' := by
      intro ms
      have hraw := hooked_raw (ε := Empty) (Json.obj ms)
      rw [hooked] at hraw
      cases hms : hookedMembers (rawHook (ε := Empty)) ms with
      | error e => exact e.elim
      | ok ms' => exact ⟨ms', rfl⟩
    obtain ⟨os, hos⟩ := htotal ms
    obtain ⟨os', hos'⟩ := htotal ms'
    rw [(List.cons.inj hends).2, hscan', hos, hos'] at hscan
    simp only [called, Except.mapError, Except.map, Except.ok.injEq, Prod.mk.injEq] at hscan
    exact hscan.2.symm

/-- What is written for an object is read only when all of it is there. -/
theorem loads_cut {fields : List (Text × Json F)} (h : Plain (.obj fields)) {p r : Text} {v : Json F}
    (hcut : p ++ r = dumps (.obj fields)) (hv : loads p = some v) : r = [] := by
  obtain ⟨raw, ⟨w, s, w', hw, hw', hp, hs⟩, -⟩ := loads_iff.mp hv
  obtain ⟨raw', ⟨w₁, s₁, w₁', hw₁, hw₁', hp₁, hs₁⟩, -⟩ := loads_iff.mp (loads_dumps h)
  obtain ⟨c, cs, rfl, hc⟩ := hs.begins_solid
  obtain ⟨c₁, cs₁, rfl, hc₁⟩ := hs₁.begins_solid
  have hsolid {c : PyChar} (hc : isSpace c = false) : isJsonSpace c = false := by
    cases hj : isJsonSpace c with
    | false => rfl
    | true => rw [isSpace_of_isJsonSpace hj] at hc; cases hc
  have htext : dumps (.obj fields) = 123 :: (join [44] (dumpsFields fields) ++ [125]) := by rw [dumps]
  -- both texts begin with the brace
  have hbegin : 123 :: (join [44] (dumpsFields fields) ++ [125]) = c :: (cs ++ (w' ++ r)) :=
    spaces_unique (w := []) (by simp [Spaces]) hw (head_solid (by decide)) (head_solid (hsolid hc))
      (by rw [List.nil_append, ← htext, ← hcut, hp]; simp)
  have hbegin₁ : 123 :: (join [44] (dumpsFields fields) ++ [125]) = c₁ :: (cs₁ ++ w₁') :=
    spaces_unique (w := []) (by simp [Spaces]) hw₁ (head_solid (by decide)) (head_solid (hsolid hc₁))
      (by rw [List.nil_append, ← htext, hp₁]; simp)
  obtain ⟨rfl, hcs⟩ := List.cons.inj hbegin
  obtain ⟨rfl, hcs₁⟩ := List.cons.inj hbegin₁
  -- the whole text ends with its brace
  have hrest := hs.brace_unique hs₁ (hcs.symm.trans hcs₁)
  have hnil : w₁' = [] := by
    rcases List.eq_nil_or_concat w₁' with rfl | ⟨w₂, x, rfl⟩
    · rfl
    · rw [List.concat_eq_append, ← List.append_assoc] at hcs₁
      obtain ⟨-, hx⟩ := List.append_inj' hcs₁ rfl
      have hspace := hw₁' x (by simp)
      rw [← (List.cons.inj hx).1] at hspace
      exact absurd hspace (by decide)
  rw [hnil] at hrest
  exact (List.append_eq_nil_iff.mp hrest).2

end Json

end TenantRag

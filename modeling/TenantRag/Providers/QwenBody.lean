import TenantRag.Foundations.JsonLines
import TenantRag.Providers.QwenStream

/-!
# The body of a Qwen answer stream

`_stream_response` in `backend/providers/sglang_qwen_llm.py` on the body a server sends: a line
`data: ` with the JSON text of an event and a blank line for each event, and the terminator. The
lines are those of `str.splitlines`, which `aiter_lines` splits the body into.

A JSON text may have any character but the control characters in a string as it is, and
`str.splitlines` splits at U+0085, U+2028 and U+2029 as well. A line feed or a carriage return is not in
these texts, and the other boundaries are control characters. Texts that `json.loads` refuses for a limit of the
interpreter, an integer of more than 4300 digits or a nesting too deep for its stack, are left out.

## What is proved

* `sseLine_data` — what a data line is depends on the stripped text behind `data:`.
* `sseLine_text` — the line of a whole text is its event.
* `sseLine_cut` — the line of a text that is cut is malformed.
* `answersExactly_iff` — the answer is streamed exactly where no text has one of these three characters.
-/

namespace TenantRag

namespace Qwen

/-! ### The body -/

/-- The line of an event and the blank line behind it. -/
def eventLines (t : Text) : Text := lit "data: " ++ (t ++ [10, 10])

/-- The body: the events and the terminator. -/
def responseBody (ts : List Text) : Text := ts.flatMap eventLines ++ eventLines (lit "[DONE]")

/-- The attempt that receives this body. -/
def bodyAttempt (ts : List Text) : Attempt := ⟨splitlines (responseBody ts), none⟩

section Contract

variable (F : Type) [PyFloat F] (servedModel : Text)

/-- `t` is a JSON text of an event with this content and finish reason, without a line feed or a carriage return. -/
def EventText (t : Text) (e : Text × Option Text) : Prop :=
  (∃ v : Json F, Json.loads t = some v ∧ IsEvent servedModel v e.1 e.2) ∧ ∀ c ∈ t, c.val ≠ 10 ∧ c.val ≠ 13

/-- The texts of events that satisfy the contract of the stream: some content is not empty, and one event has
a finish reason, which is known. -/
structure StreamContract (ts : List Text) (es : List (Text × Option Text)) : Prop where
  /-- Each text is one of its event. -/
  texts : List.Forall₂ (EventText F servedModel) ts es
  /-- Some content is not empty. -/
  content : ∃ e ∈ es, e.1 ≠ []
  /-- One event has a finish reason. -/
  finish : ∃ reason ∈ finishReasons, es.filterMap Prod.snd = [reason]

/-- The generator yields the contents that are not empty, in order, and completes. -/
def AnswersExactly (ts : List Text) (es : List (Text × Option Text)) : Prop :=
  ∀ attempts : ℕ → Attempt, attempts 0 = bodyAttempt ts →
    (streamResponse F servedModel attempts).chunks = contents es ∧ (streamResponse F servedModel attempts).result = .ok ()

end Contract

/-! ### Lines -/

theorem lit_data_solid : ∀ c ∈ lit "data: ", isLineBreak c = false := by
  have hall : (lit "data: ").all (fun c => !isLineBreak c) = true := by decide
  intro c hc
  simpa using List.all_eq_true.mp hall c hc

/-- The lines of an event without a boundary are split off. -/
theorem splitlines_event {t : Text} (ht : ∀ c ∈ t, isLineBreak c = false) (rest : Text) :
    splitlines (eventLines t ++ rest) = (lit "data: " ++ t) :: [] :: splitlines rest := by
  have hline : ∀ c ∈ lit "data: " ++ t, isLineBreak c = false := List.forall_mem_append.mpr ⟨lit_data_solid, ht⟩
  have hassoc : eventLines t ++ rest = (lit "data: " ++ t) ++ 10 :: ([] ++ 10 :: rest) := by simp [eventLines]
  rw [hassoc, splitlines_line hline, splitlines_line (by simp)]

/-- So are those of all events. -/
theorem splitlines_body {ts : List Text} (hts : ∀ t ∈ ts, ∀ c ∈ t, isLineBreak c = false) :
    splitlines (responseBody ts) = ts.flatMap (fun t => [lit "data: " ++ t, []]) ++ [lit "data: [DONE]", []] := by
  induction ts with
  | nil =>
    have hdone : ∀ c ∈ lit "[DONE]", isLineBreak c = false := by
      have hall : (lit "[DONE]").all (fun c => !isLineBreak c) = true := by decide
      intro c hc
      simpa using List.all_eq_true.mp hall c hc
    have hlines := splitlines_event hdone []
    rw [List.append_nil] at hlines
    rw [responseBody, List.flatMap_nil, List.nil_append, hlines]
    rfl
  | cons t ts ih =>
    have hbody : responseBody (t :: ts) = eventLines t ++ responseBody ts := by simp [responseBody]
    rw [hbody, splitlines_event (hts t List.mem_cons_self), ih fun s hs => hts s (List.mem_cons_of_mem t hs)]
    rfl

/-! ### What a data line is -/

section DataLine

variable (F : Type) [PyFloat F] (servedModel : Text)

/-- A data line, stripped, still begins with its field name, and what is behind it is as good as before. -/
theorem strip_data (a : Text) : ∃ u, strip (lit "data: " ++ a) = lit "data:" ++ u ∧ strip u = strip a := by
  obtain ⟨x, y, hx, hy, ha⟩ := strip_split a
  have hnil : isBlank ([] : Text) = true := rfl
  have hspace : isBlank [32] = true := by decide
  by_cases hblank : strip a = []
  · refine ⟨[], ?_, by rw [hblank]; rfl⟩
    have hrest : isBlank (32 :: a) = true := by
      rw [isBlank_iff, List.forall_mem_cons]
      exact ⟨by decide, strip_eq_nil_iff.mp hblank⟩
    calc strip (lit "data: " ++ a) = strip ([] ++ (lit "data:" ++ 32 :: a)) := rfl
      _ = strip (lit "data:") := strip_append hnil hrest
      _ = lit "data:" ++ [] := by decide
  · obtain ⟨-, ds, d, hlast, hd⟩ := strip_ends hblank
    refine ⟨[32] ++ (x ++ strip a), ?_, ?_⟩
    · have hstripped : strip (lit "data:" ++ ([32] ++ (x ++ strip a))) = lit "data:" ++ ([32] ++ (x ++ strip a)) := by
        refine strip_eq_self (List.append_ne_nil_of_left_ne_nil (by decide) _) rfl ?_
        simp only [hlast, ← List.append_assoc, List.getLast_append_singleton]
        exact hd
      calc strip (lit "data: " ++ a) = strip (lit "data: " ++ (x ++ (strip a ++ y))) := by rw [← ha]
        _ = strip ([] ++ ((lit "data:" ++ ([32] ++ (x ++ strip a))) ++ y)) := by
          have hlit : lit "data: " = lit "data:" ++ [32] := rfl
          rw [hlit]
          simp only [List.append_assoc, List.nil_append]
        _ = strip (lit "data:" ++ ([32] ++ (x ++ strip a))) := strip_append hnil hy
        _ = lit "data:" ++ ([32] ++ (x ++ strip a)) := hstripped
    · calc strip ([32] ++ (x ++ strip a)) = strip ([32] ++ ((x ++ strip a) ++ [])) := by rw [List.append_nil]
        _ = strip (x ++ strip a) := strip_append hspace hnil
        _ = strip (x ++ (strip a ++ [])) := by rw [List.append_nil]
        _ = strip (strip a) := strip_append hx hnil
        _ = strip a := strip_strip a

/-- What a data line is depends on the stripped text behind the name of its field. -/
theorem sseLine_data (a : Text) :
    sseLine F servedModel (lit "data: " ++ a) =
      if strip a = lit "[DONE]" then .done
      else
        match (Json.loads (strip a) : Option (Json F)) with
        | none => .malformed
        | some event =>
            match streamEvent servedModel event with
            | .error _ => .malformed
            | .ok (content, finishReason) => .event content finishReason := by
  obtain ⟨u, hline, hu⟩ := strip_data a
  have hof := sseLine_of_strip F servedModel hline
  rw [hu] at hof
  exact hof

theorem sseLine_done : sseLine F servedModel (lit "data: [DONE]") = .done := by
  have hline := sseLine_data F servedModel (lit "[DONE]")
  rw [if_pos (by decide)] at hline
  exact hline

variable {F servedModel}

/-- The text of an event is one of an object. -/
theorem EventText.object {t : Text} {e : Text × Option Text} (h : EventText F servedModel t e) :
    ∃ ms : List (Text × Json F), Json.JsonText t (.obj ms) := by
  obtain ⟨⟨v, hloads, fields, -, -, rfl, -⟩, -⟩ := h
  obtain ⟨raw, htext, hraw⟩ := Json.loads_iff.mp hloads
  obtain ⟨ms, -, rfl, -, -⟩ := Json.hooked_obj hraw
  exact ⟨ms, htext⟩

/-- Without its white space it begins with a brace. -/
theorem EventText.brace {t : Text} {e : Text × Option Text} (h : EventText F servedModel t e) :
    ∃ w u, Json.Spaces w ∧ t = w ++ 123 :: u := by
  obtain ⟨ms, w, s, w', hw, -, rfl, hreads⟩ := h.object
  obtain ⟨u, rfl⟩ := hreads.obj_begins
  exact ⟨w, u ++ w', hw, rfl⟩

/-- The line of a whole text is its event. -/
theorem sseLine_text {t : Text} {e : Text × Option Text} (h : EventText F servedModel t e) :
    sseLine F servedModel (lit "data: " ++ t) = .event e.1 e.2 := by
  obtain ⟨ms, htext⟩ := h.object
  obtain ⟨u, hu⟩ := htext.strip_reads.obj_begins
  obtain ⟨⟨v, hloads, hevent⟩, -⟩ := h
  have hdone : strip t ≠ lit "[DONE]" := by
    rw [hu]
    intro heq
    exact absurd (List.cons.inj heq).1 (by decide)
  rw [sseLine_data, if_neg hdone, Json.loads_strip hloads]
  dsimp only
  rw [streamEvent_ok_iff.mpr hevent]

/-- What is left of a text of an event that is cut begins as the text does, if anything is left. -/
theorem EventText.cut_begins {x y a b : Text} {c : PyChar} {e : Text × Option Text}
    (h : EventText F servedModel (a ++ c :: b) e) (hx : isBlank x = true) (ha : a = x ++ (strip a ++ y))
    (hne : strip a ≠ []) : Json.Spaces x ∧ ∃ u, strip a = 123 :: u := by
  obtain ⟨w, u, hw, hbrace⟩ := h.brace
  obtain ⟨⟨d, ds, hhead, hd⟩, -⟩ := strip_ends hne
  have hsplit : a ++ c :: b = x ++ d :: (ds ++ (y ++ c :: b)) := by
    rw [← List.cons_append, ← hhead]
    calc a ++ c :: b = (x ++ (strip a ++ y)) ++ c :: b := by rw [← ha]
      _ = x ++ (strip a ++ (y ++ c :: b)) := by simp
  -- both white spaces end at the first character that is none
  have hdropLeft : (a ++ c :: b).dropWhile isSpace = d :: (ds ++ (y ++ c :: b)) := by
    rw [hsplit, List.dropWhile_append_of_pos (isBlank_iff.mp hx), List.dropWhile_cons_of_neg (by simp [hd])]
  have hdropRight : (a ++ c :: b).dropWhile isSpace = 123 :: u := by
    rw [hbrace, List.dropWhile_append_of_pos (isBlank_iff.mp hw.blank), List.dropWhile_cons_of_neg (by decide)]
  rw [hdropLeft] at hdropRight
  obtain rfl : d = 123 := (List.cons.inj hdropRight).1
  rw [hsplit, hdropRight] at hbrace
  exact ⟨List.append_cancel_right hbrace ▸ hw, ds, hhead⟩

/-- The line of a text that is cut at a boundary is malformed. -/
theorem sseLine_cut {a b : Text} {c : PyChar} {e : Text × Option Text} (h : EventText F servedModel (a ++ c :: b) e)
    (hc : isWideBreak c = true) : sseLine F servedModel (lit "data: " ++ a) = .malformed := by
  obtain ⟨x, y, hx, hy, ha⟩ := strip_split a
  have hbegins := h.cut_begins hx ha
  have hdone : strip a ≠ lit "[DONE]" := by
    intro heq
    obtain ⟨-, u, hu⟩ := hbegins (by rw [heq]; decide)
    rw [hu] at heq
    exact absurd (List.cons.inj heq).1 (by decide)
  rw [sseLine_data, if_neg hdone]
  cases hloads : (Json.loads (strip a) : Option (Json F)) with
  | none => rfl
  | some v =>
    -- what is left would be a JSON text, and the whole text goes on with more than white space
    obtain ⟨raw, htext, -⟩ := Json.loads_iff.mp hloads
    have hreads := htext.strip_reads
    rw [strip_strip] at hreads
    have hne : strip a ≠ [] := by
      obtain ⟨d, ds, hd, -⟩ := hreads.begins_solid
      rw [hd]
      exact List.cons_ne_nil d ds
    have hleft : Json.JsonText (x ++ strip a) raw :=
      ⟨x, strip a, [], (hbegins hne).1, by simp [Json.Spaces], by simp, hreads⟩
    obtain ⟨ms, hwhole⟩ := h.object
    have hsplit : a ++ c :: b = (x ++ strip a) ++ (y ++ c :: b) := by
      calc a ++ c :: b = (x ++ (strip a ++ y)) ++ c :: b := by rw [← ha]
        _ = (x ++ strip a) ++ (y ++ c :: b) := by simp
    rw [hsplit] at hwhole
    have hspaces := hleft.extend hwhole (Json.loose_of_space hy (Json.isWideBreak_space hc).1)
    have hjson := hspaces c (List.mem_append_right y List.mem_cons_self)
    rw [(Json.isWideBreak_space hc).2] at hjson
    cases hjson

end DataLine

/-! ### The answer -/

section Answer

variable {F : Type} [PyFloat F] {servedModel : Text}

variable (F servedModel) in
/-- An attempt that no error cuts is the one the generator ends in. -/
theorem follows_of_no_error (attempts : ℕ → Attempt) (h : (attempts 0).error = none) :
    Follows F servedModel (attempts 0) (streamResponse F servedModel attempts) := by
  rcases streamAttempts_cons F servedModel attempts 0 [1] with ⟨-, hends⟩ | ⟨-, ⟨e, herror, -⟩, -⟩
  · exact hends
  · rw [h] at herror
    cases herror

theorem EventText.isLineBreak_iff {t : Text} {e : Text × Option Text} (h : EventText F servedModel t e) {c : PyChar}
    (hc : c ∈ t) : isLineBreak c = isWideBreak c := by
  obtain ⟨ms, htext⟩ := h.object
  exact Json.isLineBreak_of_noControl htext.noControl h.2 hc

/-- The lines of texts that have none of the three characters are their events. -/
theorem sseLines_body {ts : List Text} {es : List (Text × Option Text)}
    (h : List.Forall₂ (EventText F servedModel) ts es) (hts : ∀ t ∈ ts, ∀ c ∈ t, isWideBreak c = false) :
    (bodyAttempt ts).sseLines F servedModel =
      es.flatMap (fun e => [.event e.1 e.2, .ignored]) ++ [.done, .ignored] := by
  have hbreaks : ∀ t ∈ ts, ∀ c ∈ t, isLineBreak c = false := by
    intro t ht c hc
    obtain ⟨e, -, he⟩ := forall₂_left h ht
    rw [he.isLineBreak_iff hc]
    exact hts t ht c hc
  rw [Attempt.sseLines, bodyAttempt, splitlines_body hbreaks]
  clear hbreaks hts
  induction h with
  | nil =>
    rw [List.flatMap_nil, List.nil_append, List.map_cons, sseLine_done]
    rfl
  | @cons t e ts es ht h ih =>
    rw [List.flatMap_cons, List.append_assoc, List.map_append, ih, List.map_cons, sseLine_text ht]
    rfl

/-- Where a text has one of them, a line is malformed. -/
theorem malformed_mem_body {ts : List Text} {es : List (Text × Option Text)}
    (h : List.Forall₂ (EventText F servedModel) ts es) (hts : ¬ ∀ t ∈ ts, ∀ c ∈ t, isWideBreak c = false) :
    .malformed ∈ (bodyAttempt ts).sseLines F servedModel := by
  induction h with
  | nil => exact absurd (by simp) hts
  | @cons t e ts es ht h ih =>
    have hbody : responseBody (t :: ts) = eventLines t ++ responseBody ts := by simp [responseBody]
    rw [Attempt.sseLines, bodyAttempt, hbody]
    by_cases hsolid : ∀ c ∈ t, isWideBreak c = false
    · have hbreaks : ∀ c ∈ t, isLineBreak c = false := fun c hc => by rw [ht.isLineBreak_iff hc, hsolid c hc]
      have hrest : ¬ ∀ t ∈ ts, ∀ c ∈ t, isWideBreak c = false :=
        fun hall => hts (List.forall_mem_cons.mpr ⟨hsolid, hall⟩)
      rw [splitlines_event hbreaks]
      exact List.mem_cons_of_mem _ (List.mem_cons_of_mem _ (ih hrest))
    · -- the first of them cuts the line
      obtain ⟨a, c, b, rfl, ha, hc⟩ := exists_first hsolid
      have hline : ∀ d ∈ lit "data: " ++ a, isLineBreak d = false := by
        refine List.forall_mem_append.mpr ⟨lit_data_solid, fun d hd => ?_⟩
        rw [ht.isLineBreak_iff (List.mem_append_left _ hd), ha d hd]
      have hcut : isLineBreak c = true := by
        rw [ht.isLineBreak_iff (List.mem_append_right _ List.mem_cons_self), hc]
      have hcr : c.val ≠ 13 := (ht.2 c (List.mem_append_right _ List.mem_cons_self)).2
      have hassoc : eventLines (a ++ c :: b) ++ responseBody ts =
          (lit "data: " ++ a) ++ c :: (b ++ 10 :: 10 :: responseBody ts) := by simp [eventLines]
      rw [hassoc, splitlines_cut hline hcut hcr, List.map_cons, sseLine_cut ht hc]
      exact List.mem_cons_self

/-- In complete lines nothing is malformed. -/
theorem CompleteLines.not_malformed {lines : List SseLine} (h : CompleteLines lines) : .malformed ∉ lines := by
  intro hmem
  have hsignificant : .malformed ∈ significant lines := List.mem_filter.mpr ⟨hmem, by simp⟩
  rw [h.shape] at hsignificant
  simp at hsignificant

theorem events_lines (es : List (Text × Option Text)) :
    events (es.flatMap (fun e => [.event e.1 e.2, .ignored]) ++ [.done, .ignored]) = es := by
  induction es with
  | nil => rfl
  | cons e es ih =>
    rw [List.flatMap_cons, List.append_assoc, List.cons_append, List.cons_append, List.nil_append, events_cons,
      events_cons, ih]
    rfl

theorem significant_lines (es : List (Text × Option Text)) :
    significant (es.flatMap (fun e => [.event e.1 e.2, .ignored]) ++ [.done, .ignored]) =
      es.map (fun e => .event e.1 e.2) ++ [.done] := by
  induction es with
  | nil => rfl
  | cons e es ih =>
    rw [List.flatMap_cons, List.append_assoc, List.cons_append, List.cons_append, List.nil_append,
      significant_cons (by simp), significant_ignored, ih]
    rfl

end Answer

section Exact

variable (F : Type) [PyFloat F] (servedModel : Text)

/-- A stream that satisfies the contract is answered exactly where no text has one of the characters U+0085, U+2028
and U+2029. -/
theorem answersExactly_iff {ts : List Text} {es : List (Text × Option Text)} (h : StreamContract F servedModel ts es) :
    AnswersExactly F servedModel ts es ↔ ∀ t ∈ ts, ∀ c ∈ t, c.val ≠ 133 ∧ c.val ≠ 8232 ∧ c.val ≠ 8233 := by
  have hwide : (∀ t ∈ ts, ∀ c ∈ t, c.val ≠ 133 ∧ c.val ≠ 8232 ∧ c.val ≠ 8233) ↔ ∀ t ∈ ts, ∀ c ∈ t, isWideBreak c = false := by
    refine forall₂_congr fun t _ => forall₂_congr fun c _ => ?_
    simp only [isWideBreak, Bool.or_eq_false_iff, beq_eq_false_iff_ne, and_assoc]
  rw [hwide]
  constructor
  · intro hanswers
    by_contra hbreak
    have hends := follows_of_no_error F servedModel (fun _ => bodyAttempt ts) rfl
    obtain ⟨-, hcomplete⟩ := hends.completes.mp (hanswers _ rfl).2
    exact hcomplete.not_malformed (malformed_mem_body h.texts hbreak)
  · intro hsolid attempts hfirst
    have hends := follows_of_no_error F servedModel attempts (by rw [hfirst]; rfl)
    have hlines := sseLines_body h.texts hsolid
    have hcomplete : CompleteLines ((bodyAttempt ts).sseLines F servedModel) := by
      rw [hlines]
      refine ⟨?_, ?_, ?_⟩
      · rw [significant_lines, events_lines]
      · rw [events_lines]
        exact h.content
      · rw [events_lines]
        exact h.finish
    have hok := hends.completes.mpr ⟨by rw [hfirst]; rfl, by rw [hfirst]; exact hcomplete⟩
    refine ⟨?_, hok⟩
    rw [hends.all hok, hfirst, hlines, events_lines]

end Exact

/-- A text of an event, by evaluation. -/
theorem eventText_of_eval {F : Type} [PyFloat F] {servedModel t : Text} {e : Text × Option Text}
    (h : ((Json.loads t : Option (Json F)).bind fun v => (streamEvent servedModel v).toOption) = some e)
    (hline : t.all (fun c => decide (c.val ≠ 10 ∧ c.val ≠ 13)) = true) : EventText F servedModel t e := by
  obtain ⟨v, hloads, hevent⟩ := Option.bind_eq_some_iff.mp h
  rw [toOption_eq_some_iff] at hevent
  exact ⟨⟨v, hloads, streamEvent_ok_iff.mp hevent⟩, by simpa using hline⟩

/-- An event whose content is this text, with a finish reason that is a text or `null`. -/
def eventSample (content finishReason : Text) : Text :=
  lit "\x7b\"model\":\"m\",\"choices\":[\x7b\"delta\":\x7b\"content\":\"" ++ content ++ lit "\"\x7d,\"finish_reason\":" ++
    finishReason ++ lit "\x7d]\x7d"

/-- An answer of a letter and a line separator that is escaped, in two events. -/
def answerSample : List Text :=
  [eventSample (lit "a") (lit "null"), eventSample (lit "\\u2028") (lit "\"stop\"")]

theorem streamContract_answerSample :
    StreamContract WholeFloat (lit "m") answerSample [(lit "a", none), ([8232], some (lit "stop"))] where
  texts := .cons (eventText_of_eval (by decide +kernel) (by decide +kernel))
    (.cons (eventText_of_eval (by decide +kernel) (by decide +kernel)) .nil)
  content := ⟨_, List.mem_cons_self, List.cons_ne_nil _ _⟩
  finish := ⟨lit "stop", List.mem_cons_self, rfl⟩

/-- It is streamed. -/
theorem answersExactly_escaped :
    StreamContract WholeFloat (lit "m") answerSample [(lit "a", none), ([8232], some (lit "stop"))] ∧
      AnswersExactly WholeFloat (lit "m") answerSample [(lit "a", none), ([8232], some (lit "stop"))] := by
  have hplain : (answerSample.all fun t => t.all fun c => decide (c.val ≠ 133 ∧ c.val ≠ 8232 ∧ c.val ≠ 8233)) = true := by
    decide +kernel
  exact ⟨streamContract_answerSample,
    (answersExactly_iff WholeFloat (lit "m") streamContract_answerSample).mpr (by simpa using hplain)⟩

/-- An answer of a line separator that is not. -/
def separatorSample : List Text := [eventSample [8232] (lit "\"stop\"")]

theorem streamContract_separatorSample :
    StreamContract WholeFloat (lit "m") separatorSample [([8232], some (lit "stop"))] where
  texts := .cons (eventText_of_eval (by decide +kernel) (by decide +kernel)) .nil
  content := ⟨_, List.mem_cons_self, List.cons_ne_nil _ _⟩
  finish := ⟨lit "stop", List.mem_cons_self, rfl⟩

/-- It satisfies the contract, and is not streamed. -/
theorem answersExactly_lineSeparator :
    StreamContract WholeFloat (lit "m") separatorSample [([8232], some (lit "stop"))] ∧
      ¬ AnswersExactly WholeFloat (lit "m") separatorSample [([8232], some (lit "stop"))] := by
  refine ⟨streamContract_separatorSample, fun hanswers => ?_⟩
  have hresult : (streamResponse WholeFloat (lit "m") fun _ => bodyAttempt separatorSample).result =
      .error (sglangQwenError "Qwen SGLang returned malformed SSE JSON") := by
    decide +kernel
  have hok := (hanswers (fun _ => bodyAttempt separatorSample) rfl).2
  rw [hresult] at hok
  cases hok

end Qwen

end TenantRag

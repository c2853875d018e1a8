import TenantRag.Api.Chat
import TenantRag.Foundations.JsonLines
import TenantRag.Foundations.JsonOpening

/-!
# The event stream

`_sse` in `backend/api/chat.py`, which writes an event of a query's response, and `iter_sse` in
`deployment/ragctl.py`, with which the clients of the repository read the lines of the response.

## The model

A client gets the lines of what it received as `str.splitlines` gives them. `iter_sse` is a
generator: it gives the events it read before it raised. A `data` field that is no JSON text raises, and
so do the lines where the connection fails.

## What is proved

* `received_frames` — the events that were written are read back, in their order.
* `received_cut` — where the connection is cut, at any character, what is read are the first of the
  events that were written, and of the last of these nothing but the end of its frame is missing.
* `received_whole` — all of them are read where no more than that is missing.
* `iterSse_broken` — where the connection fails behind some of the lines, that is what is raised.
-/

namespace TenantRag

namespace EventStream

open Json

variable {F : Type} [PyFloat F]

/-! ### The model -/

/-- `_sse(event, payload)`. -/
def sse (e : SseEvent F) : Text := lit "event: " ++ e.name ++ lit "\ndata: " ++ dumps e.payload ++ lit "\n\n"

/-- `json.JSONDecodeError`. -/
def jsonDecodeError : PyError := valueError "Expecting value"

/-- The event for the data lines so far, where there are any. -/
def dispatch (eventName : Text) (dataLines : List Text) : Except PyError (List (SseEvent F)) :=
  if dataLines.isEmpty then .ok []
  else
    match loads (join [10] dataLines) with
    | some payload => .ok [⟨eventName, payload⟩]
    | none => .error jsonDecodeError

/-- The field of a line and its value, less the one space behind the colon. -/
def fieldOf (line : Text) : Text × Text :=
  let parts := partition [58] line
  (parts.1, if parts.2.1 ≠ [] ∧ parts.2.2.head? = some 32 then parts.2.2.tail else parts.2.2)

/-- `iter_sse(lines)` from the given name and data lines on, where `lines` ends or raises `broken`: the events, and what it
raises behind them. -/
def iterSse (broken : Option PyError) : Text → List Text → List Text → List (SseEvent F) × Option PyError
  | eventName, dataLines, [] =>
      match broken with
      | some e => ([], some e)
      | none =>
          match dispatch eventName dataLines with
          | .ok events => (events, none)
          | .error e => ([], some e)
  | eventName, dataLines, line :: lines =>
      if line.isEmpty then
        match dispatch eventName dataLines with
        | .ok events =>
            let rest := iterSse broken (lit "message") [] lines
            (events ++ rest.1, rest.2)
        | .error e => ([], some e)
      else if line.head? = some 58 then iterSse broken eventName dataLines lines
      else if (fieldOf line).1 = lit "event" then iterSse broken (fieldOf line).2 dataLines lines
      else if (fieldOf line).1 = lit "data" then iterSse broken eventName (dataLines ++ [(fieldOf line).2]) lines
      else iterSse broken eventName dataLines lines

/-- `list(iter_sse(response.iter_lines()))`, for the text of the response that was received. -/
def received (body : Text) : List (SseEvent F) × Option PyError := iterSse none (lit "message") [] (splitlines body)

/-! ### One line -/

/-- An event whose name has no line boundary, and whose payload is an object that is read back. -/
structure Framed (e : SseEvent F) : Prop where
  /-- The name is in one line. -/
  name : ∀ c ∈ e.name, isLineBreak c = false
  /-- The payload is an object. -/
  payload : ∃ fields, e.payload = .obj fields ∧ Plain (.obj fields)

/-- A line of a field with its colon, a space and its value. -/
theorem fieldOf_append {field : Text} (h : (58 : PyChar) ∉ field) (value : Text) :
    fieldOf (field ++ 58 :: 32 :: value) = (field, value) := by
  rw [fieldOf, partition_append h]
  rfl

theorem iterSse_event (broken : Option PyError) (eventName name : Text) (dataLines lines : List Text) :
    iterSse (F := F) broken eventName dataLines ((lit "event: " ++ name) :: lines) = iterSse broken name dataLines lines := by
  have hcolon : (58 : PyChar) ∉ lit "event" := by decide
  have hfield : fieldOf (lit "event: " ++ name) = (lit "event", name) := fieldOf_append hcolon name
  rw [iterSse, hfield]
  rfl

theorem iterSse_data (broken : Option PyError) (eventName value : Text) (dataLines lines : List Text) :
    iterSse (F := F) broken eventName dataLines ((lit "data: " ++ value) :: lines) =
      iterSse broken eventName (dataLines ++ [value]) lines := by
  have hcolon : (58 : PyChar) ∉ lit "data" := by decide
  have hfield : fieldOf (lit "data: " ++ value) = (lit "data", value) := fieldOf_append hcolon value
  rw [iterSse, hfield]
  rfl

theorem iterSse_blank (broken : Option PyError) {eventName : Text} {dataLines : List Text} {events : List (SseEvent F)}
    (h : dispatch eventName dataLines = .ok events) (lines : List Text) :
    iterSse broken eventName dataLines ([] :: lines) =
      (events ++ (iterSse broken (lit "message") [] lines).1, (iterSse (F := F) broken (lit "message") [] lines).2) := by
  simp only [iterSse, List.isEmpty_nil, if_true, h]

theorem Framed.dispatch {e : SseEvent F} (h : Framed e) : dispatch e.name [dumps e.payload] = .ok [e] := by
  obtain ⟨fields, hobj, hplain⟩ := h.payload
  rw [EventStream.dispatch, if_neg (by simp), join_singleton, hobj, loads_dumps hplain, ← hobj]

theorem Framed.printable {e : SseEvent F} (h : Framed e) : Printable (dumps e.payload) := by
  obtain ⟨fields, hobj, hplain⟩ := h.payload
  rw [hobj]
  exact printable_dumps hplain

theorem Framed.line {e : SseEvent F} (h : Framed e) : ∀ c ∈ lit "event: " ++ e.name, isLineBreak c = false :=
  List.forall_mem_append.mpr ⟨(printable_lit (by decide)).line, h.name⟩

theorem Framed.dataLine {e : SseEvent F} (h : Framed e) : ∀ c ∈ lit "data: " ++ dumps e.payload, isLineBreak c = false :=
  List.forall_mem_append.mpr ⟨(printable_lit (by decide)).line, h.printable.line⟩

/-- A frame in its lines. -/
theorem sse_eq (e : SseEvent F) (t : Text) :
    sse e ++ t = (lit "event: " ++ e.name) ++ 10 :: ((lit "data: " ++ dumps e.payload) ++ 10 :: 10 :: t) := by
  have hdata : lit "\ndata: " = 10 :: lit "data: " := rfl
  have hend : lit "\n\n" = [10, 10] := rfl
  simp [sse, hdata, hend]

theorem splitlines_sse {e : SseEvent F} (h : Framed e) (t : Text) :
    splitlines (sse e ++ t) = (lit "event: " ++ e.name) :: (lit "data: " ++ dumps e.payload) :: [] :: splitlines t := by
  rw [sse_eq, splitlines_line h.line, splitlines_line h.dataLine]
  exact congrArg _ (congrArg _ (splitlines_line (l := []) (by simp) t))

/-- A frame is read as its event, and what is behind it is read on its own. -/
theorem received_sse {e : SseEvent F} (h : Framed e) (t : Text) :
    received (sse e ++ t) = (e :: (received t).1, (received (F := F) t).2) := by
  rw [received, splitlines_sse h, iterSse_event, iterSse_data, List.nil_append, iterSse_blank none h.dispatch]
  rfl

/-- The events that were written are read back. -/
theorem received_frames {events : List (SseEvent F)} (h : ∀ e ∈ events, Framed e) :
    received (events.flatMap sse) = (events, none) := by
  induction events with
  | nil => rfl
  | cons e events ih =>
    obtain ⟨he, hevents⟩ := List.forall_mem_cons.mp h
    rw [List.flatMap_cons, received_sse he, ih hevents]

/-! ### A response that is cut -/

/-- The end of a frame that a client does not wait for. -/
def frameEnd : Text := lit "\n\n"

/-- A frame without its end. -/
def frameBody (e : SseEvent F) : Text := (lit "event: " ++ e.name) ++ 10 :: (lit "data: " ++ dumps e.payload)

theorem sse_eq_body (e : SseEvent F) : sse e = frameBody e ++ frameEnd := by
  have h := sse_eq e []
  rw [List.append_nil] at h
  have hend : frameEnd = [10, 10] := rfl
  rw [h, hend]
  simp [frameBody]

theorem received_body {e : SseEvent F} (h : Framed e) : received (frameBody e) = ([e], none) := by
  have hlines : splitlines (frameBody e) = [lit "event: " ++ e.name, lit "data: " ++ dumps e.payload] := by
    rw [frameBody, splitlines_line h.line, splitlines_single (List.append_ne_nil_of_left_ne_nil (by decide) _) h.dataLine]
  rw [received, hlines, iterSse_event, iterSse_data, List.nil_append, iterSse, h.dispatch]

theorem received_body_line {e : SseEvent F} (h : Framed e) : received (frameBody e ++ [10]) = ([e], none) := by
  have hlines : splitlines (frameBody e ++ [10]) = [lit "event: " ++ e.name, lit "data: " ++ dumps e.payload] := by
    have hassoc : frameBody e ++ [10] = (lit "event: " ++ e.name) ++ 10 :: ((lit "data: " ++ dumps e.payload) ++ 10 :: []) := by
      simp [frameBody]
    rw [hassoc, splitlines_line h.line, splitlines_line h.dataLine]
    rfl
  rw [received, hlines, iterSse_event, iterSse_data, List.nil_append, iterSse, h.dispatch]

/-- A frame is read whatever part of its end is there. -/
theorem received_ending {e : SseEvent F} (h : Framed e) {u : Text} (hu : u <+: frameEnd) :
    received (frameBody e ++ u) = ([e], none) := by
  have hends : ∀ u ∈ frameEnd.inits, u = [] ∨ u = [10] ∨ u = frameEnd := by decide
  rcases hends u ((List.mem_inits u _).mpr hu) with rfl | rfl | rfl
  · rw [List.append_nil, received_body h]
  · exact received_body_line h
  · rw [← sse_eq_body, ← List.append_nil (sse e), received_sse h]
    rfl

/-- A line of no field that counts, and nothing behind it. -/
theorem iterSse_other {eventName line : Text} (h : (fieldOf line).1 ≠ lit "data") :
    (iterSse (F := F) none eventName [] [line]).1 = [] := by
  rw [iterSse]
  split_ifs <;> rfl

theorem fieldOf_begins (line : Text) : (fieldOf line).1 <+: line := by
  rw [fieldOf, partition]
  cases hsplit : splitFirst [58] line with
  | none => exact List.prefix_refl line
  | some p =>
    obtain ⟨hline, -⟩ := (splitFirst_eq_some_iff (List.cons_ne_nil 58 [])).mp hsplit
    exact ⟨[58] ++ p.2, hline.symm⟩

theorem frameEnd_begins {u : Text} (hu : u <+: frameEnd) : frameEnd <+: u ++ frameEnd := by
  have hends : ∀ u ∈ frameEnd.inits, frameEnd <+: u ++ frameEnd := by decide
  exact hends u ((List.mem_inits u _).mpr hu)

/-- What is there of the first line of a frame is no event. -/
theorem received_eventLine {name t r : Text} (hname : ∀ c ∈ lit "event: " ++ name, isLineBreak c = false)
    (hcut : t ++ r = lit "event: " ++ name) : (received (F := F) t).1 = [] := by
  cases t with
  | nil => rfl
  | cons c cs =>
    have hline : ∀ d ∈ c :: cs, isLineBreak d = false := fun d hd => hname d (hcut ▸ List.mem_append_left r hd)
    rw [received, splitlines_single (List.cons_ne_nil c cs) hline]
    refine iterSse_other fun hdata => ?_
    -- the line begins with the letter of `event`
    obtain ⟨u, hu⟩ := fieldOf_begins (c :: cs)
    rw [hdata] at hu
    have hd : c = 100 := (List.cons.inj hu).1.symm
    have he : c = 101 := (List.cons.inj hcut).1
    exact absurd (hd.symm.trans he) (by decide)

/-- So is what is there of its data, as long as something is missing. -/
theorem iterSse_dataLine {fields : List (Text × Json F)} (h : Plain (.obj fields)) {name t r : Text} (hr : r ≠ [])
    (hcut : t ++ r = lit "data: " ++ dumps (.obj fields)) : (iterSse (F := F) none name [] (splitlines t)).1 = [] := by
  have hline : ∀ c ∈ t, isLineBreak c = false := fun c hc =>
    ((printable_lit (by decide)).append (printable_dumps h)).line c (hcut ▸ List.mem_append_left r hc)
  by_cases ht : t = []
  · rw [ht]
    rfl
  · rw [splitlines_single ht hline]
    rcases List.append_eq_append_iff.mp hcut with ⟨u, hu, -⟩ | ⟨p, rfl, hp⟩
    · -- the name of the field is not there, or its value is empty
      have hinits : ∀ t ∈ (lit "data: ").inits, t = [] ∨ fieldOf t = (lit "data", []) ∨ (fieldOf t).1 ≠ lit "data" := by decide
      rcases hinits t ((List.mem_inits t _).mpr ⟨u, hu.symm⟩) with hnil | hfield | hother
      · exact absurd hnil ht
      · rw [iterSse, hfield]
        split_ifs <;> rfl
      · exact iterSse_other hother
    · have hnone : loads (F := F) p = none := by
        cases hv : loads (F := F) p with
        | none => rfl
        | some v => exact absurd (loads_cut h hp.symm hv) hr
      rw [iterSse_data, List.nil_append, iterSse, dispatch, if_neg (by simp), join_singleton, hnone]

/-- A frame that is cut before its end is no event. -/
theorem received_short {e : SseEvent F} (h : Framed e) {t r : Text} (hr : r ≠ []) (hcut : t ++ r = frameBody e) :
    (received (F := F) t).1 = [] := by
  rcases List.append_eq_append_iff.mp hcut with ⟨u, hu, -⟩ | ⟨u, rfl, hu⟩
  · exact received_eventLine h.line hu.symm
  · cases u with
    | nil =>
      rw [List.append_nil]
      exact received_eventLine h.line (List.append_nil _)
    | cons c u =>
      obtain ⟨rfl, hdata⟩ := List.cons.inj hu
      obtain ⟨fields, hobj, hplain⟩ := h.payload
      rw [received, splitlines_line h.line, iterSse_event]
      exact iterSse_dataLine hplain hr (hdata.symm.trans (by rw [hobj]))

/-- **A response that is cut anywhere**: what is read are the first of the events that were
written, and of the last of them nothing but the end of its frame is missing. -/
theorem received_cut {events : List (SseEvent F)} (h : ∀ e ∈ events, Framed e) {t : Text} (ht : t <+: events.flatMap sse) :
    ∃ read unread, events = read ++ unread ∧ (received t).1 = read ∧ read.flatMap sse <+: t ++ frameEnd := by
  induction events generalizing t with
  | nil =>
    rw [List.flatMap_nil, List.prefix_nil] at ht
    exact ⟨[], [], rfl, by rw [ht]; rfl, List.nil_prefix⟩
  | cons e events ih =>
    obtain ⟨he, hevents⟩ := List.forall_mem_cons.mp h
    rw [List.flatMap_cons] at ht
    rcases List.prefix_or_prefix_of_prefix ht (List.prefix_append (sse e) (events.flatMap sse)) with hshort | ⟨t', rfl⟩
    · -- the connection is cut within this frame
      refine ⟨(received t).1, ?_⟩
      obtain ⟨r, hr⟩ := hshort
      rw [sse_eq_body] at hr
      rcases List.append_eq_append_iff.mp hr with ⟨u, hu, -⟩ | ⟨u, rfl, hu⟩
      · by_cases hnil : u = []
        · rw [hnil, List.append_nil] at hu
          rw [← hu, received_body he]
          exact ⟨events, rfl, rfl, by rw [List.flatMap_singleton, sse_eq_body]⟩
        · rw [received_short he hnil hu.symm]
          exact ⟨e :: events, rfl, rfl, List.nil_prefix⟩
      · -- a part of its end is there
        rw [received_ending he ⟨r, hu.symm⟩]
        refine ⟨events, rfl, rfl, ?_⟩
        rw [List.flatMap_singleton, sse_eq_body, List.append_assoc]
        exact (List.prefix_append_right_inj _).mpr (frameEnd_begins ⟨r, hu.symm⟩)
    · obtain ⟨read, unread, rfl, hread, hend⟩ := ih hevents ((List.prefix_append_right_inj _).mp ht)
      refine ⟨e :: read, unread, rfl, ?_, ?_⟩
      · rw [received_sse he, hread]
      · rw [List.flatMap_cons, List.append_assoc]
        exact (List.prefix_append_right_inj _).mpr hend

theorem received_append {events : List (SseEvent F)} (h : ∀ e ∈ events, Framed e) (t : Text) :
    received (events.flatMap sse ++ t) = (events ++ (received t).1, (received (F := F) t).2) := by
  induction events with
  | nil => rfl
  | cons e events ih =>
    obtain ⟨he, hevents⟩ := List.forall_mem_cons.mp h
    rw [List.flatMap_cons, List.append_assoc, received_sse he, ih hevents]
    rfl

/-- All events are read where nothing but the end of the last frame is missing. -/
theorem received_whole {events : List (SseEvent F)} (h : ∀ e ∈ events, Framed e) {t : Text} (hcut : t <+: events.flatMap sse)
    (hall : events.flatMap sse <+: t ++ frameEnd) : received t = (events, none) := by
  rcases List.eq_nil_or_concat events with rfl | ⟨before, e, rfl⟩
  · rw [List.flatMap_nil, List.prefix_nil] at hcut
    rw [hcut]
    rfl
  · rw [List.concat_eq_append] at h hcut hall ⊢
    obtain ⟨hbefore, he⟩ := List.forall_mem_append.mp h
    have he := he e (List.mem_singleton.mpr rfl)
    have htext : (before ++ [e]).flatMap sse = (before.flatMap sse ++ frameBody e) ++ frameEnd := by
      rw [List.flatMap_append, List.flatMap_singleton, sse_eq_body, List.append_assoc]
    rw [htext] at hcut hall
    have hbody : before.flatMap sse ++ frameBody e <+: t := by
      refine List.prefix_of_prefix_length_le (List.prefix_append _ _) hcut ?_
      have hlen := hall.length_le
      simp only [List.length_append] at hlen ⊢
      omega
    obtain ⟨u, rfl⟩ := hbody
    rw [List.append_assoc, received_append hbefore, received_ending he ((List.prefix_append_right_inj _).mp hcut)]

/-! ### A connection that fails -/

/-- The lines of the frames that were written. -/
def frameLines (e : SseEvent F) : List Text := [lit "event: " ++ e.name, lit "data: " ++ dumps e.payload, []]

theorem splitlines_frames {events : List (SseEvent F)} (h : ∀ e ∈ events, Framed e) :
    splitlines (events.flatMap sse) = events.flatMap frameLines := by
  induction events with
  | nil => rfl
  | cons e events ih =>
    obtain ⟨he, hevents⟩ := List.forall_mem_cons.mp h
    rw [List.flatMap_cons, List.flatMap_cons, splitlines_sse he, ih hevents]
    rfl

/-- A connection that fails within the lines of some frames: none of the lines before raises. -/
theorem iterSse_broken {events : List (SseEvent F)} (h : ∀ e ∈ events, Framed e) {lines : List Text}
    (hlines : lines <+: splitlines (events.flatMap sse)) (fault : PyError) :
    (iterSse (F := F) (some fault) (lit "message") [] lines).2 = some fault := by
  rw [splitlines_frames h] at hlines
  induction events generalizing lines with
  | nil =>
    rw [List.flatMap_nil, List.prefix_nil] at hlines
    rw [hlines]
    rfl
  | cons e events ih =>
    obtain ⟨he, hevents⟩ := List.forall_mem_cons.mp h
    rw [List.flatMap_cons] at hlines
    rcases List.prefix_or_prefix_of_prefix hlines (List.prefix_append (frameLines e) _) with hshort | ⟨rest, rfl⟩
    · -- within this frame no data line is dispatched, but at its end
      have hcut : lines ∈ (frameLines e).inits := (List.mem_inits _ _).mpr hshort
      simp only [frameLines, List.inits, List.map_cons, List.map_nil, List.mem_cons, List.not_mem_nil, or_false] at hcut
      rcases hcut with rfl | rfl | rfl | rfl
      · rfl
      · rw [iterSse_event]
        rfl
      · rw [iterSse_event, iterSse_data]
        rfl
      · rw [iterSse_event, iterSse_data, List.nil_append, iterSse_blank _ he.dispatch]
        rfl
    · have hrest := ih hevents ((List.prefix_append_right_inj _).mp hlines)
      change (iterSse (some fault) _ [] ((lit "event: " ++ e.name) :: (lit "data: " ++ dumps e.payload) :: [] :: rest)).2 = _
      rw [iterSse_event, iterSse_data, List.nil_append, iterSse_blank _ he.dispatch]
      exact hrest

end EventStream

end TenantRag

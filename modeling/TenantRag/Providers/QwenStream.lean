import TenantRag.Foundations.JsonText
import TenantRag.Foundations.PyError
import TenantRag.Foundations.Result

/-!
# The answer stream of Qwen

`_stream_response` and `_stream_event` in `backend/providers/sglang_qwen_llm.py`: the lines of
a response are read one by one, each content is handed on at once, and one more attempt is
made where the first one fails early.

## The model

An attempt is the lines the client reads until the response ends or an HTTP error cuts it.
What is recorded on the way is left out. An attempt is read by a state machine of three
flags. What a line is, whatever came before, is said twice: by `LineIs`, on the text of the line
and the JSON value behind `data:`, and by `sseLine`, with the code's own checks of an event.

## What is proved

* `streamEvent_ok_iff`, `lineIs_iff` — the checks accept the events, and `sseLine` is what a line is.
* `runLines_eq` — a run of the machine in terms of what the lines are.
* `runSteps_yields` — what is yielded are the non-empty contents of a prefix of the events.
* `runSteps_passed` — which lines the machine goes through, and what it has seen then.
* `completeLines_iff` — the lines of the protocol are those behind which it has seen all it needs.
* `streamResponse_protocol` — one attempt is handed on, a second one is made only if nothing was
  yielded before a transient failure, and the stream completes exactly on the lines of the protocol.
-/

namespace TenantRag

namespace Qwen

/-- `SGLangQwenError(message)`, a `RuntimeError`. -/
def sglangQwenError (message : String) : PyError := runtimeError message

/-! ### HTTP errors -/

/-- An `httpx.HTTPError`. -/
inductive HttpError where
  /-- `TimeoutException`, a `TransportError`. -/
  | timeout
  /-- Another `TransportError`. -/
  | transport
  /-- `HTTPStatusError`. -/
  | status (statusCode : ℕ)
  /-- Another one. -/
  | other
  deriving DecidableEq

/-- `_TRANSIENT_HTTP_STATUSES`. -/
def transientHttpStatuses : List ℕ := [408, 429, 502, 503, 504]

/-- `_is_transient_http_error(error)`. -/
def HttpError.isTransient : HttpError → Bool
  | .timeout | .transport => true
  | .status statusCode => statusCode ∈ transientHttpStatuses
  | .other => false

/-- `_provider_error_message(error, "answer stream")`. -/
def HttpError.message : HttpError → String
  | .timeout => "Qwen SGLang answer stream timed out"
  | _ => "Qwen SGLang answer stream request failed"

/-! ### Events -/

section Event

variable {F : Type}

/-- The end of `_stream_event`: `content` of the delta. -/
def eventContent : Option (Json F) → Except PyError Text
  | none | some .null => .ok []
  | some (.str content) => .ok content
  | _ => .error (sglangQwenError "Qwen SGLang returned non-text stream content")

/-- The end of `_stream_event`: `finish_reason` of the choice. -/
def eventFinishReason : Option (Json F) → Except PyError (Option Text)
  | none | some .null => .ok none
  | some (.str finishReason) => .ok (some finishReason)
  | _ => .error (sglangQwenError "Qwen SGLang returned a malformed finish reason")

/-- `_stream_event(value)`: the content and the finish reason. -/
def streamEvent (servedModel : Text) (value : Json F) : Except PyError (Text × Option Text) :=
  match value with
  | .obj value =>
      if !Json.isStr (Json.get? value (lit "model")) servedModel then
        .error (sglangQwenError "Qwen SGLang returned an unexpected model identity")
      else
        match Json.get? value (lit "choices") with
        | some (.arr [.obj choice]) =>
            match Json.get? choice (lit "delta") with
            | some (.obj delta) =>
                match Json.get? delta (lit "reasoning_content") with
                | none | some .null | some (.str []) => do
                    let content ← eventContent (Json.get? delta (lit "content"))
                    let finishReason ← eventFinishReason (Json.get? choice (lit "finish_reason"))
                    .ok (content, finishReason)
                | _ => .error (sglangQwenError "Qwen returned reasoning in non-thinking mode")
            | _ => .error (sglangQwenError "Qwen SGLang returned a malformed stream delta")
        | some (.arr [_]) => .error (sglangQwenError "Qwen SGLang returned a malformed stream choice")
        | _ => .error (sglangQwenError "Qwen SGLang returned malformed stream choices")
  | _ => .error (sglangQwenError "Qwen SGLang returned a malformed stream event")

/-- The member is missing or `null`. -/
def Absent (v : Option (Json F)) : Prop := v = none ∨ v = some .null

/-- The members of an event of this model: one choice, whose delta has this content and no reasoning, and the finish
reason of the choice. -/
structure EventMembers (servedModel : Text) (value choice fields : List (Text × Json F)) (content : Text)
    (finishReason : Option Text) : Prop where
  /-- `model`. -/
  model : Json.get? value (lit "model") = some (.str servedModel)
  /-- `choices`. -/
  choices : Json.get? value (lit "choices") = some (.arr [.obj choice])
  /-- `delta`. -/
  delta : Json.get? choice (lit "delta") = some (.obj fields)
  /-- `reasoning_content`. -/
  reasoning : Absent (Json.get? fields (lit "reasoning_content")) ∨ Json.get? fields (lit "reasoning_content") = some (.str [])
  /-- `content`, which is empty where it is absent. -/
  content : Json.get? fields (lit "content") = some (.str content) ∨ Absent (Json.get? fields (lit "content")) ∧ content = []
  /-- `finish_reason`. -/
  finish : (∃ reason, Json.get? choice (lit "finish_reason") = some (.str reason) ∧ finishReason = some reason) ∨
    Absent (Json.get? choice (lit "finish_reason")) ∧ finishReason = none

/-- The value is an event of this model with this content and finish reason. -/
def IsEvent (servedModel : Text) (value : Json F) (content : Text) (finishReason : Option Text) : Prop :=
  ∃ members choice fields, value = .obj members ∧ EventMembers servedModel members choice fields content finishReason

theorem isStr_iff {v : Option (Json F)} {t : Text} : Json.isStr v t = true ↔ v = some (.str t) := by
  constructor
  · intro h
    unfold Json.isStr at h
    split at h
    · rw [of_decide_eq_true h]
    · cases h
  · rintro rfl
    exact decide_eq_true rfl

theorem eventContent_ok_iff {v : Option (Json F)} {content : Text} :
    eventContent v = .ok content ↔ v = some (.str content) ∨ Absent v ∧ content = [] := by
  unfold eventContent
  split <;> simp [Absent, eq_comm]
  simp_all

theorem eventFinishReason_ok_iff {v : Option (Json F)} {finishReason : Option Text} :
    eventFinishReason v = .ok finishReason ↔
      (∃ reason, v = some (.str reason) ∧ finishReason = some reason) ∨ Absent v ∧ finishReason = none := by
  unfold eventFinishReason
  split <;> simp [Absent, eq_comm]
  simp_all

/-- The checks accept the events, and nothing else. -/
theorem streamEvent_ok_iff {servedModel : Text} {value : Json F} {content : Text} {finishReason : Option Text} :
    streamEvent servedModel value = .ok (content, finishReason) ↔ IsEvent servedModel value content finishReason := by
  constructor
  · intro h
    unfold streamEvent at h
    split at h
    case h_2 => cases h
    case h_1 _ members =>
      split_ifs at h with hmodel
      split at h
      case h_2 => cases h
      case h_3 => cases h
      case h_1 _ choice hchoices =>
        split at h
        case h_2 => cases h
        case h_1 _ fields hdelta =>
          have hends : (Absent (Json.get? fields (lit "reasoning_content")) ∨
              Json.get? fields (lit "reasoning_content") = some (.str [])) ∧
              (do
                let content ← eventContent (Json.get? fields (lit "content"))
                let finishReason ← eventFinishReason (Json.get? choice (lit "finish_reason"))
                .ok (content, finishReason)) = Except.ok (ε := PyError) (content, finishReason) := by
            split at h
            case h_4 => cases h
            case h_1 hnone => exact ⟨.inl (.inl hnone), h⟩
            case h_2 hnull => exact ⟨.inl (.inr hnull), h⟩
            case h_3 hempty => exact ⟨.inr hempty, h⟩
          obtain ⟨hreasoning, h⟩ := hends
          obtain ⟨c, hcontent, h⟩ := bind_eq_ok_iff.mp h
          obtain ⟨r, hfinish, h⟩ := bind_eq_ok_iff.mp h
          cases h
          refine ⟨members, choice, fields, rfl, isStr_iff.mp (by simpa using hmodel), hchoices, hdelta, hreasoning, ?_, ?_⟩
          · exact eventContent_ok_iff.mp hcontent
          · exact eventFinishReason_ok_iff.mp hfinish
  · rintro ⟨members, choice, fields, rfl, h⟩
    have hends : (do
        let content ← eventContent (Json.get? fields (lit "content"))
        let finishReason ← eventFinishReason (Json.get? choice (lit "finish_reason"))
        .ok (content, finishReason)) = Except.ok (ε := PyError) (content, finishReason) :=
      bind_eq_ok_iff.mpr ⟨content, eventContent_ok_iff.mpr h.content,
        bind_eq_ok_iff.mpr ⟨finishReason, eventFinishReason_ok_iff.mpr h.finish, rfl⟩⟩
    rw [streamEvent, if_neg (by simp [isStr_iff.mpr h.model]), h.choices]
    dsimp only
    rw [h.delta]
    dsimp only
    rcases h.reasoning with (hnone | hnull) | hempty
    · rw [hnone]
      exact hends
    · rw [hnull]
      exact hends
    · rw [hempty]
      exact hends

end Event

/-! ### Lines -/

/-- `saw_content`, `saw_finish` and `saw_done` of an attempt. -/
structure StreamFlags where
  /-- `saw_content`. -/
  sawContent : Bool
  /-- `saw_finish`. -/
  sawFinish : Bool
  /-- `saw_done`. -/
  sawDone : Bool
  deriving DecidableEq

/-- `{"stop", "length"}`. -/
def finishReasons : List Text := [lit "stop", lit "length"]

section Machine

variable (F : Type) [PyFloat F] (servedModel : Text)

/-- One turn of the loop over the lines: what is yielded, and the flags behind it. -/
def streamLine (s : StreamFlags) (rawLine : Text) : Option Text × Except PyError StreamFlags :=
  let line := strip rawLine
  if line.isEmpty ∨ line.head? = some 58 then (none, .ok s)
  else if !(lit "data:").isPrefixOf line then (none, .error (sglangQwenError "Qwen SGLang returned malformed SSE"))
  else
    let dataText := strip (line.drop 5)
    if dataText = lit "[DONE]" then
      if s.sawDone then (none, .error (sglangQwenError "Qwen SGLang repeated the SSE terminator"))
      else (none, .ok { s with sawDone := true })
    else if s.sawDone then (none, .error (sglangQwenError "Qwen SGLang sent data after SSE termination"))
    else
      match (Json.loads dataText : Option (Json F)) with
      | none => (none, .error (sglangQwenError "Qwen SGLang returned malformed SSE JSON"))
      | some event =>
          match streamEvent servedModel event with
          | .error e => (none, .error e)
          | .ok (content, finishReason) =>
              let yielded := if content.isEmpty then none else some content
              let seen := { s with sawContent := s.sawContent || !content.isEmpty }
              match finishReason with
              | none => (yielded, .ok seen)
              | some reason =>
                  if s.sawFinish ∨ reason ∉ finishReasons then
                    (yielded, .error (sglangQwenError "Qwen SGLang returned an invalid stream finish reason"))
                  else (yielded, .ok { seen with sawFinish := true })

/-- The loop over the lines: what is yielded, and how it ends. -/
def runLines (s : StreamFlags) : List Text → List Text × Except PyError StreamFlags
  | [] => ([], .ok s)
  | rawLine :: lines =>
      match streamLine F servedModel s rawLine with
      | (yielded, .error e) => (yielded.toList, .error e)
      | (yielded, .ok s') => (yielded.toList ++ (runLines s' lines).1, (runLines s' lines).2)

/-- What an attempt receives. -/
structure Attempt where
  /-- The lines of `aiter_lines`. -/
  lines : List Text
  /-- The error that cuts them, if there is one. -/
  error : Option HttpError

/-- The flags at the start of an attempt. -/
def StreamFlags.start : StreamFlags := ⟨false, false, false⟩

/-- What the generator did. -/
structure StreamRun where
  /-- What it yielded. -/
  chunks : List Text
  /-- How it ended. -/
  result : Except PyError Unit
  /-- The number of attempts. -/
  made : ℕ

/-- The loop over these attempts. -/
def streamAttempts (attempts : ℕ → Attempt) : List ℕ → StreamRun
  | [] => ⟨[], .error ⟨.otherException, "Qwen stream retry loop exhausted unexpectedly"⟩, 0⟩
  | attempt :: rest =>
      let run := runLines F servedModel .start (attempts attempt).lines
      match run.2 with
      | .error e => ⟨run.1, .error e, 1⟩
      | .ok s =>
          match (attempts attempt).error with
          | some e =>
              if attempt = 0 ∧ !s.sawContent ∧ e.isTransient then
                let later := streamAttempts attempts rest
                ⟨run.1 ++ later.chunks, later.result, later.made + 1⟩
              else ⟨run.1, .error (sglangQwenError e.message), 1⟩
          | none =>
              if !s.sawContent then ⟨run.1, .error (sglangQwenError "Qwen answer stream completed without content"), 1⟩
              else if !s.sawFinish ∨ !s.sawDone then
                ⟨run.1, .error (sglangQwenError "Qwen answer stream ended without confirmed completion"), 1⟩
              else ⟨run.1, .ok (), 1⟩

/-- `_stream_response(payload)`. -/
def streamResponse (attempts : ℕ → Attempt) : StreamRun := streamAttempts F servedModel attempts (List.range 2)

/-! ### What a line is -/

/-- What a line is, whatever came before it. -/
inductive SseLine where
  /-- Blank, or a comment. -/
  | ignored
  /-- The terminator. -/
  | done
  /-- A well-formed data line with a valid event. -/
  | event (content : Text) (finishReason : Option Text)
  /-- Anything else. -/
  | malformed
  deriving DecidableEq

/-- The line is a data line with this JSON value. -/
def DataLine (rawLine : Text) (value : Json F) : Prop :=
  ∃ dataText, strip rawLine = lit "data:" ++ dataText ∧ Json.loads (strip dataText) = some value

/-- The line is the terminator. -/
def DoneLine (rawLine : Text) : Prop := ∃ dataText, strip rawLine = lit "data:" ++ dataText ∧ strip dataText = lit "[DONE]"

/-- The line is blank, or a comment. -/
def IgnoredLine (rawLine : Text) : Prop := isBlank rawLine = true ∨ (strip rawLine).head? = some 58

/-- What a line is, by its text and its JSON value. -/
inductive LineIs (rawLine : Text) : SseLine → Prop
  /-- Blank, or a comment. -/
  | ignored : IgnoredLine rawLine → LineIs rawLine .ignored
  /-- The terminator. -/
  | done : DoneLine rawLine → LineIs rawLine .done
  /-- A well-formed data line with a valid event. -/
  | event {value : Json F} {content : Text} {finishReason : Option Text} : DataLine F rawLine value →
      IsEvent servedModel value content finishReason → LineIs rawLine (.event content finishReason)
  /-- None of these. -/
  | malformed : ¬ IgnoredLine rawLine → ¬ DoneLine rawLine →
      (∀ value content finishReason, DataLine F rawLine value → ¬ IsEvent servedModel value content finishReason) →
      LineIs rawLine .malformed

/-- What a line is, by the checks of the code. -/
def sseLine (rawLine : Text) : SseLine :=
  let line := strip rawLine
  if line.isEmpty ∨ line.head? = some 58 then .ignored
  else if !(lit "data:").isPrefixOf line then .malformed
  else
    let dataText := strip (line.drop 5)
    if dataText = lit "[DONE]" then .done
    else
      match (Json.loads dataText : Option (Json F)) with
      | none => .malformed
      | some event =>
          match streamEvent servedModel event with
          | .error _ => .malformed
          | .ok (content, finishReason) => .event content finishReason

end Machine

/-- What is handed on of a content. -/
def yieldOf (content : Text) : Option Text := if content.isEmpty then none else some content

/-- A step of the machine on what the line is. -/
def lineStep (s : StreamFlags) : SseLine → Option Text × Option StreamFlags
  | .ignored => (none, some s)
  | .malformed => (none, none)
  | .done => (none, if s.sawDone then none else some { s with sawDone := true })
  | .event content finishReason =>
      if s.sawDone then (none, none)
      else
        let seen := { s with sawContent := s.sawContent || !content.isEmpty }
        (yieldOf content, match finishReason with
          | none => some seen
          | some reason => if s.sawFinish ∨ reason ∉ finishReasons then none else some { seen with sawFinish := true })

/-- A run of the machine on what the lines are. -/
def runSteps (s : StreamFlags) : List SseLine → List Text × Option StreamFlags
  | [] => ([], some s)
  | line :: lines =>
      match lineStep s line with
      | (yielded, none) => (yielded.toList, none)
      | (yielded, some s') => (yielded.toList ++ (runSteps s' lines).1, (runSteps s' lines).2)

section Refinement

variable (F : Type) [PyFloat F] (servedModel : Text)

theorem ignoredLine_iff {rawLine : Text} :
    IgnoredLine rawLine ↔ (strip rawLine).isEmpty = true ∨ (strip rawLine).head? = some 58 := by
  rw [IgnoredLine, isBlank_iff, List.isEmpty_iff, strip_eq_nil_iff]

variable {F servedModel} {rawLine dataText : Text}

theorem not_ignored_of_data (h : strip rawLine = lit "data:" ++ dataText) : ¬ IgnoredLine rawLine := by
  rw [ignoredLine_iff, h]
  rintro (hempty | hcomment)
  · cases hempty
  · cases hcomment

theorem dataLine_iff (h : strip rawLine = lit "data:" ++ dataText) {value : Json F} :
    DataLine F rawLine value ↔ Json.loads (strip dataText) = some value := by
  refine ⟨?_, fun hloads => ⟨dataText, h, hloads⟩⟩
  rintro ⟨other, hother, hloads⟩
  rwa [List.append_cancel_left (h.symm.trans hother)]

theorem doneLine_iff (h : strip rawLine = lit "data:" ++ dataText) : DoneLine rawLine ↔ strip dataText = lit "[DONE]" := by
  refine ⟨?_, fun hdone => ⟨dataText, h, hdone⟩⟩
  rintro ⟨other, hother, hdone⟩
  rwa [List.append_cancel_left (h.symm.trans hother)]

variable (F servedModel) in
/-- What a data line is depends on the stripped text behind the name of its field. -/
theorem sseLine_of_strip (h : strip rawLine = lit "data:" ++ dataText) :
    sseLine F servedModel rawLine =
      if strip dataText = lit "[DONE]" then .done
      else
        match (Json.loads (strip dataText) : Option (Json F)) with
        | none => .malformed
        | some event =>
            match streamEvent servedModel event with
            | .error _ => .malformed
            | .ok (content, finishReason) => .event content finishReason := by
  have hdrop : (lit "data:" ++ dataText).drop 5 = dataText := rfl
  have hbegins : (lit "data:").isPrefixOf (lit "data:" ++ dataText) = true :=
    List.isPrefixOf_iff_prefix.mpr (List.prefix_append _ _)
  have hnot := not_ignored_of_data h
  rw [ignoredLine_iff] at hnot
  rw [sseLine]
  dsimp only
  rw [if_neg hnot, h, hbegins, if_neg (by decide), hdrop]

/-- A data line is what the checks say. -/
theorem lineIs_of_strip (h : strip rawLine = lit "data:" ++ dataText) :
    LineIs F servedModel rawLine (sseLine F servedModel rawLine) := by
  have hignored := not_ignored_of_data h
  rw [sseLine_of_strip F servedModel h]
  by_cases hdone : strip dataText = lit "[DONE]"
  · rw [if_pos hdone]
    exact .done ⟨dataText, h, hdone⟩
  rw [if_neg hdone]
  rw [← doneLine_iff h] at hdone
  cases hloads : (Json.loads (strip dataText) : Option (Json F)) with
  | none =>
    refine .malformed hignored hdone fun value content finishReason hvalue => ?_
    rw [dataLine_iff h, hloads] at hvalue
    cases hvalue
  | some value =>
    dsimp only
    cases hevent : streamEvent servedModel value with
    | ok e => exact .event ((dataLine_iff h).mpr hloads) (streamEvent_ok_iff.mp hevent)
    | error e =>
      refine .malformed hignored hdone fun value' content finishReason hvalue hisEvent => ?_
      rw [dataLine_iff h, hloads] at hvalue
      cases hvalue
      rw [streamEvent_ok_iff.mpr hisEvent] at hevent
      cases hevent

variable (F servedModel rawLine) in
/-- So is any line. -/
theorem lineIs_sseLine : LineIs F servedModel rawLine (sseLine F servedModel rawLine) := by
  by_cases hignored : IgnoredLine rawLine
  · rw [sseLine]
    dsimp only
    rw [if_pos (ignoredLine_iff.mp hignored)]
    exact .ignored hignored
  by_cases hdata : lit "data:" <+: strip rawLine
  · obtain ⟨dataText, hstrip⟩ := hdata
    exact lineIs_of_strip hstrip.symm
  · have hmalformed : sseLine F servedModel rawLine = .malformed := by
      have hnot := hignored
      rw [ignoredLine_iff] at hnot
      have hbegins : (lit "data:").isPrefixOf (strip rawLine) = false := by
        rwa [Bool.eq_false_iff, Ne, List.isPrefixOf_iff_prefix]
      rw [sseLine]
      dsimp only
      rw [if_neg hnot, hbegins]
      rfl
    rw [hmalformed]
    refine .malformed hignored ?_ ?_
    · rintro ⟨dataText, hstrip, -⟩
      exact hdata ⟨dataText, hstrip.symm⟩
    · rintro value content finishReason ⟨dataText, hstrip, -⟩
      exact absurd ⟨dataText, hstrip.symm⟩ hdata

theorem loads_done : (Json.loads (lit "[DONE]") : Option (Json F)) = none := rfl

/-- A line is one thing only, what the checks say. -/
theorem lineIs_iff {line : SseLine} : LineIs F servedModel rawLine line ↔ sseLine F servedModel rawLine = line := by
  refine ⟨?_, fun h => h ▸ lineIs_sseLine F servedModel rawLine⟩
  rintro (hignored | ⟨dataText, hstrip, hdone⟩ | ⟨⟨dataText, hstrip, hloads⟩, hevent⟩ | ⟨hignored, hdone, hnone⟩)
  · rw [sseLine]
    exact if_pos (ignoredLine_iff.mp hignored)
  · rw [sseLine_of_strip F servedModel hstrip, if_pos hdone]
  · have hne : strip dataText ≠ lit "[DONE]" := by
      intro heq
      rw [heq, loads_done] at hloads
      cases hloads
    rw [sseLine_of_strip F servedModel hstrip, if_neg hne, hloads]
    dsimp only
    rw [streamEvent_ok_iff.mpr hevent]
  · have hline := lineIs_sseLine F servedModel rawLine
    generalize sseLine F servedModel rawLine = line at hline
    cases hline with
    | ignored h => exact absurd h hignored
    | done h => exact absurd h hdone
    | event hvalue hevent => exact absurd hevent (hnone _ _ _ hvalue)
    | malformed => rfl

variable (F servedModel)

/-- A step depends on what the line is only, but for the text of its error. -/
theorem streamLine_eq (s : StreamFlags) (rawLine : Text) :
    ((streamLine F servedModel s rawLine).1, (streamLine F servedModel s rawLine).2.toOption) =
      lineStep s (sseLine F servedModel rawLine) := by
  rw [streamLine, sseLine]
  dsimp only
  by_cases hblank : (strip rawLine).isEmpty = true ∨ (strip rawLine).head? = some 58
  · rw [if_pos hblank, if_pos hblank]
    rfl
  rw [if_neg hblank, if_neg hblank]
  by_cases hdata : (!(lit "data:").isPrefixOf (strip rawLine)) = true
  · rw [if_pos hdata, if_pos hdata]
    rfl
  rw [if_neg hdata, if_neg hdata]
  by_cases hterminator : strip ((strip rawLine).drop 5) = lit "[DONE]"
  · rw [if_pos hterminator, if_pos hterminator, lineStep]
    cases s.sawDone <;> rfl
  rw [if_neg hterminator, if_neg hterminator]
  by_cases hdone : s.sawDone = true
  · rw [if_pos hdone]
    split
    · rfl
    · split
      · rfl
      · simp only [lineStep, hdone, if_true]
        rfl
  rw [if_neg hdone]
  cases hloads : (Json.loads (strip ((strip rawLine).drop 5)) : Option (Json F)) with
  | none => rfl
  | some event =>
    dsimp only
    cases hevent : streamEvent servedModel event with
    | error e => rfl
    | ok result =>
      obtain ⟨content, finishReason⟩ := result
      dsimp only
      rw [lineStep, if_neg hdone]
      cases finishReason with
      | none => rfl
      | some reason =>
        dsimp only
        by_cases hbad : s.sawFinish = true ∨ reason ∉ finishReasons
        · rw [if_pos hbad, if_pos hbad]
          rfl
        · rw [if_neg hbad, if_neg hbad]
          rfl

/-- So does a run. -/
theorem runLines_eq (s : StreamFlags) (lines : List Text) :
    ((runLines F servedModel s lines).1, (runLines F servedModel s lines).2.toOption) =
      runSteps s (lines.map (sseLine F servedModel)) := by
  induction lines generalizing s with
  | nil => rfl
  | cons rawLine lines ih =>
    have hstep := streamLine_eq F servedModel s rawLine
    rw [List.map_cons, runSteps, ← hstep, runLines]
    cases hline : streamLine F servedModel s rawLine with
    | mk yielded result =>
      cases result with
      | error e => rfl
      | ok s' =>
        have hrest := ih s'
        rw [Prod.ext_iff] at hrest
        exact Prod.ext (congrArg (yielded.toList ++ ·) hrest.1) hrest.2

end Refinement

/-! ### What is yielded -/

/-- The event of a line. -/
def SseLine.event? : SseLine → Option (Text × Option Text)
  | .event content finishReason => some (content, finishReason)
  | _ => none

/-- The events of some lines, in order. -/
def events (lines : List SseLine) : List (Text × Option Text) := lines.filterMap SseLine.event?

/-- The non-empty contents of some events, in order. -/
def contents (es : List (Text × Option Text)) : List Text := es.filterMap fun e => yieldOf e.1

theorem events_cons (line : SseLine) (lines : List SseLine) : events (line :: lines) = line.event?.toList ++ events lines := by
  rw [events, events, List.filterMap_cons]
  cases line.event? <;> rfl

theorem contents_append (es es' : List (Text × Option Text)) : contents (es ++ es') = contents es ++ contents es' :=
  List.filterMap_append

/-- A step yields the content of its event, unless it refuses the line at once. -/
theorem lineStep_yields (s : StreamFlags) (line : SseLine) :
    (∃ s', (lineStep s line).2 = some s' ∧ (lineStep s line).1.toList = contents line.event?.toList) ∨
      (lineStep s line).2 = none ∧
        ((lineStep s line).1 = none ∨ (lineStep s line).1.toList = contents line.event?.toList) := by
  have hcontent (content : Text) (finishReason : Option Text) :
      (yieldOf content).toList = contents [(content, finishReason)] := by
    rw [contents, List.filterMap_cons]
    cases yieldOf content <;> rfl
  cases line with
  | ignored => exact .inl ⟨s, rfl, rfl⟩
  | malformed => exact .inr ⟨rfl, .inl rfl⟩
  | done =>
    rw [lineStep]
    cases s.sawDone with
    | true => exact .inr ⟨rfl, .inl rfl⟩
    | false => exact .inl ⟨_, rfl, rfl⟩
  | event content finishReason =>
    rw [lineStep]
    by_cases hdone : s.sawDone = true
    · rw [if_pos hdone]
      exact .inr ⟨rfl, .inl rfl⟩
    rw [if_neg hdone]
    cases finishReason with
    | none => exact .inl ⟨_, rfl, hcontent content none⟩
    | some reason =>
      dsimp only
      split_ifs
      · exact .inr ⟨rfl, .inr (hcontent content _)⟩
      · exact .inl ⟨_, rfl, hcontent content _⟩

/-- A run yields the non-empty contents of a prefix of the events, and of all where it ends well. -/
theorem runSteps_yields (s : StreamFlags) (lines : List SseLine) :
    ∃ es, es <+: events lines ∧ (runSteps s lines).1 = contents es ∧
      ((runSteps s lines).2.isSome → es = events lines) := by
  induction lines generalizing s with
  | nil => exact ⟨[], List.prefix_rfl, rfl, fun _ => rfl⟩
  | cons line lines ih =>
    rw [runSteps, events_cons]
    rcases lineStep_yields s line with ⟨s', hok, hyields⟩ | ⟨herror, hyields⟩
    · obtain ⟨es, hes, hchunks, hall⟩ := ih s'
      have hstep : lineStep s line = ((lineStep s line).1, some s') := by rw [← hok]
      rw [hstep]
      dsimp only
      refine ⟨line.event?.toList ++ es, (List.prefix_append_right_inj _).mpr hes, ?_, fun hsome => ?_⟩
      · rw [contents_append, ← hyields, hchunks]
      · rw [hall hsome]
    · have hstep : lineStep s line = ((lineStep s line).1, none) := by rw [← herror]
      rw [hstep]
      rcases hyields with hnone | hyields
      · exact ⟨[], List.nil_prefix, by rw [hnone]; rfl, fun hsome => absurd hsome (by simp)⟩
      · exact ⟨line.event?.toList, List.prefix_append _ _, hyields, fun hsome => absurd hsome (by simp)⟩

/-! ### Which lines pass -/

/-- The lines that are not ignored. -/
def significant (lines : List SseLine) : List SseLine := lines.filter fun line => line ≠ .ignored

/-- What an attempt has passed that has not seen the terminator before: events, and the terminator behind
them where it has seen it then. -/
structure Passed (s s' : StreamFlags) (lines : List SseLine) (es : List (Text × Option Text)) : Prop where
  /-- Nothing is malformed, and nothing is behind the terminator. -/
  shape : significant lines = es.map (fun e => .event e.1 e.2) ++ (if s'.sawDone then [.done] else [])
  /-- No event has a finish reason, or one has, and none had before. -/
  finish : es.filterMap Prod.snd = [] ∧ s'.sawFinish = s.sawFinish ∨
    s.sawFinish = false ∧ s'.sawFinish = true ∧ ∃ reason ∈ finishReasons, es.filterMap Prod.snd = [reason]
  /-- The contents that are not empty. -/
  content : s'.sawContent = (s.sawContent || es.any fun e => !e.1.isEmpty)

theorem significant_ignored (lines : List SseLine) : significant (.ignored :: lines) = significant lines := by
  rw [significant, List.filter_cons_of_neg (by simp), ← significant]

theorem significant_cons {line : SseLine} (h : line ≠ .ignored) (lines : List SseLine) :
    significant (line :: lines) = line :: significant lines := by
  rw [significant, List.filter_cons_of_pos (by simpa using h), ← significant]

theorem runSteps_cons (s : StreamFlags) (line : SseLine) (lines : List SseLine) :
    (runSteps s (line :: lines)).2 = (lineStep s line).2.bind fun s' => (runSteps s' lines).2 := by
  rw [runSteps]
  cases hstep : lineStep s line with
  | mk yielded result => cases result <;> rfl

/-- Behind the terminator only ignored lines pass. -/
theorem runSteps_done {s s' : StreamFlags} (hs : s.sawDone = true) (lines : List SseLine) :
    (runSteps s lines).2 = some s' ↔ s' = s ∧ significant lines = [] := by
  induction lines with
  | nil => simp [runSteps, significant, eq_comm]
  | cons line lines ih =>
    rw [runSteps_cons]
    cases line with
    | ignored => rw [significant_ignored, ← ih, lineStep, Option.bind_some]
    | malformed => simp [lineStep, significant_cons]
    | done => simp [lineStep, hs, significant_cons]
    | event content finishReason => simp [lineStep, hs, significant_cons]

/-- The flags behind a content. -/
def StreamFlags.withContent (s : StreamFlags) (content : Text) : StreamFlags :=
  { s with sawContent := s.sawContent || !content.isEmpty }

/-- Events that pass begin with the event of the first line. -/
theorem Passed.eq_cons {s s' : StreamFlags} {content : Text} {finishReason : Option Text} {lines : List SseLine}
    {es : List (Text × Option Text)} (h : Passed s s' (.event content finishReason :: lines) es) :
    ∃ es', es = (content, finishReason) :: es' ∧
      significant lines = es'.map (fun e => .event e.1 e.2) ++ (if s'.sawDone then [.done] else []) := by
  have hshape := h.shape
  rw [significant_cons (by simp)] at hshape
  cases es with
  | nil => split_ifs at hshape <;> simp at hshape
  | cons e es =>
    rw [List.map_cons, List.cons_append] at hshape
    obtain ⟨hfirst, hrest⟩ := List.cons.inj hshape
    cases hfirst
    exact ⟨es, rfl, hrest⟩

/-- An event without a finish reason passes if those behind it do. -/
theorem passed_event_none {s s' : StreamFlags} {content : Text} {lines : List SseLine} {es : List (Text × Option Text)} :
    Passed s s' (.event content none :: lines) ((content, none) :: es) ↔ Passed (s.withContent content) s' lines es := by
  have hfinish : ((content, (none : Option Text)) :: es).filterMap Prod.snd = es.filterMap Prod.snd := rfl
  constructor
  · intro h
    obtain ⟨es', heq, hshape⟩ := h.eq_cons
    cases heq
    refine ⟨hshape, hfinish ▸ h.finish, ?_⟩
    rw [h.content, List.any_cons, ← Bool.or_assoc]
    rfl
  · intro h
    refine ⟨?_, hfinish ▸ h.finish, ?_⟩
    · rw [significant_cons (by simp), h.shape]
      rfl
    · rw [h.content, List.any_cons, ← Bool.or_assoc]
      rfl

/-- An event with a finish reason passes if it is the first with one, the reason is known, and those behind it pass. -/
theorem passed_event_some {s s' : StreamFlags} {content reason : Text} {lines : List SseLine}
    {es : List (Text × Option Text)} :
    Passed s s' (.event content (some reason) :: lines) ((content, some reason) :: es) ↔
      s.sawFinish = false ∧ reason ∈ finishReasons ∧
        Passed { s.withContent content with sawFinish := true } s' lines es := by
  have hcons : ((content, some reason) :: es).filterMap Prod.snd = reason :: es.filterMap Prod.snd := rfl
  constructor
  · intro h
    obtain ⟨es', heq, hshape⟩ := h.eq_cons
    cases heq
    rcases h.finish with ⟨hnone, -⟩ | ⟨hbefore, hafter, known, hknown, hone⟩
    · rw [hcons] at hnone
      cases hnone
    · rw [hcons] at hone
      obtain ⟨rfl, hnil⟩ := List.cons.inj hone
      refine ⟨hbefore, hknown, hshape, .inl ⟨hnil, hafter⟩, ?_⟩
      rw [h.content, List.any_cons, ← Bool.or_assoc]
      rfl
  · rintro ⟨hbefore, hknown, h⟩
    refine ⟨?_, ?_, ?_⟩
    · rw [significant_cons (by simp), h.shape]
      rfl
    · rcases h.finish with ⟨hnil, hafter⟩ | ⟨hfalse, -⟩
      · exact .inr ⟨hbefore, hafter, reason, hknown, by rw [hcons, hnil]⟩
      · cases hfalse
    · rw [h.content, List.any_cons, ← Bool.or_assoc]
      rfl

/-- Before it, events pass, of which at most one has a finish reason. -/
theorem runSteps_passed {s s' : StreamFlags} (hs : s.sawDone = false) (lines : List SseLine) :
    (runSteps s lines).2 = some s' ↔ ∃ es, Passed s s' lines es := by
  induction lines generalizing s with
  | nil =>
    rw [runSteps, Option.some.injEq]
    constructor
    · rintro rfl
      exact ⟨[], by simp [significant, hs], .inl ⟨rfl, rfl⟩, by simp⟩
    · rintro ⟨es, hshape, hfinish, hcontent⟩
      obtain ⟨hnil, hdone⟩ := List.append_eq_nil_iff.mp hshape.symm
      obtain rfl : es = [] := List.map_eq_nil_iff.mp hnil
      have hdone : s'.sawDone = false := by
        by_contra htrue
        rw [Bool.not_eq_false] at htrue
        rw [htrue] at hdone
        cases hdone
      rcases hfinish with ⟨-, hfinish⟩ | ⟨-, -, reason, -, hnone⟩
      · cases s
        cases s'
        simp_all
      · cases hnone
  | cons line lines ih =>
    rw [runSteps_cons]
    cases line with
    | ignored =>
      rw [lineStep, Option.bind_some, ih hs]
      refine exists_congr fun es => ⟨fun h => ⟨?_, h.finish, h.content⟩, fun h => ⟨?_, h.finish, h.content⟩⟩
      · rw [significant_ignored]
        exact h.shape
      · rw [← significant_ignored]
        exact h.shape
    | malformed =>
      rw [lineStep, Option.bind_none]
      refine ⟨fun h => absurd h (by simp), ?_⟩
      rintro ⟨es, hshape, -, -⟩
      rw [significant_cons (by simp)] at hshape
      cases es with
      | nil => split_ifs at hshape <;> simp at hshape
      | cons e es => simp at hshape
    | done =>
      rw [lineStep, hs, if_neg (by decide), Option.bind_some, runSteps_done rfl]
      constructor
      · rintro ⟨rfl, hnil⟩
        refine ⟨[], ?_, .inl ⟨rfl, rfl⟩, by simp⟩
        rw [significant_cons (by simp), hnil]
        rfl
      · rintro ⟨es, hshape, hfinish, hcontent⟩
        rw [significant_cons (by simp)] at hshape
        cases es with
        | cons e es => simp at hshape
        | nil =>
          split_ifs at hshape with hdone
          · rcases hfinish with ⟨-, hfinish⟩ | ⟨-, -, reason, -, hnone⟩
            · refine ⟨?_, (List.cons.inj hshape).2⟩
              cases s
              cases s'
              simp_all
            · cases hnone
          · simp at hshape
    | event content finishReason =>
      have hnot : ¬ s.sawDone = true := by simp [hs]
      rw [lineStep, if_neg hnot]
      cases finishReason with
      | none =>
        have hseen : (s.withContent content).sawDone = false := hs
        refine (ih hseen).trans ⟨?_, ?_⟩
        · rintro ⟨es, h⟩
          exact ⟨_, passed_event_none.mpr h⟩
        · rintro ⟨es, h⟩
          obtain ⟨es, rfl, -⟩ := h.eq_cons
          exact ⟨es, passed_event_none.mp h⟩
      | some reason =>
        dsimp only
        by_cases hbad : s.sawFinish = true ∨ reason ∉ finishReasons
        · rw [if_pos hbad, Option.bind_none]
          refine ⟨fun h => absurd h (by simp), ?_⟩
          rintro ⟨es, h⟩
          obtain ⟨es, rfl, -⟩ := h.eq_cons
          obtain ⟨hbefore, hknown, -⟩ := passed_event_some.mp h
          rcases hbad with hfinish | hunknown
          · rw [hbefore] at hfinish
            cases hfinish
          · exact absurd hknown hunknown
        · rw [if_neg hbad, Option.bind_some]
          rw [not_or, Bool.not_eq_true, not_not] at hbad
          have hseen : { s.withContent content with sawFinish := true }.sawDone = false := hs
          refine (ih hseen).trans ⟨?_, ?_⟩
          · rintro ⟨es, h⟩
            exact ⟨_, passed_event_some.mpr ⟨hbad.1, hbad.2, h⟩⟩
          · rintro ⟨es, h⟩
            obtain ⟨es, rfl, -⟩ := h.eq_cons
            exact ⟨es, (passed_event_some.mp h).2.2⟩

/-! ### The protocol -/

/-- The lines of an answer that is complete: events, and behind them one terminator; some content is not
empty, and one event has a finish reason, which is known. -/
structure CompleteLines (lines : List SseLine) : Prop where
  /-- Nothing is malformed, and nothing but ignored lines is behind the only terminator. -/
  shape : significant lines = (events lines).map (fun e => .event e.1 e.2) ++ [.done]
  /-- Some content is not empty. -/
  content : ∃ e ∈ events lines, e.1 ≠ []
  /-- One event has a finish reason. -/
  finish : ∃ reason ∈ finishReasons, (events lines).filterMap Prod.snd = [reason]

theorem events_significant (lines : List SseLine) : events (significant lines) = events lines := by
  induction lines with
  | nil => rfl
  | cons line lines ih =>
    by_cases h : line = .ignored
    · subst h
      rw [significant_ignored, ih, events_cons]
      rfl
    · rw [significant_cons h, events_cons, events_cons, ih]

/-- What an attempt has passed are its events. -/
theorem Passed.events_eq {s s' : StreamFlags} {lines : List SseLine} {es : List (Text × Option Text)}
    (h : Passed s s' lines es) : events lines = es := by
  have hmap : ∀ es : List (Text × Option Text), events (es.map fun e => .event e.1 e.2) = es := by
    intro es
    rw [events, List.filterMap_map]
    exact List.filterMap_some
  have hend : events (if s'.sawDone then [SseLine.done] else []) = [] := by split_ifs <;> rfl
  rw [← events_significant, h.shape, events, List.filterMap_append, ← events, ← events, hmap, hend, List.append_nil]

/-- An attempt has seen all it needs exactly where its lines are complete. -/
theorem completeLines_iff (lines : List SseLine) :
    CompleteLines lines ↔ (runSteps .start lines).2 = some ⟨true, true, true⟩ := by
  rw [runSteps_passed rfl]
  constructor
  · intro h
    refine ⟨events lines, h.shape, .inr ⟨rfl, rfl, h.finish⟩, ?_⟩
    obtain ⟨e, he, hne⟩ := h.content
    have hany : ((events lines).any fun e => !e.1.isEmpty) = true :=
      List.any_eq_true.mpr ⟨e, he, by simpa using hne⟩
    rw [hany, Bool.or_true]
  · rintro ⟨es, h⟩
    have hes := h.events_eq
    subst hes
    refine ⟨h.shape, ?_, ?_⟩
    · have hany := h.content.symm
      rw [StreamFlags.start, Bool.false_or, List.any_eq_true] at hany
      obtain ⟨e, he, hne⟩ := hany
      exact ⟨e, he, by simpa using hne⟩
    · rcases h.finish with ⟨-, hfinish⟩ | ⟨-, -, hone⟩
      · cases hfinish
      · exact hone

/-! ### The generator -/

section Generator

variable (F : Type) [PyFloat F] (servedModel : Text)

/-- What the lines of an attempt are. -/
def Attempt.sseLines (a : Attempt) : List SseLine := a.lines.map (sseLine F servedModel)

/-- What the generator says about an attempt it ends in: it yields the contents of a prefix of its events,
and completes exactly where no error cut it and its lines are complete; then it has yielded them all. -/
structure Follows (a : Attempt) (run : StreamRun) : Prop where
  /-- What is yielded. -/
  chunks : ∃ es, es <+: events (a.sseLines F servedModel) ∧ run.chunks = contents es
  /-- Where it completes. -/
  completes : run.result = .ok () ↔ a.error = none ∧ CompleteLines (a.sseLines F servedModel)
  /-- What is yielded then. -/
  all : run.result = .ok () → run.chunks = contents (events (a.sseLines F servedModel))

/-- The run of an attempt, through what its lines are. -/
theorem runLines_steps (a : Attempt) :
    (runLines F servedModel .start a.lines).1 = (runSteps .start (a.sseLines F servedModel)).1 ∧
      (runLines F servedModel .start a.lines).2.toOption = (runSteps .start (a.sseLines F servedModel)).2 :=
  Prod.ext_iff.mp (runLines_eq F servedModel .start a.lines)

/-- Where an attempt has seen no content, it has yielded nothing. -/
theorem chunks_of_no_content {lines : List SseLine} {s : StreamFlags} (hrun : (runSteps .start lines).2 = some s)
    (hcontent : s.sawContent = false) : (runSteps .start lines).1 = [] := by
  obtain ⟨es, -, hchunks, hall⟩ := runSteps_yields .start lines
  obtain ⟨es', hpassed⟩ := (runSteps_passed rfl lines).mp hrun
  obtain rfl : es = es' := (hall (by rw [hrun]; rfl)).trans hpassed.events_eq
  have hany := hpassed.content.symm
  rw [hcontent, StreamFlags.start, Bool.false_or, List.any_eq_false] at hany
  rw [hchunks, contents, List.filterMap_eq_nil_iff]
  intro e he
  have hempty : e.1.isEmpty = true := by simpa using hany e he
  rw [yieldOf, if_pos hempty]

/-- A turn of the loop ends in its attempt, or goes on to the next one having yielded nothing. -/
theorem streamAttempts_cons (attempts : ℕ → Attempt) (i : ℕ) (rest : List ℕ) :
    ((streamAttempts F servedModel attempts (i :: rest)).made = 1 ∧
        Follows F servedModel (attempts i) (streamAttempts F servedModel attempts (i :: rest))) ∨
      (i = 0 ∧ (∃ e, (attempts i).error = some e ∧ e.isTransient = true) ∧
        (∃ s, runLines F servedModel .start (attempts i).lines = ([], .ok s)) ∧
        streamAttempts F servedModel attempts (i :: rest) =
          { streamAttempts F servedModel attempts rest with
            made := (streamAttempts F servedModel attempts rest).made + 1 }) := by
  obtain ⟨hchunks, hresult⟩ := runLines_steps F servedModel (attempts i)
  obtain ⟨es, hprefix, hyields, hall⟩ := runSteps_yields .start ((attempts i).sseLines F servedModel)
  have hcomplete := completeLines_iff ((attempts i).sseLines F servedModel)
  rw [← hresult] at hcomplete hall
  rw [← hchunks] at hyields
  rw [streamAttempts]
  dsimp only
  cases hrun : (runLines F servedModel .start (attempts i).lines).2 with
  | error e =>
    rw [hrun] at hcomplete
    refine .inl ⟨rfl, ⟨es, hprefix, hyields⟩, ?_, fun hok => absurd hok (by simp)⟩
    rw [hcomplete]
    simp [Except.toOption]
  | ok s =>
    rw [hrun] at hcomplete hall hresult
    dsimp only
    cases herror : (attempts i).error with
    | some e =>
      dsimp only
      by_cases hretry : i = 0 ∧ (!s.sawContent) = true ∧ e.isTransient = true
      · rw [if_pos hretry]
        obtain ⟨hi, hcontent, htransient⟩ := hretry
        rw [Bool.not_eq_true'] at hcontent
        have hnone : (runLines F servedModel .start (attempts i).lines).1 = [] := by
          rw [hchunks]
          exact chunks_of_no_content hresult.symm hcontent
        refine .inr ⟨hi, ⟨e, rfl, htransient⟩, ⟨s, Prod.ext hnone hrun⟩, ?_⟩
        rw [hnone, List.nil_append]
      · rw [if_neg hretry]
        refine .inl ⟨rfl, ⟨es, hprefix, hyields⟩, ?_, fun hok => absurd hok (by simp)⟩
        simp [herror]
    | none =>
      have hes := hall rfl
      have hcomplete' : CompleteLines ((attempts i).sseLines F servedModel) ↔ s = ⟨true, true, true⟩ := by
        rw [hcomplete]
        simp [Except.toOption]
      dsimp only
      split_ifs with hcontent hfinish
      · refine .inl ⟨rfl, ⟨es, hprefix, hyields⟩, ?_, fun hok => absurd hok (by simp)⟩
        rw [hcomplete']
        refine ⟨fun hok => absurd hok (by simp), ?_⟩
        rintro ⟨-, rfl⟩
        cases hcontent
      · refine .inl ⟨rfl, ⟨es, hprefix, hyields⟩, ?_, fun hok => absurd hok (by simp)⟩
        rw [hcomplete']
        refine ⟨fun hok => absurd hok (by simp), ?_⟩
        rintro ⟨-, rfl⟩
        rcases hfinish with hfinish | hdone
        · cases hfinish
        · cases hdone
      · refine .inl ⟨rfl, ⟨es, hprefix, hyields⟩, ⟨fun _ => ⟨herror, ?_⟩, fun _ => rfl⟩, fun _ => ?_⟩
        · rw [hcomplete']
          rcases s with ⟨sawContent, sawFinish, sawDone⟩
          simp_all
        · rw [← hes]
          exact hyields

/-- The lines of an attempt are what the checks say. -/
theorem lineIs_sseLines (a : Attempt) : List.Forall₂ (LineIs F servedModel) a.lines (a.sseLines F servedModel) := by
  rw [Attempt.sseLines, List.forall₂_map_right_iff, List.forall₂_same]
  exact fun rawLine _ => lineIs_sseLine F servedModel rawLine

/-- Where an attempt goes on to the next one, none of its events has content. -/
theorem contents_of_no_chunk {a : Attempt} {s : StreamFlags} (h : runLines F servedModel .start a.lines = ([], .ok s)) :
    contents (events (a.sseLines F servedModel)) = [] := by
  obtain ⟨hchunks, hresult⟩ := runLines_steps F servedModel a
  obtain ⟨es, -, hyields, hall⟩ := runSteps_yields .start (a.sseLines F servedModel)
  rw [h] at hchunks hresult
  have hes : es = events (a.sseLines F servedModel) := hall (by rw [← hresult]; rfl)
  rw [← hes, ← hyields, ← hchunks]

/-- One attempt is handed on: the generator yields the non-empty contents of a prefix of its events, in
order, and completes exactly where no error cut it and its lines are complete. A second one is made only
where a transient error cut the first, none of whose lines was refused and none of whose events had content,
and never a third. -/
theorem streamResponse_protocol (attempts : ℕ → Attempt) :
    ∃ (i : ℕ) (lines : List SseLine), i < 2 ∧ (streamResponse F servedModel attempts).made = i + 1 ∧
      List.Forall₂ (LineIs F servedModel) (attempts i).lines lines ∧
      (i = 1 → (∃ e, (attempts 0).error = some e ∧ e.isTransient = true) ∧
        (∃ s, runLines F servedModel .start (attempts 0).lines = ([], .ok s)) ∧
        ∃ earlier, List.Forall₂ (LineIs F servedModel) (attempts 0).lines earlier ∧ contents (events earlier) = []) ∧
      (∃ es, es <+: events lines ∧ (streamResponse F servedModel attempts).chunks = contents es) ∧
      ((streamResponse F servedModel attempts).result = .ok () ↔ (attempts i).error = none ∧ CompleteLines lines) ∧
      ((streamResponse F servedModel attempts).result = .ok () →
        (streamResponse F servedModel attempts).chunks = contents (events lines)) := by
  have hrange : streamResponse F servedModel attempts = streamAttempts F servedModel attempts [0, 1] := rfl
  rw [hrange]
  rcases streamAttempts_cons F servedModel attempts 0 [1] with ⟨hmade, hends⟩ | ⟨-, htransient, ⟨s, hrun⟩, hnext⟩
  · exact ⟨0, _, by omega, hmade, lineIs_sseLines F servedModel _, fun h => absurd h (by omega), hends.chunks,
      hends.completes, hends.all⟩
  · rcases streamAttempts_cons F servedModel attempts 1 [] with ⟨hmade, hends⟩ | ⟨hzero, -⟩
    · rw [hnext]
      refine ⟨1, _, by omega, by rw [hmade], lineIs_sseLines F servedModel _, fun _ => ⟨htransient, ⟨s, hrun⟩, ?_⟩,
        hends.chunks, hends.completes, hends.all⟩
      exact ⟨_, lineIs_sseLines F servedModel _, contents_of_no_chunk F servedModel hrun⟩
    · cases hzero

end Generator

end Qwen

end TenantRag

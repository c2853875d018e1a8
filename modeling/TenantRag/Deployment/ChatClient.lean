import TenantRag.Deployment.EventStream
import TenantRag.Deployment.TraceValidator

/-!
# The clients of the chat

What the clients of the repository make of the events of a query's response: `validate_chat_result`
and the loop of `ask` in `deployment/ragctl.py`, and `validate_e2e_stream` with its helpers and the
part of `_execute_query` that reads the response in `deployment/e2e_diagnostic_api.py`.

## The model

Of `ask` and `_execute_query` the part from the response to the validated stream is kept; their
traces, measurements and evaluations are left out. A connection fails with `httpx.HTTPError`, before
there is a response or behind some of its lines. `str.casefold` and the hash are parameters. The text of a payload in an error message is left out.

## What is proved

* `validateE2eStream_ok_iff` — exactly the streams of the public contract are accepted: tokens that are not
  empty, then one telemetry with the documented timings, then one done, all for the request.
* `askStream_of_validated` — what the diagnostic client accepts, `ask` accepts, with the same answer and timings.
-/

namespace TenantRag

namespace ChatClient

open EventStream

variable {F : Type} [PyFloat F]

/-- The members of a JSON object. -/
abbrev Fields (F : Type) := List (Text × Json F)

/-! ### `deployment/ragctl.py` -/

/-- `RagCtlError(message)`, a `RuntimeError`. -/
def ragCtlError (message : String) : PyError := runtimeError message

/-- From here on an `int` is too large for a `float`. -/
def floatLimit : ℕ := 2 ^ 1024 - 2 ^ 970

/-- `isinstance(value, (int, float)) and not isinstance(value, bool) and math.isfinite(value) and not value < 0`. -/
def isTiming : Json F → Except PyError Bool
  | .int n => if floatLimit ≤ n.natAbs then .error ⟨.otherException, "int too large to convert to float"⟩ else .ok (decide (0 ≤ n))
  | .num x => .ok (PyFloat.isFinite x && !PyFloat.isNegative x)
  | _ => .ok false

/-- The loop over `timings.items()`. -/
def checkTimings : Fields F → Except PyError Unit
  | [] => .ok ()
  | (name, value) :: timings =>
      match isTiming value with
      | .error e => .error e
      | .ok true => checkTimings timings
      | .ok false => .error (ragCtlError s!"RAG telemetry timing '{shown name}' is invalid")

/-- `set(timings) == set(CHAT_TIMING_KEYS)`. -/
def hasTimingKeys (timings : Fields F) : Bool :=
  let keys := timings.map Prod.fst
  let names := timingKeys.map TimingKey.name
  keys.all (names.contains ·) && names.all (keys.contains ·)

/-- `groups`. -/
def groundingGroups : List (String × List Text) :=
  [("Atlas guide", [lit "atlas", lit "guide"]), ("manager approval", [lit "manager", lit "approval"]),
    ("rollback checklist", [lit "rollback", lit "checklist"])]

/-- `missing`. -/
def missingGrounding (casefold : Text → Text) (answer : Text) : List String :=
  (groundingGroups.filter fun g => !g.2.all fun term => decide (term <:+: casefold answer)).map Prod.fst

/-- `validate_chat_result(events, answer_parts, telemetry, done_payload, verify_atlas_grounding)`. -/
def validateChatResult (casefold : Text → Text) (events answerParts : List Text) (telemetry donePayload : Option (Fields F))
    (verifyAtlasGrounding : Bool) : Except PyError (Text × Fields F) :=
  if lit "error" ∈ events then .error (ragCtlError "RAG stream contained an error event")
  else if events.count (lit "token") < 1 then .error (ragCtlError "RAG stream returned no tokens")
  else if events.count (lit "telemetry") ≠ 1 ∨ events.count (lit "done") ≠ 1 then
    .error (ragCtlError "RAG stream did not return exactly one telemetry and done event")
  else if events.drop (events.length - 2) ≠ [lit "telemetry", lit "done"] then
    .error (ragCtlError "RAG stream ordering was not token* -> telemetry -> done")
  else
    match telemetry, donePayload with
    | some telemetry, some _ =>
        match Json.get? telemetry (lit "timings_ms") with
        | some (.obj timings) =>
            if !hasTimingKeys timings then
              .error (ragCtlError "RAG telemetry does not match the documented timing schema")
            else
              match checkTimings timings with
              | .error e => .error e
              | .ok () =>
                  let missing := missingGrounding casefold answerParts.flatten
                  if verifyAtlasGrounding && !missing.isEmpty then
                    .error (ragCtlError ("Answer lacks required grounding: " ++ ", ".intercalate missing))
                  else .ok (answerParts.flatten, timings)
        | _ => .error (ragCtlError "RAG telemetry is missing timings_ms")
    | _, _ => .error (ragCtlError "RAG stream ended without telemetry or done")

/-- What the clients collect from the events. -/
structure Collected (F : Type) where
  /-- `event_names`, or the `events` of `ask`. -/
  eventNames : List Text
  /-- `answer_parts`. -/
  answerParts : List Text
  /-- `telemetry`. -/
  telemetry : Option (Fields F)
  /-- `done`, or `done_payload`. -/
  done : Option (Fields F)

/-- Nothing is collected. -/
def Collected.empty : Collected F := ⟨[], [], none, none⟩

/-- The loop of `ask` for one event. -/
def askEvent (c : Collected F) (e : SseEvent F) : Except PyError (Collected F) :=
  let c := { c with eventNames := c.eventNames ++ [e.name] }
  if e.name = lit "error" then .error (ragCtlError "RAG stream failed: ")
  else if e.name = lit "token" then
    match e.payload with
    | .obj payload =>
        match Json.get? payload (lit "text") with
        | some (.str t) =>
            if t.isEmpty then .error (ragCtlError "RAG stream returned an invalid token event")
            else .ok { c with answerParts := c.answerParts ++ [t] }
        | _ => .error (ragCtlError "RAG stream returned an invalid token event")
    | _ => .error (ragCtlError "RAG stream returned an invalid token event")
  else if e.name = lit "telemetry" then
    match c.telemetry, e.payload with
    | none, .obj payload => .ok { c with telemetry := some payload }
    | _, _ => .error (ragCtlError "RAG stream returned invalid telemetry")
  else if e.name = lit "done" then
    match c.done, e.payload with
    | none, .obj payload => .ok { c with done := some payload }
    | _, _ => .error (ragCtlError "RAG stream returned an invalid done event")
  else .error (ragCtlError s!"RAG stream returned unexpected event '{shown e.name}'")

/-- `ask` from the response to its validated result: the events are taken as they are read. -/
def askStream (casefold : Text → Text) (verifyAtlasGrounding : Bool) (read : List (SseEvent F) × Option PyError) :
    Except PyError (Text × Fields F) := do
  let c ← read.1.foldlM askEvent Collected.empty
  match read.2 with
  | some e => .error e
  | none => validateChatResult casefold c.eventNames c.answerParts c.telemetry c.done verifyAtlasGrounding

/-! ### `deployment/e2e_diagnostic_api.py` -/

/-- What the diagnostic client raises. -/
inductive ClientError where
  /-- `StreamContractError(code, message)`. -/
  | contract (code : Text) (message : String)
  /-- Anything else. -/
  | raised (e : PyError)
  deriving DecidableEq

/-- `_uuid(value, name)`. -/
def uuid (value : Option (Json F)) (name : String) : Except ClientError Text :=
  match value with
  | some (.str t) =>
      match Uuid.ofText t with
      | some u => .ok u.str
      | none => .error (.contract (lit "INVALID_RESPONSE") (name ++ " is invalid"))
  | _ => .error (.contract (lit "INVALID_RESPONSE") (name ++ " is missing"))

/-- `ValidatedStream`. -/
structure ValidatedStream (F : Type) where
  /-- `answer`. -/
  answer : Text
  /-- `request_id`. -/
  requestId : Text
  /-- `conversation_id`. -/
  conversationId : Text
  /-- `token_event_count`. -/
  tokenEventCount : ℕ
  /-- `answer_utf8_bytes`. -/
  answerUtf8Bytes : ℕ
  /-- `answer_chunks_sha256`. -/
  answerChunksSha256 : Text
  /-- `telemetry_schema_version`. -/
  telemetrySchemaVersion : Text
  /-- `timings_ms`. -/
  timingsMs : Fields F
  /-- `telemetry`. -/
  telemetry : Fields F

/-- `StreamContractError("INVALID_SSE_CONTRACT", message)`. -/
def sseError (message : String) : ClientError := .contract (lit "INVALID_SSE_CONTRACT") message

/-- `code if isinstance(code, str) and code else "CHAT_PROCESSING_FAILED"`. -/
def errorCode (code : Option (Json F)) : Text :=
  match code with
  | some (.str t) => if t.isEmpty then lit "CHAT_PROCESSING_FAILED" else t
  | _ => lit "CHAT_PROCESSING_FAILED"

/-- The loop of `validate_e2e_stream` for one event. -/
def collect (requestId : Text) (c : Collected F) (e : SseEvent F) : Except ClientError (Collected F) :=
  let c := { c with eventNames := c.eventNames ++ [e.name] }
  match e.payload with
  | .obj payload =>
      if !Json.isStr (Json.get? payload (lit "request_id")) requestId then
        .error (.contract (lit "REQUEST_ID_MISMATCH") "SSE request IDs do not match the response")
      else if e.name = lit "token" then
        match Json.get? payload (lit "text") with
        | some (.str t) =>
            if t.isEmpty then .error (sseError "Token event is malformed")
            else .ok { c with answerParts := c.answerParts ++ [t] }
        | _ => .error (sseError "Token event is malformed")
      else if e.name = lit "telemetry" then
        if c.telemetry.isSome then .error (sseError "Telemetry event is duplicated")
        else .ok { c with telemetry := some payload }
      else if e.name = lit "done" then
        if c.done.isSome then .error (sseError "Done event is duplicated")
        else .ok { c with done := some payload }
      else if e.name = lit "error" then
        .error (.contract (errorCode (Json.get? payload (lit "code"))) "RAG stream returned an error event")
      else .error (sseError "RAG stream returned an unknown event")
  | _ => .error (sseError "SSE payload must be an object")

/-- `except (TypeError, ValueError, RuntimeError)` around `validate_chat_result`. -/
def contractFault (e : PyError) : ClientError :=
  if e.kind = .typeError ∨ e.kind = .valueError ∨ e.kind.isRuntimeError then
    sseError "RAG stream violated its public contract"
  else .raised e

/-- `framed_content_digest("chat-qwen-answer-chunks-v1", (part.encode("utf-8") for part in answer_parts))`. -/
def answerChunksDigest (sha : List ℕ → Sha256) (answerParts : List Text) : Except PyError Text := do
  let parts ← answerParts.mapM encodeUtf8
  contentDigest sha (lit "chat-qwen-answer-chunks-v1") parts

/-- `validate_e2e_stream(events, response_request_id)`. -/
def validateE2eStream (casefold : Text → Text) (sha : List ℕ → Sha256) (events : List (SseEvent F))
    (responseRequestId : Option (Json F)) : Except ClientError (ValidatedStream F) := do
  let headerRequestId ← uuid responseRequestId "X-Request-ID"
  let c ← events.foldlM (collect headerRequestId) Collected.empty
  let (answer, timings) ←
    (validateChatResult casefold c.eventNames c.answerParts c.telemetry c.done false).mapError contractFault
  match c.telemetry with
  | none => .error (.contract (lit "INVALID_TELEMETRY_SCHEMA") "RAG telemetry schema is invalid")
  | some telemetry =>
      if !Json.isStr (Json.get? telemetry (lit "schema_version")) telemetrySchemaVersion then
        .error (.contract (lit "INVALID_TELEMETRY_SCHEMA") "RAG telemetry schema is invalid")
      else
        match c.done with
        | none => .error (sseError "Done event is missing")
        | some done => do
            let conversationId ← uuid (Json.get? done (lit "conversation_id")) "conversation_id"
            let bytes ← (encodeUtf8 answer).mapError .raised
            let digest ← (answerChunksDigest sha c.answerParts).mapError .raised
            return ⟨answer, headerRequestId, conversationId, c.eventNames.count (lit "token"), bytes.length, digest,
              telemetrySchemaVersion, timings, telemetry⟩

/-- `_partial_answer(events)`. -/
def partialAnswer (events : List (SseEvent F)) : Text :=
  (events.filterMap fun e =>
    match e.payload with
    | .obj payload =>
        if e.name ≠ lit "token" then none
        else
          match Json.get? payload (lit "text") with
          | some (.str t) => if t.isEmpty then none else some t
          | _ => none
    | _ => none).flatten

/-- What `response.iter_lines()` gives. -/
inductive ResponseLines where
  /-- The lines of a text, and the end. -/
  | ended (body : Text)
  /-- Some lines, and then it raises `httpx.HTTPError`. -/
  | broken (lines : List Text)

/-- `httpx.HTTPError`. -/
def transportError : PyError := ⟨.httpError, "transport"⟩

/-- What `iter_sse` makes of the lines. -/
def ResponseLines.events : ResponseLines → List (SseEvent F) × Option PyError
  | .ended body => received body
  | .broken lines => iterSse (some transportError) (lit "message") [] lines

/-- The response to a query, as far as the client got it. -/
structure StreamResponse where
  /-- `response.status_code`. -/
  statusCode : ℕ
  /-- `response.headers.get("X-Request-ID")`. -/
  requestId : Option Text
  /-- `response.headers.get("Content-Type", "")`. -/
  contentType : Text
  /-- Its lines. -/
  lines : ResponseLines

/-- How `_execute_query` goes on behind the response. -/
inductive Attempt (F : Type) where
  /-- With a validated stream. -/
  | validated (result : ValidatedStream F)
  /-- With an error code. -/
  | failed (code : Text)
  /-- It does not: the exception is not caught. -/
  | raised (e : PyError)

/-- The code for what is raised while the response is read. -/
def Attempt.ofError : ClientError → Attempt F
  | .contract code _ => .failed code
  | .raised e =>
      if e.kind = .httpError then .failed (lit "TRANSPORT_ERROR")
      -- a `ValueError` here is a `json.JSONDecodeError` or a `UnicodeError`
      else if e.kind = .valueError then .failed (lit "INVALID_SSE")
      else if e.kind = .typeError ∨ e.kind.isRuntimeError then .failed (lit "INVALID_RESPONSE")
      else .raised e

/-- The part of `_execute_query` that reads the response, if `client.stream` gives one: it raises `httpx.HTTPError` else. -/
def readResponse (casefold : Text → Text) (sha : List ℕ → Sha256) : Option StreamResponse → Attempt F
  | none => .ofError (.raised transportError)
  | some r =>
      if r.statusCode ≠ 200 then
        if r.statusCode = 401 ∨ r.statusCode = 403 then .failed (lit "AUTHENTICATION_FAILED")
        else .failed (lit "QUERY_HTTP_ERROR")
      else if lower (strip (partition [59] r.contentType).1) ≠ lit "text/event-stream" then
        .failed (lit "INVALID_CONTENT_TYPE")
      else
        match r.lines.events (F := F) with
        | (_, some e) => .ofError (.raised e)
        | (events, none) =>
            match validateE2eStream casefold sha events (r.requestId.map .str) with
            | .ok result => .validated result
            | .error e => .ofError e

/-! ### The public contract -/

/-- A token event of the request, with its text. -/
def IsToken (requestId : Text) (e : SseEvent F) (t : Text) : Prop :=
  e.name = lit "token" ∧ t ≠ [] ∧ ∃ payload, e.payload = .obj payload ∧
    Json.isStr (Json.get? payload (lit "request_id")) requestId = true ∧ Json.get? payload (lit "text") = some (.str t)

/-- The events of a request that was answered: its tokens, its telemetry and its end. -/
structure Public (requestId : Text) (events : List (SseEvent F)) (parts : List Text) (telemetry done : Fields F) : Prop where
  /-- There are tokens. -/
  nonempty : parts ≠ []
  /-- The order of the events. -/
  order : ∃ tokens, events = tokens ++ [⟨lit "telemetry", .obj telemetry⟩, ⟨lit "done", .obj done⟩] ∧
    List.Forall₂ (IsToken requestId) tokens parts
  /-- The telemetry is of the request. -/
  telemetryId : Json.isStr (Json.get? telemetry (lit "request_id")) requestId = true
  /-- So is the end. -/
  doneId : Json.isStr (Json.get? done (lit "request_id")) requestId = true

/-- The telemetry has the documented timings, each finite and not negative. -/
structure Timed (telemetry timings : Fields F) : Prop where
  /-- The field. -/
  field : Json.get? telemetry (lit "timings_ms") = some (.obj timings)
  /-- The keys. -/
  keys : hasTimingKeys timings = true
  /-- The values. -/
  values : ∀ f ∈ timings, isTiming f.2 = .ok true

theorem checkTimings_ok_iff {timings : Fields F} : checkTimings timings = .ok () ↔ ∀ f ∈ timings, isTiming f.2 = .ok true := by
  induction timings with
  | nil => simp [checkTimings]
  | cons f timings ih =>
    obtain ⟨name, value⟩ := f
    rw [checkTimings, List.forall_mem_cons]
    rcases isTiming value with e | b
    · simp
    · cases b with
      | false => simp
      | true => simp [ih]

/-- Where the last two of a list stand. -/
theorem last_two {α : Type} {l : List α} {a b : α} (h : l.drop (l.length - 2) = [a, b]) :
    ∃ init, l = init ++ [a, b] :=
  ⟨l.take (l.length - 2), by rw [← h, List.take_append_drop]⟩

/-- The names `validate_chat_result` accepts. -/
def Ordered (events : List Text) : Prop :=
  ∃ init, events = init ++ [lit "telemetry", lit "done"] ∧ lit "token" ∈ init ∧ lit "error" ∉ init ∧
    lit "telemetry" ∉ init ∧ lit "done" ∉ init

theorem ordered_iff {events : List Text} :
    Ordered events ↔ lit "error" ∉ events ∧ ¬ events.count (lit "token") < 1 ∧
      ¬ (events.count (lit "telemetry") ≠ 1 ∨ events.count (lit "done") ≠ 1) ∧
      events.drop (events.length - 2) = [lit "telemetry", lit "done"] := by
  have hcounts : ∀ name : Text, ∀ init : List Text, (init ++ [lit "telemetry", lit "done"]).count name =
      init.count name + [lit "telemetry", lit "done"].count name := fun name init => List.count_append
  have htoken : [lit "telemetry", lit "done"].count (lit "token") = 0 := by decide
  have htelemetry : [lit "telemetry", lit "done"].count (lit "telemetry") = 1 := by decide
  have hdone : [lit "telemetry", lit "done"].count (lit "done") = 1 := by decide
  constructor
  · rintro ⟨init, rfl, htok, herr, htel, hdon⟩
    have htok := List.count_pos_iff.mpr htok
    have htel := List.count_eq_zero.mpr htel
    have hdon := List.count_eq_zero.mpr hdon
    refine ⟨?_, ?_, ?_, ?_⟩
    · rw [List.mem_append, not_or]
      exact ⟨herr, by decide⟩
    · rw [hcounts]
      omega
    · rw [hcounts, hcounts]
      omega
    · simp
  · rintro ⟨herr, htok, hone, hlast⟩
    obtain ⟨init, rfl⟩ := last_two hlast
    rw [hcounts] at htok
    rw [hcounts, hcounts] at hone
    refine ⟨init, rfl, List.count_pos_iff.mp (by omega), fun h => herr (List.mem_append_left _ h), ?_, ?_⟩
    · exact List.count_eq_zero.mp (by omega)
    · exact List.count_eq_zero.mp (by omega)

/-- What `validate_chat_result` accepts. -/
theorem validateChatResult_ok_iff {casefold : Text → Text} {events parts : List Text} {telemetry done : Option (Fields F)}
    {verify : Bool} {r : Text × Fields F} :
    validateChatResult casefold events parts telemetry done verify = .ok r ↔
      Ordered events ∧ (∃ t timings, telemetry = some t ∧ Timed t timings ∧ r = (parts.flatten, timings)) ∧ done.isSome ∧
        (verify = true → missingGrounding casefold parts.flatten = []) := by
  rw [ordered_iff]
  unfold validateChatResult
  constructor
  · intro h
    split_ifs at h with herr htok hone hlast
    split at h
    case h_1 t d =>
      split at h
      case h_1 timings hfield =>
        split_ifs at h with hkeys
        cases hcheck : checkTimings timings with
        | error e =>
          rw [hcheck] at h
          cases h
        | ok u =>
          rw [hcheck] at h
          dsimp only at h
          split_ifs at h with hmissing
          cases h
          refine ⟨⟨herr, htok, hone, not_not.mp hlast⟩, ⟨t, timings, rfl, ⟨hfield, ?_, checkTimings_ok_iff.mp hcheck⟩, rfl⟩, rfl, ?_⟩
          · simpa using hkeys
          · intro hverify
            simpa [hverify] using hmissing
      case h_2 => cases h
    case h_2 => cases h
  · rintro ⟨⟨herr, htok, hone, hlast⟩, ⟨t, timings, rfl, ⟨hfield, hkeys, hvalues⟩, rfl⟩, hdone, hverify⟩
    obtain ⟨d, rfl⟩ := Option.isSome_iff_exists.mp hdone
    rw [if_neg herr, if_neg htok, if_neg hone, if_neg (not_not.mpr hlast)]
    simp only [hfield, hkeys, checkTimings_ok_iff.mpr hvalues, Bool.not_true, Bool.false_eq_true, if_false]
    cases verify with
    | false => rfl
    | true => simp [hverify rfl]

/-! ### The loop over the events -/

section Loop

omit [PyFloat F]

variable {requestId : Text} {c c' : Collected F} {e : SseEvent F}

/-- The turn of an event that is neither an error nor unknown. -/
inductive Turn (requestId : Text) (c : Collected F) : SseEvent F → Collected F → Prop where
  /-- A token. -/
  | token {e : SseEvent F} {t : Text} : IsToken requestId e t →
      Turn requestId c e { c with eventNames := c.eventNames ++ [e.name], answerParts := c.answerParts ++ [t] }
  /-- The telemetry. -/
  | telemetry {payload : Fields F} : c.telemetry = none →
      Json.isStr (Json.get? payload (lit "request_id")) requestId = true →
      Turn requestId c ⟨lit "telemetry", .obj payload⟩
        { c with eventNames := c.eventNames ++ [lit "telemetry"], telemetry := some payload }
  /-- The end. -/
  | done {payload : Fields F} : c.done = none →
      Json.isStr (Json.get? payload (lit "request_id")) requestId = true →
      Turn requestId c ⟨lit "done", .obj payload⟩
        { c with eventNames := c.eventNames ++ [lit "done"], done := some payload }

theorem collect_ok_iff : collect requestId c e = .ok c' ↔ Turn requestId c e c' := by
  obtain ⟨name, value⟩ := e
  constructor
  · intro h
    unfold collect at h
    dsimp only at h
    split at h
    case h_1 payload =>
      split_ifs at h with hid htoken htelemetry hsome hdone hsome herror
      · split at h
        case h_1 t htext =>
          split_ifs at h with hempty
          cases h
          refine .token ⟨htoken, ?_, payload, rfl, by simpa using hid, htext⟩
          simpa using hempty
        case h_2 => cases h
      · cases h
        subst htelemetry
        exact .telemetry (by simpa using hsome) (by simpa using hid)
      · cases h
        subst hdone
        exact .done (by simpa using hsome) (by simpa using hid)
    case h_2 => cases h
  · intro h
    generalize he : (⟨name, value⟩ : SseEvent F) = e at h
    cases h with
    | token ht =>
      obtain ⟨hname, hne, payload, hpayload, hid, htext⟩ := ht
      subst he
      dsimp only at hname hpayload
      simp [collect, hname, hpayload, hid, htext, hne]
    | telemetry hnone hid =>
      cases he
      simp [collect, hnone, hid, show lit "telemetry" ≠ lit "token" by decide]
    | done hnone hid =>
      cases he
      simp [collect, hnone, hid, show lit "done" ≠ lit "token" by decide, show lit "done" ≠ lit "telemetry" by decide]

theorem Turn.name (h : Turn requestId c e c') :
    c'.eventNames = c.eventNames ++ [e.name] ∧ (e.name = lit "token" ∨ e.name = lit "telemetry" ∨ e.name = lit "done") := by
  cases h with
  | token ht => exact ⟨rfl, .inl ht.1⟩
  | telemetry => exact ⟨rfl, .inr (.inl rfl)⟩
  | done => exact ⟨rfl, .inr (.inr rfl)⟩

theorem names_of_loop {events : List (SseEvent F)} (h : events.foldlM (collect requestId) c = .ok c') :
    c'.eventNames = c.eventNames ++ events.map SseEvent.name := by
  induction events generalizing c with
  | nil =>
    cases h
    simp
  | cons e events ih =>
    rw [List.foldlM_cons, bind_eq_ok_iff] at h
    obtain ⟨c₁, hturn, hrest⟩ := h
    rw [ih hrest, (collect_ok_iff.mp hturn).name.1]
    simp

theorem public_of_loop {events : List (SseEvent F)} (h : events.foldlM (collect requestId) c = .ok c') :
    ∀ e ∈ events, e.name = lit "token" ∨ e.name = lit "telemetry" ∨ e.name = lit "done" := by
  intro e he
  obtain ⟨s, t, hturn⟩ := foldlM_turn he h
  exact (collect_ok_iff.mp hturn).name.2

/-- The loop over tokens collects their texts. -/
theorem loop_tokens_iff {tokens : List (SseEvent F)} (hname : ∀ e ∈ tokens, e.name = lit "token") :
    tokens.foldlM (collect requestId) c = .ok c' ↔ ∃ parts, List.Forall₂ (IsToken requestId) tokens parts ∧
      c' = { c with eventNames := c.eventNames ++ tokens.map SseEvent.name, answerParts := c.answerParts ++ parts } := by
  have htelemetry : lit "telemetry" ≠ lit "token" := by decide
  have hdone : lit "done" ≠ lit "token" := by decide
  induction tokens generalizing c with
  | nil =>
    simp only [List.foldlM_nil, pure, Except.pure, Except.ok.injEq, List.forall₂_nil_left_iff, exists_eq_left, List.map_nil,
      List.append_nil]
    exact eq_comm
  | cons e tokens ih =>
    obtain ⟨he, htokens⟩ := List.forall_mem_cons.mp hname
    rw [List.foldlM_cons, bind_eq_ok_iff]
    constructor
    · rintro ⟨c₁, hturn, hrest⟩
      obtain ⟨parts, hparts, rfl⟩ := (ih htokens).mp hrest
      cases collect_ok_iff.mp hturn with
      | token ht => exact ⟨_, .cons ht hparts, by simp⟩
      | telemetry => exact absurd he htelemetry
      | done => exact absurd he hdone
    · rintro ⟨parts, hparts, rfl⟩
      cases hparts with
      | cons ht hparts =>
        refine ⟨_, collect_ok_iff.mpr (.token ht), (ih htokens).mpr ⟨_, hparts, by simp⟩⟩

/-- The loop over the events of a request that was answered. -/
theorem loop_public {events : List (SseEvent F)} {parts : List Text} {telemetry done : Fields F}
    (h : Public requestId events parts telemetry done) :
    events.foldlM (collect requestId) Collected.empty = .ok ⟨events.map SseEvent.name, parts, some telemetry, some done⟩ := by
  obtain ⟨tokens, rfl, htokens⟩ := h.order
  have hname : ∀ e ∈ tokens, e.name = lit "token" := fun e he => by
    obtain ⟨t, -, ht⟩ := forall₂_left htokens he
    exact ht.1
  rw [List.foldlM_append, bind_eq_ok_iff]
  refine ⟨_, (loop_tokens_iff hname).mpr ⟨parts, htokens, rfl⟩, ?_⟩
  rw [List.foldlM_cons, bind_eq_ok_iff]
  refine ⟨_, collect_ok_iff.mpr (.telemetry rfl h.telemetryId), ?_⟩
  rw [List.foldlM_cons, bind_eq_ok_iff]
  exact ⟨_, collect_ok_iff.mpr (.done rfl h.doneId), by simp [Collected.empty, pure, Except.pure]⟩

/-- Where the names have the order of the contract, so have the events. -/
theorem public_of_ordered {events : List (SseEvent F)} (h : events.foldlM (collect requestId) Collected.empty = .ok c)
    (hordered : Ordered c.eventNames) : ∃ telemetry done, c.telemetry = some telemetry ∧ c.done = some done ∧
      Public requestId events c.answerParts telemetry done := by
  obtain ⟨init, hnames, htok, -, htel, hdon⟩ := hordered
  rw [names_of_loop h, Collected.empty, List.nil_append, List.map_eq_append_iff] at hnames
  obtain ⟨tokens, last, rfl, rfl, hlast⟩ := hnames
  rw [List.map_eq_cons_iff] at hlast
  obtain ⟨e₁, last, rfl, he₁, hlast⟩ := hlast
  rw [List.map_eq_cons_iff] at hlast
  obtain ⟨e₂, last, rfl, he₂, hlast⟩ := hlast
  obtain rfl := List.map_eq_nil_iff.mp hlast
  -- what is in front of the last two are tokens
  have hname : ∀ e ∈ tokens, e.name = lit "token" := by
    intro e he
    have hmem : e.name ∈ tokens.map SseEvent.name := List.mem_map_of_mem he
    rcases public_of_loop h e (List.mem_append_left _ he) with htoken | htelemetry | hdone
    · exact htoken
    · exact absurd (htelemetry ▸ hmem) htel
    · exact absurd (hdone ▸ hmem) hdon
  rw [List.foldlM_append, bind_eq_ok_iff] at h
  obtain ⟨c₁, hloop, h⟩ := h
  obtain ⟨parts, hparts, rfl⟩ := (loop_tokens_iff hname).mp hloop
  rw [List.foldlM_cons, bind_eq_ok_iff] at h
  obtain ⟨c₂, hturn₁, h⟩ := h
  rw [List.foldlM_cons, bind_eq_ok_iff] at h
  obtain ⟨c₃, hturn₂, h⟩ := h
  cases h
  have hne : parts ≠ [] := by
    rintro rfl
    cases hparts
    cases htok
  have htoktel : lit "token" ≠ lit "telemetry" := by decide
  have htokdon : lit "token" ≠ lit "done" := by decide
  have hdontel : lit "done" ≠ lit "telemetry" := by decide
  cases collect_ok_iff.mp hturn₁ with
  | token ht => exact absurd (ht.1.symm.trans he₁) htoktel
  | done => exact absurd he₁ hdontel
  | telemetry hnone hid =>
    cases collect_ok_iff.mp hturn₂ with
    | token ht => exact absurd (ht.1.symm.trans he₂) htokdon
    | telemetry => exact absurd he₂ hdontel.symm
    | done hnone' hid' => exact ⟨_, _, rfl, rfl, ⟨hne, ⟨tokens, rfl, by simpa [Collected.empty] using hparts⟩, hid, hid'⟩⟩

theorem ordered_of_public {events : List (SseEvent F)} {parts : List Text} {telemetry done : Fields F}
    (h : Public requestId events parts telemetry done) : Ordered (events.map SseEvent.name) := by
  obtain ⟨tokens, rfl, htokens⟩ := h.order
  have hname : ∀ n ∈ tokens.map SseEvent.name, n = lit "token" := by
    intro n hn
    obtain ⟨e, he, rfl⟩ := List.mem_map.mp hn
    obtain ⟨t, -, ht⟩ := forall₂_left htokens he
    exact ht.1
  have hnot : ∀ n, n ≠ lit "token" → n ∉ tokens.map SseEvent.name := fun n hne hn => hne (hname n hn)
  refine ⟨tokens.map SseEvent.name, by simp, ?_, hnot _ (by decide), hnot _ (by decide), hnot _ (by decide)⟩
  cases htokens with
  | nil => exact absurd rfl h.nonempty
  | cons ht _ => exact List.mem_cons.mpr (.inl ht.1.symm)

end Loop

/-! ### What is accepted -/

omit [PyFloat F] in
/-- There are as many token events as parts of the answer. -/
theorem count_tokens {requestId : Text} {events : List (SseEvent F)} {parts : List Text} {telemetry done : Fields F}
    (h : Public requestId events parts telemetry done) : (events.map SseEvent.name).count (lit "token") = parts.length := by
  obtain ⟨tokens, rfl, htokens⟩ := h.order
  have hnames : tokens.map SseEvent.name = List.replicate tokens.length (lit "token") := by
    refine List.eq_replicate_iff.mpr ⟨List.length_map _, fun n hn => ?_⟩
    obtain ⟨e, he, rfl⟩ := List.mem_map.mp hn
    obtain ⟨t, -, ht⟩ := forall₂_left htokens he
    exact ht.1
  have hlast : [lit "telemetry", lit "done"].count (lit "token") = 0 := by decide
  rw [List.map_append, List.count_append, hnames, List.count_replicate_self, List.map_cons, List.map_cons, List.map_nil, hlast,
    htokens.length_eq, Nat.add_zero]

/-- What `validate_e2e_stream` makes of a stream of the public contract. -/
def Contract (sha : List ℕ → Sha256) (events : List (SseEvent F)) (header : Option (Json F)) (v : ValidatedStream F) : Prop :=
  ∃ parts telemetry done timings bytes digest,
    uuid header "X-Request-ID" = .ok v.requestId ∧ Public v.requestId events parts telemetry done ∧
    Timed telemetry timings ∧ Json.isStr (Json.get? telemetry (lit "schema_version")) telemetrySchemaVersion = true ∧
    uuid (Json.get? done (lit "conversation_id")) "conversation_id" = .ok v.conversationId ∧
    encodeUtf8 parts.flatten = .ok bytes ∧ answerChunksDigest sha parts = .ok digest ∧
    v = ⟨parts.flatten, v.requestId, v.conversationId, parts.length, bytes.length, digest, telemetrySchemaVersion, timings,
      telemetry⟩

section Contract

variable {casefold : Text → Text} {sha : List ℕ → Sha256} {events : List (SseEvent F)} {header : Option (Json F)}
  {v : ValidatedStream F}

theorem contract_of_ok (h : validateE2eStream casefold sha events header = .ok v) : Contract sha events header v := by
  unfold validateE2eStream at h
  obtain ⟨requestId, hid, h⟩ := bind_eq_ok_iff.mp h
  obtain ⟨c, hloop, h⟩ := bind_eq_ok_iff.mp h
  obtain ⟨⟨answer, timings⟩, hresult, h⟩ := bind_eq_ok_iff.mp h
  obtain ⟨hordered, ⟨t, timings', ht, htimed, hpair⟩, -, -⟩ := validateChatResult_ok_iff.mp (mapError_eq_ok_iff.mp hresult)
  obtain ⟨rfl, rfl⟩ := Prod.mk.inj hpair
  obtain ⟨telemetry, done, htelemetry, hdone, hpublic⟩ := public_of_ordered hloop hordered
  obtain rfl : telemetry = t := Option.some.inj (htelemetry.symm.trans ht)
  have hnames := names_of_loop hloop
  rw [Collected.empty, List.nil_append] at hnames
  rw [htelemetry, hdone] at h
  dsimp only at h
  split_ifs at h with hschema
  obtain ⟨conversationId, hconversation, h⟩ := bind_eq_ok_iff.mp h
  obtain ⟨bytes, hbytes, h⟩ := bind_eq_ok_iff.mp h
  obtain ⟨digest, hdigest, h⟩ := bind_eq_ok_iff.mp h
  cases h
  rw [hnames, count_tokens hpublic]
  exact ⟨c.answerParts, telemetry, done, timings, bytes, digest, hid, hpublic, htimed, by simpa using hschema,
    hconversation, mapError_eq_ok_iff.mp hbytes, mapError_eq_ok_iff.mp hdigest, rfl⟩

theorem ok_of_contract (h : Contract sha events header v) : validateE2eStream casefold sha events header = .ok v := by
  obtain ⟨parts, telemetry, done, timings, bytes, digest, hid, hpublic, htimed, hschema, hconversation, hbytes, hdigest, hv⟩ := h
  refine bind_eq_ok_iff.mpr ⟨_, hid, bind_eq_ok_iff.mpr ⟨_, loop_public hpublic, bind_eq_ok_iff.mpr
    ⟨(parts.flatten, timings), ?_, ?_⟩⟩⟩
  · refine mapError_eq_ok_iff.mpr (validateChatResult_ok_iff.mpr
      ⟨ordered_of_public hpublic, ⟨telemetry, timings, rfl, htimed, rfl⟩, rfl, fun h => absurd h (by decide)⟩)
  · dsimp only
    rw [hschema, if_neg (by decide)]
    refine bind_eq_ok_iff.mpr ⟨_, hconversation, bind_eq_ok_iff.mpr ⟨bytes, mapError_eq_ok_iff.mpr hbytes,
      bind_eq_ok_iff.mpr ⟨digest, mapError_eq_ok_iff.mpr hdigest, ?_⟩⟩⟩
    rw [count_tokens hpublic]
    exact congrArg Except.ok hv.symm

/-- **The public contract**: `validate_e2e_stream` accepts exactly its streams. -/
theorem validateE2eStream_ok_iff :
    validateE2eStream casefold sha events header = .ok v ↔ Contract sha events header v :=
  ⟨contract_of_ok, ok_of_contract⟩

end Contract

/-! ### The other client -/

section Ask

omit [PyFloat F]

variable {requestId : Text}

theorem askEvent_of_turn {c c' : Collected F} {e : SseEvent F} (h : Turn requestId c e c') : askEvent c e = .ok c' := by
  cases h with
  | token ht =>
    obtain ⟨name, value⟩ := e
    obtain ⟨hname, hne, payload, hpayload, -, htext⟩ := ht
    dsimp only at hname hpayload
    simp [askEvent, hname, hpayload, htext, hne, show lit "token" ≠ lit "error" by decide]
  | telemetry hnone =>
    simp [askEvent, hnone, show lit "telemetry" ≠ lit "error" by decide, show lit "telemetry" ≠ lit "token" by decide]
  | done hnone =>
    simp [askEvent, hnone, show lit "done" ≠ lit "error" by decide, show lit "done" ≠ lit "token" by decide,
      show lit "done" ≠ lit "telemetry" by decide]

/-- Where the loop of the diagnostic client ends, that of `ask` ends with the same. -/
theorem askEvent_loop {events : List (SseEvent F)} {c c' : Collected F} (h : events.foldlM (collect requestId) c = .ok c') :
    events.foldlM askEvent c = .ok c' := by
  induction events generalizing c with
  | nil =>
    cases h
    rfl
  | cons e events ih =>
    rw [List.foldlM_cons, bind_eq_ok_iff] at h
    obtain ⟨c₁, hturn, hrest⟩ := h
    rw [List.foldlM_cons, bind_eq_ok_iff]
    exact ⟨c₁, askEvent_of_turn (collect_ok_iff.mp hturn), ih hrest⟩

end Ask

/-- What the diagnostic client accepts, `ask` accepts, with the same answer and timings. -/
theorem askStream_of_validated {casefold : Text → Text} {sha : List ℕ → Sha256} {events : List (SseEvent F)}
    {header : Option (Json F)} {v : ValidatedStream F} (h : validateE2eStream casefold sha events header = .ok v) :
    askStream casefold false (events, none) = .ok (v.answer, v.timingsMs) := by
  obtain ⟨parts, telemetry, done, timings, bytes, digest, -, hpublic, htimed, -, -, -, -, hv⟩ := contract_of_ok h
  rw [hv]
  unfold askStream
  refine bind_eq_ok_iff.mpr ⟨_, askEvent_loop (loop_public hpublic), ?_⟩
  exact validateChatResult_ok_iff.mpr
    ⟨ordered_of_public hpublic, ⟨telemetry, timings, rfl, htimed, rfl⟩, rfl, fun h => absurd h (by decide)⟩

end ChatClient

end TenantRag

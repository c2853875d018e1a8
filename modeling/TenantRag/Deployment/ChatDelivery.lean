import TenantRag.Api.ChatOutcomes
import TenantRag.Deployment.ChatClient

/-!
# From the server's answer to the client's

The streams of `Api.ChatSystem`, written by `_sse`, received up to any character, and read by the
clients of the repository: what a client makes of a response says what the server did.

## The model

The response of a request is the text of its frames, in the order they were sent; a client gets a
prefix of it, or the connection fails behind some of its lines. The response carries the identifier of the request, which is the text of a UUID, and
the media type that FastAPI gives an event stream. The parts of an answer were decoded from UTF-8, and
times are differences of `perf_counter`.

## What is proved

* `readResponse_validated_iff` — the client accepts exactly what it received of a stream that sent `done`, where the
  connection did not fail and nothing but the end of the last frame is missing, and what it makes of it is determined by
  the request; a connection that fails is reported as that.
* `delivered_run` — so an answer that a client accepts is the answer that was persisted and recorded.
* `error_run` — a response that ends with an error is reported as one, and nothing of its conversation is kept.
-/

namespace TenantRag

namespace ChatDelivery

open ChatSystem StreamState EventStream ChatClient Json

variable {F : Type} [PyFloat F] {S : RegistrySettings} {user : Text}

/-! ### The frames can be read -/

theorem unpaired_lit {s : String} (h : encodable (lit s) = true) : Unpaired (lit s) := unpaired_of_encodable h

theorem unpaired_str (u : Uuid) : Unpaired u.str := by
  refine unpaired_of_encodable (List.all_eq_true.mpr fun c hc => ?_)
  have hhex : ∀ d : Digit, (!isSurrogate (hexChar d)) = true := by decide
  rcases Uuid.mem_str hc with rfl | ⟨d, rfl⟩
  · decide
  · exact hhex d

/-- Members with texts only. -/
theorem plain_texts {ms : List (Text × Text)} (hkeys : (ms.map Prod.fst).Nodup) (h : ∀ m ∈ ms, Unpaired m.1 ∧ Unpaired m.2) :
    Plain (.obj (ms.map fun m => (m.1, (.str m.2 : Json F)))) := by
  refine ⟨by simpa [Function.comp_def] using hkeys, plainFields_iff.mpr fun f hf => ?_⟩
  obtain ⟨m, hm, rfl⟩ := List.mem_map.mp hf
  exact h m hm

theorem framed_texts {name : String} (ms : List (Text × Text))
    (hname : ((lit name).all fun c => decide (32 ≤ c.val ∧ c.val ≤ 126)) = true) (hkeys : (ms.map Prod.fst).Nodup)
    (h : ∀ m ∈ ms, Unpaired m.1 ∧ Unpaired m.2) : Framed (⟨lit name, .obj (ms.map fun m => (m.1, .str m.2))⟩ : SseEvent F) :=
  ⟨(printable_lit hname).line, _, rfl, plain_texts hkeys h⟩

section Frames

variable {st : StreamState F}

theorem framed_token (hid : Unpaired st.request.correlationId) {part : Text} (h : Unpaired part) :
    Framed (⟨lit "token", tokenPayload st.request part⟩ : SseEvent F) :=
  framed_texts [(lit "request_id", st.request.correlationId), (lit "text", part)] (by decide)
    (show [lit "request_id", lit "text"].Nodup by decide) (by
      simp only [List.mem_cons, List.not_mem_nil, or_false, forall_eq_or_imp, forall_eq]
      exact ⟨⟨unpaired_lit (by decide), hid⟩, unpaired_lit (by decide), h⟩)

theorem framed_done (hid : Unpaired st.request.correlationId) : Framed st.doneEvent :=
  framed_texts [(lit "request_id", st.request.correlationId), (lit "conversation_id", st.request.conversationId.str)]
    (by decide) (show [lit "request_id", lit "conversation_id"].Nodup by decide) (by
      simp only [List.mem_cons, List.not_mem_nil, or_false, forall_eq_or_imp, forall_eq]
      exact ⟨⟨unpaired_lit (by decide), hid⟩, unpaired_lit (by decide), unpaired_str _⟩)

theorem framed_error (hid : Unpaired st.request.correlationId) : Framed st.errorEvent :=
  framed_texts [(lit "code", lit "CHAT_PROCESSING_FAILED"), (lit "message", lit "The response could not be completed."),
    (lit "request_id", st.request.correlationId)] (by decide)
    (show [lit "code", lit "message", lit "request_id"].Nodup by decide) (by
      simp only [List.mem_cons, List.not_mem_nil, or_false, forall_eq_or_imp, forall_eq]
      exact ⟨⟨unpaired_lit (by decide), unpaired_lit (by decide)⟩, ⟨unpaired_lit (by decide), unpaired_lit (by decide)⟩,
        unpaired_lit (by decide), hid⟩)

/-- The timings are numbers that can be read. -/
theorem plain_timings {t : TelemetryCollector F} (hnan : ∀ x : F, PyFloat.isFinite x = true → PyFloat.isNaN x = false)
    (h : AllElapsed t) : Plain (.obj t.timings) := by
  have hnames : ∀ k ∈ timingKeys, encodable k.name = true := by decide
  refine ⟨?_, plainFields_iff.mpr fun f hf => ?_⟩
  · rw [TelemetryCollector.timings, List.map_map]
    exact (by decide : (timingKeys.map TimingKey.name).Nodup)
  · obtain ⟨k, hk, rfl⟩ := List.mem_map.mp hf
    have hfinite := PyFloat.round3_finite _ (PyFloat.maxZero_finite _ (h k).1)
    exact ⟨unpaired_of_encodable (hnames k hk), hfinite, hnan _ hfinite⟩

/-- The members of the telemetry's payload. -/
def telemetryFields (st : StreamState F) : Fields F :=
  [(lit "schema_version", .str telemetrySchemaVersion), (lit "request_id", .str st.request.correlationId),
    (lit "timings_ms", .obj st.telemetry.timings)]

theorem telemetryEvent_eq (st : StreamState F) : st.telemetryEvent = ⟨lit "telemetry", .obj (telemetryFields st)⟩ := rfl

theorem plain_telemetryFields (hid : Unpaired st.request.correlationId)
    (hnan : ∀ x : F, PyFloat.isFinite x = true → PyFloat.isNaN x = false) (h : AllElapsed st.telemetry) :
    Plain (.obj (telemetryFields st)) := by
  have hversion : Unpaired telemetrySchemaVersion := unpaired_of_encodable (by decide)
  have hkeys : (telemetryFields st).map Prod.fst = [lit "schema_version", lit "request_id", lit "timings_ms"] := rfl
  refine ⟨by rw [hkeys]; decide, plainFields_iff.mpr fun f hf => ?_⟩
  rw [telemetryFields, List.mem_cons, List.mem_cons, List.mem_singleton] at hf
  rcases hf with rfl | rfl | rfl
  · exact ⟨unpaired_lit (by decide), hversion⟩
  · exact ⟨unpaired_lit (by decide), hid⟩
  · exact ⟨unpaired_lit (by decide), plain_timings hnan h⟩

theorem framed_telemetry (hid : Unpaired st.request.correlationId)
    (hnan : ∀ x : F, PyFloat.isFinite x = true → PyFloat.isNaN x = false) (h : AllElapsed st.telemetry) :
    Framed st.telemetryEvent := by
  rw [telemetryEvent_eq]
  exact ⟨(printable_lit (by decide)).line, _, rfl, plain_telemetryFields hid hnan h⟩

/-- The frames of a request can be read. -/
theorem framed_transcript {ending : Ending} {events : List (SseEvent F)} (h : Transcript st ending events)
    (hid : Unpaired st.request.correlationId) (hparts : ∀ part ∈ st.parts, Unpaired part)
    (hnan : ∀ x : F, PyFloat.isFinite x = true → PyFloat.isNaN x = false) (ht : AllElapsed st.telemetry) :
    ∀ e ∈ events, Framed e := by
  have htelemetry := framed_telemetry hid hnan ht
  have hdone := framed_done hid
  have herror := framed_error hid
  intro e he
  rw [h.frames, List.mem_append] at he
  rcases he with he | he
  · obtain ⟨part, hpart, rfl⟩ := List.mem_map.mp he
    exact framed_token hid (hparts part hpart)
  · cases ending <;> simp only [Ending.events, List.mem_cons, List.not_mem_nil, or_false] at he
    · rw [he]
      exact htelemetry
    · rcases he with rfl | rfl
      · exact htelemetry
      · exact hdone
    · rw [he]
      exact herror

end Frames

/-! ### What the client makes of them -/

section Validated

variable {st : StreamState F} {events : List (SseEvent F)} {sha : List ℕ → Sha256} {casefold : Text → Text}

/-- The members of the payload of `done`. -/
def doneFields (st : StreamState F) : Fields F :=
  [(lit "request_id", .str st.request.correlationId), (lit "conversation_id", .str st.request.conversationId.str)]

/-- What a client makes of the stream of a request. -/
def validatedOf (sha : List ℕ → Sha256) (st : StreamState F) : ValidatedStream F where
  answer := st.parts.flatten
  requestId := st.request.correlationId
  conversationId := st.request.conversationId.str
  tokenEventCount := st.parts.length
  answerUtf8Bytes := (st.parts.flatten.flatMap utf8Bytes).length
  answerChunksSha256 := (sha (framed ((lit "chat-qwen-answer-chunks-v1").map Fin.val)
    (st.parts.map fun part => part.flatMap utf8Bytes))).hexdigest
  telemetrySchemaVersion := telemetrySchemaVersion
  timingsMs := st.telemetry.timings
  telemetry := telemetryFields st

omit [PyFloat F] in
theorem isStr_str (t : Text) : Json.isStr (some (.str t : Json F)) t = true := decide_eq_true rfl

omit [PyFloat F] in
/-- A member of a payload whose keys are known. -/
theorem get?_keyed {fields : Fields F} {keys : List Text} (hkeys : fields.map Prod.fst = keys) (hnodup : keys.Nodup)
    {f : Text × Json F} (hf : f ∈ fields) : Json.get? fields f.1 = some f.2 :=
  get?_of_mem (hkeys ▸ hnodup) hf

/-- The members of the payload of a token. -/
def tokenFields (st : StreamState F) (part : Text) : Fields F :=
  [(lit "request_id", .str st.request.correlationId), (lit "text", .str part)]

omit [PyFloat F] in
theorem isToken_tokenPayload {part : Text} (h : part ≠ []) :
    IsToken st.request.correlationId (⟨lit "token", tokenPayload st.request part⟩ : SseEvent F) part := by
  have hkeys : (tokenFields st part).map Prod.fst = [lit "request_id", lit "text"] := rfl
  refine ⟨rfl, h, tokenFields st part, rfl, ?_, ?_⟩
  · have hget := get?_keyed (f := (lit "request_id", .str st.request.correlationId)) hkeys (by decide) List.mem_cons_self
    rw [hget]
    exact isStr_str _
  · exact get?_keyed (f := (lit "text", .str part)) hkeys (by decide) (List.mem_cons_of_mem _ List.mem_cons_self)

theorem get?_telemetryFields : Json.get? (telemetryFields st) (lit "schema_version") = some (.str telemetrySchemaVersion) ∧
    Json.get? (telemetryFields st) (lit "request_id") = some (.str st.request.correlationId) ∧
    Json.get? (telemetryFields st) (lit "timings_ms") = some (.obj st.telemetry.timings) := by
  have hkeys : (telemetryFields st).map Prod.fst = [lit "schema_version", lit "request_id", lit "timings_ms"] := rfl
  have hmem : ∀ f ∈ telemetryFields st, Json.get? (telemetryFields st) f.1 = some f.2 := fun f hf => get?_keyed hkeys (by decide) hf
  exact ⟨hmem _ List.mem_cons_self, hmem _ (List.mem_cons_of_mem _ List.mem_cons_self),
    hmem _ (List.mem_cons_of_mem _ (List.mem_cons_of_mem _ List.mem_cons_self))⟩

omit [PyFloat F] in
theorem get?_doneFields : Json.get? (doneFields st) (lit "request_id") = some (.str st.request.correlationId) ∧
    Json.get? (doneFields st) (lit "conversation_id") = some (.str st.request.conversationId.str) := by
  have hkeys : (doneFields st).map Prod.fst = [lit "request_id", lit "conversation_id"] := rfl
  have hmem : ∀ f ∈ doneFields st, Json.get? (doneFields st) f.1 = some f.2 := fun f hf => get?_keyed hkeys (by decide) hf
  exact ⟨hmem _ List.mem_cons_self, hmem _ (List.mem_cons_of_mem _ List.mem_cons_self)⟩

/-- The members of the payload of `error`. -/
def errorFields (st : StreamState F) : Fields F :=
  [(lit "code", .str (lit "CHAT_PROCESSING_FAILED")), (lit "message", .str (lit "The response could not be completed.")),
    (lit "request_id", .str st.request.correlationId)]

omit [PyFloat F] in
theorem get?_errorFields : Json.get? (errorFields st) (lit "code") = some (.str (lit "CHAT_PROCESSING_FAILED")) ∧
    Json.get? (errorFields st) (lit "request_id") = some (.str st.request.correlationId) := by
  have hkeys : (errorFields st).map Prod.fst = [lit "code", lit "message", lit "request_id"] := rfl
  have hmem : ∀ f ∈ errorFields st, Json.get? (errorFields st) f.1 = some f.2 := fun f hf => get?_keyed hkeys (by decide) hf
  exact ⟨hmem _ List.mem_cons_self, hmem _ (List.mem_cons_of_mem _ (List.mem_cons_of_mem _ List.mem_cons_self))⟩

/-- The stream of a request that sent `done` is one of the public contract. -/
theorem public_completed (h : Transcript st .completed events) (hne : st.parts ≠ []) :
    Public st.request.correlationId events st.parts (telemetryFields st) (doneFields st) where
  nonempty := hne
  order := by
    refine ⟨st.tokenEvents, h.frames, ?_⟩
    rw [tokenEvents, List.forall₂_map_left_iff, List.forall₂_same]
    exact fun part hpart => isToken_tokenPayload (h.nonempty part hpart)
  telemetryId := by
    rw [get?_telemetryFields.2.1]
    exact isStr_str _
  doneId := by
    rw [get?_doneFields.1]
    exact isStr_str _

/-- Its telemetry has the documented timings. -/
theorem timed_telemetryFields (h : AllElapsed st.telemetry) : Timed (telemetryFields st) st.telemetry.timings where
  field := get?_telemetryFields.2.2
  keys := by
    have hkeys : st.telemetry.timings.map Prod.fst = timingKeys.map TimingKey.name := by
      rw [TelemetryCollector.timings, List.map_map]
      rfl
    rw [hasTimingKeys, hkeys]
    decide
  values := by
    intro f hf
    obtain ⟨k, -, rfl⟩ := List.mem_map.mp hf
    have hfinite := PyFloat.round3_finite _ (PyFloat.maxZero_finite _ (h k).1)
    have hnonneg := PyFloat.round3_nonneg _ (PyFloat.maxZero_nonneg (st.telemetry.values k))
    rw [isTiming, hfinite, hnonneg]
    rfl

omit [PyFloat F] in
theorem uuid_str (u : Uuid) (name : String) : uuid (some (.str u.str : Json F)) name = .ok u.str := by
  rw [uuid, Uuid.ofText_str]

/-- What `validate_e2e_stream` makes of the stream of a request that sent `done`. -/
theorem validate_completed (h : Transcript st .completed events) (hne : st.parts ≠ []) (ht : AllElapsed st.telemetry)
    (hparts : ∀ part ∈ st.parts, encodable part = true) {u : Uuid} (hid : st.request.correlationId = u.str) :
    validateE2eStream casefold sha events (some (.str st.request.correlationId)) = .ok (validatedOf sha st) := by
  refine ok_of_contract ⟨st.parts, telemetryFields st, doneFields st, st.telemetry.timings,
    st.parts.flatten.flatMap utf8Bytes, _, ?_, public_completed h hne, timed_telemetryFields ht, ?_, ?_, ?_, ?_, rfl⟩
  · rw [hid, uuid_str, validatedOf, hid]
  · rw [get?_telemetryFields.1]
    exact isStr_str _
  · rw [get?_doneFields.2, uuid_str]
    rfl
  · exact encodeUtf8_of_encodable (encodable_flatten hparts)
  · rw [answerChunksDigest]
    exact bind_eq_ok_iff.mpr ⟨_, mapM_ok fun part hpart => encodeUtf8_of_encodable (hparts part hpart),
      contentDigest_ok (by decide) sha _⟩

/-- What it makes of the stream of a request that sent `error`. -/
theorem validate_failed (h : Transcript st .failed events) {u : Uuid} (hid : st.request.correlationId = u.str) :
    validateE2eStream casefold sha events (some (.str st.request.correlationId)) =
      .error (.contract (lit "CHAT_PROCESSING_FAILED") "RAG stream returned an error event") := by
  have hname : ∀ e ∈ st.tokenEvents, e.name = lit "token" := by
    intro e he
    obtain ⟨part, -, rfl⟩ := List.mem_map.mp he
    rfl
  have htokens : List.Forall₂ (IsToken st.request.correlationId) st.tokenEvents st.parts := by
    rw [tokenEvents, List.forall₂_map_left_iff, List.forall₂_same]
    exact fun part hpart => isToken_tokenPayload (h.nonempty part hpart)
  have herror : ∀ c : Collected F, collect st.request.correlationId c ⟨lit "error", .obj (errorFields st)⟩ =
      .error (.contract (lit "CHAT_PROCESSING_FAILED") "RAG stream returned an error event") := by
    intro c
    simp only [collect, get?_errorFields.1, get?_errorFields.2, isStr_str]
    rfl
  have hloop : events.foldlM (collect st.request.correlationId) Collected.empty =
      .error (.contract (lit "CHAT_PROCESSING_FAILED") "RAG stream returned an error event") := by
    rw [h.frames, List.foldlM_append, (loop_tokens_iff hname).mpr ⟨st.parts, htokens, rfl⟩]
    exact congrArg (· >>= _) (herror _)
  have huuid : uuid (some (.str st.request.correlationId : Json F)) "X-Request-ID" = .ok st.request.correlationId := by
    rw [hid, uuid_str]
  simp only [validateE2eStream, huuid]
  simp only [bind, Except.bind, hloop]

end Validated

/-! ### Runs -/

section Runs

variable {casefold : Text → Text} {sha : List ℕ → Sha256} {m : ℕ} {hm : 0 < m} {as : List (Action F)} {s : ChatSystem F}
  {frames : List (ℕ × SseEvent F)} {i : ℕ} {st : StreamState F} {u : Uuid}

/-- What the environment of a run is known for. -/
structure Ordinary (as : List (Action F)) : Prop where
  /-- No conversation id is drawn twice. -/
  conversations : (drawnConversations as).Nodup
  /-- No task id is drawn twice. -/
  tasks : (drawnTasks as).Nodup
  /-- Times are finite and not negative. -/
  timely : TimelyRun as
  /-- Chunks were decoded from UTF-8. -/
  texts : ∀ i t x, .stream i (.chunk t x) ∈ as → encodable t = true

/-- The parts of an answer are chunks. -/
theorem parts_run (h : Ordinary as) (hrun : (machine S user).run (start m hm) as = some (s, frames))
    (hi : s.streams[i]? = some st) : ∀ part ∈ st.parts, encodable part = true := by
  refine streams_run (P := fun st _ _ => ∀ part ∈ st.parts, encodable part = true)
    (C := fun input => ∀ t x, input = .chunk t x → encodable t = true) (fun r part hpart => absurd hpart (by simp [opened]))
    ?_ (fun i input hin t x heq => h.texts i t x (heq ▸ hin)) hrun hi
  intro st st' w w' input inputs events fs hst hin hres part hpart
  rcases (resume_sends hres).2.parts_cases with hsame | ⟨t, x, heq, happend⟩
  · exact hst part (hsame ▸ hpart)
  · rw [happend, List.mem_append, List.mem_singleton] at hpart
    rcases hpart with hpart | rfl
    · exact hst part hpart
    · exact hin _ _ heq

/-- The response of a request as FastAPI sends it, with the lines that are received. -/
def responseOf (st : StreamState F) (lines : ResponseLines) : StreamResponse where
  statusCode := 200
  requestId := some st.request.correlationId
  contentType := lit "text/event-stream; charset=utf-8"
  lines := lines

/-- What a client may get of the response of a request whose text is `sent`. -/
inductive Receives (st : StreamState F) (sent : Text) : Option StreamResponse → Prop where
  /-- The connection fails before the response. -/
  | lost : Receives st sent none
  /-- It fails behind some of the lines. -/
  | broken (lines : List Text) (given : lines <+: splitlines sent) : Receives st sent (some (responseOf st (.broken lines)))
  /-- The text ends, behind any of its characters. -/
  | ended (body : Text) (cut : body <+: sent) : Receives st sent (some (responseOf st (.ended body)))

omit [PyFloat F] in
theorem ofError_ne (e : ClientError) (v : ValidatedStream F) : Attempt.ofError e ≠ .validated v := by
  intro h
  cases e with
  | contract code message => cases h
  | raised e =>
    rw [Attempt.ofError] at h
    split_ifs at h

theorem readResponse_eq (lines : ResponseLines) {events : List (SseEvent F)} {e : Option PyError}
    (h : lines.events = (events, e)) :
    readResponse casefold sha (some (responseOf st lines)) =
      match e with
      | some e => .ofError (.raised e)
      | none =>
          match validateE2eStream casefold sha events (some (.str st.request.correlationId)) with
          | .ok result => .validated result
          | .error e => .ofError e := by
  have htype : lower (strip (partition [59] (lit "text/event-stream; charset=utf-8")).1) = lit "text/event-stream" := by decide
  rw [readResponse, responseOf]
  dsimp only
  rw [if_neg (by simp), htype, if_neg (by simp), h]
  cases e <;> rfl

/-- What the frames of a request are in a run. -/
structure Delivery (st : StreamState F) (ending : Ending) (events : List (SseEvent F)) : Prop where
  /-- Its tokens and one ending. -/
  transcript : Transcript st ending events
  /-- They can be read. -/
  framed : ∀ e ∈ events, Framed e
  /-- The timings are finite and not negative. -/
  elapsed : AllElapsed st.telemetry
  /-- The parts of the answer can be encoded. -/
  texts : ∀ part ∈ st.parts, encodable part = true
  /-- Behind the telemetry there is an answer. -/
  answered : ending = .completed → st.parts ≠ []

theorem delivery_run (hnan : ∀ x : F, PyFloat.isFinite x = true → PyFloat.isNaN x = false) (h : Ordinary as)
    (hrun : (machine S user).run (start m hm) as = some (s, frames)) (hi : s.streams[i]? = some st)
    (hid : st.request.correlationId = u.str) : ∃ ending, Delivery st ending (framesOf i frames) := by
  obtain ⟨ending, htranscript⟩ := transcript_run hrun hi
  have hparts := parts_run h hrun hi
  have helapsed := (measured_run h.timely hrun hi).elapsed
  refine ⟨ending, htranscript, framed_transcript htranscript (hid ▸ unpaired_str u)
    (fun part hp => unpaired_of_encodable (hparts part hp)) hnan helapsed, helapsed, hparts, ?_⟩
  rintro rfl hnil
  obtain ⟨_, _, _, _, _, _, -, -, -, hans⟩ := answered_run h.conversations h.tasks hrun hi (sent_telemetry htranscript)
  have hblank := hans.notBlank
  rw [hnil] at hblank
  cases hblank

/-- The client accepts a stream that sent `done` where nothing but the end of its last frame is missing. -/
theorem Delivery.accepted {events : List (SseEvent F)} (h : Delivery st .completed events)
    (hid : st.request.correlationId = u.str) {body : Text} (hcut : body <+: events.flatMap sse)
    (hall : events.flatMap sse <+: body ++ frameEnd) :
    readResponse casefold sha (some (responseOf st (.ended body))) = .validated (validatedOf sha st) := by
  rw [readResponse_eq (.ended body) (received_whole h.framed hcut hall)]
  dsimp only
  rw [validate_completed h.transcript (h.answered rfl) h.elapsed h.texts hid]

/-- It accepts nothing else that ends. -/
theorem Delivery.whole {ending : Ending} {events : List (SseEvent F)} (h : Delivery st ending events)
    (hid : st.request.correlationId = u.str) {body : Text} (hcut : body <+: events.flatMap sse) {v : ValidatedStream F}
    (hread : readResponse casefold sha (some (responseOf st (.ended body))) = .validated v) :
    ending = .completed ∧ events.flatMap sse <+: body ++ frameEnd ∧ v = validatedOf sha st := by
  obtain ⟨read, unread, hsplit, hfst, hend⟩ := received_cut h.framed hcut
  cases hrec : received (F := F) body with
  | mk got e =>
    rw [hrec] at hfst
    obtain rfl : got = read := hfst
    rw [readResponse_eq (.ended body) hrec] at hread
    cases e with
    | some e => exact absurd hread (ofError_ne _ _)
    | none =>
      dsimp only at hread
      cases hvalid : validateE2eStream casefold sha got (some (.str st.request.correlationId)) with
      | error e =>
        rw [hvalid] at hread
        exact absurd hread (ofError_ne _ _)
      | ok result =>
        rw [hvalid] at hread
        obtain rfl : result = v := by
          cases hread
          rfl
        -- what is accepted ends with `done`, so it is all that was sent
        obtain ⟨parts, telemetry, done, -, -, -, -, hpublic, -⟩ := contract_of_ok hvalid
        have hdone : Sent "done" got := by
          obtain ⟨tokens, rfl, -⟩ := hpublic.order
          exact ⟨⟨lit "done", .obj done⟩, by simp, rfl⟩
        obtain rfl := completed_of_sent h.transcript (hsplit ▸ sent_append.mpr (.inl hdone))
        obtain rfl := nothing_behind h.transcript hsplit (.inl hdone)
        rw [List.append_nil] at hsplit
        subst hsplit
        refine ⟨rfl, hend, ?_⟩
        rw [validate_completed h.transcript (h.answered rfl) h.elapsed h.texts hid] at hvalid
        exact (Except.ok.inj hvalid).symm

/-- A connection that fails is reported as that. -/
theorem Delivery.broken {ending : Ending} {events : List (SseEvent F)} (h : Delivery st ending events) {lines : List Text}
    (hlines : lines <+: splitlines (events.flatMap sse)) :
    (readResponse casefold sha (some (responseOf st (.broken lines))) : Attempt F) = .failed (lit "TRANSPORT_ERROR") := by
  have hraised : ResponseLines.events (F := F) (.broken lines) =
      ((iterSse (some transportError) (lit "message") [] lines).1, some transportError) :=
    Prod.ext rfl (iterSse_broken h.framed hlines transportError)
  rw [readResponse_eq (.broken lines) hraised]
  rfl

theorem timely_whole (input : StreamInput WholeFloat) : Timely input := by
  cases input with
  | observe | chunk => exact ⟨rfl, rfl⟩
  | exhausted => exact ⟨⟨rfl, rfl⟩, rfl, rfl⟩
  | prepared | start | stageDone | raise | next | close => trivial

/-- Whether the chunks of a run were decoded from UTF-8. -/
def decodedChunks (as : List (Action WholeFloat)) : Bool :=
  as.all fun a => match a with
    | .stream _ (.chunk t _) => encodable t
    | _ => true

theorem ordinary_whole {as : List (Action WholeFloat)} (hC : (drawnConversations as).Nodup) (hT : (drawnTasks as).Nodup)
    (h : decodedChunks as = true) : Ordinary as where
  conversations := hC
  tasks := hT
  timely _ input _ := timely_whole input
  texts i t x hin := List.all_eq_true.mp h (.stream i (.chunk t x)) hin

/-- A run of a user whose only request sent the named frames. -/
structure Sample (as : List (Action WholeFloat)) (names : List Text) (s : ChatSystem WholeFloat)
    (frames : List (ℕ × SseEvent WholeFloat)) (st : StreamState WholeFloat) : Prop where
  /-- The run. -/
  run : (machine ⟨.any, fun _ => true⟩ (text ['a'])).run (start 1 (by decide)) as = some (s, frames)
  /-- The request. -/
  found : s.streams[0]? = some st
  /-- The names of its frames. -/
  names : (framesOf 0 frames).map SseEvent.name = names
  /-- Its identifier. -/
  requestId : st.request.correlationId = (Uuid.ofNat 9).str

theorem sample_of_check {as : List (Action WholeFloat)} {names : List Text}
    (h : ((machine ⟨.any, fun _ => true⟩ (text ['a'])).run (start 1 (by decide)) as).map (fun p =>
      ((framesOf 0 p.2).map SseEvent.name, p.1.streams[0]?.map fun st => st.request.correlationId)) =
        some (names, some (Uuid.ofNat 9).str)) : ∃ s frames st, Sample as names s frames st := by
  obtain ⟨⟨s, frames⟩, hrun, heq⟩ := Option.map_eq_some_iff.mp h
  obtain ⟨hnames, hreq⟩ := Prod.mk.inj heq
  obtain ⟨st, hi, hid⟩ := Option.map_eq_some_iff.mp hreq
  exact ⟨s, frames, st, hrun, hi, hnames, hid⟩

theorem Sample.sent {as : List (Action WholeFloat)} {names : List Text} {s : ChatSystem WholeFloat}
    {frames : List (ℕ × SseEvent WholeFloat)} {st : StreamState WholeFloat} (h : Sample as names s frames st) {name : String}
    (hmem : lit name ∈ names) : Sent name (framesOf 0 frames) := by
  rw [← h.names] at hmem
  obtain ⟨e, he, hname⟩ := List.mem_map.mp hmem
  exact ⟨e, he, hname⟩

/-- The names of the frames of an answer. -/
def answeredNames : List Text := [lit "token", lit "telemetry", lit "done"]

theorem ordinary_answeredChat : Ordinary answeredChat :=
  ordinary_whole (by decide +kernel) (by decide +kernel) (by decide +kernel)

theorem sample_answeredChat : ∃ s frames st, Sample answeredChat answeredNames s frames st :=
  sample_of_check (by decide +kernel)

theorem length_zeros : (List.replicate 64 (0 : Digit)).length = 64 := List.length_replicate

/-- A digest. -/
def shaZeros (_ : List ℕ) : Sha256 := ⟨List.replicate 64 0, length_zeros⟩

/-- **What a client accepts**: in every run, whatever is interleaved and wherever the connection is cut or fails, the
diagnostic client accepts what it received of a stream exactly where the connection did not fail, the stream sent `done`
and nothing but the end of its last frame is missing; and what it makes of it is the answer of the request. A connection
that failed is reported as that. -/
theorem readResponse_validated_iff (hnan : ∀ x : F, PyFloat.isFinite x = true → PyFloat.isNaN x = false) (h : Ordinary as)
    (hrun : (machine S user).run (start m hm) as = some (s, frames)) (hi : s.streams[i]? = some st)
    (hid : st.request.correlationId = u.str) {r : Option StreamResponse}
    (hgot : Receives st ((framesOf i frames).flatMap sse) r) :
    (∀ v : ValidatedStream F, readResponse casefold sha r = .validated v ↔
      ∃ body, r = some (responseOf st (.ended body)) ∧ Sent "done" (framesOf i frames) ∧
        (framesOf i frames).flatMap sse <+: body ++ frameEnd ∧ v = validatedOf sha st) ∧
      ((∀ body, r ≠ some (responseOf st (.ended body))) →
        (readResponse casefold sha r : Attempt F) = .failed (lit "TRANSPORT_ERROR")) := by
  obtain ⟨ending, hdelivery⟩ := delivery_run hnan h hrun hi hid
  cases hgot with
  | lost => exact ⟨fun v => ⟨nofun, fun ⟨body, hr, _⟩ => nomatch hr⟩, fun _ => rfl⟩
  | broken lines hgiven =>
    have hfailed : (readResponse casefold sha (some (responseOf st (.broken lines))) : Attempt F) = .failed (lit "TRANSPORT_ERROR") :=
      hdelivery.broken hgiven
    refine ⟨fun v => ⟨fun hread => ?_, fun ⟨body, hr, _⟩ => nomatch hr⟩, fun _ => hfailed⟩
    rw [hfailed] at hread
    cases hread
  | ended body hcut =>
    refine ⟨fun v => ⟨fun hread => ?_, ?_⟩, fun hne => absurd rfl (hne body)⟩
    · obtain ⟨rfl, hall, hv⟩ := hdelivery.whole hid hcut hread
      refine ⟨body, rfl, ⟨st.doneEvent, ?_, rfl⟩, hall, hv⟩
      rw [hdelivery.transcript.frames]
      exact List.mem_append_right _ (List.mem_cons_of_mem _ List.mem_cons_self)
    · rintro ⟨_, hsame, hsent, hall, rfl⟩
      cases hsame
      obtain rfl := completed_of_sent hdelivery.transcript hsent
      exact hdelivery.accepted hid hcut hall

theorem readResponse_validated_iff_answered :
    ∃ s frames st, Sample answeredChat answeredNames s frames st ∧
      readResponse id shaZeros (some (responseOf st (.ended ((framesOf 0 frames).flatMap sse)))) =
        .validated (validatedOf shaZeros st) ∧
      (readResponse id shaZeros (some (responseOf st (.broken (splitlines ((framesOf 0 frames).flatMap sse))))) :
        Attempt WholeFloat) = .failed (lit "TRANSPORT_ERROR") := by
  obtain ⟨s, frames, st, hsample⟩ := sample_answeredChat
  exact ⟨s, frames, st, hsample,
    ((readResponse_validated_iff (fun _ _ => rfl) ordinary_answeredChat hsample.run hsample.found hsample.requestId
      (.ended _ (List.prefix_refl _))).1 _).mpr ⟨_, rfl, hsample.sent (by decide), List.prefix_append _ _, rfl⟩,
    (readResponse_validated_iff (fun _ _ => rfl) ordinary_answeredChat hsample.run hsample.found hsample.requestId
      (.broken _ (List.prefix_refl _))).2 nofun⟩

/-- **An answer that is accepted was kept**: what a client accepts is the answer that one step of the run persisted and
recorded as its conversation, and the other client accepts it as well. -/
theorem delivered_run (hnan : ∀ x : F, PyFloat.isFinite x = true → PyFloat.isNaN x = false) (h : Ordinary as)
    (hrun : (machine S user).run (start m hm) as = some (s, frames)) (hi : s.streams[i]? = some st)
    (hid : st.request.correlationId = u.str) {r : Option StreamResponse}
    (hgot : Receives st ((framesOf i frames).flatMap sse) r) {v : ValidatedStream F}
    (hread : readResponse casefold sha r = .validated v) :
    v.conversationId = st.request.conversationId.str ∧
      (∃ body, r = some (responseOf st (.ended body)) ∧
        askStream casefold false (received (F := F) body) = .ok (v.answer, v.timingsMs)) ∧
      ∃ before c s₁ s₂ f₁ f₂, before ++ [.stream i (.exhausted c)] <+: as ∧
        (machine S user).run (start m hm) before = some (s₁, f₁) ∧
        (machine S user).step s₁ (.stream i (.exhausted c)) = some (s₂, f₂) ∧
        Answered S st.request v.answer c s₁.world s₂.world := by
  obtain ⟨ending, hdelivery⟩ := delivery_run hnan h hrun hi hid
  obtain ⟨body, hcut, rfl⟩ : ∃ body, body <+: (framesOf i frames).flatMap sse ∧ r = some (responseOf st (.ended body)) := by
    cases hgot with
    | lost => cases hread
    | broken lines hgiven =>
      rw [hdelivery.broken hgiven] at hread
      cases hread
    | ended body hcut => exact ⟨body, hcut, rfl⟩
  obtain ⟨rfl, hall, rfl⟩ := hdelivery.whole hid hcut hread
  have hvalid : validateE2eStream casefold sha (framesOf i frames) (some (.str st.request.correlationId)) =
      .ok (validatedOf sha st) :=
    validate_completed hdelivery.transcript (hdelivery.answered rfl) hdelivery.elapsed hdelivery.texts hid
  refine ⟨rfl, ⟨body, rfl, ?_⟩, answered_run h.conversations h.tasks hrun hi (sent_telemetry hdelivery.transcript)⟩
  rw [received_whole hdelivery.framed hcut hall]
  exact askStream_of_validated hvalid

theorem delivered_run_answered :
    ∃ s frames st, Sample answeredChat answeredNames s frames st ∧
      askStream id false (received (F := WholeFloat) ((framesOf 0 frames).flatMap sse)) =
        .ok (st.parts.flatten, st.telemetry.timings) ∧
      ∃ before c s₁ s₂ f₁ f₂, before ++ [.stream 0 (.exhausted c)] <+: answeredChat ∧
        (machine ⟨.any, fun _ => true⟩ (text ['a'])).run (start 1 (by decide)) before = some (s₁, f₁) ∧
        (machine ⟨.any, fun _ => true⟩ (text ['a'])).step s₁ (.stream 0 (.exhausted c)) = some (s₂, f₂) ∧
        Answered ⟨.any, fun _ => true⟩ st.request st.parts.flatten c s₁.world s₂.world := by
  obtain ⟨s, frames, st, hsample⟩ := sample_answeredChat
  obtain ⟨ending, hdelivery⟩ := delivery_run (fun _ _ => rfl) ordinary_answeredChat hsample.run hsample.found hsample.requestId
  obtain rfl := completed_of_sent hdelivery.transcript (hsample.sent (by decide))
  have hread : readResponse id shaZeros (some (responseOf st (.ended ((framesOf 0 frames).flatMap sse)))) =
      .validated (validatedOf shaZeros st) :=
    hdelivery.accepted hsample.requestId (List.prefix_refl _) (List.prefix_append _ _)
  obtain ⟨-, ⟨body, hsame, hask⟩, hkept⟩ := delivered_run (fun _ _ => rfl) ordinary_answeredChat hsample.run hsample.found
    hsample.requestId (.ended _ (List.prefix_refl _)) hread
  cases hsame
  exact ⟨s, frames, st, hsample, hask, hkept⟩

/-- **An error that is reported left nothing behind**: where the stream sent `error` and the connection did not fail, the
client reports the failure, and nothing of the conversation is recorded, stored or pending. -/
theorem error_run (hnan : ∀ x : F, PyFloat.isFinite x = true → PyFloat.isNaN x = false) (h : Ordinary as)
    (hrun : (machine S user).run (start m hm) as = some (s, frames)) (hi : s.streams[i]? = some st)
    (hid : st.request.correlationId = u.str) {body : Text} (hcut : body <+: (framesOf i frames).flatMap sse)
    (hall : (framesOf i frames).flatMap sse <+: body ++ frameEnd) (hsent : Sent "error" (framesOf i frames)) :
    (readResponse casefold sha (some (responseOf st (.ended body))) : Attempt F) = .failed (lit "CHAT_PROCESSING_FAILED") ∧
      ¬ InSession s.world.registry st.request.conversationId ∧ Forgotten user s st.request.conversationId := by
  obtain ⟨ending, hdelivery⟩ := delivery_run hnan h hrun hi hid
  obtain rfl := failed_of_sent hdelivery.transcript hsent
  refine ⟨?_, failed_run h.conversations h.tasks h.timely hrun hi hsent⟩
  rw [readResponse_eq (.ended body) (received_whole hdelivery.framed hcut hall)]
  dsimp only
  rw [validate_failed hdelivery.transcript hid]
  rfl

/-- A session gets a question, and the language model fails. -/
def failedChat : List (Action WholeFloat) :=
  let u := text ['a']
  let sid := (Uuid.ofNat 1).str
  [.manage (.createSession u sid), .query ⟨u, sid, text ['q'], (Uuid.ofNat 9).str, Uuid.ofNat 2⟩, .stream 0 .prepared,
    .stream 0 .start, .stream 0 (.raise (valueError "provider"))]

theorem error_run_failed :
    ∃ s frames st, Sample failedChat [lit "error"] s frames st ∧
      (readResponse id shaZeros (some (responseOf st (.ended ((framesOf 0 frames).flatMap sse)))) : Attempt WholeFloat) =
        .failed (lit "CHAT_PROCESSING_FAILED") ∧
      ¬ InSession s.world.registry st.request.conversationId ∧ Forgotten (text ['a']) s st.request.conversationId := by
  obtain ⟨s, frames, st, hsample⟩ : ∃ s frames st, Sample failedChat [lit "error"] s frames st :=
    sample_of_check (by decide +kernel)
  have hordinary : Ordinary failedChat := ordinary_whole (by decide +kernel) (by decide +kernel) (by decide +kernel)
  exact ⟨s, frames, st, hsample, error_run (fun _ _ => rfl) hordinary hsample.run hsample.found hsample.requestId
    (List.prefix_refl _) (List.prefix_append _ _) (hsample.sent (by decide))⟩

end Runs

end ChatDelivery

end TenantRag

import TenantRag.Api.Telemetry
import TenantRag.Services.ChatRegistry
import TenantRag.Services.TaskQueue

/-!
# The chat endpoints

`backend/api/chat.py` with the part of `backend/rag/pipeline.py` its streams are
made of: the endpoint `query` and its response generator `stream_events`, and the
endpoint `delete_session` and the work it enqueues.

## The model

A coroutine runs from one suspension to the next without interruption, so its
state is the place where it is suspended and the locals that are live there, and
`resume` is the code from that place to the next one. What it is resumed with is
up to the environment: the awaited call returns or raises, the language model
gives a chunk or ends, the client takes the next frame or closes the generator,
the request is cancelled. Awaiting `enqueue` does not suspend: the queue has no
bound.

A generator that was never started runs none of its body when it is closed; one
suspended at a `yield` gets `GeneratorExit` there. While a generator is suspended
at a `yield` the request that drives it may be cancelled, which reaches the
generator as a close.

Of the pipeline the stages are kept with the timings each may report; what it
retrieves and generates is the environment's choice. Log records and diagnostics
are left out. The latter may turn an exception into a `RuntimeError`, but only
under an `except Exception` that treats both alike.
-/

namespace TenantRag

/-- The body of a query with the identifiers it was given. -/
structure ChatRequest where
  /-- `body.user_id`. -/
  userId : Text
  /-- `body.session_id`. -/
  sessionId : Text
  /-- `body.question`. -/
  question : Text
  /-- `correlation_id`. -/
  correlationId : Text
  /-- `services.new_uuid()`. -/
  conversationId : Uuid
  deriving DecidableEq

/-- The work enqueued by the chat endpoints. -/
inductive ChatWork where
  /-- `embed_conversation(user, conversation, query, answer)`. -/
  | embedConversation (userId : Text) (conversationId : Uuid) (question answer : Text)
  /-- The `title_work` of a request. -/
  | generateSessionTitle (userId sessionId : Text)
  /-- The `work` of a deletion. -/
  | deleteSession (userId sessionId : Text) (conversationIds : List Uuid)
  deriving DecidableEq

/-- What the endpoints share: `services.chat_registry` and `services.task_queue`. -/
structure ChatWorld where
  /-- `services.chat_registry`. -/
  registry : ChatRegistry
  /-- `services.task_queue`. -/
  queue : InMemoryTaskQueue ChatWork

namespace ChatWorld

/-- A method of the registry. -/
def onRegistry {α : Type} (m : Eff ChatRegistry PyError α) : Eff ChatWorld PyError α :=
  .zoom registry (fun r w => { w with registry := r }) m

/-- `await services.task_queue.enqueue(user_id, operation, work)`. -/
def enqueue (S : RegistrySettings) (userId operation : Text) (work : ChatWork) (taskId : Uuid) (now : ℕ) :
    Eff ChatWorld PyError Unit := fun w =>
  match w.queue.enqueue S.userIdPattern userId operation work taskId now with
  | .error e => .error e w
  | .ok q => .ok () { w with queue := q }

end ChatWorld

/-! ### The response generator -/

/-- An event of the stream: its name and its payload. -/
structure SseEvent (F : Type) where
  /-- `event`. -/
  name : Text
  /-- `payload`. -/
  payload : Json F

/-- The timings a stage of the pipeline may report, for each stage up to the first chunk. -/
def pipelineStages : List (List TimingKey) :=
  [[.originalQueryEmbedding], [.conversationHybridSearch, .conversationMmrRerank], [.queryRewrite],
    [.rewrittenQueryEmbedding],
    [.knowledgeHybridSearch, .knowledgeCrossEncoderRerank, .policyHybridSearch, .policyCrossEncoderRerank],
    [.promptConstruction]]

/-- Where a query request is. -/
inductive StreamPhase where
  /-- At `await _ensure_collections(...)`, with the lease. -/
  | preparing
  /-- The response exists and its generator was not started. -/
  | created
  /-- At an `await` of the pipeline, with the stages not done. -/
  | awaiting (stages : List (List TimingKey))
  /-- At `yield _sse("token", ...)`. -/
  | atToken
  /-- At `yield _sse("telemetry", ...)`. -/
  | atTelemetry
  /-- At `yield _sse("done", ...)`. -/
  | atDone
  /-- At `yield _sse("error", ...)`. -/
  | atError
  /-- Over. -/
  | closed
  deriving DecidableEq

/-- A query request that acquired its lease. -/
structure StreamState (F : Type) where
  /-- The request. -/
  request : ChatRequest
  /-- Where it is. -/
  phase : StreamPhase
  /-- `answer_parts`. -/
  parts : List Text
  /-- `telemetry`. -/
  telemetry : TelemetryCollector F

/-- What the code after the last chunk takes from its environment. -/
structure Completion (F : Type) where
  /-- The milliseconds since the first chunk. -/
  generationElapsed : F
  /-- The milliseconds since the request. -/
  totalElapsed : F
  /-- The id of the persistence task. -/
  persistenceTask : Uuid
  /-- The id of the title task. -/
  titleTask : Uuid
  /-- The time of both. -/
  now : ℕ

/-- What a query request is resumed with. -/
inductive StreamInput (F : Type) where
  /-- The collections are ensured. -/
  | prepared
  /-- The generator is started. -/
  | start
  /-- A stage reports a timing. -/
  | observe (phase : TimingKey) (elapsed : F)
  /-- A stage is done. -/
  | stageDone
  /-- The language model gives a chunk, so many milliseconds after the request. -/
  | chunk (t : Text) (elapsed : F)
  /-- The language model ends. -/
  | exhausted (c : Completion F)
  /-- What is awaited raises, or the request is cancelled there. -/
  | raise (e : PyError)
  /-- The client takes the next frame. -/
  | next
  /-- The generator is closed. -/
  | close

namespace StreamState

variable {F : Type} [PyFloat F] (S : RegistrySettings)

/-- The state of the generator while its code runs: the world and the telemetry. -/
structure Scope (F : Type) where
  /-- What the endpoints share. -/
  world : ChatWorld
  /-- `telemetry`. -/
  telemetry : TelemetryCollector F

namespace Scope

/-- Code on the shared state. -/
def onWorld {α : Type} (m : Eff ChatWorld PyError α) : Eff (Scope F) PyError α :=
  .zoom world (fun w s => { s with world := w }) m

/-- A method of the telemetry collector. -/
def onTelemetry (f : TelemetryCollector F → Except PyError (TelemetryCollector F)) : Eff (Scope F) PyError Unit := do
  let s ← .read id
  let t ← .ofExcept (f s.telemetry)
  .update fun s => { s with telemetry := t }

end Scope

open Scope

/-- `run_rag_pipeline` from the end of the language model's stream to its own end. -/
def persistAnswer (r : ChatRequest) (parts : List Text) (c : Completion F) : Eff (Scope F) PyError Unit := do
  .whenever (!parts.isEmpty) (onTelemetry fun t => t.observe .generation c.generationElapsed)
  .whenever (isBlank parts.flatten) (.raise (valueError "answer stream completed without a non-empty answer"))
  onWorld (ChatWorld.enqueue S r.userId (lit "embed_conversation")
    (.embedConversation r.userId r.conversationId r.question parts.flatten) c.persistenceTask c.now)

/-- `stream_events` from the end of its loop to the telemetry frame. -/
def recordAnswer (r : ChatRequest) (parts : List Text) (c : Completion F) : Eff (Scope F) PyError Unit := do
  .whenever parts.isEmpty (.raise (valueError "answer stream completed without tokens"))
  onWorld (ChatWorld.onRegistry
    (ChatRegistry.recordConversation S r.userId r.sessionId r.conversationId.str r.question parts.flatten))
  .tryExcept
    (onWorld (ChatWorld.enqueue S r.userId (lit "generate_session_title") (.generateSessionTitle r.userId r.sessionId)
      c.titleTask c.now))
    fun e => if e.kind.isException then pure () else .raise e
  onTelemetry fun t => t.set .totalRequest c.totalElapsed

/-- From the end of the language model's stream to the telemetry frame. -/
def completeAnswer (r : ChatRequest) (parts : List Text) (c : Completion F) : Eff (Scope F) PyError Unit := do
  persistAnswer S r parts c
  recordAnswer S r parts c

/-- The payload of a token event. -/
def tokenPayload (r : ChatRequest) (chunk : Text) : Json F :=
  .obj [(lit "request_id", .str r.correlationId), (lit "text", .str chunk)]

/-- The payload of the done event. -/
def donePayload (r : ChatRequest) : Json F :=
  .obj [(lit "request_id", .str r.correlationId), (lit "conversation_id", .str r.conversationId.str)]

/-- The payload of the error event: `public_detail(...)`. -/
def errorPayload (r : ChatRequest) : Json F :=
  .obj [(lit "code", .str (lit "CHAT_PROCESSING_FAILED")),
    (lit "message", .str (lit "The response could not be completed.")), (lit "request_id", .str r.correlationId)]

/-- `services.chat_registry.end_chat_stream(...)`, which raises nothing for a request that holds a lease. -/
def endStream (r : ChatRequest) (w : ChatWorld) : ChatWorld :=
  match ChatWorld.onRegistry (ChatRegistry.endChatStream S r.userId r.sessionId r.conversationId.str) w with
  | .ok _ w' => w'
  | .error _ w' => w'

/-- The request ends through the `finally` of its generator, or the handlers of its preparation. -/
def release (st : StreamState F) (w : ChatWorld) : StreamState F × ChatWorld × List (SseEvent F) :=
  ({ st with phase := .closed }, endStream S st.request w, [])

/-- An exception in the body: `except Exception` sends the error frame, others end the generator. -/
def fail (st : StreamState F) (w : ChatWorld) (e : PyError) : StreamState F × ChatWorld × List (SseEvent F) :=
  if e.kind.isException then
    ({ st with phase := .atError }, w, [⟨lit "error", errorPayload st.request⟩])
  else release S st w

/-- The request goes on from where it is suspended; `none` where it cannot be resumed so. -/
def resume (st : StreamState F) (w : ChatWorld) (input : StreamInput F) :
    Option (StreamState F × ChatWorld × List (SseEvent F)) :=
  match st.phase, input with
  | .preparing, .prepared => some ({ st with phase := .created }, w, [])
  | .preparing, .raise e =>
      -- `except asyncio.CancelledError` and `except Exception` release the lease
      if e.kind.isException ∨ e.kind = .cancelledError then some (release S st w)
      else some ({ st with phase := .closed }, w, [])
  | .created, .start => some ({ st with phase := .awaiting pipelineStages }, w, [])
  | .created, .close => some ({ st with phase := .closed }, w, [])
  | .awaiting (keys :: stages), .observe key elapsed =>
      if key ∈ keys then
        match st.telemetry.observe key elapsed with
        | .ok t => some ({ st with phase := .awaiting (keys.erase key :: stages), telemetry := t }, w, [])
        | .error e => some (fail S st w e)
      else none
  | .awaiting (_ :: stages), .stageDone => some ({ st with phase := .awaiting stages }, w, [])
  | .awaiting [], .chunk t elapsed =>
      if t.isEmpty then some (st, w, [])
      else
        match if st.parts.isEmpty then st.telemetry.set .ttft elapsed else .ok st.telemetry with
        | .ok telemetry =>
            some ({ st with phase := .atToken, parts := st.parts ++ [t], telemetry := telemetry }, w,
              [⟨lit "token", tokenPayload st.request t⟩])
        | .error e => some (fail S st w e)
  | .awaiting [], .exhausted c =>
      match completeAnswer S st.request st.parts c ⟨w, st.telemetry⟩ with
      | .ok _ s =>
          some ({ st with phase := .atTelemetry, telemetry := s.telemetry }, s.world,
            [⟨lit "telemetry", s.telemetry.payload st.request.correlationId⟩])
      | .error e s => some (fail S { st with telemetry := s.telemetry } s.world e)
  | .awaiting _, .raise e => some (fail S st w e)
  | .atToken, .next => some ({ st with phase := .awaiting [] }, w, [])
  | .atTelemetry, .next => some ({ st with phase := .atDone }, w, [⟨lit "done", donePayload st.request⟩])
  | .atDone, .next | .atError, .next => some (release S st w)
  | .atToken, .close | .atTelemetry, .close | .atDone, .close | .atError, .close => some (release S st w)
  | _, _ => none

end StreamState

/-- `query` up to its first suspension: the question and the session are checked, and the
lease is taken. -/
def beginQuery (S : RegistrySettings) (r : ChatRequest) : Eff ChatRegistry PyError Unit := do
  .whenever (isBlank r.question) (.raise (valueError "question must not be empty"))
  let _ ← ChatRegistry.getSession S r.userId r.sessionId
  ChatRegistry.beginChatStream S r.userId r.sessionId r.conversationId.str

/-- A request that took its lease. -/
def StreamState.opened {F : Type} [PyFloat F] (r : ChatRequest) : StreamState F := ⟨r, .preparing, [], .new⟩

/-! ### Deleting a session -/

/-- Where a deletion request is. -/
inductive DeletePhase where
  /-- At `await _ensure_collections(...)`, with the reservation and its list. -/
  | ensuring (conversationIds : List Uuid)
  /-- Over. -/
  | ended
  deriving DecidableEq

/-- A request to delete a session. -/
structure DeleteRequest where
  /-- `user_id`. -/
  userId : Text
  /-- `session_id`. -/
  sessionId : Text
  /-- Where it is. -/
  phase : DeletePhase
  deriving DecidableEq

/-- What a deletion request is resumed with. -/
inductive DeleteInput where
  /-- The collections are ensured; the task gets this id and time. -/
  | ensured (taskId : Uuid) (now : ℕ)
  /-- `_ensure_collections` raises, or the request is cancelled there. -/
  | raise (e : PyError)

namespace DeleteRequest

variable (S : RegistrySettings)

/-- `services.chat_registry.abort_session_deletion(user_id, session_id)`, which raises
nothing for a session that was reserved. -/
def abort (userId sessionId : Text) (w : ChatWorld) : ChatWorld :=
  match ChatWorld.onRegistry (ChatRegistry.abortSessionDeletion S userId sessionId) w with
  | .ok _ w' => w'
  | .error _ w' => w'

/-- The deletion request goes on from where it is suspended. -/
def resume (d : DeleteRequest) (w : ChatWorld) (input : DeleteInput) : Option (DeleteRequest × ChatWorld) :=
  match d.phase, input with
  | .ensuring ids, .ensured taskId now =>
      match ChatWorld.enqueue S d.userId (lit "delete_session") (.deleteSession d.userId d.sessionId ids) taskId now w with
      | .ok _ w' => some ({ d with phase := .ended }, w')
      | .error _ w' => some ({ d with phase := .ended }, abort S d.userId d.sessionId w')
  | .ensuring _, .raise e =>
      if e.kind.isException ∨ e.kind = .cancelledError then
        some ({ d with phase := .ended }, abort S d.userId d.sessionId w)
      else some ({ d with phase := .ended }, w)
  | .ended, _ => none

end DeleteRequest

end TenantRag

import TenantRag.Api.ChatSystem

/-!
# The chats of one user: what every step keeps

The invariant of the system of `Api.ChatSystem`, and what the code behind the last
chunk does. The invariant rests on four facts: a request that did not answer yet holds its lease, so that
its session exists and is not under deletion; a conversation is persisted and
recorded in one step; every stored or pending segment is of a conversation of an
existing session; and a session under deletion has one holder of its reservation,
whose list is the session's and behind which no persistence of a listed
conversation waits.

## What is proved

* `completeAnswer_spec` — the code after the last chunk either changes nothing or
  both enqueues the persistence of the conversation and records it.
* `resume_resumed` — all that one resumption of a stream can do.
* `resume_cases` — what it does to the shared state.
-/

namespace TenantRag

namespace ChatSystem

variable {F : Type} [PyFloat F] {S : RegistrySettings} {user : Text}

/-! ### The invariant -/

/-- The request has not come to the end of its answer. -/
def unanswered : StreamPhase → Bool
  | .preparing | .created | .awaiting _ | .atToken => true
  | _ => false

theorem closed_of_unanswered {p : StreamPhase} (h : unanswered p = true) : p ≠ .closed := by
  rintro rfl
  cases h

/-- The conversation a work item persists. -/
def persists : ChatWork → Option Uuid
  | .embedConversation _ c _ _ => some c
  | _ => none

/-- The key of the session a work item deletes. -/
def deletesKey (S : RegistrySettings) : ChatWork → Option SessionKey
  | .deleteSession u sid _ => (ChatRegistry.sessionKey S u sid).toOption
  | _ => none

/-- The key of the session a deletion request has reserved and not yet enqueued. -/
def ensuresKey (S : RegistrySettings) (d : DeleteRequest) : Option SessionKey :=
  match d.phase with
  | .ensuring _ => (ChatRegistry.sessionKey S d.userId d.sessionId).toOption
  | .ended => none

/-- The session exists and lists the conversation. -/
def Recorded (r : ChatRegistry) (key : SessionKey) (c : Uuid) : Prop := ∃ cs, r.conversations key = some cs ∧ c ∈ cs

/-- The conversation belongs to an existing session. -/
def InSession (r : ChatRegistry) (c : Uuid) : Prop := ∃ key, Recorded r key c

/-- The user's pending work. -/
def pending (user : Text) (s : ChatSystem F) : List ChatWork := s.world.queue.pendingWorks user

/-- The sessions under deletion that a request or a work item answers for. -/
def holders (S : RegistrySettings) (user : Text) (s : ChatSystem F) : List SessionKey :=
  s.deletions.filterMap (ensuresKey S) ++ (s.pending user).filterMap (deletesKey S)

/-- What holds after the given ids were drawn. -/
structure Invariant (S : RegistrySettings) (user : Text) (s : ChatSystem F) (conversations tasks : List Uuid) :
    Prop where
  /-- The registry's tables agree. -/
  registry : s.world.registry.Consistent
  /-- The queue's tasks have drawn ids. -/
  queue : s.world.queue.WellUsed tasks
  /-- Every worker is the user's. -/
  workers : ∀ w ∈ s.world.queue.tasks, w.userId = user
  /-- The requests have different drawn conversation ids. -/
  drawn : (s.streams.map fun st => st.request.conversationId).Sublist conversations
  /-- A request is the user's, asks something, and holds its lease until it is over. -/
  leased : ∀ st ∈ s.streams, st.request.userId = user ∧ isBlank st.request.question = false ∧
    ∃ key, ChatRegistry.sessionKey S st.request.userId st.request.sessionId = .ok key ∧
      (st.phase ≠ .closed → st.request.conversationId ∈ s.world.registry.streams key)
  /-- Only requests hold leases. -/
  held : ∀ key c, c ∈ s.world.registry.streams key → ∃ st ∈ s.streams, st.request.conversationId = c ∧
    ChatRegistry.sessionKey S st.request.userId st.request.sessionId = .ok key
  /-- A recorded conversation is of a request on its session that is past its answer. -/
  origin : ∀ key c, Recorded s.world.registry key c → ∃ st ∈ s.streams, st.request.conversationId = c ∧
    ChatRegistry.sessionKey S st.request.userId st.request.sessionId = .ok key ∧ unanswered st.phase = false
  /-- A conversation to be persisted belongs to an existing session. -/
  embedded : ∀ c ∈ (s.pending user).filterMap persists, InSession s.world.registry c
  /-- A stored segment is of a conversation of an existing session. -/
  stored : ∀ g ∈ s.segments, InSession s.world.registry g.conversationId
  /-- A deletion request holds its reservation, and its list is the session's. -/
  reserved : ∀ d ∈ s.deletions, ∀ ids, d.phase = .ensuring ids → d.userId = user ∧
    ∃ key, ChatRegistry.sessionKey S d.userId d.sessionId = .ok key ∧ key ∈ s.world.registry.deletingSessions ∧
      s.world.registry.conversations key = some ids
  /-- So does a pending deletion, and nothing behind it persists a listed conversation. -/
  deleting : ∀ before u sid ids behind, s.pending user = before ++ .deleteSession u sid ids :: behind →
    ∃ key, ChatRegistry.sessionKey S u sid = .ok key ∧ key ∈ s.world.registry.deletingSessions ∧
      s.world.registry.conversations key = some ids ∧ ∀ c ∈ ids, c ∉ behind.filterMap persists
  /-- A reservation has one holder. -/
  holders : (s.holders S user).Nodup
  /-- A confirmed deletion is the first pending work, and has nothing left to delete. -/
  confirmed : s.confirmed = true → ∃ u sid ids behind, s.pending user = .deleteSession u sid ids :: behind ∧
    ∀ g ∈ s.segments, g.conversationId ∉ ids

/-! ### The end of an answer -/

theorem wp_enqueue {Q : Unit → ChatWorld → Prop} {E : PyError → ChatWorld → Prop} {u operation : Text}
    {work : ChatWork} {id : Uuid} {now : ℕ} {w : ChatWorld} (hu : validatedUserId S.userIdPattern u = .ok u)
    (ho : requiredIdentifier operation "operation" = .ok operation)
    (hok : w.queue.accepting = true → Q () { w with queue := w.queue.accept u operation work id now })
    (herr : w.queue.accepting = false → E (runtimeError "background task queue is shutting down") w) :
    Eff.wp (ChatWorld.enqueue S u operation work id now) Q E w := by
  unfold Eff.wp ChatWorld.enqueue InMemoryTaskQueue.enqueue
  rw [hu, ho]
  cases hacc : w.queue.accepting with
  | true => exact hok hacc
  | false => exact herr hacc

theorem accept_accepting (q : InMemoryTaskQueue ChatWork) (u op : Text) (w : ChatWork) (id : Uuid) (now : ℕ) :
    (q.accept u op w id now).accepting = q.accepting := (InMemoryTaskQueue.accept_fields q u op w id now).2.2.2.2.1

theorem observe_error {t : TelemetryCollector F} {k : TimingKey} {x : F} {e : PyError}
    (h : t.observe k x = .error e) : e.kind.isException = true := by
  unfold TelemetryCollector.observe at h
  split_ifs at h
  cases h
  rfl

theorem set_error {t : TelemetryCollector F} {k : TimingKey} {x : F} {e : PyError}
    (h : t.set k x = .error e) : e.kind.isException = true := by
  unfold TelemetryCollector.set at h
  split_ifs at h
  cases h
  rfl

omit [PyFloat F] in
theorem wp_onTelemetry {Q : Unit → StreamState.Scope F → Prop} {E : PyError → StreamState.Scope F → Prop}
    {f : TelemetryCollector F → Except PyError (TelemetryCollector F)} {s : StreamState.Scope F}
    (hok : ∀ t, f s.telemetry = .ok t → Q () ⟨s.world, t⟩) (herr : ∀ e, f s.telemetry = .error e → E e s) :
    Eff.wp (StreamState.Scope.onTelemetry f) Q E s := by
  simp only [StreamState.Scope.onTelemetry, Eff.wp_bind, Eff.wp_read, id, Eff.wp_ofExcept, Eff.wp_update]
  exact ⟨hok, herr⟩

theorem validUser_of_sessionKey {u sid : Text} {key : SessionKey} (h : ChatRegistry.sessionKey S u sid = .ok key) :
    validatedUserId S.userIdPattern u = .ok u := by
  unfold ChatRegistry.sessionKey at h
  cases hv : validatedUserId S.userIdPattern u with
  | error e => simp [hv] at h
  | ok user => rw [validatedUserId_eq hv]

/-- The queue with the persistence of an answer accepted. -/
def persistedQueue (r : ChatRequest) (answer : Text) (c : Completion F) (q : InMemoryTaskQueue ChatWork) :
    InMemoryTaskQueue ChatWork :=
  q.accept r.userId (lit "embed_conversation") (.embedConversation r.userId r.conversationId r.question answer)
    c.persistenceTask c.now

/-- The persistence of the answer is enqueued, the conversation recorded and a title task enqueued. -/
structure Answered (S : RegistrySettings) (r : ChatRequest) (answer : Text) (c : Completion F) (w w' : ChatWorld) :
    Prop where
  /-- The answer is not blank. -/
  notBlank : isBlank answer = false
  /-- The queue was not closed. -/
  accepting : w.queue.accepting = true
  /-- Two tasks are accepted. -/
  queue : w'.queue = (persistedQueue r answer c w.queue).accept r.userId (lit "generate_session_title")
    (.generateSessionTitle r.userId r.sessionId) c.titleTask c.now
  /-- The conversation is recorded. -/
  recorded : ChatRegistry.recordConversation S r.userId r.sessionId r.conversationId.str r.question answer w.registry =
    .ok () w'.registry

section Complete

variable {r : ChatRequest} {parts : List Text} {c : Completion F} {w : ChatWorld} {key : SessionKey}

/-- The rest of the pipeline raises without a change, or enqueues the persistence of an answer that is not blank. -/
theorem persistAnswer_spec {t : TelemetryCollector F} (hk : ChatRegistry.sessionKey S r.userId r.sessionId = .ok key) :
    Eff.wp (StreamState.persistAnswer S r parts c)
      (fun _ s => isBlank parts.flatten = false ∧ w.queue.accepting = true ∧
        s.world = { w with queue := persistedQueue r parts.flatten c w.queue })
      (fun e s => e.kind.isException = true ∧ s.world = w) ⟨w, t⟩ := by
  -- what follows the timing does not look at it
  have hrest : ∀ t : TelemetryCollector F, Eff.wp (do
      .whenever (isBlank parts.flatten) (.raise (valueError "answer stream completed without a non-empty answer"))
      StreamState.Scope.onWorld (ChatWorld.enqueue S r.userId (lit "embed_conversation")
        (.embedConversation r.userId r.conversationId r.question parts.flatten) c.persistenceTask c.now))
      (fun _ s => isBlank parts.flatten = false ∧ w.queue.accepting = true ∧
        s.world = { w with queue := persistedQueue r parts.flatten c w.queue })
      (fun e s => e.kind.isException = true ∧ s.world = w) (⟨w, t⟩ : StreamState.Scope F) := by
    intro t
    rw [Eff.wp_bind, Eff.wp_whenever, StreamState.Scope.onWorld, Eff.wp_zoom]
    refine ⟨fun _ => ⟨rfl, rfl⟩, fun hblank => ?_⟩
    exact wp_enqueue (validUser_of_sessionKey hk) (by decide) (fun hacc => ⟨hblank, hacc, rfl⟩) fun _ => ⟨rfl, rfl⟩
  rw [StreamState.persistAnswer, Eff.wp_bind, Eff.wp_whenever]
  refine ⟨fun _ => ?_, fun _ => hrest t⟩
  exact wp_onTelemetry (fun t' _ => hrest t') fun e he => ⟨observe_error he, rfl⟩

/-- The rest of the generator, where the lease guarantees that the conversation can be recorded. -/
theorem recordAnswer_spec {cs : List Uuid} {t : TelemetryCollector F} (hreg : w.registry.Consistent)
    (hk : ChatRegistry.sessionKey S r.userId r.sessionId = .ok key) (hq : isBlank r.question = false)
    (hd : key ∉ w.registry.deletingSessions) (hcs : w.registry.conversations key = some cs)
    (hfresh : ¬ InSession w.registry r.conversationId) (hblank : isBlank parts.flatten = false)
    (hacc : w.queue.accepting = true) :
    Eff.wp (StreamState.recordAnswer S r parts c) (fun _ s => Answered S r parts.flatten c w s.world)
      (fun e s => e.kind.isException = true ∧ Answered S r parts.flatten c w s.world)
      ⟨{ w with queue := persistedQueue r parts.flatten c w.queue }, t⟩ := by
  have hparts : parts.isEmpty = false := by
    cases parts with
    | nil => exact absurd hblank (by decide)
    | cons p ps => rfl
  obtain ⟨r', hrec, -⟩ := ChatRegistry.recordConversation_effect hreg hk hq hblank hd hcs
    fun k ds hds hmem => hfresh ⟨k, ds, hds, hmem⟩
  have hrecord : ChatWorld.onRegistry
      (ChatRegistry.recordConversation S r.userId r.sessionId r.conversationId.str r.question parts.flatten)
      { w with queue := persistedQueue r parts.flatten c w.queue } =
        .ok () ⟨r', persistedQueue r parts.flatten c w.queue⟩ := by
    simp only [ChatWorld.onRegistry, Eff.zoom, hrec]
  have hacc' : (persistedQueue r parts.flatten c w.queue).accepting = true := by
    rw [persistedQueue, accept_accepting, hacc]
  have hans : Answered S r parts.flatten c w ⟨r', (persistedQueue r parts.flatten c w.queue).accept r.userId
      (lit "generate_session_title") (.generateSessionTitle r.userId r.sessionId) c.titleTask c.now⟩ :=
    ⟨hblank, hacc, rfl, hrec⟩
  simp only [StreamState.recordAnswer, Eff.wp_bind, Eff.wp_whenever, hparts, StreamState.Scope.onWorld, Eff.wp_zoom,
    Eff.wp_tryExcept]
  refine ⟨fun h => absurd h (by decide), fun _ => ?_⟩
  rw [Eff.wp_of_ok hrecord]
  refine wp_enqueue (validUser_of_sessionKey hk) (by decide) (fun _ => ?_) fun hno => ?_
  · exact wp_onTelemetry (fun _ _ => hans) fun e he => ⟨set_error he, hans⟩
  · exact absurd (hacc'.symm.trans hno) (by decide)

/-- The code after the last chunk: it raises before it changes anything, or it persists and
records the answer. -/
theorem completeAnswer_spec {cs : List Uuid} {t : TelemetryCollector F} (hreg : w.registry.Consistent)
    (hk : ChatRegistry.sessionKey S r.userId r.sessionId = .ok key) (hq : isBlank r.question = false)
    (hd : key ∉ w.registry.deletingSessions) (hcs : w.registry.conversations key = some cs)
    (hfresh : ¬ InSession w.registry r.conversationId) :
    Eff.wp (StreamState.completeAnswer S r parts c) (fun _ s => Answered S r parts.flatten c w s.world)
      (fun e s => e.kind.isException = true ∧ (s.world = w ∨ Answered S r parts.flatten c w s.world)) ⟨w, t⟩ := by
  rw [StreamState.completeAnswer, Eff.wp_bind]
  refine Eff.wp_mono (persistAnswer_spec hk) (fun _ s hs => ?_) fun _ _ he => ⟨he.1, .inl he.2⟩
  obtain ⟨hblank, hacc, hworld⟩ := hs
  obtain ⟨w', t'⟩ := s
  subst hworld
  exact Eff.wp_mono (recordAnswer_spec hreg hk hq hd hcs hfresh hblank hacc) (fun _ _ h => h)
    fun _ _ he => ⟨he.1, .inr he.2⟩

end Complete

/-! ### One resumption of a query request -/

section Resumptions

variable {st st' : StreamState F} {w w' : ChatWorld} {input : StreamInput F} {frames : List (SseEvent F)}

/-- A suspended request goes on, and nothing but its place changes. -/
inductive Moves : StreamPhase → StreamInput F → StreamPhase → Prop where
  /-- The response is built. -/
  | prepared : Moves .preparing .prepared .created
  /-- Its generator is started. -/
  | started : Moves .created .start (.awaiting pipelineStages)
  /-- The first of the stages is done. -/
  | stageDone (keys : List TimingKey) (stages : List (List TimingKey)) :
      Moves (.awaiting (keys :: stages)) .stageDone (.awaiting stages)
  /-- The client took a token. -/
  | taken : Moves .atToken .next (.awaiting [])

/-- A request ends here and gives its lease back. -/
inductive Releases : StreamPhase → StreamInput F → Prop where
  /-- The preparation raises what one of its handlers catches. -/
  | unprepared (e : PyError) (caught : e.kind.isException ∨ e.kind = .cancelledError) : Releases .preparing (.raise e)
  /-- The client took the last frame. -/
  | taken {phase : StreamPhase} (last : phase = .atDone ∨ phase = .atError) : Releases phase .next
  /-- The generator is closed at a frame. -/
  | closed {phase : StreamPhase} (sent : phase = .atToken ∨ phase = .atTelemetry ∨ phase = .atDone ∨ phase = .atError) :
      Releases phase .close

/-- The body raises here, with this telemetry and this state behind it. -/
inductive Fails (S : RegistrySettings) (st : StreamState F) (w : ChatWorld) :
    StreamInput F → TelemetryCollector F → ChatWorld → PyError → Prop where
  /-- A timing of a stage is refused. -/
  | observed (key : TimingKey) (elapsed : F) (e : PyError) : Fails S st w (.observe key elapsed) st.telemetry w e
  /-- The time of the first chunk is refused. -/
  | first (t : Text) (elapsed : F) (e : PyError) (nonempty : t.isEmpty = false) (parts : st.parts = [])
      (refused : st.telemetry.set .ttft elapsed = .error e) : Fails S st w (.chunk t elapsed) st.telemetry w e
  /-- The code behind the last chunk raises. -/
  | completed (c : Completion F) (e : PyError) (s : StreamState.Scope F) (place : st.phase = .awaiting [])
      (run : StreamState.completeAnswer S st.request st.parts c ⟨w, st.telemetry⟩ = .error e s) :
      Fails S st w (.exhausted c) s.telemetry s.world e
  /-- What is awaited raises. -/
  | raised (e : PyError) : Fails S st w (.raise e) st.telemetry w e

/-- All that a resumption can do. -/
inductive Resumed (S : RegistrySettings) (st : StreamState F) (w : ChatWorld) :
    StreamInput F → StreamState F → ChatWorld → List (SseEvent F) → Prop where
  /-- The request goes on. -/
  | moved {input : StreamInput F} {phase : StreamPhase} (moves : Moves st.phase input phase) :
      Resumed S st w input { st with phase := phase } w []
  /-- A chunk is empty. -/
  | skipped (t : Text) (elapsed : F) (place : st.phase = .awaiting []) (empty : t.isEmpty = true) :
      Resumed S st w (.chunk t elapsed) st w []
  /-- A stage reports a timing. -/
  | observed (keys : List TimingKey) (stages : List (List TimingKey)) (key : TimingKey) (elapsed : F)
      (telemetry : TelemetryCollector F) (place : st.phase = .awaiting (keys :: stages)) (mem : key ∈ keys)
      (observe : st.telemetry.observe key elapsed = .ok telemetry) :
      Resumed S st w (.observe key elapsed)
        { st with phase := .awaiting (keys.erase key :: stages), telemetry := telemetry } w []
  /-- A chunk is sent. -/
  | token (t : Text) (elapsed : F) (telemetry : TelemetryCollector F) (place : st.phase = .awaiting [])
      (nonempty : t.isEmpty = false)
      (first : telemetry = st.telemetry ∨ st.telemetry.set .ttft elapsed = .ok telemetry) :
      Resumed S st w (.chunk t elapsed) { st with phase := .atToken, parts := st.parts ++ [t], telemetry := telemetry } w
        [⟨lit "token", StreamState.tokenPayload st.request t⟩]
  /-- The answer is complete. -/
  | measured (c : Completion F) (s : StreamState.Scope F) (place : st.phase = .awaiting [])
      (run : StreamState.completeAnswer S st.request st.parts c ⟨w, st.telemetry⟩ = .ok () s) :
      Resumed S st w (.exhausted c) { st with phase := .atTelemetry, telemetry := s.telemetry } s.world
        [⟨lit "telemetry", s.telemetry.payload st.request.correlationId⟩]
  /-- The client took the telemetry. -/
  | done (place : st.phase = .atTelemetry) :
      Resumed S st w .next { st with phase := .atDone } w [⟨lit "done", StreamState.donePayload st.request⟩]
  /-- The body raises. -/
  | failed {input : StreamInput F} {t : TelemetryCollector F} {w₁ : ChatWorld} {e : PyError}
      {stages : List (List TimingKey)} (place : st.phase = .awaiting stages) (fails : Fails S st w input t w₁ e) :
      Resumed S st w input (StreamState.fail S { st with telemetry := t } w₁ e).1
        (StreamState.fail S { st with telemetry := t } w₁ e).2.1 (StreamState.fail S { st with telemetry := t } w₁ e).2.2
  /-- The request ends and gives its lease back. -/
  | released {input : StreamInput F} (releases : Releases st.phase input) :
      Resumed S st w input { st with phase := .closed } (StreamState.endStream S st.request w) []
  /-- The request ends and keeps its lease. -/
  | dropped {input : StreamInput F}
      (drop : (st.phase = .created ∧ input = .close) ∨ st.phase = .preparing ∧ ∃ e : PyError, input = .raise e ∧
        ¬ (e.kind.isException ∨ e.kind = .cancelledError)) :
      Resumed S st w input { st with phase := .closed } w []

/-- What a resumption does is one of these. -/
theorem resume_resumed (h : st.resume S w input = some (st', w', frames)) : Resumed S st w input st' w' frames := by
  have hfail : ∀ {stages : List (List TimingKey)} {t : TelemetryCollector F} {w₁ : ChatWorld} {e : PyError},
      st.phase = .awaiting stages → Fails S st w input t w₁ e →
      some (StreamState.fail S { st with telemetry := t } w₁ e) = some (st', w', frames) →
      Resumed S st w input st' w' frames := by
    intro stages t w₁ e hp hfails heq
    have hres := Resumed.failed (S := S) hp hfails
    rw [Option.some.injEq] at heq
    rwa [heq] at hres
  unfold StreamState.resume at h
  split at h
  case h_1 hp =>
    cases h
    exact .moved (hp ▸ .prepared)
  case h_2 e hp =>
    split_ifs at h with hexc
    · cases h
      exact .released (hp ▸ .unprepared e hexc)
    · cases h
      exact .dropped (.inr ⟨hp, e, rfl, hexc⟩)
  case h_3 hp =>
    cases h
    exact .moved (hp ▸ .started)
  case h_4 hp =>
    cases h
    exact .dropped (.inl ⟨hp, rfl⟩)
  case h_5 keys stages key elapsed hp =>
    split_ifs at h with hkey
    split at h
    case h_1 t hobserve =>
      cases h
      exact .observed keys stages key elapsed t hp hkey hobserve
    case h_2 e _ => exact hfail hp (.observed key elapsed e) h
  case h_6 keys stages hp =>
    cases h
    exact .moved (hp ▸ .stageDone keys stages)
  case h_7 t elapsed hp =>
    split_ifs at h with hempty hfirst
    · cases h
      exact .skipped t elapsed hp hempty
    · cases hset : st.telemetry.set .ttft elapsed with
      | ok telemetry =>
        rw [hset] at h
        cases h
        exact .token t elapsed telemetry hp (by simpa using hempty) (.inr hset)
      | error e =>
        rw [hset] at h
        exact hfail hp (.first t elapsed e (by simpa using hempty) (List.isEmpty_iff.mp hfirst) hset) h
    · cases h
      exact .token t elapsed st.telemetry hp (by simpa using hempty) (.inl rfl)
  case h_8 c hp =>
    cases hrun : StreamState.completeAnswer S st.request st.parts c ⟨w, st.telemetry⟩ with
    | ok a s =>
      rw [hrun] at h
      cases h
      exact .measured c s hp hrun
    | error e s =>
      rw [hrun] at h
      exact hfail hp (.completed c e s hp hrun) h
  case h_9 stages e hp => exact hfail hp (.raised e) h
  case h_10 hp =>
    cases h
    exact .moved (hp ▸ .taken)
  case h_11 hp =>
    cases h
    exact .done hp
  case h_12 hp =>
    cases h
    exact .released (.taken (.inl hp))
  case h_13 hp =>
    cases h
    exact .released (.taken (.inr hp))
  case h_14 hp =>
    cases h
    exact .released (.closed (.inl hp))
  case h_15 hp =>
    cases h
    exact .released (.closed (.inr (.inl hp)))
  case h_16 hp =>
    cases h
    exact .released (.closed (.inr (.inr (.inl hp))))
  case h_17 hp =>
    cases h
    exact .released (.closed (.inr (.inr (.inr hp))))
  case h_18 => cases h

/-- A generator is closed before it started, or its preparation ends with an exception that
neither `except` clause catches. -/
def drops (phase : StreamPhase) : StreamInput F → Prop
  | .close => phase = .created
  | .raise e => phase = .preparing ∧ ¬ (e.kind.isException ∨ e.kind = .cancelledError)
  | _ => False

/-- What a resumption does to the shared state and to the request. -/
inductive Resumption (S : RegistrySettings) (st : StreamState F) (w : ChatWorld) (input : StreamInput F) :
    StreamState F → ChatWorld → Prop where
  /-- The request goes on and shares nothing. -/
  | kept (st' : StreamState F) (request : st'.request = st.request) (before : st.phase ≠ .closed)
      (after : st'.phase ≠ .closed) (answered : unanswered st.phase = false → unanswered st'.phase = false)
      (undropped : ¬ drops st.phase input) : Resumption S st w input st' w
  /-- The request ends and gives its lease back. -/
  | released (st' : StreamState F) (request : st'.request = st.request) (before : st.phase ≠ .closed)
      (after : st'.phase = .closed) (undropped : ¬ drops st.phase input) :
      Resumption S st w input st' (StreamState.endStream S st.request w)
  /-- The request ends and keeps its lease. -/
  | dropped (st' : StreamState F) (request : st'.request = st.request) (before : st.phase ≠ .closed)
      (after : st'.phase = .closed) (drop : drops st.phase input) : Resumption S st w input st' w
  /-- The answer is complete: it is persisted and recorded. -/
  | answered (st' : StreamState F) (w' : ChatWorld) (c : Completion F) (request : st'.request = st.request)
      (before : unanswered st.phase = true) (exhausted : input = .exhausted c)
      (answered : Answered S st.request st.parts.flatten c w w') (after : unanswered st'.phase = false)
      (notClosed : st'.phase ≠ .closed) : Resumption S st w input st' w'

omit [PyFloat F] in
theorem fail_resumption {st : StreamState F} {w : ChatWorld} {input : StreamInput F} {e : PyError}
    {t : TelemetryCollector F} (hb : st.phase ≠ .closed) (hd : ¬ drops st.phase input) :
    Resumption S st w input (StreamState.fail S { st with telemetry := t } w e).1
      (StreamState.fail S { st with telemetry := t } w e).2.1 := by
  unfold StreamState.fail
  split_ifs
  · exact .kept _ rfl hb (by simp) (fun _ => rfl) hd
  · exact .released _ rfl hb rfl hd

omit [PyFloat F] in
/-- A request that goes on has not come to the end of its answer. -/
theorem Moves.unanswered {phase phase' : StreamPhase} (h : Moves phase input phase') :
    ChatSystem.unanswered phase = true ∧ ChatSystem.unanswered phase' = true ∧ ¬ drops phase input := by
  cases h <;> exact ⟨rfl, rfl, by simp [drops]⟩

omit [PyFloat F] in
theorem Releases.undropped {phase : StreamPhase} (h : Releases phase input) : phase ≠ .closed ∧ ¬ drops phase input := by
  cases h with
  | unprepared e caught => exact ⟨nofun, fun hd => hd.2 caught⟩
  | taken last => rcases last with rfl | rfl <;> exact ⟨nofun, nofun⟩
  | closed sent => rcases sent with rfl | rfl | rfl | rfl <;> exact ⟨nofun, nofun⟩

/-- Where a request that did not answer yet has its lease, a resumption does one of four things. -/
theorem resume_cases (hreg : w.registry.Consistent)
    (hlease : unanswered st.phase = true → isBlank st.request.question = false ∧ ∃ key cs,
      ChatRegistry.sessionKey S st.request.userId st.request.sessionId = .ok key ∧
        key ∉ w.registry.deletingSessions ∧ w.registry.conversations key = some cs ∧
          ¬ InSession w.registry st.request.conversationId)
    (h : st.resume S w input = some (st', w', frames)) : Resumption S st w input st' w' := by
  have hanswer : ∀ c, st.phase = .awaiting [] →
      Eff.wp (StreamState.completeAnswer S st.request st.parts c)
        (fun _ s => Answered S st.request st.parts.flatten c w s.world)
        (fun e s => e.kind.isException = true ∧ (s.world = w ∨ Answered S st.request st.parts.flatten c w s.world))
        ⟨w, st.telemetry⟩ := by
    intro c hp
    obtain ⟨hq, key, cs, hk, hd, hcs, hfresh⟩ := hlease (by simp [hp, unanswered])
    exact completeAnswer_spec hreg hk hq hd hcs hfresh
  cases resume_resumed h with
  | moved moves =>
    obtain ⟨hbefore, hafter, hdrop⟩ := moves.unanswered
    exact .kept _ rfl (closed_of_unanswered hbefore) (closed_of_unanswered hafter) (by simp [hbefore]) hdrop
  | skipped t elapsed place => exact .kept _ rfl (by simp [place]) (by simp [place]) (fun h => h) (by simp [drops])
  | observed keys stages key elapsed telemetry place =>
    exact .kept _ rfl (by simp [place]) (by simp) (by simp [place, unanswered]) (by simp [drops])
  | token t elapsed telemetry place =>
    exact .kept _ rfl (by simp [place]) (by simp) (by simp [place, unanswered]) (by simp [drops])
  | measured c s place run =>
    exact .answered _ _ c rfl (by simp [place, unanswered]) rfl (Eff.wp_ok (hanswer c place) run) rfl (by simp)
  | done place => exact .kept _ rfl (by simp [place]) (by simp) (fun _ => rfl) (by simp [drops])
  | failed place fails =>
    cases fails with
    | observed key elapsed e => exact fail_resumption (by simp [place]) (by simp [drops])
    | first t elapsed e nonempty parts refused => exact fail_resumption (by simp [place]) (by simp [drops])
    | completed c e s here run =>
      obtain ⟨hexc, hworld⟩ := Eff.wp_error (hanswer c here) run
      simp only [StreamState.fail, hexc, if_true]
      rcases hworld with hsame | hans
      · rw [hsame]
        exact .kept _ rfl (by simp [place]) (by simp) (fun _ => rfl) (by simp [drops])
      · exact .answered _ _ c rfl (by simp [place, unanswered]) rfl hans rfl (by simp)
    | raised e => exact fail_resumption (by simp [place]) (by simp [drops, place])
  | released releases =>
    obtain ⟨hbefore, hdrop⟩ := releases.undropped
    exact .released _ rfl hbefore rfl hdrop
  | dropped drop =>
    rcases drop with ⟨hp, rfl⟩ | ⟨hp, e, rfl, hexc⟩
    · exact .dropped _ rfl (by simp [hp]) rfl hp
    · exact .dropped _ rfl (by simp [hp]) rfl ⟨hp, hexc⟩

end Resumptions

end ChatSystem

end TenantRag

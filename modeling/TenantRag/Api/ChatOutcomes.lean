import TenantRag.Api.ChatFrames

/-!
# The chats of one user: what a stream tells its client

What the last frame of a stream says about the shared state. A stream sends its telemetry in the
step that persists and records its answer, and `error` only where nothing of the conversation is or
will be stored.

## The model

`error` is sent behind a recorded answer where the time of the request is negative, which
`perf_counter` excludes.

## What is proved

* `protocol_run` — the frames of a request are its tokens and one ending, and nothing follows `done` or `error`.
* `answered_run` — a stream that sent its telemetry persisted and recorded its answer, in one step of the run.
* `failed_run` — of the conversation of a stream that sent `error` nothing is recorded, stored or pending.
-/

namespace TenantRag

namespace ChatSystem

open StreamState

variable {F : Type} [PyFloat F] {S : RegistrySettings} {user : Text} {s s' : ChatSystem F} {C T : List Uuid}

/-! ### Where the endings come from -/

section Resumptions

variable {st st' : StreamState F} {w w' : ChatWorld} {input : StreamInput F} {frames : List (SseEvent F)}

/-- A frame of this name is among them. -/
def Sent (name : String) (frames : List (SseEvent F)) : Prop := ∃ e ∈ frames, e.name = lit name

omit [PyFloat F] in
theorem sent_append {name : String} {fs gs : List (SseEvent F)} : Sent name (fs ++ gs) ↔ Sent name fs ∨ Sent name gs := by
  simp [Sent, or_and_right, exists_or]

/-- The rest of the generator does not raise, where the lease guarantees that the conversation can be recorded and the
time of the request is not negative. -/
theorem recordAnswer_timely {r : ChatRequest} {parts : List Text} {c : Completion F} {t : TelemetryCollector F}
    {key : SessionKey} {cs : List Uuid} (hreg : w.registry.Consistent)
    (hk : ChatRegistry.sessionKey S r.userId r.sessionId = .ok key) (hq : isBlank r.question = false)
    (hd : key ∉ w.registry.deletingSessions) (hcs : w.registry.conversations key = some cs)
    (hfresh : ¬ InSession w.registry r.conversationId) (hc : Timely (.exhausted c)) (hblank : isBlank parts.flatten = false)
    (hacc : w.queue.accepting = true) :
    Eff.wp (recordAnswer S r parts c) (fun _ s => Answered S r parts.flatten c w s.world) (fun _ _ => False)
      ⟨{ w with queue := persistedQueue r parts.flatten c w.queue }, t⟩ := by
  have hparts : parts.isEmpty = false := by
    cases parts with
    | nil => exact absurd hblank (by decide)
    | cons p ps => rfl
  obtain ⟨r', hrec, -⟩ := ChatRegistry.recordConversation_effect hreg hk hq hblank hd hcs
    fun k ds hds hmem => hfresh ⟨k, ds, hds, hmem⟩
  have hrecord : ChatWorld.onRegistry
      (ChatRegistry.recordConversation S r.userId r.sessionId r.conversationId.str r.question parts.flatten)
      { w with queue := persistedQueue r parts.flatten c w.queue } =
        .ok () ⟨r', persistedQueue r parts.flatten c w.queue⟩ := by
    simp only [ChatWorld.onRegistry, Eff.zoom, hrec]
  have hacc' : (persistedQueue r parts.flatten c w.queue).accepting = true := by
    rw [persistedQueue, accept_accepting, hacc]
  simp only [recordAnswer, Eff.wp_bind, Eff.wp_whenever, hparts, Scope.onWorld, Eff.wp_zoom, Eff.wp_tryExcept]
  refine ⟨fun h => absurd h (by decide), fun _ => ?_⟩
  rw [Eff.wp_of_ok hrecord]
  refine wp_enqueue (validUser_of_sessionKey hk) (by decide) (fun _ => ?_) fun hno => ?_
  · refine wp_onTelemetry (fun _ _ => ⟨hblank, hacc, rfl, hrec⟩) fun e he => ?_
    -- the time of the request is not negative
    rw [TelemetryCollector.set, hc.2.2, if_neg (by decide)] at he
    cases he
  · exact absurd (hacc'.symm.trans hno) (by decide)

/-- The code behind the last chunk, with the times `perf_counter` can give: it raises before it changes anything, or it
persists and records the answer. -/
theorem completeAnswer_timely {r : ChatRequest} {parts : List Text} {c : Completion F} {t : TelemetryCollector F}
    {key : SessionKey} {cs : List Uuid} (hreg : w.registry.Consistent)
    (hk : ChatRegistry.sessionKey S r.userId r.sessionId = .ok key) (hq : isBlank r.question = false)
    (hd : key ∉ w.registry.deletingSessions) (hcs : w.registry.conversations key = some cs)
    (hfresh : ¬ InSession w.registry r.conversationId) (hc : Timely (.exhausted c)) :
    Eff.wp (completeAnswer S r parts c) (fun _ s => Answered S r parts.flatten c w s.world) (fun _ s => s.world = w) ⟨w, t⟩ := by
  rw [completeAnswer, Eff.wp_bind]
  refine Eff.wp_mono (persistAnswer_spec hk) (fun _ s hs => ?_) fun _ _ he => he.2
  obtain ⟨hblank, hacc, hworld⟩ := hs
  obtain ⟨w', t'⟩ := s
  subst hworld
  exact Eff.wp_mono (recordAnswer_timely hreg hk hq hd hcs hfresh hc hblank hacc) (fun _ _ h => h) fun _ _ h => h.elim

/-- What a resumption sends: nothing, a token, the telemetry, the end, or an error. -/
inductive Sends (S : RegistrySettings) (st : StreamState F) (w : ChatWorld) (input : StreamInput F) :
    StreamState F → ChatWorld → List (SseEvent F) → Prop where
  /-- Nothing. -/
  | quiet (st' : StreamState F) (w' : ChatWorld) (parts : st'.parts = st.parts) : Sends S st w input st' w' []
  /-- A token. -/
  | token (st' : StreamState F) (part : Text) (elapsed : F) (before : unanswered st.phase = true)
      (chunk : input = .chunk part elapsed) (parts : st'.parts = st.parts ++ [part]) :
      Sends S st w input st' w [⟨lit "token", tokenPayload st.request part⟩]
  /-- The telemetry, behind a complete answer. -/
  | telemetry (st' : StreamState F) (c : Completion F) (s : Scope F) (exhausted : input = .exhausted c)
      (before : unanswered st.phase = true) (run : completeAnswer S st.request st.parts c ⟨w, st.telemetry⟩ = .ok () s)
      (parts : st'.parts = st.parts) : Sends S st w input st' s.world [⟨lit "telemetry", s.telemetry.payload st.request.correlationId⟩]
  /-- The end. -/
  | done (st' : StreamState F) (w' : ChatWorld) (parts : st'.parts = st.parts) :
      Sends S st w input st' w' [⟨lit "done", donePayload st.request⟩]
  /-- An error, where the code behind the last chunk was not run, or raised. -/
  | error (st' : StreamState F) (w' : ChatWorld) (before : unanswered st.phase = true) (after : st'.phase = .atError)
      (cause : w' = w ∨ ∃ c e s, input = .exhausted c ∧ s.world = w' ∧
        completeAnswer S st.request st.parts c ⟨w, st.telemetry⟩ = .error e s) (parts : st'.parts = st.parts) :
      Sends S st w input st' w' [⟨lit "error", errorPayload st.request⟩]

theorem fail_sends (t : TelemetryCollector F) {w₁ : ChatWorld} (e : PyError) (hp : unanswered st.phase = true)
    (hcause : w₁ = w ∨ ∃ c e s, input = .exhausted c ∧ s.world = w₁ ∧
      completeAnswer S st.request st.parts c ⟨w, st.telemetry⟩ = .error e s) :
    (StreamState.fail S { st with telemetry := t } w₁ e).1.request = st.request ∧
      Sends S st w input (StreamState.fail S { st with telemetry := t } w₁ e).1
        (StreamState.fail S { st with telemetry := t } w₁ e).2.1 (StreamState.fail S { st with telemetry := t } w₁ e).2.2 := by
  rw [StreamState.fail]
  split_ifs
  · exact ⟨rfl, .error _ _ hp rfl hcause rfl⟩
  · exact ⟨rfl, .quiet _ _ rfl⟩

/-- A resumption keeps the request, and sends at most one frame. -/
theorem resume_sends (h : st.resume S w input = some (st', w', frames)) :
    st'.request = st.request ∧ Sends S st w input st' w' frames := by
  have hun {stages : List (List TimingKey)} (hp : st.phase = .awaiting stages) : unanswered st.phase = true := by
    rw [hp]
    rfl
  cases resume_resumed h with
  | moved => exact ⟨rfl, .quiet _ _ rfl⟩
  | skipped => exact ⟨rfl, .quiet _ _ rfl⟩
  | observed => exact ⟨rfl, .quiet _ _ rfl⟩
  | token t elapsed telemetry place => exact ⟨rfl, .token _ t elapsed (hun place) rfl rfl⟩
  | measured c s place run => exact ⟨rfl, .telemetry _ c s rfl (hun place) run rfl⟩
  | done => exact ⟨rfl, .done _ _ rfl⟩
  | failed place fails =>
    cases fails with
    | completed c e s here run => exact fail_sends s.telemetry _ (hun place) (.inr ⟨c, _, s, rfl, rfl, run⟩)
    | observed => exact fail_sends st.telemetry _ (hun place) (.inl rfl)
    | first => exact fail_sends st.telemetry _ (hun place) (.inl rfl)
    | raised => exact fail_sends st.telemetry _ (hun place) (.inl rfl)
  | released => exact ⟨rfl, .quiet _ _ rfl⟩
  | dropped => exact ⟨rfl, .quiet _ _ rfl⟩

/-- The parts of the answer are the chunks. -/
theorem Sends.parts_cases (h : Sends S st w input st' w' frames) :
    st'.parts = st.parts ∨ ∃ part elapsed, input = .chunk part elapsed ∧ st'.parts = st.parts ++ [part] := by
  cases h with
  | quiet _ hparts => exact .inl hparts
  | token part elapsed _ hin hparts => exact .inr ⟨part, elapsed, hin, hparts⟩
  | telemetry _ _ _ _ _ hparts => exact .inl hparts
  | done _ hparts => exact .inl hparts
  | error _ _ _ _ hparts => exact .inl hparts

end Resumptions

/-! ### What was sent -/

omit [PyFloat F] in
/-- A single frame of another name. -/
theorem not_sent {name : String} {e : SseEvent F} (h : e.name ≠ lit name) : ¬ Sent name [e] := by
  rintro ⟨e', he, hname⟩
  exact h (List.mem_singleton.mp he ▸ hname)

section Endings

variable {st : StreamState F} {ending : Ending} {events : List (SseEvent F)}

/-- The names of the frames behind the tokens. -/
def endingNames : Ending → List Text
  | .silent => []
  | .measured => [lit "telemetry"]
  | .completed => [lit "telemetry", lit "done"]
  | .failed => [lit "error"]

theorem endingNames_eq (st : StreamState F) (ending : Ending) : (ending.events st).map SseEvent.name = endingNames ending := by
  cases ending <;> rfl

/-- A frame that is no token is one of the ending. -/
theorem mem_endingNames {name : String} (h : Transcript st ending events) (hname : lit name ≠ lit "token")
    (hs : Sent name events) : lit name ∈ endingNames ending := by
  obtain ⟨e, he, hen⟩ := hs
  rw [h.frames, List.mem_append] at he
  rcases he with he | he
  · obtain ⟨part, -, rfl⟩ := List.mem_map.mp he
    exact absurd hen.symm hname
  · rw [← endingNames_eq st, ← hen]
    exact List.mem_map_of_mem he

theorem completed_of_sent (h : Transcript st ending events) (hs : Sent "done" events) : ending = .completed := by
  have hmem := mem_endingNames h (by decide) hs
  cases ending with
  | completed => rfl
  | silent | measured | failed => exact absurd hmem (by decide)

theorem failed_of_sent (h : Transcript st ending events) (hs : Sent "error" events) : ending = .failed := by
  have hmem := mem_endingNames h (by decide) hs
  cases ending with
  | failed => rfl
  | silent | measured | completed => exact absurd hmem (by decide)

theorem sent_telemetry (h : Transcript st .completed events) : Sent "telemetry" events := by
  refine ⟨st.telemetryEvent, ?_, rfl⟩
  rw [h.frames]
  exact List.mem_append_right _ List.mem_cons_self

omit [PyFloat F] in
theorem not_sent_token {name : String} (hname : lit name ≠ lit "token") : ¬ Sent name st.tokenEvents := by
  rintro ⟨e, he, hen⟩
  obtain ⟨part, -, rfl⟩ := List.mem_map.mp he
  exact hname hen.symm

omit [PyFloat F] in
/-- Nothing is behind a last frame that was sent before. -/
theorem unsent_behind {name : String} {front sent more : List (SseEvent F)} {e : SseEvent F} (hnot : ¬ Sent name front)
    (hall : front ++ [e] = sent ++ more) (hs : Sent name sent) : more = [] := by
  by_contra hne
  have hfront := congrArg List.dropLast hall
  rw [List.dropLast_concat, List.dropLast_append_of_ne_nil hne] at hfront
  exact hnot (hfront ▸ sent_append.mpr (.inl hs))

/-- Behind `done` and behind `error` nothing is sent. -/
theorem nothing_behind {sent more : List (SseEvent F)} (h : Transcript st ending events) (hall : events = sent ++ more)
    (hs : Sent "done" sent ∨ Sent "error" sent) : more = [] := by
  have hframes := h.frames
  rcases hs with hs | hs
  · obtain rfl := completed_of_sent h (hall ▸ sent_append.mpr (.inl hs))
    rw [hall, Ending.events, ← List.singleton_append, ← List.append_assoc] at hframes
    refine unsent_behind ?_ hframes.symm hs
    rw [sent_append, not_or]
    exact ⟨not_sent_token (by decide), not_sent (show lit "telemetry" ≠ lit "done" by decide)⟩
  · obtain rfl := failed_of_sent h (hall ▸ sent_append.mpr (.inl hs))
    rw [hall, Ending.events] at hframes
    exact unsent_behind (not_sent_token (by decide)) hframes.symm hs

/-- **The protocol of a stream**: in every run, whatever is interleaved, the frames of a request are tokens, one for each
chunk it received that is not empty, and one ending; and once `done` or `error` was sent, nothing follows. -/
theorem protocol_run {m : ℕ} {hm : 0 < m} {as bs : List (Action F)} {sent more : List (ℕ × SseEvent F)}
    (hbefore : (machine S user).run (start m hm) as = some (s, sent)) (hafter : (machine S user).run s bs = some (s', more))
    {i : ℕ} (hi : s'.streams[i]? = some st) :
    (∃ ending, Transcript st ending (framesOf i sent ++ framesOf i more)) ∧ Received st (inputsOf i (as ++ bs)) ∧
      (Sent "done" (framesOf i sent) ∨ Sent "error" (framesOf i sent) → framesOf i more = []) := by
  have hrun : (machine S user).run (start m hm) (as ++ bs) = some (s', sent ++ more) :=
    (Machine.run_append_iff _).mpr ⟨s, sent, more, hbefore, hafter, rfl⟩
  obtain ⟨ending, htranscript⟩ := transcript_run hrun hi
  rw [framesOf_append] at htranscript
  exact ⟨⟨ending, htranscript⟩, received_run hrun hi, nothing_behind htranscript rfl⟩

end Endings

/-- A session gets a question, and its answer is sent. -/
def answeredChat : List (Action WholeFloat) :=
  let u := text ['a']
  let sid := (Uuid.ofNat 1).str
  let r : ChatRequest := ⟨u, sid, text ['q'], (Uuid.ofNat 9).str, Uuid.ofNat 2⟩
  let stages : List (Action WholeFloat) := List.replicate 6 (.stream 0 .stageDone)
  [.manage (.createSession u sid), .query r, .stream 0 .prepared, .stream 0 .start] ++ stages ++
    [.stream 0 (.chunk (text ['w']) ⟨3⟩), .stream 0 .next,
      .stream 0 (.exhausted ⟨⟨4⟩, ⟨7⟩, Uuid.ofNat 3, Uuid.ofNat 4, 0⟩), .stream 0 .next]

theorem protocol_run_answered :
    ∃ (s s' : ChatSystem WholeFloat) (sent more : List (ℕ × SseEvent WholeFloat)),
      (machine ⟨.any, fun _ => true⟩ (text ['a'])).run (start 1 (by decide)) answeredChat = some (s, sent) ∧
        (machine ⟨.any, fun _ => true⟩ (text ['a'])).run s [.stream 0 .next] = some (s', more) ∧
          (framesOf 0 sent).map SseEvent.name = [lit "token", lit "telemetry", lit "done"] ∧ framesOf 0 more = [] ∧
            ∃ st, s'.streams[0]? = some st ∧ (∃ ending, Transcript st ending (framesOf 0 sent ++ framesOf 0 more)) ∧
              Received st (inputsOf 0 (answeredChat ++ [.stream 0 .next])) := by
  obtain ⟨⟨s, sent⟩, hrun⟩ := Option.isSome_iff_exists.mp
    (show ((machine ⟨.any, fun _ => true⟩ (text ['a'])).run (start 1 (by decide))
      answeredChat).isSome = true by decide +kernel)
  have hnext : (((machine ⟨.any, fun _ => true⟩ (text ['a'])).run (start 1 (by decide))
      answeredChat).bind fun p =>
        ((machine ⟨.any, fun _ => true⟩ (text ['a'])).run p.1 [.stream 0 .next]).map fun q =>
          ((framesOf 0 p.2).map SseEvent.name, q.1.streams[0]?.isSome)) =
      some ([lit "token", lit "telemetry", lit "done"], true) := by decide +kernel
  rw [hrun, Option.bind_some, Option.map_eq_some_iff] at hnext
  obtain ⟨⟨s', more⟩, hafter, heq⟩ := hnext
  obtain ⟨hnames, hsome⟩ := Prod.mk.inj heq
  obtain ⟨st, hi⟩ := Option.isSome_iff_exists.mp hsome
  have hdone : Sent "done" (framesOf 0 sent) := by
    have hmem : lit "done" ∈ (framesOf 0 sent).map SseEvent.name := by
      rw [hnames]
      decide
    obtain ⟨e, he, hname⟩ := List.mem_map.mp hmem
    exact ⟨e, he, hname⟩
  obtain ⟨htranscript, hreceived, hnothing⟩ := protocol_run hrun hafter hi
  exact ⟨s, s', sent, more, hrun, hafter, hnames, hnothing (.inl hdone), st, hi, htranscript, hreceived⟩

example : (inputsOf 0 answeredChat).filterMap chunkText = [text ['w']] := by decide +kernel

/-! ### The run -/

/-- In one step of the run the answer of a request was persisted and recorded. -/
def AnsweredBy (S : RegistrySettings) (user : Text) (s₀ : ChatSystem F) (as : List (Action F)) (i : ℕ) (st : StreamState F) :
    Prop :=
  ∃ before c s₁ s₂ f₁ f₂, before ++ [.stream i (.exhausted c)] <+: as ∧ (machine S user).run s₀ before = some (s₁, f₁) ∧
    (machine S user).step s₁ (.stream i (.exhausted c)) = some (s₂, f₂) ∧
    Answered S st.request st.parts.flatten c s₁.world s₂.world

theorem AnsweredBy.mono {s₀ : ChatSystem F} {as bs : List (Action F)} {i : ℕ} {st st' : StreamState F}
    (h : AnsweredBy S user s₀ as i st) (hp : as <+: bs) (hreq : st'.request = st.request) (hparts : st'.parts = st.parts) :
    AnsweredBy S user s₀ bs i st' := by
  obtain ⟨before, c, s₁, s₂, f₁, f₂, hbefore, hrun, hstep, hans⟩ := h
  exact ⟨before, c, s₁, s₂, f₁, f₂, hbefore.trans hp, hrun, hstep, by rwa [hreq, hparts]⟩

/-- A request that sent its telemetry or an error is past its answer. -/
theorem answered_of_sent {st : StreamState F} {ending : Ending} {events : List (SseEvent F)} {name : String}
    (h : Transcript st ending events) (hs : Sent name events) (hname : lit name ≠ lit "token") :
    unanswered st.phase = false := by
  obtain ⟨e, he, hen⟩ := hs
  rw [h.frames, List.mem_append] at he
  rcases he with he | he
  · obtain ⟨part, -, rfl⟩ := List.mem_map.mp he
    exact absurd hen.symm hname
  · have hsuits := h.suits
    cases hp : st.phase <;> rw [hp] at hsuits <;> first
      | rfl
      | (obtain rfl := List.mem_singleton.mp hsuits
         cases he)

/-- **An answer is announced only when it is kept**: in every run in which no id is drawn twice, a request that sent its
telemetry persisted and recorded its answer in one step of the run. -/
theorem answered_run {m : ℕ} {hm : 0 < m} {as : List (Action F)} {frames : List (ℕ × SseEvent F)}
    (hC : (drawnConversations as).Nodup) (hT : (drawnTasks as).Nodup)
    (hrun : (machine S user).run (start m hm) as = some (s, frames)) {i : ℕ} {st : StreamState F}
    (hi : s.streams[i]? = some st) (hsent : Sent "telemetry" (framesOf i frames)) :
    AnsweredBy S user (start m hm) as i st := by
  have hall := (machine S user).run_induction (I := fun as frames t => (drawnConversations as).Nodup → (drawnTasks as).Nodup →
    ∀ i st, t.streams[i]? = some st → Sent "telemetry" (framesOf i frames) → AnsweredBy S user (start m hm) as i st)
    (fun _ _ i st hi => by cases hi) ?_ hrun hC hT
  · exact hall i st hi hsent
  intro as frames t a u fs hr ih hs hC hT i st hi hsent
  rw [drawnConversations_append] at hC
  rw [drawnTasks_append] at hT
  have hC' := (List.nodup_append.mp hC).1
  have hT' := (List.nodup_append.mp hT).1
  have hpre : as <+: as ++ [a] := List.prefix_append _ _
  have htelemetry : lit "telemetry" ≠ lit "token" := by decide
  have hold := ih hC' hT'
  have hnext : (machine S user).run (start m hm) (as ++ [a]) = some (u, frames ++ fs) :=
    (Machine.run_concat _).mpr ⟨t, frames, fs, hr, hs, rfl⟩
  cases step_heard hs with
  | still _ hstreams =>
    rw [List.append_nil] at hsent
    rw [hstreams] at hi
    exact (hold i st hi hsent).mono hpre rfl rfl
  | opened _ r hstreams =>
    rw [List.append_nil] at hsent
    rw [hstreams] at hi
    rcases lt_or_ge i t.streams.length with hlt | hge
    · rw [List.getElem?_append_left hlt] at hi
      exact (hold i st hi hsent).mono hpre rfl rfl
    · -- a request that is new sent nothing
      have hnew := hi
      rw [List.getElem?_append_right hge, List.getElem?_eq_some_iff] at hnew
      obtain ⟨hone, rfl⟩ := hnew
      obtain ⟨ending, htranscript⟩ := transcript_run hnext (hstreams ▸ hi)
      rw [List.append_nil] at htranscript
      have hpast := answered_of_sent htranscript hsent htelemetry
      rw [List.getElem_singleton] at hpast
      cases hpast
  | @resumed j input st₁ st₁' w fs hfound hres hstate =>
    subst hstate
    rw [framesOf_append, sent_append] at hsent
    rcases getElem?_set_cases hfound hi with ⟨rfl, rfl⟩ | ⟨hne, hi⟩
    · rw [framesOf_own] at hsent
      obtain ⟨hreq, hsends⟩ := resume_sends hres
      obtain ⟨ending, htranscript⟩ := transcript_run hr hfound
      have hpast : Sent "telemetry" (framesOf i frames) → unanswered st₁.phase = false :=
        fun h => answered_of_sent htranscript h htelemetry
      have hbefore : unanswered st₁.phase = true → ¬ Sent "telemetry" (framesOf i frames) := by
        intro hun h
        rw [hpast h] at hun
        cases hun
      cases hsends with
      | quiet _ hparts =>
        rcases hsent with hsent | ⟨e, he, -⟩
        · exact (hold _ _ hfound hsent).mono hpre hreq hparts
        · cases he
      | token part _ hun => exact absurd hsent (not_or.mpr ⟨hbefore hun, not_sent htelemetry.symm⟩)
      | telemetry c sc hin hun hcomplete hparts =>
        subst hin
        have hinv : Invariant S user t (drawnConversations as) (drawnTasks as) := (Invariant.start m hm).run hr hC' hT'
        obtain ⟨hq, key, cs, hk, hd, hcs, hfresh⟩ := hinv.lease hC' (List.mem_of_getElem? hfound) hun
        have hspec : Eff.wp (completeAnswer S st₁.request st₁.parts c) _ _ ⟨t.world, st₁.telemetry⟩ :=
          completeAnswer_spec hinv.registry hk hq hd hcs hfresh
        have hans : Answered S st₁.request st₁.parts.flatten c t.world sc.world := Eff.wp_ok hspec hcomplete
        rw [← hreq, ← hparts] at hans
        exact ⟨as, c, t, _, frames, _, List.prefix_refl _, hr, hs, hans⟩
      | done _ hparts =>
        rcases hsent with hsent | hsent
        · exact (hold _ _ hfound hsent).mono hpre hreq hparts
        · exact absurd hsent (not_sent (show lit "done" ≠ lit "telemetry" by decide))
      | error _ hun => exact absurd hsent (not_or.mpr ⟨hbefore hun, not_sent (show lit "error" ≠ lit "telemetry" by decide)⟩)
    · rw [framesOf_other hne] at hsent
      rcases hsent with hsent | ⟨e, he, -⟩
      · exact (hold i st hi hsent).mono hpre rfl rfl
      · cases he

/-- **An error is announced only where nothing is kept**: in every such run with the times `perf_counter` can give, of the
conversation of a request that sent `error` nothing is recorded, stored or pending, now or later. -/
theorem failed_run {m : ℕ} {hm : 0 < m} {as : List (Action F)} {frames : List (ℕ × SseEvent F)}
    (hC : (drawnConversations as).Nodup) (hT : (drawnTasks as).Nodup) (ht : TimelyRun as)
    (hrun : (machine S user).run (start m hm) as = some (s, frames)) {i : ℕ} {st : StreamState F}
    (hi : s.streams[i]? = some st) (hsent : Sent "error" (framesOf i frames)) :
    ¬ InSession s.world.registry st.request.conversationId ∧ Forgotten user s st.request.conversationId := by
  have hall := (machine S user).run_induction (I := fun as frames t => (drawnConversations as).Nodup → (drawnTasks as).Nodup →
    TimelyRun as → ∀ i st, t.streams[i]? = some st → Sent "error" (framesOf i frames) → Retired t st.request.conversationId)
    (fun _ _ _ i st hi => by cases hi) ?_ hrun hC hT ht
  · have hretired := hall i st hi hsent
    exact ⟨hretired.2, hretired.forgotten ((Invariant.start m hm).run hrun hC hT)⟩
  intro as frames t a u fs hr ih hs hC hT ht i st hi hsent
  have hnext : (machine S user).run (start m hm) (as ++ [a]) = some (u, frames ++ fs) :=
    (Machine.run_concat _).mpr ⟨t, frames, fs, hr, hs, rfl⟩
  rw [drawnConversations_append] at hC
  rw [drawnTasks_append] at hT
  have hC' := (List.nodup_append.mp hC).1
  have hT' := (List.nodup_append.mp hT).1
  have hinv : Invariant S user t (drawnConversations as) (drawnTasks as) := (Invariant.start m hm).run hr hC' hT'
  obtain ⟨-, he⟩ := hinv.step hs hC hT
  have herror : lit "error" ≠ lit "token" := by decide
  -- a conversation that was given up stays so
  have hold : ∀ st₁ : StreamState F, t.streams[i]? = some st₁ → st.request = st₁.request → Sent "error" (framesOf i frames) →
      Retired u st.request.conversationId := fun st₁ hi₁ hreq hsent =>
    hreq ▸ (ih hC' hT' (fun i input hin => ht i input (List.mem_append_left _ hin)) i st₁ hi₁ hsent).step hinv hC' he
  cases step_heard hs with
  | still _ hstreams =>
    rw [List.append_nil] at hsent
    rw [hstreams] at hi
    exact hold st hi rfl hsent
  | opened _ r hstreams =>
    rw [List.append_nil] at hsent
    have hnew := hi
    rw [hstreams] at hnew
    rcases lt_or_ge i t.streams.length with hlt | hge
    · rw [List.getElem?_append_left hlt] at hnew
      exact hold st hnew rfl hsent
    · -- a request that is new sent nothing
      rw [List.getElem?_append_right hge, List.getElem?_eq_some_iff] at hnew
      obtain ⟨hone, rfl⟩ := hnew
      obtain ⟨ending, htranscript⟩ := transcript_run hnext hi
      rw [List.append_nil] at htranscript
      have hpast := answered_of_sent htranscript hsent herror
      rw [List.getElem_singleton] at hpast
      cases hpast
  | @resumed j input st₁ st₁' w fs hfound hres hstate =>
    subst hstate
    rw [framesOf_append, sent_append] at hsent
    rcases getElem?_set_cases hfound hi with ⟨rfl, rfl⟩ | ⟨hne, hi⟩
    · rw [framesOf_own] at hsent
      obtain ⟨hreq, hsends⟩ := resume_sends hres
      rcases hsent with hsent | hsent
      · exact hold st₁ hfound hreq hsent
      · cases hsends with
        | quiet => exact absurd hsent (by simp [Sent])
        | token => exact absurd hsent (not_sent herror.symm)
        | telemetry => exact absurd hsent (not_sent (show lit "telemetry" ≠ lit "error" by decide))
        | done => exact absurd hsent (not_sent (show lit "done" ≠ lit "error" by decide))
        | error _ hun hafter hcause =>
          have hmem := List.mem_of_getElem? hfound
          have hfresh := hinv.unanswered_fresh hC' hmem hun
          have hworld : w = t.world := by
            rcases hcause with hsame | ⟨c, e, sc, hin, hsc, hcomplete⟩
            · exact hsame
            · subst hin
              obtain ⟨hq, key, cs, hk, hd, hcs, hnot⟩ := hinv.lease hC' hmem hun
              have hspec : Eff.wp (completeAnswer S st₁.request st₁.parts c) _ _ ⟨t.world, st₁.telemetry⟩ :=
                completeAnswer_timely hinv.registry hk hq hd hcs hnot (ht i _ (List.mem_append_right _ List.mem_cons_self))
              rw [← hsc]
              exact Eff.wp_error hspec hcomplete
          refine ⟨⟨st, List.mem_of_getElem? hi, rfl, by rw [hafter]; rfl⟩, ?_⟩
          rw [hworld, hreq]
          exact hfresh
    · rw [framesOf_other hne] at hsent
      rcases hsent with hsent | ⟨e, he, -⟩
      · exact hold st hi rfl hsent
      · cases he

end ChatSystem

end TenantRag

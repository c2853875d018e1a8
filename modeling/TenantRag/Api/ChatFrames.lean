import TenantRag.Api.ChatLease
import TenantRag.Api.ChatSegments

/-!
# The chats of one user: what the streams send

What the clients get to see of the system of `Api.ChatSystem`: the frames of each query request,
whatever the other parties do in between.

## What is proved

* `Transcript.resumed`, `transcript_run` — in every run the frames of a request are its tokens, none
  of them empty, and then one ending: nothing, the telemetry, the telemetry and `done`, or `error`.
* `Received.resumed`, `received_run` — in every run the tokens of a request are the chunks it received
  that are not empty, in their order.
* `Measured.resumed`, `measured_run` — where every time that is measured is finite and not negative,
  so are all timings.
* `streams_run` — what one resumption keeps of a request, its inputs and its frames, every run keeps.
-/

namespace TenantRag

namespace StreamState

open ChatSystem

variable {F : Type} [PyFloat F] {S : RegistrySettings}

/-! ### The frames of a stream -/

/-- The token events of the answer so far. -/
def tokenEvents (st : StreamState F) : List (SseEvent F) :=
  st.parts.map fun part => ⟨lit "token", tokenPayload st.request part⟩

/-- The telemetry event. -/
def telemetryEvent (st : StreamState F) : SseEvent F :=
  ⟨lit "telemetry", st.telemetry.payload st.request.correlationId⟩

/-- The done event. -/
def doneEvent (st : StreamState F) : SseEvent F := ⟨lit "done", donePayload st.request⟩

/-- The error event. -/
def errorEvent (st : StreamState F) : SseEvent F := ⟨lit "error", errorPayload st.request⟩

/-- How the frames of a stream end. -/
inductive Ending where
  /-- With a token, or without any frame. -/
  | silent
  /-- With the telemetry. -/
  | measured
  /-- With `done`. -/
  | completed
  /-- With `error`. -/
  | failed
  deriving DecidableEq

/-- The frames behind the tokens. -/
def Ending.events (st : StreamState F) : Ending → List (SseEvent F)
  | .silent => []
  | .measured => [st.telemetryEvent]
  | .completed => [st.telemetryEvent, st.doneEvent]
  | .failed => [st.errorEvent]

/-- The endings a request may have where it is suspended. -/
def endings : StreamPhase → List Ending
  | .preparing | .created | .awaiting _ | .atToken => [.silent]
  | .atTelemetry => [.measured]
  | .atDone => [.completed]
  | .atError => [.failed]
  | .closed => [.silent, .measured, .completed, .failed]

/-- The request sent these frames: its tokens, none of them empty, and the given ending. -/
structure Transcript (st : StreamState F) (ending : Ending) (events : List (SseEvent F)) : Prop where
  /-- No part of the answer is empty. -/
  nonempty : ∀ part ∈ st.parts, part ≠ []
  /-- The ending suits the place. -/
  suits : ending ∈ endings st.phase
  /-- The frames. -/
  frames : events = st.tokenEvents ++ ending.events st

variable {st st' : StreamState F} {w w' : ChatWorld} {input : StreamInput F} {ending : Ending}
  {events frames : List (SseEvent F)}

theorem mem_endings_closed (ending : Ending) : ending ∈ endings .closed := by
  cases ending <;> decide

theorem transcript_opened (r : ChatRequest) : Transcript (opened r : StreamState F) .silent [] :=
  ⟨fun part h => absurd h (by simp [opened]), List.mem_singleton.mpr rfl, rfl⟩

/-- A request that ends sends nothing more. -/
theorem Transcript.released (h : Transcript st ending events) :
    Transcript (release S st w).1 ending (events ++ (release S st w).2.2) := by
  refine ⟨h.nonempty, mem_endings_closed ending, ?_⟩
  rw [release, List.append_nil, h.frames]
  cases ending <;> rfl

/-- An exception in the body ends the frames with `error`, or with the last token. -/
theorem Transcript.failed (h : Transcript st .silent events) (t : TelemetryCollector F) (e : PyError) :
    ∃ ending, Transcript (fail S { st with telemetry := t } w e).1 ending
      (events ++ (fail S { st with telemetry := t } w e).2.2) := by
  have hst : Transcript { st with telemetry := t } .silent events := ⟨h.nonempty, h.suits, h.frames⟩
  rw [fail]
  split_ifs
  · refine ⟨.failed, h.nonempty, List.mem_singleton.mpr rfl, ?_⟩
    rw [h.frames, Ending.events, List.append_nil]
    rfl
  · exact ⟨.silent, hst.released⟩

/-- Before the answer is complete nothing but tokens was sent. -/
theorem Transcript.ending_silent (h : Transcript st ending events) (hp : unanswered st.phase = true) : ending = .silent := by
  have hend := h.suits
  cases hphase : st.phase <;> rw [hphase] at hend hp <;> first
    | exact List.mem_singleton.mp hend
    | cases hp

omit [PyFloat F] in
theorem silent_of_moves {phase phase' : StreamPhase} (h : Moves phase input phase') : .silent ∈ endings phase' := by
  cases h <;> exact List.mem_singleton.mpr rfl

/-- A request that goes on silently. -/
theorem Transcript.quiet (h : Transcript st .silent events) (hreq : st'.request = st.request) (hparts : st'.parts = st.parts)
    (hsuits : .silent ∈ endings st'.phase) : Transcript st' .silent (events ++ []) := by
  refine ⟨fun part hpart => h.nonempty part (hparts ▸ hpart), hsuits, ?_⟩
  rw [List.append_nil, h.frames, tokenEvents, tokenEvents, hreq, hparts]
  rfl

/-- A request that sends a token. -/
theorem Transcript.sent (h : Transcript st .silent events) {t : Text} (hempty : t.isEmpty = false)
    (telemetry : TelemetryCollector F) :
    Transcript { st with phase := .atToken, parts := st.parts ++ [t], telemetry := telemetry } .silent
      (events ++ [⟨lit "token", tokenPayload st.request t⟩]) := by
  refine ⟨fun part hpart => ?_, List.mem_singleton.mpr rfl, by simp [h.frames, tokenEvents, Ending.events]⟩
  rcases List.mem_append.mp hpart with hpart | hpart
  · exact h.nonempty part hpart
  · rw [List.mem_singleton.mp hpart]
    exact fun hnil => by simp [hnil] at hempty

/-- One resumption keeps the order of the frames. -/
theorem Transcript.resumed (h : Transcript st ending events) (hr : st.resume S w input = some (st', w', frames)) :
    ∃ ending', Transcript st' ending' (events ++ frames) := by
  have hsilent {stages : List (List TimingKey)} (hp : st.phase = .awaiting stages) : ending = .silent :=
    h.ending_silent (by rw [hp]; rfl)
  cases resume_resumed hr with
  | moved moves =>
    obtain rfl := h.ending_silent moves.unanswered.1
    exact ⟨.silent, h.quiet rfl rfl (silent_of_moves moves)⟩
  | skipped t elapsed place =>
    obtain rfl := hsilent place
    exact ⟨.silent, h.quiet rfl rfl h.suits⟩
  | observed keys stages key elapsed telemetry place =>
    obtain rfl := hsilent place
    exact ⟨.silent, h.quiet rfl rfl (List.mem_singleton.mpr rfl)⟩
  | token t elapsed telemetry place nonempty =>
    obtain rfl := hsilent place
    exact ⟨.silent, h.sent nonempty telemetry⟩
  | measured c s place =>
    obtain rfl := hsilent place
    exact ⟨.measured, h.nonempty, List.mem_singleton.mpr rfl, by simp [h.frames, tokenEvents, Ending.events, telemetryEvent]⟩
  | done place =>
    have hend := h.suits
    rw [place] at hend
    obtain rfl := List.mem_singleton.mp hend
    refine ⟨.completed, h.nonempty, List.mem_singleton.mpr rfl, ?_⟩
    simp [h.frames, tokenEvents, Ending.events, doneEvent, telemetryEvent]
  | failed place fails =>
    obtain rfl := hsilent place
    exact h.failed _ _
  | released => exact ⟨ending, h.released (S := S) (w := w)⟩
  | dropped drop =>
    have hp : unanswered st.phase = true := by
      rcases drop with ⟨hp, -⟩ | ⟨hp, -⟩ <;> rw [hp] <;> rfl
    obtain rfl := h.ending_silent hp
    exact ⟨.silent, h.quiet rfl rfl (mem_endings_closed _)⟩

/-! ### The chunks -/

/-- The text of a chunk that is not empty. -/
def chunkText : StreamInput F → Option Text
  | .chunk t _ => if t.isEmpty then none else some t
  | _ => none

/-- The request is over, or about to be with an error. -/
def Over (phase : StreamPhase) : Prop := phase = .atError ∨ phase = .closed

/-- The parts of the answer, among what the request was resumed with. -/
inductive Received (st : StreamState F) (inputs : List (StreamInput F)) : Prop where
  /-- They are the chunks that are not empty. -/
  | all (parts : st.parts = inputs.filterMap chunkText)
  /-- The first chunk came, as it was measured, before the request; it is refused, and the request over. -/
  | refused (t : Text) (elapsed : F) (chunk : .chunk t elapsed ∈ inputs) (negative : PyFloat.isNegative elapsed = true)
      (only : inputs.filterMap chunkText = [t]) (parts : st.parts = []) (ended : Over st.phase)

theorem received_opened (r : ChatRequest) : Received (opened r : StreamState F) [] := .all rfl

omit [PyFloat F] in
theorem fail_over (st : StreamState F) (t : TelemetryCollector F) (w : ChatWorld) (e : PyError) :
    (fail S { st with telemetry := t } w e).1.parts = st.parts ∧ Over (fail S { st with telemetry := t } w e).1.phase := by
  rw [fail]
  split_ifs
  · exact ⟨rfl, .inl rfl⟩
  · exact ⟨rfl, .inr rfl⟩

omit [PyFloat F] in
theorem chunkText_of_moves {phase phase' : StreamPhase} (h : Moves phase input phase') : chunkText input = none := by
  cases h <;> rfl

omit [PyFloat F] in
theorem chunkText_of_releases {phase : StreamPhase} (h : Releases phase input) : chunkText input = none := by
  cases h <;> rfl

omit [PyFloat F] in
theorem not_over {phase : StreamPhase} (h : unanswered phase = true) : ¬ Over phase := by
  rintro (rfl | rfl) <;> cases h

/-- What a resumption makes of the parts: nothing, or it adds a chunk, or it refuses the first. -/
theorem resume_chunk (hr : st.resume S w input = some (st', w', frames)) :
    (chunkText input = none ∧ st'.parts = st.parts ∧ (Over st.phase → Over st'.phase)) ∨
      ∃ t elapsed, input = .chunk t elapsed ∧ chunkText input = some t ∧ ¬ Over st.phase ∧
        (st'.parts = st.parts ++ [t] ∨
          PyFloat.isNegative elapsed = true ∧ st.parts = [] ∧ st'.parts = [] ∧ Over st'.phase) := by
  have hnot {stages : List (List TimingKey)} (hp : st.phase = .awaiting stages) : ¬ Over st.phase :=
    not_over (by rw [hp]; rfl)
  cases resume_resumed hr with
  | moved moves =>
    exact .inl ⟨chunkText_of_moves moves, rfl, fun h => absurd h (not_over moves.unanswered.1)⟩
  | skipped t elapsed place empty => exact .inl ⟨if_pos empty, rfl, fun h => h⟩
  | observed keys stages key elapsed telemetry place => exact .inl ⟨rfl, rfl, fun h => absurd h (hnot place)⟩
  | token t elapsed telemetry place nonempty =>
    exact .inr ⟨t, elapsed, rfl, if_neg (by simp [nonempty]), hnot place, .inl rfl⟩
  | measured c s place => exact .inl ⟨rfl, rfl, fun h => absurd h (hnot place)⟩
  | done place => exact .inl ⟨rfl, rfl, fun h => by rw [place] at h; rcases h with h | h <;> cases h⟩
  | @failed _ t w₁ e _ place fails =>
    obtain ⟨hparts, hover⟩ := fail_over (S := S) st t w₁ e
    cases fails with
    | first chunk elapsed e nonempty parts refused =>
      refine .inr ⟨chunk, elapsed, rfl, if_neg (by simp [nonempty]), hnot place, .inr ⟨?_, parts, hparts.trans parts, hover⟩⟩
      rw [TelemetryCollector.set] at refused
      split_ifs at refused with hnegative
      exact hnegative
    | observed => exact .inl ⟨rfl, hparts, fun _ => hover⟩
    | completed => exact .inl ⟨rfl, hparts, fun _ => hover⟩
    | raised => exact .inl ⟨rfl, hparts, fun _ => hover⟩
  | released releases =>
    exact .inl ⟨chunkText_of_releases releases, rfl, fun _ => .inr rfl⟩
  | dropped drop =>
    have hnone : chunkText input = none := by
      rcases drop with ⟨-, rfl⟩ | ⟨-, e, rfl, -⟩ <;> rfl
    exact .inl ⟨hnone, rfl, fun _ => .inr rfl⟩

/-- One resumption keeps the parts those that were received. -/
theorem Received.resumed {inputs : List (StreamInput F)} (h : Received st inputs)
    (hr : st.resume S w input = some (st', w', frames)) : Received st' (inputs ++ [input]) := by
  rcases resume_chunk hr with ⟨hnone, hparts, hover⟩ | ⟨t, elapsed, rfl, htext, hnot, hadd | ⟨hnegative, hnil, hnil', hover⟩⟩
  · have hsame : (inputs ++ [input]).filterMap chunkText = inputs.filterMap chunkText := by
      rw [List.filterMap_append, List.filterMap_cons_none hnone, List.filterMap_nil, List.append_nil]
    cases h with
    | all hall => exact .all (hparts.trans (hall.trans hsame.symm))
    | refused t elapsed hchunk hnegative honly hnil hphase =>
      exact .refused t elapsed (List.mem_append_left _ hchunk) hnegative (hsame.trans honly) (hparts.trans hnil) (hover hphase)
  · have hmore : (inputs ++ [StreamInput.chunk t elapsed]).filterMap chunkText = inputs.filterMap chunkText ++ [t] := by
      rw [List.filterMap_append, List.filterMap_cons_some htext, List.filterMap_nil]
    cases h with
    | all hall => exact .all (by rw [hadd, hall, hmore])
    | refused _ _ _ _ _ _ hphase => exact absurd hphase hnot
  · have hmore : (inputs ++ [StreamInput.chunk t elapsed]).filterMap chunkText = inputs.filterMap chunkText ++ [t] := by
      rw [List.filterMap_append, List.filterMap_cons_some htext, List.filterMap_nil]
    cases h with
    | all hall =>
      refine .refused t elapsed (List.mem_append_right _ List.mem_cons_self) hnegative ?_ hnil' hover
      rw [hmore, ← hall, hnil, List.nil_append]
    | refused _ _ _ _ _ _ hphase => exact absurd hphase hnot

/-! ### The timings -/

/-- The documented behaviour of a difference of `perf_counter`: it is finite and not negative. -/
def IsElapsed (x : F) : Prop := PyFloat.isFinite x = true ∧ PyFloat.isNegative x = false

/-- Every timing is such a number. -/
def AllElapsed (t : TelemetryCollector F) : Prop := ∀ k, IsElapsed (t.values k)

theorem isElapsed_zero : IsElapsed (PyFloat.zero : F) := ⟨PyFloat.zero_finite, PyFloat.zero_nonneg⟩

theorem IsElapsed.zero_add {x : F} (h : IsElapsed x) : IsElapsed (PyFloat.add PyFloat.zero x) :=
  ⟨PyFloat.zero_add_finite x h.1, PyFloat.zero_add_nonneg x h.2⟩

theorem allElapsed_new : AllElapsed (TelemetryCollector.new : TelemetryCollector F) := fun _ => isElapsed_zero

theorem AllElapsed.update {t : TelemetryCollector F} {k : TimingKey} {x : F} (h : AllElapsed t) (hx : IsElapsed x) :
    AllElapsed ⟨Function.update t.values k x⟩ := by
  intro j
  change IsElapsed (Function.update t.values k x j)
  by_cases hj : j = k
  · rw [hj, Function.update_self]
    exact hx
  · rw [Function.update_of_ne hj]
    exact h j

/-- The first observation of a phase. -/
theorem AllElapsed.observed {t t' : TelemetryCollector F} {k : TimingKey} {x : F} (h : AllElapsed t)
    (hzero : t.values k = PyFloat.zero) (hx : IsElapsed x) (ht : t.observe k x = .ok t') :
    AllElapsed t' ∧ ∀ j, j ≠ k → t'.values j = t.values j := by
  rw [TelemetryCollector.observe, hx.2, if_neg (by decide), hzero] at ht
  cases ht
  exact ⟨h.update hx.zero_add, fun j hj => Function.update_of_ne hj _ _⟩

/-- A timing that is set. -/
theorem AllElapsed.put {t t' : TelemetryCollector F} {k : TimingKey} {x : F} (h : AllElapsed t) (hx : IsElapsed x)
    (ht : t.set k x = .ok t') : AllElapsed t' ∧ ∀ j, j ≠ k → t'.values j = t.values j := by
  rw [TelemetryCollector.set, hx.2, if_neg (by decide)] at ht
  cases ht
  exact ⟨h.update hx, fun j hj => Function.update_of_ne hj _ _⟩

/-- What the environment measures in a resumption. -/
def Timely : StreamInput F → Prop
  | .observe _ x | .chunk _ x => IsElapsed x
  | .exhausted c => IsElapsed c.generationElapsed ∧ IsElapsed c.totalElapsed
  | _ => True

/-- The phases that may still be observed. -/
def unobserved : StreamPhase → List TimingKey
  | .preparing | .created => .generation :: pipelineStages.flatten
  | .awaiting stages => .generation :: stages.flatten
  | .atToken => [.generation]
  | _ => []

/-- Every timing is finite and not negative, and what may still be observed was not yet. -/
structure Measured (st : StreamState F) : Prop where
  /-- The timings. -/
  elapsed : AllElapsed st.telemetry
  /-- No phase is observed twice. -/
  distinct : (unobserved st.phase).Nodup
  /-- What was not observed. -/
  zero : ∀ k ∈ unobserved st.phase, st.telemetry.values k = PyFloat.zero

theorem measured_opened (r : ChatRequest) : Measured (opened r : StreamState F) :=
  ⟨allElapsed_new, (by decide : (TimingKey.generation :: pipelineStages.flatten).Nodup), fun _ _ => rfl⟩

omit [PyFloat F] in
theorem wp_onWorld_telemetry {α : Type} (m : Eff ChatWorld PyError α) (s : Scope F) :
    Eff.wp (Scope.onWorld m) (fun _ s' => s'.telemetry = s.telemetry) (fun _ s' => s'.telemetry = s.telemetry) s := by
  rw [Scope.onWorld, Eff.wp_zoom]
  exact Eff.wp_mono (Eff.wp_true m s.world) (fun _ _ _ => rfl) fun _ _ _ => rfl

/-- The code behind the last chunk keeps the timings finite and not negative, whether it raises or not. -/
theorem completeAnswer_elapsed {r : ChatRequest} {parts : List Text} {c : Completion F} {s : Scope F}
    (h : AllElapsed s.telemetry) (hzero : s.telemetry.values .generation = PyFloat.zero)
    (hc : Timely (.exhausted c)) :
    Eff.wp (completeAnswer S r parts c) (fun _ s' => AllElapsed s'.telemetry) (fun _ s' => AllElapsed s'.telemetry) s := by
  have hworld : ∀ {α : Type} (m : Eff ChatWorld PyError α) (s : Scope F), AllElapsed s.telemetry →
      Eff.wp (Scope.onWorld m) (fun _ s' => AllElapsed s'.telemetry) (fun _ s' => AllElapsed s'.telemetry) s :=
    fun m s hs => Eff.wp_mono (wp_onWorld_telemetry m s) (fun _ _ h => h ▸ hs) fun _ _ h => h ▸ hs
  have hset : ∀ s : Scope F, AllElapsed s.telemetry → Eff.wp (Scope.onTelemetry fun t => t.set .totalRequest c.totalElapsed)
      (fun _ s' => AllElapsed s'.telemetry) (fun _ s' => AllElapsed s'.telemetry) s :=
    fun s hs => wp_onTelemetry (fun t ht => (hs.put hc.2 ht).1) fun _ _ => hs
  have hrecord : ∀ s : Scope F, AllElapsed s.telemetry → Eff.wp (recordAnswer S r parts c)
      (fun _ s' => AllElapsed s'.telemetry) (fun _ s' => AllElapsed s'.telemetry) s := by
    intro s hs
    rw [recordAnswer, Eff.wp_bind, Eff.wp_whenever]
    refine ⟨fun _ => hs, fun _ => ?_⟩
    rw [Eff.wp_bind]
    refine Eff.wp_mono (hworld _ s hs) (fun _ s' hs' => ?_) fun _ _ h => h
    rw [Eff.wp_bind, Eff.wp_tryExcept]
    refine Eff.wp_mono (hworld _ s' hs') (fun _ s'' hs'' => hset s'' hs'') fun e s'' hs'' => ?_
    split_ifs
    · exact hset s'' hs''
    · exact hs''
  have hpersist : ∀ s : Scope F, AllElapsed s.telemetry → Eff.wp (do
      .whenever (isBlank parts.flatten) (.raise (valueError "answer stream completed without a non-empty answer"))
      Scope.onWorld (ChatWorld.enqueue S r.userId (lit "embed_conversation")
        (.embedConversation r.userId r.conversationId r.question parts.flatten) c.persistenceTask c.now))
      (fun _ s' => AllElapsed s'.telemetry) (fun _ s' => AllElapsed s'.telemetry) s := by
    intro s hs
    rw [Eff.wp_bind, Eff.wp_whenever]
    exact ⟨fun _ => hs, fun _ => hworld _ s hs⟩
  rw [completeAnswer, Eff.wp_bind, persistAnswer, Eff.wp_bind, Eff.wp_whenever]
  have hrest : ∀ s : Scope F, AllElapsed s.telemetry → _ := fun s hs =>
    Eff.wp_mono (hpersist s hs) (fun _ s' hs' => hrecord s' hs') fun _ _ h => h
  refine ⟨fun _ => ?_, fun _ => hrest s h⟩
  exact wp_onTelemetry (fun t ht => hrest _ (h.observed hzero hc.1 ht).1) fun _ _ => h

theorem Measured.of_sublist (h : Measured st) (ht : st'.telemetry = st.telemetry)
    (hsub : (unobserved st'.phase).Sublist (unobserved st.phase)) : Measured st' :=
  ⟨ht ▸ h.elapsed, h.distinct.sublist hsub, fun k hk => ht ▸ h.zero k (hsub.subset hk)⟩

theorem measured_over (ht : AllElapsed st.telemetry) (hp : unobserved st.phase = []) : Measured st :=
  ⟨ht, hp ▸ List.nodup_nil, fun _ hk => absurd (hp ▸ hk) List.not_mem_nil⟩

theorem measured_release (ht : AllElapsed st.telemetry) : Measured (release S st w).1 := measured_over ht rfl

theorem measured_fail {t : TelemetryCollector F} (ht : AllElapsed t) (e : PyError) :
    Measured (fail S { st with telemetry := t } w e).1 := by
  rw [fail]
  split_ifs
  · exact measured_over ht rfl
  · exact measured_release ht

omit [PyFloat F] in
/-- What may be observed behind a move could be before. -/
theorem unobserved_of_moves {phase phase' : StreamPhase} (h : Moves phase input phase') :
    (unobserved phase').Sublist (unobserved phase) := by
  cases h with
  | stageDone keys stages => exact List.Sublist.cons_cons _ (List.sublist_append_right _ _)
  | _ => exact List.Sublist.refl _

/-- A stage that reports a timing: what may still be observed is what was left, less this phase. -/
theorem Measured.observed {keys : List TimingKey} {stages : List (List TimingKey)} {key : TimingKey} {elapsed : F}
    {telemetry : TelemetryCollector F} (h : Measured st) (hp : st.phase = .awaiting (keys :: stages)) (hkey : key ∈ keys)
    (ht : IsElapsed elapsed) (hobserve : st.telemetry.observe key elapsed = .ok telemetry) :
    Measured { st with phase := .awaiting (keys.erase key :: stages), telemetry := telemetry } := by
  obtain ⟨helapsed, hdistinct, hzero⟩ := h
  rw [hp] at hdistinct hzero
  have hmem : key ∈ keys ++ stages.flatten := List.mem_append_left _ hkey
  have hgeneration : TimingKey.generation ≠ key := by
    rintro rfl
    exact (List.nodup_cons.mp hdistinct).1 hmem
  have herase : unobserved (.awaiting (keys.erase key :: stages)) = (unobserved (.awaiting (keys :: stages))).erase key := by
    rw [unobserved, unobserved, List.erase_cons_tail (by simpa using hgeneration), List.flatten_cons, List.flatten_cons,
      List.erase_append_left _ hkey]
  obtain ⟨helapsed', hsame⟩ := helapsed.observed (hzero key (List.mem_cons_of_mem _ hmem)) ht hobserve
  refine ⟨helapsed', ?_, fun k hk => ?_⟩
  · change (unobserved (.awaiting (keys.erase key :: stages))).Nodup
    rw [herase]
    exact hdistinct.erase key
  · change k ∈ unobserved (.awaiting (keys.erase key :: stages)) at hk
    rw [herase, hdistinct.mem_erase_iff] at hk
    exact (hsame k hk.1).trans (hzero k hk.2)

/-- A request that sends a token. -/
theorem Measured.sent {t : Text} {telemetry : TelemetryCollector F} (h : Measured st) (hp : st.phase = .awaiting [])
    (ht : AllElapsed telemetry) (hsame : telemetry.values .generation = st.telemetry.values .generation) :
    Measured { st with phase := .atToken, parts := st.parts ++ [t], telemetry := telemetry } := by
  refine ⟨ht, List.nodup_singleton _, fun k hk => ?_⟩
  obtain rfl := List.mem_singleton.mp hk
  exact hsame.trans (h.zero _ (by rw [hp]; exact List.mem_cons_self))

/-- One resumption keeps the timings finite and not negative. -/
theorem Measured.resumed (h : Measured st) (ht : Timely input) (hr : st.resume S w input = some (st', w', frames)) :
    Measured st' := by
  have hanswer {c : Completion F} (hp : st.phase = .awaiting []) (hc : Timely (.exhausted c)) :
      Eff.wp (completeAnswer S st.request st.parts c) (fun _ s => AllElapsed s.telemetry) (fun _ s => AllElapsed s.telemetry)
        ⟨w, st.telemetry⟩ :=
    completeAnswer_elapsed h.elapsed (h.zero .generation (by rw [hp]; exact List.mem_cons_self)) hc
  cases resume_resumed hr with
  | moved moves => exact h.of_sublist rfl (unobserved_of_moves moves)
  | skipped => exact h
  | observed keys stages key elapsed telemetry place mem observe => exact h.observed place mem ht observe
  | token t elapsed telemetry place nonempty first =>
    rcases first with rfl | hset
    · exact h.sent place h.elapsed rfl
    · obtain ⟨helapsed, hsame⟩ := h.elapsed.put ht hset
      exact h.sent place helapsed (hsame _ (by decide))
  | measured c s place run => exact measured_over (Eff.wp_ok (hanswer place ht) run) rfl
  | done => exact measured_over h.elapsed rfl
  | failed place fails =>
    cases fails with
    | completed c e s here run => exact measured_fail (Eff.wp_error (hanswer here ht) run) _
    | observed => exact measured_fail h.elapsed _
    | first => exact measured_fail h.elapsed _
    | raised => exact measured_fail h.elapsed _
  | released => exact measured_over h.elapsed rfl
  | dropped => exact measured_over h.elapsed rfl

end StreamState

namespace ChatSystem

open StreamState

variable {F : Type} [PyFloat F] {S : RegistrySettings} {user : Text} {s s' : ChatSystem F}

/-! ### The frames of a run -/

/-- The frames that were sent for a request. -/
def framesOf (i : ℕ) (frames : List (ℕ × SseEvent F)) : List (SseEvent F) :=
  (frames.filter fun f => f.1 = i).map Prod.snd

omit [PyFloat F] in
theorem framesOf_append (i : ℕ) (fs gs : List (ℕ × SseEvent F)) : framesOf i (fs ++ gs) = framesOf i fs ++ framesOf i gs := by
  rw [framesOf, List.filter_append, List.map_append, framesOf, framesOf]

omit [PyFloat F] in
theorem framesOf_own (i : ℕ) (fs : List (SseEvent F)) : framesOf i (fs.map fun f => (i, f)) = fs := by
  simp [framesOf, List.filter_map, Function.comp_def]

omit [PyFloat F] in
theorem framesOf_other {i j : ℕ} (h : j ≠ i) (fs : List (SseEvent F)) : framesOf i (fs.map fun f => (j, f)) = [] := by
  simp [framesOf, List.filter_map, Function.comp_def, h]

/-- What a request is resumed with in a run. -/
def inputsOf (i : ℕ) (as : List (Action F)) : List (StreamInput F) := as.filterMap (inputFor i)

omit [PyFloat F] in
theorem inputsOf_concat (i : ℕ) (as : List (Action F)) (a : Action F) :
    inputsOf i (as ++ [a]) = inputsOf i as ++ (inputFor i a).toList := by
  rw [inputsOf, List.filterMap_append, ← inputsOf]
  cases h : inputFor i a with
  | none => rw [List.filterMap_cons_none h, List.filterMap_nil, Option.toList_none]
  | some input => rw [List.filterMap_cons_some h, List.filterMap_nil, Option.toList_some]

omit [PyFloat F] in
theorem getElem?_set_cases {streams : List (StreamState F)} {i j : ℕ} {st st' st₂ : StreamState F}
    (hi : streams[i]? = some st) (hj : (streams.set i st')[j]? = some st₂) :
    (j = i ∧ st₂ = st') ∨ (i ≠ j ∧ streams[j]? = some st₂) := by
  by_cases hij : i = j
  · subst hij
    obtain ⟨hlt, -⟩ := List.getElem?_eq_some_iff.mp hi
    rw [List.getElem?_set_self hlt] at hj
    exact .inl ⟨rfl, (Option.some.inj hj).symm⟩
  · rw [List.getElem?_set_ne hij] at hj
    exact .inr ⟨hij, hj⟩

/-- What a new request satisfies and each of its resumptions keeps, it satisfies in every run, whatever the others do. -/
theorem streams_run {P : StreamState F → List (StreamInput F) → List (SseEvent F) → Prop} {C : StreamInput F → Prop}
    (hopened : ∀ r, P (.opened r) [] [])
    (hresumed : ∀ st st' w w' input inputs events fs, P st inputs events → C input →
      st.resume S w input = some (st', w', fs) → P st' (inputs ++ [input]) (events ++ fs))
    {m : ℕ} {hm : 0 < m} {as : List (Action F)} {frames : List (ℕ × SseEvent F)} (hC : ∀ i input, .stream i input ∈ as → C input)
    (hrun : (machine S user).run (start m hm) as = some (s, frames)) {i : ℕ} {st : StreamState F}
    (hi : s.streams[i]? = some st) : P st (inputsOf i as) (framesOf i frames) := by
  have hall := (machine S user).run_induction (I := fun as frames t => (∀ i input, .stream i input ∈ as → C input) →
    (∀ i, t.streams.length ≤ i → inputsOf i as = [] ∧ framesOf i frames = []) ∧
      ∀ i st, t.streams[i]? = some st → P st (inputsOf i as) (framesOf i frames))
    (fun _ => ⟨fun _ _ => ⟨rfl, rfl⟩, fun i st hi => by cases hi⟩) ?_ hrun hC
  · exact hall.2 i st hi
  intro as frames t a u fs hr ih hs hC
  obtain ⟨hnone, hP⟩ := ih fun i input hin => hC i input (List.mem_append_left _ hin)
  cases step_heard hs with
  | still hother hstreams =>
    simp only [inputsOf_concat, hother, Option.toList_none, List.append_nil, hstreams]
    exact ⟨hnone, hP⟩
  | opened hother r hstreams =>
    simp only [inputsOf_concat, hother, Option.toList_none, List.append_nil, hstreams]
    refine ⟨fun i hi => hnone i (le_trans (by simp) hi), fun i st hi => ?_⟩
    rcases lt_or_ge i t.streams.length with hold | hnew
    · rw [List.getElem?_append_left hold] at hi
      exact hP i st hi
    · -- nothing was sent for a request that is new
      rw [List.getElem?_append_right hnew, List.getElem?_eq_some_iff] at hi
      obtain ⟨hone, rfl⟩ := hi
      rw [(hnone i hnew).1, (hnone i hnew).2]
      simpa using hopened r
  | @resumed j input st₁ st₁' w fs hfound hres hstate =>
    subst hstate
    have hown : inputFor j (.stream j input) = some input := if_pos rfl
    have hothers : ∀ i, i ≠ j → inputFor i (.stream j input) = none := fun i hne => if_neg (Ne.symm hne)
    have hlt : j < t.streams.length := (List.getElem?_eq_some_iff.mp hfound).1
    refine ⟨fun i hi => ?_, fun i st hi => ?_⟩
    · rw [List.length_set] at hi
      have hne : i ≠ j := by omega
      rw [inputsOf_concat, framesOf_append, hothers i hne, framesOf_other (Ne.symm hne), (hnone i hi).1, (hnone i hi).2]
      exact ⟨rfl, rfl⟩
    · rw [inputsOf_concat, framesOf_append]
      rcases getElem?_set_cases hfound hi with ⟨rfl, rfl⟩ | ⟨hne, hi⟩
      · rw [framesOf_own, hown]
        exact hresumed _ _ _ _ _ _ _ _ (hP _ _ hfound) (hC _ _ (List.mem_append_right _ List.mem_cons_self)) hres
      · rw [framesOf_other hne, hothers i (Ne.symm hne), Option.toList_none, List.append_nil, List.append_nil]
        exact hP i st hi

/-- The tokens of a request are the chunks that it received. -/
theorem received_run {m : ℕ} {hm : 0 < m} {as : List (Action F)} {frames : List (ℕ × SseEvent F)}
    (hrun : (machine S user).run (start m hm) as = some (s, frames)) {i : ℕ} {st : StreamState F}
    (hi : s.streams[i]? = some st) : Received st (inputsOf i as) :=
  streams_run (P := fun st inputs _ => Received st inputs) (C := fun _ => True) received_opened
    (fun _ _ _ _ _ _ _ _ h _ hr => h.resumed hr) (fun _ _ _ => trivial) hrun hi

/-- **The protocol of a stream**: in every run, whatever is interleaved, the frames of a request are its tokens, none of
them empty, and one ending. -/
theorem transcript_run {m : ℕ} {hm : 0 < m} {as : List (Action F)} {frames : List (ℕ × SseEvent F)}
    (hrun : (machine S user).run (start m hm) as = some (s, frames)) {i : ℕ} {st : StreamState F}
    (hi : s.streams[i]? = some st) : ∃ ending, Transcript st ending (framesOf i frames) :=
  streams_run (P := fun st _ events => ∃ ending, Transcript st ending events) (C := fun _ => True)
    (fun r => ⟨.silent, transcript_opened r⟩) (fun _ _ _ _ _ _ _ _ h _ hr => h.elim fun _ h => h.resumed hr)
    (fun _ _ _ => trivial) hrun hi

/-- Every time that is measured in the run is finite and not negative. -/
def TimelyRun (as : List (Action F)) : Prop := ∀ i input, .stream i input ∈ as → Timely input

/-- So are all timings, in every run. -/
theorem measured_run {m : ℕ} {hm : 0 < m} {as : List (Action F)} {frames : List (ℕ × SseEvent F)} (ht : TimelyRun as)
    (hrun : (machine S user).run (start m hm) as = some (s, frames)) {i : ℕ} {st : StreamState F}
    (hi : s.streams[i]? = some st) : Measured st :=
  streams_run (P := fun st _ _ => Measured st) (C := Timely) measured_opened
    (fun _ _ _ _ _ _ _ _ h ht hr => h.resumed ht hr) ht hrun hi

end ChatSystem

end TenantRag

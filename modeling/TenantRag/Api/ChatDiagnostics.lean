import TenantRag.Api.Chat
import TenantRag.Wizard.DiagnosticStages

/-!
# The query endpoint under diagnostics

`query` of `backend/api/chat.py` from its start to the reservation of the stream:
the four stages it observes, each inside of `fail_operation_on_error`, and the HTTP
errors it makes of their exceptions.

## The model

What the service locator gives for the runtime and for the collections is the
environment's choice: it returns or raises. Nothing else runs between the start
and the reservation, since the endpoint does not wait there.

## What is proved

* `outcome_query` — the endpoint's outcome is that of its stages, with exceptions
  replaced in all of them or in none.
* `diagnostics_unchanged_iff` — the outcome of a body inside of any nest of managers
  is the one without a registry exactly when no `Exception` leaves an evaluated
  stage, and likewise for the HTTP errors 404, 409 and 422 of the endpoint.
* `blank_question_replaced` — under evaluation capture a blank question gives 500.
-/

namespace TenantRag

open ContextManager Diagnostics

/-! ### The endpoint -/

/-- An `HTTPException`. -/
def httpError (status : ℕ) (message : String) : Raised := .created ⟨.httpException status, message⟩

/-- What the endpoint is called with. -/
structure QueryCall where
  /-- The body of the request. -/
  request : ChatRequest
  /-- The header `TRACE_SESSION_HEADER`. -/
  traceSession : Option Text
  /-- The header `TRACE_OPERATION_HEADER`. -/
  traceOperation : Option Text
  /-- `services.require_rag_runtime()`. -/
  ragRuntime : Except PyError Unit
  /-- `services.retrieval_collections_factory(body.user_id)`. -/
  retrievalCollections : Except PyError Unit

/-- A stage of the endpoint with the clauses around it. -/
structure QueryStage where
  /-- Its name. -/
  name : Text
  /-- Its code. -/
  code : Eff ChatRegistry PyError Unit
  /-- What its `except` clauses raise. -/
  handler : Raised → Raised

/-- `except KeyError` and `except (TypeError, ValueError)`. -/
def lookupHandler (e : Raised) : Raised :=
  match e.error.kind with
  | .keyError => httpError 404 "session not found"
  | .typeError | .valueError => httpError 422 e.error.message
  | _ => e

/-- `except RuntimeError`. -/
def runtimeHandler (e : Raised) : Raised :=
  if e.error.kind.isRuntimeError then httpError 503 "A required service is temporarily unavailable." else e

/-- `except Exception`. -/
def collectionsHandler (e : Raised) : Raised :=
  if e.error.kind.isException then httpError 503 "A required service is temporarily unavailable." else e

/-- `except SessionDeletionInProgressError` before the clauses of the lookup. -/
def reservationHandler (e : Raised) : Raised :=
  if e.error.kind = .sessionDeletionInProgressError then
    httpError 409 "The session is being deleted and cannot accept new messages."
  else lookupHandler e

/-- The stages of the endpoint. -/
def queryStages (S : RegistrySettings) (c : QueryCall) : List QueryStage :=
  let r := c.request
  [⟨lit "chat.api_validation_session",
      do
        .whenever (isBlank r.question) (.raise (valueError "question must not be empty"))
        let _ ← ChatRegistry.getSession S r.userId r.sessionId
        pure (),
      lookupHandler⟩,
    ⟨lit "chat.runtime_setup", .ofExcept c.ragRuntime, runtimeHandler⟩,
    ⟨lit "chat.collection_factory", .ofExcept c.retrievalCollections, collectionsHandler⟩,
    ⟨lit "chat.session_stream_reservation",
      ChatRegistry.beginChatStream S r.userId r.sessionId r.conversationId.str, reservationHandler⟩]

/-- The code of a stage, whose exception is the `k`-th object. -/
def QueryStage.body (st : QueryStage) (k : ℕ) : Eff ChatRegistry ExcObject (Option Unit) := fun r =>
  match st.code r with
  | .ok _ t => .ok none t
  | .error e t => .error ⟨k, e⟩ t

/-- A stage under diagnostics. -/
def QueryStage.run (known : Text → Bool) (handle : Option TraceHandle) (k : ℕ) (st : QueryStage) :
    Eff (Diagnostics × ChatRegistry) Raised Unit :=
  .tryExcept
    (do
      let _ ← stage known st.name handle (st.body k)
      pure ())
    fun e => .raise (st.handler e)

/-- Stages one after another. -/
def runStages (known : Text → Bool) (handle : Option TraceHandle) :
    ℕ → List QueryStage → Eff (Diagnostics × ChatRegistry) Raised Unit
  | _, [] => pure ()
  | k, st :: sts => do
      st.run known handle k
      runStages known handle (k + 1) sts

/-- `begin_request_operation(...)` as the endpoint calls it. -/
def QueryCall.begin (c : QueryCall) (d : Diagnostics) : Option TraceHandle × Diagnostics :=
  d.beginRequestOperation c.request.userId c.traceSession c.traceOperation (lit "chat_query") (lit "conversations")
    c.request.sessionId

/-- `query` up to the reservation. -/
def query (known : Text → Bool) (S : RegistrySettings) (c : QueryCall) : Eff (Diagnostics × ChatRegistry) Raised Unit :=
  fun s => runStages known (c.begin s.1).1 0 (queryStages S c) ((c.begin s.1).2, s.2)

/-- The status of the response to an exception. -/
def Raised.status (e : Raised) : ℕ :=
  match e.error.kind with
  | .httpException status => status
  | _ => 500

/-- The status of the response, if the endpoint raised. -/
def httpStatus {ρ : Type} : EStateM.Result Raised ρ Unit → Option ℕ
  | .ok _ _ => none
  | .error e _ => some e.status

/-! ### The endpoint without diagnostics -/

/-- The exception that leaves a stage, which is evaluated or not. -/
def leaves (evaluated : Bool) (x : ExcObject) : Raised :=
  if evaluated ∧ x.error.kind.isException then misuse "generator didn't stop after throw()" else .own x

/-- Stages one after another, all of them evaluated or none. -/
def bareStages (evaluated : Bool) : ℕ → List QueryStage → Eff ChatRegistry Raised Unit
  | _, [] => pure ()
  | k, st :: sts => fun r =>
      match st.code r with
      | .ok _ t => bareStages evaluated (k + 1) sts t
      | .error e t => .error (st.handler (leaves evaluated ⟨k, e⟩)) t

section Query

variable {known : Text → Bool} {handle : Option TraceHandle} {evaluated : Bool}

theorem outcome_body (st : QueryStage) (k : ℕ) (d : Diagnostics) (r : ChatRegistry) :
    outcome ((Body.alone (st.body k)).run (d, r)) =
      match st.code r with
      | .ok _ t => .ok none t
      | .error e t => .error (.own ⟨k, e⟩) t := by
  rw [Body.outcome_run]
  unfold Body.alone QueryStage.body
  dsimp only
  cases st.code r <;> rfl

/-- What leaves a stage. -/
theorem outcome_queryStage (st : QueryStage) (k : ℕ) (d : Diagnostics) (r : ChatRegistry) :
    outcome (stage known st.name handle (st.body k) (d, r)) =
      match st.code r with
      | .ok _ t => .ok none t
      | .error e t => .error (leaves (d.evaluates handle) ⟨k, e⟩) t := by
  rw [outcome_stage, outcome_body]
  unfold leaves
  cases st.code r with
  | ok a t => cases d.evaluates handle <;> rfl
  | error e t =>
    cases d.evaluates handle with
    | false => simp
    | true => cases he : e.kind.isException <;> simp [replace, Raised.error, he]

/-- Stages under diagnostics have the outcome of the bare ones: the first stage decides
whether they are evaluated, and no stage that goes well changes that. -/
theorem outcome_runStages (k : ℕ) (sts : List QueryStage) (d : Diagnostics) (r : ChatRegistry)
    (he : d.evaluates handle = evaluated) :
    outcome (runStages known handle k sts (d, r)) = bareStages evaluated k sts r := by
  induction sts generalizing k d r with
  | nil => rfl
  | cons st sts ih =>
    have hstage : outcome (stage known st.name handle (st.body k) (d, r)) = _ := outcome_queryStage st k d r
    rw [he] at hstage
    cases hrun : stage known st.name handle (st.body k) (d, r) with
    | ok a s =>
      obtain ⟨u, t⟩ := s
      rw [hrun] at hstage
      have hnext : runStages known handle k (st :: sts) (d, r) = runStages known handle (k + 1) sts (u, t) := by
        simp only [runStages, QueryStage.run, bind, EStateM.bind, Eff.tryExcept, hrun, pure, EStateM.pure]
      have hsame : u.evaluates handle = evaluated := (evaluates_congr (stage_ok hrun) handle).trans he
      rw [hnext, ih (k + 1) u t hsame, bareStages]
      cases hc : st.code r with
      | ok b t' =>
        rw [hc] at hstage
        cases hstage
        simp only [hc]
      | error e t' =>
        rw [hc] at hstage
        cases hstage
    | error e s =>
      obtain ⟨u, t⟩ := s
      rw [hrun] at hstage
      have hends : runStages known handle k (st :: sts) (d, r) = .error (st.handler e) (u, t) := by
        simp only [runStages, QueryStage.run, bind, EStateM.bind, Eff.tryExcept, hrun, Eff.raise]
      rw [hends, bareStages]
      cases hc : st.code r with
      | ok b t' =>
        rw [hc] at hstage
        cases hstage
      | error e' t' =>
        rw [hc] at hstage
        cases hstage
        simp only [hc]
        rfl

/-- The endpoint's outcome is that of its stages, with exceptions replaced in all of them or in none. -/
theorem outcome_query (S : RegistrySettings) (c : QueryCall) (d : Diagnostics) (r : ChatRegistry) :
    outcome (query known S c (d, r)) = bareStages ((c.begin d).2.evaluates (c.begin d).1) 0 (queryStages S c) r :=
  outcome_runStages 0 _ _ _ rfl

end Query

/-! ### The HTTP errors -/

/-- The clauses around a stage leave other exceptions than `Exception` alone, and make no
client error of a `RuntimeError`. -/
structure QueryStage.Mapped (st : QueryStage) : Prop where
  /-- What is not an `Exception` becomes an internal error. -/
  other : ∀ e : Raised, e.error.kind.isException = false → (st.handler e).status = 500
  /-- A misused context manager is the server's fault. -/
  misused : 500 ≤ (st.handler (misuse "generator didn't stop after throw()")).status

theorem lookupHandler_mapped {e : Raised} (h : e.error.kind.isException = false) : (lookupHandler e).status = 500 := by
  unfold lookupHandler Raised.status
  cases hk : e.error.kind <;> simp_all [ExcClass.isException]

theorem queryStages_mapped (S : RegistrySettings) (c : QueryCall) : ∀ st ∈ queryStages S c, st.Mapped := by
  intro st hst
  simp only [queryStages, List.mem_cons, List.not_mem_nil, or_false] at hst
  have hother : ∀ e : Raised, e.error.kind.isException = false → e.status = 500 := by
    intro e he
    unfold Raised.status
    cases hk : e.error.kind <;> simp_all [ExcClass.isException]
  rcases hst with rfl | rfl | rfl | rfl
  · exact ⟨fun e he => lookupHandler_mapped he,
      show 500 ≤ (lookupHandler (misuse "generator didn't stop after throw()")).status by decide⟩
  · refine ⟨fun e he => ?_, show 500 ≤ (runtimeHandler (misuse "generator didn't stop after throw()")).status by decide⟩
    have hnot : e.error.kind.isRuntimeError = false := by
      cases hk : e.error.kind <;> simp_all [ExcClass.isException, ExcClass.isRuntimeError]
    simp only [runtimeHandler, hnot, Bool.false_eq_true, if_false, hother e he]
  · refine ⟨fun e he => ?_, show 500 ≤ (collectionsHandler (misuse "generator didn't stop after throw()")).status by decide⟩
    simp only [collectionsHandler, he, Bool.false_eq_true, if_false, hother e he]
  · refine ⟨fun e he => ?_, show 500 ≤ (reservationHandler (misuse "generator didn't stop after throw()")).status by decide⟩
    have hnot : e.error.kind ≠ .sessionDeletionInProgressError := by
      intro hk
      simp [hk, ExcClass.isException] at he
    simp only [reservationHandler, hnot, if_false, lookupHandler_mapped he]

/-- Evaluated stages never end with a client error that the bare ones end with. -/
theorem bareStages_status {sts : List QueryStage} (hsts : ∀ st ∈ sts, st.Mapped) {k status : ℕ} {r : ChatRegistry}
    (hlt : status < 500) (h : httpStatus (bareStages false k sts r) = some status) :
    httpStatus (bareStages true k sts r) ≠ some status := by
  induction sts generalizing k r with
  | nil => cases h
  | cons st sts ih =>
    have hst := hsts st (List.mem_cons_self ..)
    simp only [bareStages] at h ⊢
    cases hc : st.code r with
    | ok a t =>
      simp only [hc] at h ⊢
      exact ih (fun st' h' => hsts st' (List.mem_cons_of_mem _ h')) h
    | error e t =>
      simp only [hc, httpStatus, Option.some.injEq, leaves, Bool.false_eq_true, false_and, if_false, true_and, ne_eq] at h ⊢
      split_ifs with he
      · have hge := hst.misused
        omega
      · have hother := hst.other (.own ⟨k, e⟩) (by simpa [Raised.error] using he)
        omega

/-- **Diagnostics and production**: inside of any nest of managers a body has the outcome it has
without a registry exactly when it raises no `Exception` or no stage of the nest is
evaluated; and the query endpoint ends with the client error it ends with without a
registry exactly when its operation is not evaluated. -/
theorem diagnostics_unchanged_iff {ρ α : Type} (known : Text → Bool) (S : RegistrySettings) (d : Diagnostics) :
    (∀ (ms : List Manager) (b : Body ρ α) (p : ρ),
      outcome (nest known ms b.run (d, p)) = outcome (nest known ms b.run ({ d with installed := false }, p)) ↔
        ¬ (b.raisesException p ∧ nestReplaces d ms = true)) ∧
    ∀ (c : QueryCall) (r : ChatRegistry) (status : ℕ), status ∈ [404, 409, 422] →
      httpStatus (outcome (query known S c ({ d with installed := false }, r))) = some status →
        (httpStatus (outcome (query known S c (d, r))) = some status ↔
          (c.begin d).2.evaluates (c.begin d).1 = false) := by
  refine ⟨fun ms b p => outcome_nest_iff ms b d p, fun c r status hstatus hbase => ?_⟩
  have hlt : status < 500 := by
    simp only [List.mem_cons, List.not_mem_nil, or_false] at hstatus
    omega
  have hbare : (c.begin { d with installed := false }).2.evaluates (c.begin { d with installed := false }).1 = false := by
    simp [QueryCall.begin, beginRequestOperation, evaluates]
  rw [outcome_query, hbare] at hbase
  rw [outcome_query]
  cases (c.begin d).2.evaluates (c.begin d).1 with
  | false => simpa using hbase
  | true => simpa using bareStages_status (queryStages_mapped S c) hlt hbase

/-- An evaluation session without operations. -/
def evaluationDiagnostics : Diagnostics where
  registry := ⟨text ['a'], .evaluation, none,
    Dict.empty.set (Uuid.ofNat 3).str ⟨(Uuid.ofNat 3).str, .empty, false, false⟩⟩
  installed := true
  active := none

/-- A blank question of the session's user. -/
def blankQuestion : QueryCall where
  request := ⟨text ['a'], (Uuid.ofNat 1).str, text [' '], text ['r'], Uuid.ofNat 2⟩
  traceSession := some (Uuid.ofNat 3).str
  traceOperation := some (Uuid.ofNat 4).str
  ragRuntime := .ok ()
  retrievalCollections := .ok ()

theorem blank_question_unobserved :
    httpStatus (outcome (query (fun _ => true) ⟨.any, fun _ => true⟩ blankQuestion
      ({ evaluationDiagnostics with installed := false }, .empty))) = some 422 := by
  decide +kernel

theorem diagnostics_unchanged_iff_blank_question :
    httpStatus (outcome (query (fun _ => true) ⟨.any, fun _ => true⟩ blankQuestion
        (evaluationDiagnostics, .empty))) = some 422 ↔
      (blankQuestion.begin evaluationDiagnostics).2.evaluates (blankQuestion.begin evaluationDiagnostics).1 = false :=
  (diagnostics_unchanged_iff (ρ := Unit) (α := Unit) _ _ _).2 blankQuestion .empty 422 (by decide)
    blank_question_unobserved

/-- Without a registry the response to a blank question is 422; with its operation evaluated it is 500. -/
theorem blank_question_replaced :
    httpStatus (outcome (query (fun _ => true) ⟨.any, fun _ => true⟩ blankQuestion
        ({ evaluationDiagnostics with installed := false }, .empty))) = some 422 ∧
      httpStatus (outcome (query (fun _ => true) ⟨.any, fun _ => true⟩ blankQuestion
        (evaluationDiagnostics, .empty))) = some 500 := by
  decide +kernel

end TenantRag

import TenantRag.Foundations.ContextManager
import TenantRag.Foundations.Dict
import TenantRag.Foundations.Uuid

/-!
# Wizard diagnostics

`backend/wizard/diagnostics.py`: the registry of trace sessions, the handle of the
operation that is active, and the four context managers that production code runs
inside of.

## The model

A process has one registry object, which is installed or not. The managers are the
generators of the source, over the registry and the active handle; each keeps what
it read when it was entered. Production code is a body over the rest of the state,
during which anything may happen to the diagnostics: sessions are started or
deleted, operations are finished, the registry is installed or uninstalled.

Durations, timestamps and what a session's payload is made of besides its
operations and their stages are left out; whether a name is one of `STAGE_NAMES` is
a parameter.

## What is proved

* `transparent_of_not_replaces`, `replacing_of_replaces` — what each manager does to
  the outcome of its block: `observe_stage`, entered under evaluation capture with
  its operation present, replaces exceptions; nothing else does.
* `outcome_nest` — the outcome of a body inside any nest of managers.
* `outcome_nest_iff` — it is the one without a registry exactly when the body
  raises no `Exception` or no stage of the nest is evaluated.
-/

namespace TenantRag

/-- `TraceHandle`. -/
structure TraceHandle where
  /-- `session_id`. -/
  sessionId : Text
  /-- `operation_id`. -/
  operationId : Text
  deriving DecidableEq

/-- `_Stage`, without its durations. -/
structure TraceStage where
  /-- `call_count`. -/
  callCount : ℕ
  /-- `failure_count`. -/
  failureCount : ℕ
  deriving DecidableEq

/-- `_Operation`. -/
structure TraceOperation where
  /-- `kind`. -/
  kind : Text
  /-- `user_id`. -/
  userId : Text
  /-- `collection_type`. -/
  collectionType : Text
  /-- `wizard_id`. -/
  wizardId : Text
  /-- `stages`. -/
  stages : Dict Text TraceStage
  /-- `outcome`. -/
  outcome : Text
  /-- `finished_at is not None`. -/
  finished : Bool

/-- `_Session`. -/
structure TraceSession where
  /-- `session_id`. -/
  sessionId : Text
  /-- `operations`. -/
  operations : Dict Text TraceOperation
  /-- `overflowed`. -/
  overflowed : Bool
  /-- `trace_faulted`. -/
  traceFaulted : Bool

/-- `TRACE_CAPTURE_MODES`. -/
inductive CaptureMode where
  /-- `"deep"`. -/
  | deep
  /-- `"evaluation"`. -/
  | evaluation
  deriving DecidableEq

/-- `TRACE_SESSION_MAX_OPERATIONS`. -/
def traceSessionMaxOperations : ℕ := 256

/-- `DiagnosticTraceRegistry`. -/
structure TraceRegistry where
  /-- `configured_user_id`. -/
  configuredUserId : Text
  /-- `capture_mode`. -/
  captureMode : CaptureMode
  /-- `_session`. -/
  session : Option TraceSession
  /-- `_evaluation_sessions`. -/
  evaluationSessions : Dict Text TraceSession

/-- `_uuid_text(value, name)`, where `None` is no string. -/
def uuidText (value : Option Text) (name : String) : Except PyError Text :=
  match value with
  | none => .error (typeError s!"{name} must be a UUID string")
  | some t =>
      match Uuid.ofText t with
      | none => .error (valueError s!"{name} must be a valid UUID")
      | some u => .ok u.str

/-- The stage observed once more. -/
def TraceStage.observe (s : TraceStage) (failed : Bool) : TraceStage :=
  ⟨s.callCount + 1, if failed then s.failureCount + 1 else s.failureCount⟩

namespace TraceRegistry

/-- The session with this id, where it is the one in use. -/
def sessionOf (r : TraceRegistry) (id : Text) : Option TraceSession :=
  let session :=
    match r.captureMode with
    | .evaluation => r.evaluationSessions.get? id
    | .deep => r.session
  match session with
  | none => none
  | some s => if s.sessionId = id then some s else none

/-- A change of the session object with this id. -/
def setSession (r : TraceRegistry) (id : Text) (s : TraceSession) : TraceRegistry :=
  match r.captureMode with
  | .evaluation => { r with evaluationSessions := r.evaluationSessions.set id s }
  | .deep => { r with session := some s }

/-- `_operation(handle)`, with its session. -/
def operation (r : TraceRegistry) (h : TraceHandle) : Except PyError (TraceSession × TraceOperation) :=
  match r.sessionOf h.sessionId with
  | none => .error (keyError "diagnostic session")
  | some s =>
      match s.operations.get? h.operationId with
      | none => .error (keyError "operation_id")
      | some o => .ok (s, o)

/-- A change of the operation object of a handle. -/
def setOperation (r : TraceRegistry) (h : TraceHandle) (s : TraceSession) (o : TraceOperation) : TraceRegistry :=
  r.setSession h.sessionId { s with operations := s.operations.set h.operationId o }

/-- `captures_deep_trace(handle)`. -/
def capturesDeepTrace (r : TraceRegistry) (h : TraceHandle) : Except PyError Bool :=
  match r.operation h with
  | .error e => .error e
  | .ok _ => .ok (r.captureMode = .deep)

/-- `observe_stage(handle, name, elapsed_ms, failed)`. -/
def observeStage (known : Text → Bool) (r : TraceRegistry) (h : TraceHandle) (name : Text) (failed : Bool) :
    Except PyError TraceRegistry :=
  if !known name then .error (valueError "unknown Wizard diagnostic stage")
  else
    match r.operation h with
    | .error e => .error e
    | .ok (s, o) =>
        let stage := (o.stages.get? name).getD ⟨0, 0⟩
        .ok (r.setOperation h s { o with stages := o.stages.set name (stage.observe failed) })

/-- `finish(handle, outcome)` with one of the two outcomes. -/
def finish (r : TraceRegistry) (h : TraceHandle) (outcome : Text) : Except PyError TraceRegistry :=
  match r.operation h with
  | .error e => .error e
  | .ok (s, o) => .ok (r.setOperation h s { o with outcome := outcome, finished := true })

/-- `mark_fault(handle)`, where `active` is the handle given or else the active one. -/
def markFault (r : TraceRegistry) (active : Option TraceHandle) : TraceRegistry :=
  match r.captureMode with
  | .evaluation =>
      match active with
      | none => r
      | some h =>
          match r.evaluationSessions.get? h.sessionId with
          | none => r
          | some s =>
              { r with evaluationSessions := r.evaluationSessions.set h.sessionId { s with traceFaulted := true } }
  | .deep =>
      match r.session with
      | none => r
      | some s => { r with session := some { s with traceFaulted := true } }

/-- `OPERATION_KINDS`. -/
def operationKinds : List Text := [lit "upload", lit "save", lit "delete", lit "chat_query"]

/-- `begin_operation(...)`. -/
def beginOperation (r : TraceRegistry) (active : Option TraceHandle) (userId : Text) (sessionId operationId : Option Text)
    (kind collectionType wizardId : Text) : Option TraceHandle × TraceRegistry :=
  if userId ≠ r.configuredUserId ∨ kind ∉ operationKinds then (none, r)
  else if r.captureMode = .evaluation ∧ kind ≠ lit "chat_query" then (none, r)
  else
    match uuidText sessionId "session_id" with
    | .error _ => (none, if r.captureMode = .deep then r.markFault active else r)
    | .ok sessionKey =>
        match uuidText operationId "operation_id", uuidText (some wizardId) "wizard_id" with
        | .ok operationKey, .ok wizardKey =>
            match r.sessionOf sessionKey with
            | none => (none, r)
            | some s =>
                if s.operations.contains operationKey then
                  (none, r.setSession sessionKey { s with traceFaulted := true })
                else
                  let limit := if r.captureMode = .evaluation then 1 else traceSessionMaxOperations
                  if limit ≤ s.operations.keys.length then
                    (none, r.setSession sessionKey { s with overflowed := true })
                  else
                    let o : TraceOperation :=
                      ⟨kind, userId, collectionType, wizardKey, .empty, lit "running", false⟩
                    (some ⟨sessionKey, operationKey⟩,
                      r.setSession sessionKey { s with operations := s.operations.set operationKey o })
        | _, _ =>
            (none, r.markFault (if r.captureMode = .evaluation then some ⟨sessionKey, []⟩ else active))

end TraceRegistry

/-- The diagnostics of a process and of the context that runs. -/
structure Diagnostics where
  /-- The registry object. -/
  registry : TraceRegistry
  /-- `_REGISTRY` is that object, and not `None`. -/
  installed : Bool
  /-- `_ACTIVE_HANDLE.get()`. -/
  active : Option TraceHandle

namespace Diagnostics

/-- `registry.mark_fault()`. -/
def markFault (d : Diagnostics) : Diagnostics := { d with registry := d.registry.markFault d.active }

/-- `finish_operation(handle, outcome)`. -/
def finishOperation (d : Diagnostics) (handle : Option TraceHandle) (outcome : Text) : Diagnostics :=
  match d.installed, handle with
  | true, some h =>
      match d.registry.finish h outcome with
      | .ok r => { d with registry := r }
      | .error _ => d.markFault
  | _, _ => d

/-- `begin_request_operation(...)`. -/
def beginRequestOperation (d : Diagnostics) (userId : Text) (sessionId operationId : Option Text)
    (kind collectionType wizardId : Text) : Option TraceHandle × Diagnostics :=
  if d.installed then
    let r := d.registry.beginOperation d.active userId sessionId operationId kind collectionType wizardId
    (r.1, { d with registry := r.2 })
  else (none, d)

/-! ### The context managers -/

/-- `yield`, and nothing after it. -/
def onlyYield (d : Diagnostics) : GenStep Diagnostics :=
  .yielded d fun thrown u =>
    match thrown with
    | none => .returned u
    | some e => .raised e u

/-- `activate_operation(handle)`. -/
def activateOperation (handle : Option TraceHandle) (d : Diagnostics) : GenStep Diagnostics :=
  match handle with
  | none => onlyYield d
  | some h =>
      .yielded { d with active := some h } fun thrown u =>
        match thrown with
        | none => .returned { u with active := d.active }
        | some e => .raised e { u with active := d.active }

/-- `observe_stage(name, handle=handle)`. -/
def observeStage (known : Text → Bool) (name : Text) (handle : Option TraceHandle) (d : Diagnostics) :
    GenStep Diagnostics :=
  match handle.or d.active, d.installed with
  | some active, true =>
      match d.registry.capturesDeepTrace active with
      | .ok true =>
          -- the `finally` of the last block
          let observed := fun (u : Diagnostics) failed =>
            match u.registry.observeStage known active name failed with
            | .ok r => { u with registry := r }
            | .error _ => u.markFault
          .yielded d fun thrown u =>
            match thrown with
            | none => .returned (observed u false)
            | some e => .raised e (observed u true)
      | .ok false =>
          -- this `yield` stands inside of the `try` whose handler yields again
          .yielded d fun thrown u =>
            match thrown with
            | none => .returned u
            | some e => if e.error.kind.isException then onlyYield u.markFault else .raised e u
      | .error _ => onlyYield d.markFault
  | _, _ => onlyYield d

/-- `operation_lifecycle(handle)`. -/
def operationLifecycle (handle : Option TraceHandle) (d : Diagnostics) : GenStep Diagnostics :=
  .yielded d fun thrown u =>
    match thrown with
    | none => .returned (u.finishOperation handle (lit "succeeded"))
    | some e => .raised e (u.finishOperation handle (lit "failed"))

/-- `fail_operation_on_error(handle)`. -/
def failOperationOnError (handle : Option TraceHandle) (d : Diagnostics) : GenStep Diagnostics :=
  .yielded d fun thrown u =>
    match thrown with
    | none => .returned u
    | some e => .raised e (u.finishOperation handle (lit "failed"))

/-- A context manager of the module with its arguments. -/
inductive Manager where
  /-- `activate_operation`. -/
  | activateOperation (handle : Option TraceHandle)
  /-- `observe_stage`. -/
  | observeStage (name : Text) (handle : Option TraceHandle)
  /-- `operation_lifecycle`. -/
  | operationLifecycle (handle : Option TraceHandle)
  /-- `fail_operation_on_error`. -/
  | failOperationOnError (handle : Option TraceHandle)

/-- The generator of a manager. -/
def Manager.generator (known : Text → Bool) : Manager → Diagnostics → GenStep Diagnostics
  | .activateOperation handle => Diagnostics.activateOperation handle
  | .observeStage name handle => Diagnostics.observeStage known name handle
  | .operationLifecycle handle => Diagnostics.operationLifecycle handle
  | .failOperationOnError handle => Diagnostics.failOperationOnError handle

/-- Production code: what it does to the rest of the state, and what happens to the diagnostics meanwhile. -/
structure Body (ρ α : Type) where
  /-- The code, which returns a value or `None`, or raises. -/
  code : Eff ρ ExcObject (Option α)
  /-- What happens meanwhile. -/
  meanwhile : ρ → Diagnostics → Diagnostics

variable {ρ α : Type}

/-- The body, next to the diagnostics. -/
def Body.run (b : Body ρ α) : Eff (Diagnostics × ρ) Raised (Option α) := fun s =>
  match b.code s.2 with
  | .ok a p => .ok a (b.meanwhile s.2 s.1, p)
  | .error x p => .error (.own x) (b.meanwhile s.2 s.1, p)

/-- The body inside of nested managers, the outermost first. -/
def nest (known : Text → Bool) (ms : List Manager) (body : Eff (Diagnostics × ρ) Raised (Option α)) :
    Eff (Diagnostics × ρ) Raised (Option α) :=
  ms.foldr (fun m inner => ContextManager.withManager (m.generator known) inner) body

/-! ### What a manager does to the outcome of its block -/

section Outcomes

open ContextManager

variable {known : Text → Bool} {d : Diagnostics} {handle : Option TraceHandle}

/-- A stage entered now would be evaluated: an evaluation registry is installed and has the
operation of its handle. -/
def evaluates (d : Diagnostics) (handle : Option TraceHandle) : Bool :=
  match handle.or d.active, d.installed with
  | some active, true =>
      match d.registry.capturesDeepTrace active with
      | .ok deep => !deep
      | .error _ => false
  | _, _ => false

/-- The diagnostics inside the block of a manager that is entered now. -/
def entered (d : Diagnostics) : Manager → Diagnostics
  | .activateOperation (some h) => { d with active := some h }
  | .observeStage _ handle =>
      match handle.or d.active, d.installed with
      | some active, true =>
          match d.registry.capturesDeepTrace active with
          | .ok _ => d
          | .error _ => d.markFault
      | _, _ => d
  | _ => d

/-- The manager replaces the exceptions of a block that is entered now. -/
def replaces (d : Diagnostics) : Manager → Bool
  | .observeStage _ handle => d.evaluates handle
  | _ => false

theorem onlyYield_transparent (d : Diagnostics) : Transparent (onlyYield d) d :=
  ⟨_, rfl, fun u => ⟨u, rfl⟩, fun _ u => ⟨u, rfl⟩⟩

theorem transparent_of_not_replaces {m : Manager} (h : d.replaces m = false) :
    Transparent (m.generator known d) (d.entered m) := by
  cases m with
  | activateOperation handle =>
    cases handle with
    | none => exact onlyYield_transparent d
    | some h => exact ⟨_, rfl, fun u => ⟨_, rfl⟩, fun _ u => ⟨_, rfl⟩⟩
  | operationLifecycle handle => exact ⟨_, rfl, fun u => ⟨_, rfl⟩, fun _ u => ⟨_, rfl⟩⟩
  | failOperationOnError handle => exact ⟨_, rfl, fun u => ⟨_, rfl⟩, fun _ u => ⟨_, rfl⟩⟩
  | observeStage name handle =>
    simp only [replaces, evaluates] at h
    simp only [Manager.generator, observeStage, entered]
    split at h
    · rename_i active hactive hinstalled
      cases hc : d.registry.capturesDeepTrace active with
      | error e => exact onlyYield_transparent d.markFault
      | ok deep =>
        obtain rfl : deep = true := by simpa [hc] using h
        exact ⟨_, rfl, fun u => ⟨_, rfl⟩, fun _ u => ⟨_, rfl⟩⟩
    · exact onlyYield_transparent d

theorem replacing_of_replaces {m : Manager} (h : d.replaces m = true) :
    Replacing (m.generator known d) (d.entered m) := by
  cases m with
  | activateOperation handle => cases h
  | operationLifecycle handle => cases h
  | failOperationOnError handle => cases h
  | observeStage name handle =>
    simp only [replaces, evaluates] at h
    simp only [Manager.generator, observeStage, entered]
    split at h
    · rename_i active hactive hinstalled
      cases hc : d.registry.capturesDeepTrace active with
      | error e => simp [hc] at h
      | ok deep =>
        obtain rfl : deep = false := by simpa [hc] using h
        refine ⟨_, rfl, fun u => ⟨_, rfl⟩, fun e u => ⟨fun he => ⟨u, ?_⟩, fun he => ⟨u.markFault, ?_⟩⟩⟩
        · simp [he]
        · simp only [he, if_true]
          exact onlyYield_transparent u.markFault
    · cases h

/-! ### Nests of managers -/

/-- Some manager of the nest, the outermost first, replaces the exceptions of its block. -/
def nestReplaces : Diagnostics → List Manager → Bool
  | _, [] => false
  | d, m :: ms => d.replaces m || nestReplaces (d.entered m) ms

theorem replace_replace (r : EStateM.Result Raised ρ (Option α)) : replace (replace r) = replace r := by
  cases r with
  | ok a p => rfl
  | error e p =>
    cases he : e.error.kind.isException with
    | false => simp [replace, he]
    | true =>
      have hm : (misuse "generator didn't stop after throw()").error.kind.isException = true := rfl
      simp only [replace, he, if_true, hm]

/-- The outcome of a block inside of a nest: its own, or the replaced one. -/
theorem outcome_nest {ms : List Manager} {body : Eff (Diagnostics × ρ) Raised (Option α)}
    {r : ρ → EStateM.Result Raised ρ (Option α)} (hbody : ∀ u p, outcome (body (u, p)) = r p) (d : Diagnostics) (p : ρ) :
    outcome (nest known ms body (d, p)) = if nestReplaces d ms then replace (r p) else r p := by
  induction ms generalizing d with
  | nil => simp [nest, nestReplaces, hbody]
  | cons m ms ih =>
    change outcome (withManager (m.generator known) (nest known ms body) (d, p)) = _
    cases hm : d.replaces m with
    | false =>
      rw [outcome_of_transparent (transparent_of_not_replaces hm), ih, nestReplaces, hm, Bool.false_or]
    | true =>
      rw [outcome_of_replacing (replacing_of_replaces hm), ih, nestReplaces, hm, Bool.true_or, if_pos rfl]
      split_ifs
      · rw [replace_replace]
      · rfl

/-- Without a registry nothing is replaced. -/
theorem nestReplaces_uninstalled (ms : List Manager) (h : d.installed = false) : nestReplaces d ms = false := by
  induction ms generalizing d with
  | nil => rfl
  | cons m ms ih =>
    have hnot : d.replaces m = false := by
      cases m with
      | observeStage name handle => simp [replaces, evaluates, h]
      | _ => rfl
    have hstill : (d.entered m).installed = false := by
      cases m with
      | activateOperation handle => cases handle <;> exact h
      | observeStage name handle => simp [entered, h]
      | _ => exact h
    rw [nestReplaces, hnot, ih hstill, Bool.or_false]

/-- The code of a body raises an `Exception`. -/
def Body.raisesException (b : Body ρ α) (p : ρ) : Prop :=
  ∃ x q, b.code p = .error x q ∧ x.error.kind.isException = true

theorem Body.outcome_run (b : Body ρ α) (u : Diagnostics) (p : ρ) :
    outcome (b.run (u, p)) = match b.code p with
      | .ok a q => .ok a q
      | .error x q => .error (.own x) q := by
  unfold Body.run outcome
  cases b.code p <;> rfl

/-- The outcome inside of a nest is the one without a registry exactly when the body raises no
`Exception` or no manager of the nest replaces it. -/
theorem outcome_nest_iff (ms : List Manager) (b : Body ρ α) (d : Diagnostics) (p : ρ) :
    outcome (nest known ms b.run (d, p)) = outcome (nest known ms b.run ({ d with installed := false }, p)) ↔
      ¬ (b.raisesException p ∧ nestReplaces d ms = true) := by
  have hnone : nestReplaces { d with installed := false } ms = false := nestReplaces_uninstalled ms rfl
  rw [outcome_nest b.outcome_run, outcome_nest b.outcome_run, hnone]
  simp only [Bool.false_eq_true, if_false]
  cases hn : nestReplaces d ms with
  | false => simp
  | true =>
    simp only [if_true, and_true]
    unfold Body.raisesException
    cases hc : b.code p with
    | ok a q => simp [replace]
    | error x q =>
      cases hx : x.error.kind.isException with
      | false => simp [replace, Raised.error, hx]
      | true => simp [replace, Raised.error, hx, misuse]

end Outcomes

end Diagnostics

end TenantRag

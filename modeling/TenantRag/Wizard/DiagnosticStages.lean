import TenantRag.Wizard.Diagnostics

/-!
# Wizard diagnostics: a stage that goes well

What entering and leaving a stage does to the registry: it observes the stage in
its operation or marks a fault, and neither changes which operations there are.

## What is proved

* `present_setOperation`, `present_markFault` — the operations stay where they are.
* `evaluates_congr` — whether a stage is evaluated depends on nothing else.
* `stage_ok` — after a block without an exception the same stages are evaluated.
-/

namespace TenantRag

namespace TraceRegistry

variable {r : TraceRegistry}

/-- The operation of a handle exists. -/
def present (r : TraceRegistry) (h : TraceHandle) : Bool :=
  match r.sessionOf h.sessionId with
  | none => false
  | some s => s.operations.contains h.operationId

theorem capturesDeepTrace_eq (r : TraceRegistry) (h : TraceHandle) :
    (∃ e, r.present h = false ∧ r.capturesDeepTrace h = .error e) ∨
      r.present h = true ∧ r.capturesDeepTrace h = .ok (r.captureMode = .deep) := by
  unfold present capturesDeepTrace operation
  cases r.sessionOf h.sessionId with
  | none => exact .inl ⟨_, rfl, rfl⟩
  | some s =>
    simp only [Dict.contains]
    cases s.operations.get? h.operationId with
    | none => exact .inl ⟨_, rfl, rfl⟩
    | some o => exact .inr ⟨rfl, rfl⟩

theorem sessionOf_setSession {id : Text} {s : TraceSession} (h : r.sessionOf id = some s) (s' : TraceSession)
    (hs : s'.sessionId = id) (j : Text) : (r.setSession id s').sessionOf j = if id = j then some s' else r.sessionOf j := by
  unfold sessionOf setSession at *
  cases hm : r.captureMode with
  | evaluation =>
    simp only [Dict.get?_set]
    split_ifs with hij
    · simp only [hs, hij, if_true]
    · rfl
  | deep =>
    simp only [hm] at h ⊢
    rw [hs]
    split_ifs with hij
    · rfl
    · cases hr : r.session with
      | none => simp [hr] at h
      | some t =>
        simp only [hr] at h ⊢
        split_ifs at h with ht
        rw [ht, if_neg hij]

/-- A change of an operation that exists leaves operations where they are. -/
theorem present_setOperation {h : TraceHandle} {s : TraceSession} {o o' : TraceOperation}
    (hop : r.operation h = .ok (s, o)) (j : TraceHandle) : (r.setOperation h s o').present j = r.present j := by
  unfold operation at hop
  cases hs : r.sessionOf h.sessionId with
  | none => simp [hs] at hop
  | some t =>
    cases ho : t.operations.get? h.operationId with
    | none => simp [hs, ho] at hop
    | some o₁ =>
      simp only [hs, ho, Except.ok.injEq, Prod.mk.injEq] at hop
      obtain ⟨rfl, -⟩ := hop
      have hid : t.sessionId = h.sessionId := by
        unfold sessionOf at hs
        dsimp only at hs
        split at hs
        · cases hs
        · split_ifs at hs with heq
          cases hs
          exact heq
      unfold present setOperation
      rw [sessionOf_setSession hs { t with operations := t.operations.set h.operationId o' } hid]
      split_ifs with hij
      · rw [← hij, hs]
        simp only [Dict.contains, Dict.get?_set]
        split_ifs with hop'
        · rw [← hop', ho]
          rfl
        · rfl
      · rfl

/-- A fault marks at most one session. -/
theorem markFault_cases (r : TraceRegistry) (active : Option TraceHandle) :
    r.markFault active = r ∨
      (∃ h s, r.captureMode = .evaluation ∧ r.evaluationSessions.get? h = some s ∧ r.markFault active =
        { r with evaluationSessions := r.evaluationSessions.set h { s with traceFaulted := true } }) ∨
        ∃ s, r.captureMode = .deep ∧ r.session = some s ∧
          r.markFault active = { r with session := some { s with traceFaulted := true } } := by
  unfold markFault
  split
  · rename_i hm
    split
    · exact .inl rfl
    · rename_i h
      split
      · exact .inl rfl
      · rename_i s hs
        exact .inr (.inl ⟨h.sessionId, s, hm, hs, rfl⟩)
  · rename_i hm
    split
    · exact .inl rfl
    · rename_i s hs
      exact .inr (.inr ⟨s, hm, hs, rfl⟩)

theorem present_markFault (active : Option TraceHandle) (j : TraceHandle) :
    (r.markFault active).present j = r.present j := by
  rcases markFault_cases r active with heq | ⟨h, s, hm, hs, heq⟩ | ⟨s, hm, hs, heq⟩
  · rw [heq]
  · rw [heq]
    simp only [present, sessionOf, hm, Dict.get?_set]
    by_cases hj : h = j.sessionId
    · subst hj
      simp only [if_true, hs]
      split_ifs <;> rfl
    · rw [if_neg hj]
  · rw [heq]
    simp only [present, sessionOf, hm, hs]
    split_ifs <;> rfl

theorem markFault_captureMode (active : Option TraceHandle) : (r.markFault active).captureMode = r.captureMode := by
  rcases markFault_cases r active with heq | ⟨h, s, hm, hs, heq⟩ | ⟨s, hm, hs, heq⟩
  · rw [heq]
  · rw [heq]
  · rw [heq]

theorem setOperation_captureMode (h : TraceHandle) (s : TraceSession) (o : TraceOperation) :
    (r.setOperation h s o).captureMode = r.captureMode := by
  unfold setOperation setSession
  split
  · rfl
  · rfl

end TraceRegistry

namespace Diagnostics

/-- The same stages are evaluated: installation, active handle, mode and operations agree. -/
structure SameStages (d u : Diagnostics) : Prop where
  /-- The registry is installed or not as before. -/
  installed : u.installed = d.installed
  /-- The active handle is the same. -/
  active : u.active = d.active
  /-- The mode is the same. -/
  captureMode : u.registry.captureMode = d.registry.captureMode
  /-- The operations are the same. -/
  present : ∀ h, u.registry.present h = d.registry.present h

theorem SameStages.refl (d : Diagnostics) : SameStages d d := ⟨rfl, rfl, rfl, fun _ => rfl⟩

theorem SameStages.markFault {d u : Diagnostics} (h : SameStages d u) : SameStages d u.markFault where
  installed := h.installed
  active := h.active
  captureMode := by rw [Diagnostics.markFault, TraceRegistry.markFault_captureMode, h.captureMode]
  present j := by rw [Diagnostics.markFault, TraceRegistry.present_markFault, h.present]

theorem evaluates_eq (d : Diagnostics) (handle : Option TraceHandle) :
    d.evaluates handle = (handle.or d.active).any fun h =>
      d.installed && d.registry.present h && decide (d.registry.captureMode = .evaluation) := by
  unfold evaluates
  cases handle.or d.active with
  | none => rfl
  | some h =>
    cases d.installed with
    | false => rfl
    | true =>
      rcases d.registry.capturesDeepTrace_eq h with ⟨e, hp, hc⟩ | ⟨hp, hc⟩
      · simp [hp, hc]
      · cases hm : d.registry.captureMode <;> simp [hp, hc, hm]

theorem evaluates_congr {d u : Diagnostics} (h : SameStages d u) (handle : Option TraceHandle) :
    u.evaluates handle = d.evaluates handle := by
  rw [evaluates_eq, evaluates_eq, h.active, h.installed, h.captureMode]
  simp only [h.present]

/-- Leaving a stage observes it in its operation, or marks a fault. -/
theorem SameStages.observed {d u : Diagnostics} (h : SameStages d u) (known : Text → Bool) (handle : TraceHandle)
    (name : Text) (failed : Bool) :
    SameStages d (match u.registry.observeStage known handle name failed with
      | .ok r => { u with registry := r }
      | .error _ => u.markFault) := by
  unfold TraceRegistry.observeStage
  split_ifs
  · exact h.markFault
  · cases hop : u.registry.operation handle with
    | error e => exact h.markFault
    | ok so =>
      obtain ⟨s, o⟩ := so
      refine ⟨h.installed, h.active, ?_, fun j => ?_⟩
      · dsimp only
        rw [TraceRegistry.setOperation_captureMode, h.captureMode]
      · dsimp only
        rw [TraceRegistry.present_setOperation hop, h.present]

section Blocks

variable {ρ α : Type} {known : Text → Bool} {name : Text} {handle : Option TraceHandle}

/-- A body that leaves the diagnostics to the managers around it. -/
def Body.alone (code : Eff ρ ExcObject (Option α)) : Body ρ α := ⟨code, fun _ d => d⟩

/-- `with fail_operation_on_error(handle): with observe_stage(name, handle=handle): ...`. -/
def stage (known : Text → Bool) (name : Text) (handle : Option TraceHandle) (code : Eff ρ ExcObject (Option α)) :
    Eff (Diagnostics × ρ) Raised (Option α) :=
  nest known [.failOperationOnError handle, .observeStage name handle] (Body.alone code).run

theorem outcome_stage (code : Eff ρ ExcObject (Option α)) (d : Diagnostics) (p : ρ) :
    ContextManager.outcome (stage known name handle code (d, p)) =
      if d.evaluates handle then ContextManager.replace (ContextManager.outcome ((Body.alone code).run (d, p)))
      else ContextManager.outcome ((Body.alone code).run (d, p)) := by
  rw [stage, outcome_nest (Body.outcome_run _), Body.outcome_run]
  simp only [nestReplaces, replaces, entered, Bool.false_or, Bool.or_false]

theorem onlyYield_ok {body : Eff (Diagnostics × ρ) Raised (Option α)} {d t u : Diagnostics} {p q : ρ}
    {a : Option α} {g : Diagnostics → GenStep Diagnostics} (hg : g d = onlyYield t)
    (h : ContextManager.withManager g body (d, p) = .ok a (u, q)) : body (t, p) = .ok a (u, q) := by
  obtain ⟨v, hv, hret⟩ := ContextManager.withManager_ok hg (fun e u v => by simp) h
  cases hret
  exact hv

/-- An observed block that goes well leaves the same stages evaluated. -/
theorem observeStage_ok {code : Eff ρ ExcObject (Option α)} {d u : Diagnostics} {p q : ρ} {a : Option α}
    (h : ContextManager.withManager (observeStage known name handle) (Body.alone code).run (d, p) = .ok a (u, q)) :
    SameStages d u := by
  -- the body leaves the diagnostics alone
  have hbody : ∀ {t v : Diagnostics}, (Body.alone code).run (t, p) = .ok a (v, q) → v = t := by
    intro t v hrun
    unfold Body.run Body.alone at hrun
    dsimp only at hrun
    split at hrun <;> cases hrun
    rfl
  cases hactive : handle.or d.active with
  | none =>
    have hg : observeStage known name handle d = onlyYield d := by simp only [observeStage, hactive]
    rw [hbody (onlyYield_ok hg h)]
    exact .refl d
  | some active =>
    cases hinstalled : d.installed with
    | false =>
      have hg : observeStage known name handle d = onlyYield d := by
        simp only [observeStage, hactive, hinstalled]
      rw [hbody (onlyYield_ok hg h)]
      exact .refl d
    | true =>
      cases hc : d.registry.capturesDeepTrace active with
      | error e =>
        have hg : observeStage known name handle d = onlyYield d.markFault := by
          simp only [observeStage, hactive, hinstalled, hc]
        rw [hbody (onlyYield_ok hg h)]
        exact (SameStages.refl d).markFault
      | ok deep =>
        -- in both cases the generator goes on after its `yield` and swallows nothing
        obtain ⟨resume, hg, hnext, hthrow⟩ : ∃ resume, observeStage known name handle d = .yielded d resume ∧
            (∀ v, resume none d = .returned v → SameStages d v) ∧ ∀ e v w, resume (some e) v ≠ .returned w := by
          cases deep with
          | true =>
            refine ⟨_, by simp only [observeStage, hactive, hinstalled, hc]; rfl, fun v hv => ?_, fun e v w => by simp⟩
            cases hv
            exact (SameStages.refl d).observed known active name false
          | false =>
            refine ⟨_, by simp only [observeStage, hactive, hinstalled, hc]; rfl, fun v hv => ?_, fun e v w => ?_⟩
            · cases hv
              exact .refl d
            · dsimp only
              split_ifs <;> simp [onlyYield]
        obtain ⟨v, hv, hret⟩ := ContextManager.withManager_ok hg hthrow h
        rw [hbody hv] at hret
        exact hnext u hret

/-- A stage that goes well leaves the same stages evaluated. -/
theorem stage_ok {code : Eff ρ ExcObject (Option α)} {d u : Diagnostics} {p q : ρ} {a : Option α}
    (h : stage known name handle code (d, p) = .ok a (u, q)) : SameStages d u := by
  obtain ⟨v, hv, hret⟩ := ContextManager.withManager_ok (g := failOperationOnError handle) rfl
    (fun e u v => by simp) h
  cases hret
  exact observeStage_ok hv

end Blocks

end Diagnostics

end TenantRag

import TenantRag.Foundations.Effect
import TenantRag.Foundations.PyError
import Mathlib.Data.Nat.Notation

/-!
# Context managers made of generators

`contextlib.contextmanager`: a generator with one `yield` becomes a context
manager, whose block runs while the generator is suspended. An exception of the
block is thrown into the generator at its `yield`.

## The model

A generator changes a state of its own and ends, raises, or is suspended with the
code from there to its next suspension. The block runs over that state and the
rest of the state, which the generator does not see. An exception is an object:
those that the observed code raises are told apart from each other and from those
that are created on the way.

A generator that is thrown a `StopIteration` raises a `RuntimeError` instead, which
`contextmanager` turns back; this is modelled as raising the `StopIteration`.

## What is proved

* `outcome_of_transparent` — a manager that goes on after its block and raises what
  it is thrown leaves value and exception of the block alone.
* `outcome_of_replacing` — one that is suspended again by an exception replaces the
  exception by a `RuntimeError`.
-/

namespace TenantRag

/-- An exception object that code raises: which one it is, and what it says. -/
structure ExcObject where
  /-- `id(exc)`. -/
  identity : ℕ
  /-- Its class and message. -/
  error : PyError
  deriving DecidableEq

/-- An exception on its way out of a block. -/
inductive Raised where
  /-- An object the observed code raised. -/
  | own (x : ExcObject)
  /-- Another one. -/
  | created (e : PyError)
  deriving DecidableEq

/-- Its class and message. -/
def Raised.error : Raised → PyError
  | .own x => x.error
  | .created e => e

/-- What a generator does when it is resumed. -/
inductive GenStep (σ : Type) where
  /-- It ends. -/
  | returned (t : σ)
  /-- It raises. -/
  | raised (e : Raised) (t : σ)
  /-- It is suspended at a `yield`, and goes on from there by `next` or by `throw`. -/
  | yielded (t : σ) (resume : Option Raised → σ → GenStep σ)

namespace ContextManager

variable {σ ρ α : Type}

/-- `RuntimeError(message)` as `contextlib` raises it. -/
def misuse (message : String) : Raised := .created (runtimeError message)

/-- `GeneratorExit()`. -/
def generatorExit : Raised := .created ⟨.generatorExit, ""⟩

/-- `gen.close()` on a generator that is suspended, followed by `raise e`. -/
def closeAndRaise (resume : Option Raised → σ → GenStep σ) (e : Raised) (t : σ) (p : ρ) :
    EStateM.Result Raised (σ × ρ) (Option α) :=
  match resume (some generatorExit) t with
  | .returned u => .error e (u, p)
  | .raised e' u => .error (if e'.error.kind = .generatorExit then e else e') (u, p)
  | .yielded u _ => .error (misuse "generator ignored GeneratorExit") (u, p)

/-- `with manager(): body`, where `none` is what a block leaves whose exception is swallowed. -/
def withManager (g : σ → GenStep σ) (body : Eff (σ × ρ) Raised (Option α)) : Eff (σ × ρ) Raised (Option α) := fun s =>
  match g s.1 with
  | .returned t => .error (misuse "generator didn't yield") (t, s.2)
  | .raised e t => .error e (t, s.2)
  | .yielded t resume =>
      match body (t, s.2) with
      | .ok a (u, p) =>
          match resume none u with
          | .returned v => .ok a (v, p)
          | .raised e v => .error e (v, p)
          | .yielded v resume' => closeAndRaise resume' (misuse "generator didn't stop") v p
      | .error e (u, p) =>
          match resume (some e) u with
          | .returned v => .ok none (v, p)
          | .raised e' v => .error e' (v, p)
          | .yielded v resume' => closeAndRaise resume' (misuse "generator didn't stop after throw()") v p

/-- Value or exception of a block and the rest of the state. -/
def outcome {β : Type} : EStateM.Result Raised (σ × ρ) β → EStateM.Result Raised ρ β
  | .ok a s => .ok a s.2
  | .error e s => .error e s.2

/-- The generator yields, ends after its block, and raises what it is thrown. -/
def Transparent (step : GenStep σ) (t : σ) : Prop :=
  ∃ resume, step = .yielded t resume ∧ (∀ u, ∃ v, resume none u = .returned v) ∧
    ∀ e u, ∃ v, resume (some e) u = .raised e v

/-- The generator yields and ends after its block; thrown an `Exception` it yields again. -/
def Replacing (step : GenStep σ) (t : σ) : Prop :=
  ∃ resume, step = .yielded t resume ∧ (∀ u, ∃ v, resume none u = .returned v) ∧
    ∀ e u, (e.error.kind.isException = false → ∃ v, resume (some e) u = .raised e v) ∧
      (e.error.kind.isException = true → ∃ v, Transparent (resume (some e) u) v)

/-- What a replacing manager makes of the exception of its block. -/
def replace : EStateM.Result Raised ρ (Option α) → EStateM.Result Raised ρ (Option α)
  | .ok a p => .ok a p
  | .error e p =>
      if e.error.kind.isException then .error (misuse "generator didn't stop after throw()") p else .error e p

/-- A block that is left without an exception was left so by its body, or by a generator that
swallowed the exception. -/
theorem withManager_ok {g : σ → GenStep σ} {body : Eff (σ × ρ) Raised (Option α)} {s t v : σ} {p q : ρ}
    {resume : Option Raised → σ → GenStep σ} {a : Option α} (hyield : g s = .yielded t resume)
    (hthrow : ∀ e u v, resume (some e) u ≠ .returned v) (h : withManager g body (s, p) = .ok a (v, q)) :
    ∃ u, body (t, p) = .ok a (u, q) ∧ resume none u = .returned v := by
  have hclose : ∀ (resume' : Option Raised → σ → GenStep σ) (e : Raised) (u : σ) (p' : ρ),
      closeAndRaise resume' e u p' ≠ (.ok a (v, q) : EStateM.Result Raised (σ × ρ) (Option α)) := by
    intro resume' e u p'
    unfold closeAndRaise
    split <;> simp
  unfold withManager at h
  simp only [hyield] at h
  cases hb : body (t, p) with
  | ok b s' =>
    obtain ⟨u, q'⟩ := s'
    rw [hb] at h
    dsimp only at h
    cases hr : resume none u with
    | returned w =>
      rw [hr] at h
      cases h
      exact ⟨u, rfl, hr⟩
    | raised e w =>
      rw [hr] at h
      cases h
    | yielded w resume' =>
      rw [hr] at h
      exact (hclose _ _ _ _ h).elim
  | error e s' =>
    obtain ⟨u, q'⟩ := s'
    rw [hb] at h
    dsimp only at h
    cases hr : resume (some e) u with
    | returned w => exact absurd hr (hthrow e u w)
    | raised e' w =>
      rw [hr] at h
      cases h
    | yielded w resume' =>
      rw [hr] at h
      exact (hclose _ _ _ _ h).elim

theorem outcome_of_transparent {g : σ → GenStep σ} {body : Eff (σ × ρ) Raised (Option α)} {s t : σ} {p : ρ}
    (h : Transparent (g s) t) : outcome (withManager g body (s, p)) = outcome (body (t, p)) := by
  obtain ⟨resume, hyield, hnext, hthrow⟩ := h
  unfold withManager
  simp only [hyield]
  cases hb : body (t, p) with
  | ok a s' =>
    obtain ⟨v, hv⟩ := hnext s'.1
    simp only [hv, outcome]
  | error e s' =>
    obtain ⟨v, hv⟩ := hthrow e s'.1
    simp only [hv, outcome]

/-- Closing a transparent generator does not get in the way of the exception that is raised. -/
theorem outcome_closeAndRaise {step : GenStep σ} {t : σ} (h : Transparent step t) :
    ∃ resume, step = .yielded t resume ∧ ∀ (e : Raised) (p : ρ),
      outcome (closeAndRaise resume e t p : EStateM.Result Raised (σ × ρ) (Option α)) = .error e p := by
  obtain ⟨resume, hyield, -, hthrow⟩ := h
  refine ⟨resume, hyield, fun e p => ?_⟩
  obtain ⟨w, hw⟩ := hthrow generatorExit t
  unfold closeAndRaise
  simp only [hw, outcome]
  rfl

theorem outcome_of_replacing {g : σ → GenStep σ} {body : Eff (σ × ρ) Raised (Option α)} {s t : σ} {p : ρ}
    (h : Replacing (g s) t) : outcome (withManager g body (s, p)) = replace (outcome (body (t, p))) := by
  obtain ⟨resume, hyield, hnext, hthrow⟩ := h
  unfold withManager
  simp only [hyield]
  cases hb : body (t, p) with
  | ok a s' =>
    obtain ⟨v, hv⟩ := hnext s'.1
    simp only [hv, outcome, replace]
  | error e s' =>
    cases hexc : e.error.kind.isException with
    | false =>
      obtain ⟨v, hv⟩ := (hthrow e s'.1).1 hexc
      simp only [hv, outcome, replace, hexc, Bool.false_eq_true, if_false]
    | true =>
      obtain ⟨v, htrans⟩ := (hthrow e s'.1).2 hexc
      obtain ⟨resume', hagain, hclose⟩ := outcome_closeAndRaise (ρ := ρ) (α := α) htrans
      simp only [hagain, hclose]
      simp only [outcome, replace, hexc, if_true]

end ContextManager

end TenantRag

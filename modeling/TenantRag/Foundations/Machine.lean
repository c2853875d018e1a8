import Mathlib.Data.List.Induction

/-!
# Machines and their runs

A system that takes one step after another, each chosen by its environment: a
step function that may refuse an action, and that says what an observer sees of
the step. A run is a list of actions the machine accepts one after another.

## What is proved

* `run_concat` — a run of one more action is a run and a step.
* `run_induction` — what one step preserves, a whole run preserves; the property
  may speak of the actions taken and of what was observed.
* `invariant` — the same for a property of states alone.
* `StepsAlong.of_check` — what a check of every step shows of a run.
* `statesAlong_iff_stepsAlong` — a property that a step keeps exactly under a
  condition holds all along a run exactly when every step meets the condition.
-/

namespace TenantRag

universe u v w

/-- A step function: where an action is accepted, the next state and the observations. -/
structure Machine (σ : Type u) (α : Type v) (ω : Type w) where
  /-- One step. -/
  step : σ → α → Option (σ × List ω)

namespace Machine

variable {σ : Type u} {α : Type v} {ω : Type w} (M : Machine σ α ω)

/-- The actions taken one after another, with all that is observed. -/
def run : σ → List α → Option (σ × List ω)
  | s, [] => some (s, [])
  | s, a :: as =>
      match M.step s a with
      | none => none
      | some (t, ev) =>
          match run t as with
          | none => none
          | some (u, evs) => some (u, ev ++ evs)

@[simp] theorem run_nil (s : σ) : M.run s [] = some (s, []) := rfl

theorem run_cons_iff {s u : σ} {a : α} {as : List α} {evs : List ω} :
    M.run s (a :: as) = some (u, evs) ↔
      ∃ t ev evs', M.step s a = some (t, ev) ∧ M.run t as = some (u, evs') ∧ evs = ev ++ evs' := by
  constructor
  · intro h
    rw [run] at h
    split at h
    · cases h
    · rename_i t ev hs
      split at h
      · cases h
      · rename_i u' evs' hr
        simp only [Option.some.injEq, Prod.mk.injEq] at h
        obtain ⟨rfl, rfl⟩ := h
        exact ⟨t, ev, evs', hs, hr, rfl⟩
  · rintro ⟨t, ev, evs', hs, hr, rfl⟩
    simp [run, hs, hr]

theorem run_append_iff {s u : σ} {as bs : List α} {evs : List ω} :
    M.run s (as ++ bs) = some (u, evs) ↔
      ∃ t ev evs', M.run s as = some (t, ev) ∧ M.run t bs = some (u, evs') ∧ evs = ev ++ evs' := by
  induction as generalizing s evs with
  | nil => simp
  | cons a as ih =>
    simp only [List.cons_append, run_cons_iff, ih]
    constructor
    · rintro ⟨t, ev, _, hs, ⟨t', ev', evs', hr, hr', rfl⟩, rfl⟩
      exact ⟨t', ev ++ ev', evs', ⟨t, ev, ev', hs, hr, rfl⟩, hr', by simp⟩
    · rintro ⟨t', _, evs', ⟨t, ev, ev', hs, hr, rfl⟩, hr', rfl⟩
      exact ⟨t, ev, ev' ++ evs', hs, ⟨t', ev', evs', hr, hr', rfl⟩, by simp⟩

theorem run_concat {s u : σ} {as : List α} {a : α} {evs : List ω} :
    M.run s (as ++ [a]) = some (u, evs) ↔
      ∃ t ev evs', M.run s as = some (t, ev) ∧ M.step t a = some (u, evs') ∧ evs = ev ++ evs' := by
  rw [run_append_iff]
  constructor
  · rintro ⟨t, ev, evs', hr, hs, rfl⟩
    obtain ⟨t', ev', evs'', hs', hr', rfl⟩ := (run_cons_iff M).mp hs
    simp only [run_nil, Option.some.injEq, Prod.mk.injEq] at hr'
    obtain ⟨rfl, rfl⟩ := hr'
    exact ⟨t, ev, ev', hr, hs', by simp⟩
  · rintro ⟨t, ev, evs', hr, hs, rfl⟩
    exact ⟨t, ev, evs', hr, (run_cons_iff M).mpr ⟨u, evs', [], hs, rfl, by simp⟩, rfl⟩

/-- **Invariants**: what holds at the start and is kept by every step of a run holds at its end. -/
theorem run_induction {s : σ} {I : List α → List ω → σ → Prop} (h0 : I [] [] s)
    (hstep : ∀ as evs t a u ev, M.run s as = some (t, evs) → I as evs t → M.step t a = some (u, ev) →
      I (as ++ [a]) (evs ++ ev) u) {as : List α} {evs : List ω} {t : σ} (h : M.run s as = some (t, evs)) :
    I as evs t := by
  induction as using List.reverseRecOn generalizing t evs with
  | nil =>
    simp only [run_nil, Option.some.injEq, Prod.mk.injEq] at h
    obtain ⟨rfl, rfl⟩ := h
    exact h0
  | append_singleton as a ih =>
    obtain ⟨t', ev, evs', hr, hs, rfl⟩ := (run_concat M).mp h
    exact hstep _ _ _ _ _ _ hr (ih hr) hs

/-- A state invariant: `run_induction` for a property of states alone. -/
theorem invariant {s : σ} {I : σ → Prop} (h0 : I s)
    (hstep : ∀ t a u ev, I t → M.step t a = some (u, ev) → I u) {as : List α} {evs : List ω} {t : σ}
    (h : M.run s as = some (t, evs)) : I t :=
  M.run_induction (I := fun _ _ t => I t) h0 (fun _ _ t a u ev _ ht hs => hstep t a u ev ht hs) h

/-! ### All along a run -/

/-- Every state the run of `as` from `s` goes through satisfies `P`. -/
def StatesAlong (P : σ → Prop) (s : σ) (as : List α) : Prop :=
  ∀ bs, bs <+: as → ∀ t evs, M.run s bs = some (t, evs) → P t

/-- Every step of the run of `as` from `s` satisfies `C`. -/
def StepsAlong (C : σ → α → Prop) (s : σ) (as : List α) : Prop :=
  ∀ bs a, bs ++ [a] <+: as → ∀ t evs, M.run s bs = some (t, evs) → C t a

theorem StatesAlong.last {P : σ → Prop} {s t : σ} {as : List α} {evs : List ω} (h : M.StatesAlong P s as)
    (hr : M.run s as = some (t, evs)) : P t :=
  h as (List.prefix_refl as) t evs hr

theorem StatesAlong.init {P : σ → Prop} {s : σ} {as : List α} {a : α} (h : M.StatesAlong P s (as ++ [a])) :
    M.StatesAlong P s as :=
  fun bs hbs => h bs (hbs.trans (List.prefix_append _ _))

theorem StepsAlong.init {C : σ → α → Prop} {s : σ} {as : List α} {a : α}
    (h : M.StepsAlong C s (as ++ [a])) : M.StepsAlong C s as :=
  fun bs b hbs => h bs b (hbs.trans (List.prefix_append _ _))

theorem StatesAlong.concat {P : σ → Prop} {s : σ} {as : List α} {a : α} (h : M.StatesAlong P s as)
    (hlast : ∀ t evs, M.run s (as ++ [a]) = some (t, evs) → P t) : M.StatesAlong P s (as ++ [a]) := by
  intro bs hbs t evs hr
  rcases List.prefix_concat_iff.mp hbs with rfl | hbs
  · exact hlast t evs hr
  · exact h bs hbs t evs hr

theorem StepsAlong.concat {C : σ → α → Prop} {s : σ} {as : List α} {a : α} (h : M.StepsAlong C s as)
    (hlast : ∀ t evs, M.run s as = some (t, evs) → C t a) : M.StepsAlong C s (as ++ [a]) := by
  intro bs b hbs t evs hr
  rcases List.prefix_concat_iff.mp hbs with heq | hbs
  · obtain ⟨rfl, hb⟩ := List.append_inj' heq rfl
    simp only [List.cons.injEq, and_true] at hb
    exact hb ▸ hlast t evs hr
  · exact h bs b hbs t evs hr

/-- A check of every step of a run. -/
def checkSteps (p : σ → α → Bool) : σ → List α → Bool
  | _, [] => true
  | s, a :: as => p s a && (M.step s a).elim true fun r => checkSteps p r.1 as

theorem StepsAlong.of_check {C : σ → α → Prop} {p : σ → α → Bool} (hp : ∀ s a, p s a = true → C s a) {s : σ} {as : List α}
    (h : M.checkSteps p s as = true) : M.StepsAlong C s as := by
  induction as generalizing s with
  | nil =>
    intro bs b hbs
    simp at hbs
  | cons a as ih =>
    rw [checkSteps, Bool.and_eq_true] at h
    intro bs b hbs t evs hr
    cases bs with
    | nil =>
      obtain ⟨rfl, -⟩ := List.cons_prefix_cons.mp hbs
      simp only [run_nil, Option.some.injEq, Prod.mk.injEq] at hr
      exact hp _ _ (hr.1 ▸ h.1)
    | cons b' bs =>
      obtain ⟨rfl, hrest⟩ := List.cons_prefix_cons.mp hbs
      obtain ⟨u, ev, evs', hs, hr', -⟩ := (run_cons_iff M).mp hr
      rw [hs] at h
      exact ih h.2 bs b hrest t evs' hr'

theorem observed_mono {s t u : σ} {as bs : List α} {evs evs' : List ω} (hp : bs <+: as)
    (hb : M.run s bs = some (t, evs')) (ha : M.run s as = some (u, evs)) : evs' <+: evs := by
  obtain ⟨cs, rfl⟩ := hp
  obtain ⟨t', ev, ev', hr, -, rfl⟩ := (run_append_iff M).mp ha
  rw [hb, Option.some.injEq, Prod.mk.injEq] at hr
  exact hr.2 ▸ List.prefix_append _ _

/-- A property which, wherever it holds in a run, the next step keeps exactly when the step
meets a condition: it holds all along the run exactly when every step of the run meets
the condition. -/
theorem statesAlong_iff_stepsAlong {s : σ} {P : σ → Prop} {C : σ → α → Prop} {as : List α} {evs : List ω} {t : σ}
    (hP : P s)
    (hstep : ∀ bs a t evs u ev, bs ++ [a] <+: as → M.run s bs = some (t, evs) → P t →
      M.step t a = some (u, ev) → (P u ↔ C t a))
    (h : M.run s as = some (t, evs)) :
    M.StatesAlong P s as ↔ M.StepsAlong C s as := by
  induction as using List.reverseRecOn generalizing t evs with
  | nil =>
    refine ⟨fun _ bs a hbs => ?_, fun _ bs hbs t evs hr => ?_⟩
    · simp at hbs
    · rw [List.prefix_nil] at hbs
      subst hbs
      simp only [run_nil, Option.some.injEq, Prod.mk.injEq] at hr
      exact hr.1 ▸ hP
  | append_singleton as a ih =>
    obtain ⟨t', ev, evs', hr, hs, rfl⟩ := (run_concat M).mp h
    have ih' := ih (fun bs b t evs u ev hbs => hstep bs b t evs u ev (hbs.trans (List.prefix_append _ _))) hr
    constructor
    · intro hall
      refine StepsAlong.concat M (ih'.mp (StatesAlong.init M hall)) fun t₁ evs₁ hr₁ => ?_
      rw [hr, Option.some.injEq, Prod.mk.injEq] at hr₁
      obtain ⟨rfl, -⟩ := hr₁
      exact (hstep as a _ _ _ _ (List.prefix_refl _) hr (StatesAlong.last M (StatesAlong.init M hall) hr) hs).mp
        (StatesAlong.last M hall h)
    · intro hall
      have hbefore := ih'.mpr (StepsAlong.init M hall)
      refine StatesAlong.concat M hbefore fun t₁ evs₁ hr₁ => ?_
      rw [h, Option.some.injEq, Prod.mk.injEq] at hr₁
      obtain ⟨rfl, -⟩ := hr₁
      exact (hstep as a _ _ _ _ (List.prefix_refl _) hr (StatesAlong.last M hbefore hr) hs).mpr
        (hall as a (List.prefix_refl _) t' ev hr)

end Machine

end TenantRag

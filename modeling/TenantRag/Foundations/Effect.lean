import Mathlib.Data.List.Forall2
import Mathlib.Order.Defs.Unbundled
import Mathlib.Tactic.SplitIfs

/-!
# Code that changes a state and may raise

Python code over mutable objects: it runs in a state, and returns a value or
raises an exception, in both cases leaving a state behind. What a call did
before it raised stays done.

## What is proved

* `wp_bind`, `wp_tryExcept`, `wp_tryFinally` and the other rules — the weakest
  precondition of each construct in terms of those of its parts.
* `wp_mono` — the rule of consequence.
* `wp_forEach`, `wp_forEach_mem`, `wp_collect` — the rules for loops over a list, with an invariant that knows
  which items are done and which are not, or speaks of the state only.
* `Keeps.bind`, `Keeps.forEach` and the other rules — a relation between the states before
  and after that every part of the code keeps is kept by the whole.
* `Returns.bind` and the other rules — what a value is known to be, in whatever state the code
  runs.
-/

namespace TenantRag

/-- Code over the state `σ` that returns an `α` or raises an `ε`. -/
abbrev Eff (σ ε α : Type) := EStateM ε σ α

namespace Eff

variable {σ τ ε α β : Type}

/-- `raise e`. -/
def raise (e : ε) : Eff σ ε α := fun s => .error e s

/-- The value of a pure computation, or its exception. -/
def ofExcept : Except ε α → Eff σ ε α
  | .ok a => pure a
  | .error e => raise e

/-- The state, read through a function. -/
def read (f : σ → α) : Eff σ ε α := fun s => .ok (f s) s

/-- The state changed by a function. -/
def update (f : σ → σ) : Eff σ ε Unit := fun s => .ok () (f s)

/-- `try: m except BaseException as e: h(e)`; a clause for fewer classes raises the rest again. -/
def tryExcept (m : Eff σ ε α) (h : ε → Eff σ ε α) : Eff σ ε α := fun s =>
  match m s with
  | .ok a t => .ok a t
  | .error e t => h e t

/-- `try: m finally: f`. -/
def tryFinally (m : Eff σ ε α) (f : Eff σ ε Unit) : Eff σ ε α := fun s =>
  match m s with
  | .ok a t =>
      match f t with
      | .ok _ t' => .ok a t'
      | .error e t' => .error e t'
  | .error e t =>
      match f t with
      | .ok _ t' => .error e t'
      | .error e' t' => .error e' t'

/-- `if c: m`. -/
def whenever (c : Bool) (m : Eff σ ε Unit) : Eff σ ε Unit := if c then m else pure ()

/-- `for x in xs: f(x)`. -/
def forEach (f : α → Eff σ ε Unit) : List α → Eff σ ε Unit
  | [] => pure ()
  | x :: xs => do
      f x
      forEach f xs

/-- `[f(x) for x in xs]`. -/
def collect (f : α → Eff σ ε β) : List α → Eff σ ε (List β)
  | [] => pure []
  | x :: xs => do
      let y ← f x
      let ys ← collect f xs
      pure (y :: ys)

/-- Code over a part of the state. -/
def zoom (get : σ → τ) (put : τ → σ → σ) (m : Eff τ ε α) : Eff σ ε α := fun s =>
  match m (get s) with
  | .ok a t => .ok a (put t s)
  | .error e t => .error e (put t s)

/-- Code whose exceptions are those of another type. -/
def mapError {ε' : Type} (f : ε → ε') (m : Eff σ ε α) : Eff σ ε' α := fun s =>
  match m s with
  | .ok a t => .ok a t
  | .error e t => .error (f e) t

theorem forEach_whenever (p : α → Bool) (f : α → Eff σ ε Unit) (xs : List α) :
    forEach (fun x => whenever (p x) (f x)) xs = forEach f (xs.filter p) := by
  induction xs with
  | nil => rfl
  | cons x xs ih =>
    rw [forEach, ih, List.filter_cons]
    cases p x <;> rfl

/-! ### Weakest preconditions -/

/-- `m`, run in the given state, ends as the two postconditions say: `Q` where it returns,
`E` where it raises. -/
def wp (m : Eff σ ε α) (Q : α → σ → Prop) (E : ε → σ → Prop) (s : σ) : Prop :=
  match m s with
  | .ok a t => Q a t
  | .error e t => E e t

variable {Q : α → σ → Prop} {E : ε → σ → Prop} {s : σ}

@[simp] theorem wp_pure (a : α) : wp (pure a : Eff σ ε α) Q E s ↔ Q a s := Iff.rfl

@[simp] theorem wp_raise (e : ε) : wp (raise e : Eff σ ε α) Q E s ↔ E e s := Iff.rfl

@[simp] theorem wp_read (f : σ → α) : wp (read f : Eff σ ε α) Q E s ↔ Q (f s) s := Iff.rfl

@[simp] theorem wp_update {Q : Unit → σ → Prop} (f : σ → σ) : wp (update f : Eff σ ε Unit) Q E s ↔ Q () (f s) :=
  Iff.rfl

@[simp] theorem wp_bind {R : β → σ → Prop} (m : Eff σ ε α) (f : α → Eff σ ε β) :
    wp (m >>= f) R E s ↔ wp m (fun a => wp (f a) R E) E s := by
  simp only [wp, bind, EStateM.bind]
  cases m s <;> rfl

@[simp] theorem wp_map (m : Eff σ ε β) (f : β → α) : wp (f <$> m) Q E s ↔ wp m (fun b => Q (f b)) E s := by
  simp only [wp, Functor.map, EStateM.map]
  cases m s <;> rfl

@[simp] theorem wp_tryExcept (m : Eff σ ε α) (h : ε → Eff σ ε α) :
    wp (tryExcept m h) Q E s ↔ wp m Q (fun e => wp (h e) Q E) s := by
  simp only [wp, tryExcept]
  cases m s <;> rfl

@[simp] theorem wp_tryFinally (m : Eff σ ε α) (f : Eff σ ε Unit) :
    wp (tryFinally m f) Q E s ↔
      wp m (fun a => wp f (fun _ => Q a) E) (fun e => wp f (fun _ => E e) E) s := by
  simp only [wp, tryFinally]
  cases m s with
  | ok a t => dsimp only; cases f t <;> rfl
  | error e t => dsimp only; cases f t <;> rfl

theorem wp_ofExcept (x : Except ε α) :
    wp (ofExcept x) Q E s ↔ (∀ a, x = .ok a → Q a s) ∧ ∀ e, x = .error e → E e s := by
  cases x <;> simp [ofExcept]

@[simp] theorem wp_ofExcept_ok (a : α) : wp (ofExcept (.ok a) : Eff σ ε α) Q E s ↔ Q a s := Iff.rfl

@[simp] theorem wp_ofExcept_error (e : ε) : wp (ofExcept (.error e) : Eff σ ε α) Q E s ↔ E e s := Iff.rfl

@[simp] theorem wp_zoom (get : σ → τ) (put : τ → σ → σ) (m : Eff τ ε α) :
    wp (zoom get put m) Q E s ↔ wp m (fun a t => Q a (put t s)) (fun e t => E e (put t s)) (get s) := by
  simp only [wp, zoom]
  cases m (get s) <;> rfl

@[simp] theorem wp_mapError {ε' : Type} {E : ε' → σ → Prop} (f : ε → ε') (m : Eff σ ε α) :
    wp (mapError f m) Q E s ↔ wp m Q (fun e => E (f e)) s := by
  simp only [wp, mapError]
  cases m s <;> rfl

theorem wp_ite (c : Prop) [Decidable c] (m n : Eff σ ε α) :
    wp (if c then m else n) Q E s ↔ (c → wp m Q E s) ∧ (¬c → wp n Q E s) := by
  split_ifs with h <;> simp [h]

theorem wp_whenever {Q : Unit → σ → Prop} (c : Bool) (m : Eff σ ε Unit) :
    wp (whenever c m) Q E s ↔ (c = true → wp m Q E s) ∧ (c = false → Q () s) := by
  cases c <;> simp [whenever]

/-- The rule of consequence. -/
theorem wp_mono {m : Eff σ ε α} {Q' : α → σ → Prop} {E' : ε → σ → Prop} (h : wp m Q E s)
    (hQ : ∀ a t, Q a t → Q' a t) (hE : ∀ e t, E e t → E' e t) : wp m Q' E' s := by
  unfold wp at h ⊢
  cases hm : m s with
  | ok a t => rw [hm] at h; exact hQ a t h
  | error e t => rw [hm] at h; exact hE e t h

theorem wp_true (m : Eff σ ε α) (s : σ) : wp m (fun _ _ => True) (fun _ _ => True) s := by
  unfold wp
  cases m s <;> trivial

theorem wp_and {m : Eff σ ε α} {Q' : α → σ → Prop} {E' : ε → σ → Prop} (h : wp m Q E s) (h' : wp m Q' E' s) :
    wp m (fun a t => Q a t ∧ Q' a t) (fun e t => E e t ∧ E' e t) s := by
  unfold wp at h h' ⊢
  cases hm : m s with
  | ok a t => rw [hm] at h h'; exact ⟨h, h'⟩
  | error e t => rw [hm] at h h'; exact ⟨h, h'⟩

theorem wp_of_ok {m : Eff σ ε α} {a : α} {t : σ} (h : m s = .ok a t) : wp m Q E s ↔ Q a t := by
  unfold wp
  rw [h]

theorem wp_of_error {m : Eff σ ε α} {e : ε} {t : σ} (h : m s = .error e t) : wp m Q E s ↔ E e t := by
  unfold wp
  rw [h]

/-- What a run that returned, or raised, satisfies. -/
theorem wp_ok {m : Eff σ ε α} (h : wp m Q E s) {a : α} {t : σ} (hm : m s = .ok a t) : Q a t := by
  unfold wp at h
  rwa [hm] at h

theorem wp_error {m : Eff σ ε α} (h : wp m Q E s) {e : ε} {t : σ} (hm : m s = .error e t) : E e t := by
  unfold wp at h
  rwa [hm] at h

/-- Code that cannot raise returns. -/
theorem wp_returns {m : Eff σ ε α} (h : wp m Q (fun _ _ => False) s) : ∃ a t, m s = .ok a t ∧ Q a t := by
  unfold wp at h
  cases hm : m s with
  | ok a t => rw [hm] at h; exact ⟨a, t, rfl, h⟩
  | error e t => rw [hm] at h; exact h.elim

/-- Loops: an invariant that speaks of the items done and the items left. -/
theorem wp_forEach {f : α → Eff σ ε Unit} {xs : List α} {I : List α → List α → σ → Prop} {E : ε → σ → Prop} {s : σ}
    (hinit : I [] xs s)
    (hstep : ∀ done x rest t, I done (x :: rest) t → wp (f x) (fun _ => I (done ++ [x]) rest) E t) :
    wp (forEach f xs) (fun _ => I xs []) E s := by
  suffices h : ∀ done rest t, I done rest t → wp (forEach f rest) (fun _ => I (done ++ rest) []) E t by
    simpa using h [] xs s hinit
  intro done rest
  induction rest generalizing done with
  | nil =>
    intro t ht
    simpa [forEach] using ht
  | cons x rest ih =>
    intro t ht
    rw [forEach, wp_bind]
    refine wp_mono (hstep done x rest t ht) (fun _ t' ht' => ?_) fun _ _ he => he
    simpa using ih (done ++ [x]) t' ht'

/-- Loops: an invariant that does not speak of the items. -/
theorem wp_forEach_mem {f : α → Eff σ ε Unit} {xs : List α} {I : σ → Prop} {E : ε → σ → Prop} {s : σ} (hinit : I s)
    (hstep : ∀ x ∈ xs, ∀ t, I t → wp (f x) (fun _ => I) E t) : wp (forEach f xs) (fun _ => I) E s := by
  induction xs generalizing s with
  | nil => exact hinit
  | cons x xs ih =>
    rw [List.forall_mem_cons] at hstep
    rw [forEach, wp_bind]
    exact wp_mono (hstep.1 s hinit) (fun _ t ht => ih ht hstep.2) fun _ _ he => he

/-- Comprehensions: an invariant, and what is known of each value. -/
theorem wp_collect {f : α → Eff σ ε β} {xs : List α} {I : σ → Prop} {P : α → β → Prop} {E : ε → σ → Prop} {s : σ} (hinit : I s)
    (hstep : ∀ x ∈ xs, ∀ t, I t → wp (f x) (fun y t' => I t' ∧ P x y) E t) :
    wp (collect f xs) (fun ys t => I t ∧ List.Forall₂ P xs ys) E s := by
  induction xs generalizing s with
  | nil => exact ⟨hinit, .nil⟩
  | cons x xs ih =>
    rw [List.forall_mem_cons] at hstep
    rw [collect, wp_bind]
    refine wp_mono (hstep.1 s hinit) (fun y t ht => ?_) fun _ _ he => he
    rw [wp_bind]
    exact wp_mono (ih ht.1 hstep.2) (fun ys u hu => ⟨hu.1, .cons ht.2 hu.2⟩) fun _ _ he => he

/-! ### What every run keeps -/

/-- However a run of the code ends, it relates the state before to the state after. -/
def Keeps (R : σ → σ → Prop) (m : Eff σ ε α) : Prop := ∀ s, wp m (fun _ => R s) (fun _ => R s) s

namespace Keeps

variable {R : σ → σ → Prop}

protected theorem pure [Std.Refl R] (a : α) : Keeps R (pure a : Eff σ ε α) := fun s => Std.Refl.refl s

protected theorem raise [Std.Refl R] (e : ε) : Keeps R (raise e : Eff σ ε α) := fun s => Std.Refl.refl s

protected theorem read [Std.Refl R] (f : σ → α) : Keeps R (read f : Eff σ ε α) := fun s => Std.Refl.refl s

protected theorem ofExcept [Std.Refl R] (x : Except ε α) : Keeps R (ofExcept x) := by
  cases x with
  | ok a => exact Keeps.pure a
  | error e => exact Keeps.raise e

theorem update {f : σ → σ} (h : ∀ s, R s (f s)) : Keeps R (update f : Eff σ ε Unit) := h

theorem bind [IsTrans σ R] {m : Eff σ ε α} {f : α → Eff σ ε β} (hm : Keeps R m) (hf : ∀ a, Keeps R (f a)) :
    Keeps R (m >>= f) := by
  intro s
  rw [wp_bind]
  refine wp_mono (hm s) (fun a t hst => ?_) fun _ _ hst => hst
  exact wp_mono (hf a t) (fun _ _ htu => Trans.trans hst htu) fun _ _ htu => Trans.trans hst htu

theorem map {m : Eff σ ε β} (hm : Keeps R m) (f : β → α) : Keeps R (f <$> m) := by
  intro s
  rw [wp_map]
  exact hm s

theorem tryExcept [IsTrans σ R] {m : Eff σ ε α} {h : ε → Eff σ ε α} (hm : Keeps R m) (hh : ∀ e, Keeps R (h e)) :
    Keeps R (tryExcept m h) := by
  intro s
  rw [wp_tryExcept]
  refine wp_mono (hm s) (fun _ _ hst => hst) fun e t hst => ?_
  exact wp_mono (hh e t) (fun _ _ htu => Trans.trans hst htu) fun _ _ htu => Trans.trans hst htu

theorem mapError {ε' : Type} {m : Eff σ ε α} (hm : Keeps R m) (f : ε → ε') : Keeps R (mapError f m) := by
  intro s
  rw [wp_mapError]
  exact hm s

theorem ite {c : Prop} [Decidable c] {m n : Eff σ ε α} (hm : Keeps R m) (hn : Keeps R n) :
    Keeps R (if c then m else n) := by
  split_ifs
  · exact hm
  · exact hn

theorem whenever [Std.Refl R] {c : Bool} {m : Eff σ ε Unit} (hm : Keeps R m) : Keeps R (whenever c m) := by
  cases c with
  | true => exact hm
  | false => exact Keeps.pure ()

theorem forEach [Std.Refl R] [IsTrans σ R] {f : α → Eff σ ε Unit} {xs : List α} (h : ∀ x ∈ xs, Keeps R (f x)) :
    Keeps R (forEach f xs) := by
  induction xs with
  | nil => exact Keeps.pure ()
  | cons x xs ih =>
    rw [List.forall_mem_cons] at h
    exact bind h.1 fun _ => ih h.2

theorem collect [Std.Refl R] [IsTrans σ R] {f : α → Eff σ ε β} {xs : List α} (h : ∀ x ∈ xs, Keeps R (f x)) :
    Keeps R (collect f xs) := by
  induction xs with
  | nil => exact Keeps.pure _
  | cons x xs ih =>
    rw [List.forall_mem_cons] at h
    exact bind h.1 fun _ => bind (ih h.2) fun _ => Keeps.pure _

/-- Code over a part of the state keeps what it keeps of the part. -/
theorem zoom {T : τ → τ → Prop} {get : σ → τ} {put : τ → σ → σ} {m : Eff τ ε α} (hm : Keeps T m)
    (h : ∀ s t, T (get s) t → R s (put t s)) : Keeps R (zoom get put m) := by
  intro s
  rw [wp_zoom]
  exact wp_mono (hm (get s)) (fun _ t hst => h s t hst) fun _ t hst => h s t hst

end Keeps

/-! ### What a value is known to be -/

/-- In whatever state the code runs, a value that it returns has the property. -/
def Returns (P : α → Prop) (m : Eff σ ε α) : Prop := ∀ s, wp m (fun a _ => P a) (fun _ _ => True) s

namespace Returns

variable {P : α → Prop}

protected theorem pure {a : α} (h : P a) : Returns P (pure a : Eff σ ε α) := fun _ => h

protected theorem raise (e : ε) : Returns P (raise e : Eff σ ε α) := fun _ => trivial

protected theorem ofExcept {x : Except ε α} (h : ∀ a, x = .ok a → P a) : Returns P (ofExcept x : Eff σ ε α) := by
  cases x with
  | ok a => exact Returns.pure (h a rfl)
  | error e => exact Returns.raise e

theorem mono {P' : α → Prop} {m : Eff σ ε α} (hm : Returns P m) (h : ∀ a, P a → P' a) : Returns P' m :=
  fun s => wp_mono (hm s) (fun a _ ha => h a ha) fun _ _ _ => trivial

theorem and {P' : α → Prop} {m : Eff σ ε α} (hm : Returns P m) (hm' : Returns P' m) : Returns (fun a => P a ∧ P' a) m :=
  fun s => wp_mono (wp_and (hm s) (hm' s)) (fun _ _ h => h) fun _ _ _ => trivial

theorem bind {Q : β → Prop} {m : Eff σ ε α} {f : α → Eff σ ε β} (hm : Returns P m)
    (hf : ∀ a, P a → Returns Q (f a)) : Returns Q (m >>= f) := by
  intro s
  rw [wp_bind]
  exact wp_mono (hm s) (fun a t ha => hf a ha t) fun _ _ _ => trivial

/-- A part of which nothing needs to be known. -/
theorem bind_any {Q : β → Prop} {m : Eff σ ε α} {f : α → Eff σ ε β} (hf : ∀ a, Returns Q (f a)) : Returns Q (m >>= f) :=
  bind (P := fun _ => True) (fun s => wp_mono (wp_true m s) (fun _ _ _ => trivial) fun _ _ _ => trivial) fun a _ => hf a

theorem mapError {ε' : Type} {m : Eff σ ε α} (hm : Returns P m) (f : ε → ε') : Returns P (mapError f m) := by
  intro s
  rw [wp_mapError]
  exact hm s

theorem zoom {get : σ → τ} {put : τ → σ → σ} {m : Eff τ ε α} (hm : Returns P m) : Returns P (zoom get put m) := by
  intro s
  rw [wp_zoom]
  exact hm (get s)

/-- Behind a check that raises, what it checked is known. -/
theorem bind_whenever {Q : β → Prop} {c : Bool} {e : ε} {f : Unit → Eff σ ε β} (hf : c = false → Returns Q (f ())) :
    Returns Q (whenever c (raise e) >>= f) := by
  cases c with
  | true => exact fun _ => trivial
  | false => exact hf rfl

/-- Code goes on from a state and a value of which both are known, or ends in a state that is known. -/
theorem wp_bind_or {Q : β → σ → Prop} {E : ε → σ → Prop} {R : σ → σ → Prop} {m : Eff σ ε α} {f : α → Eff σ ε β}
    (hR : Keeps R m) (hm : Returns P m) {s : σ} (hE : ∀ e t, R s t → E e t)
    (hf : ∀ a t, R s t → P a → wp (f a) Q E t) : wp (m >>= f) Q E s := by
  rw [Eff.wp_bind]
  exact wp_mono (wp_and (hR s) (hm s)) (fun a t h => hf a t h.1 h.2) fun e t h => hE e t h.1

/-- Code goes on from a state and a value of which both are known. -/
theorem wp_bind {Q : β → σ → Prop} {R : σ → σ → Prop} {m : Eff σ ε α} {f : α → Eff σ ε β} (hR : Keeps R m)
    (hm : Returns P m) {s : σ} (hf : ∀ a t, R s t → P a → wp (f a) Q (fun _ _ => True) t) :
    wp (m >>= f) Q (fun _ _ => True) s :=
  hm.wp_bind_or hR (fun _ _ _ => trivial) hf

end Returns

theorem Keeps.wp_bind_or {Q : β → σ → Prop} {E : ε → σ → Prop} {R : σ → σ → Prop} {m : Eff σ ε α} {f : α → Eff σ ε β}
    (hR : Keeps R m) {s : σ} (hE : ∀ e t, R s t → E e t) (hf : ∀ a t, R s t → wp (f a) Q E t) : wp (m >>= f) Q E s := by
  rw [Eff.wp_bind]
  exact wp_mono (hR s) (fun a t h => hf a t h) fun e t h => hE e t h

theorem Keeps.wp_bind {Q : β → σ → Prop} {R : σ → σ → Prop} {m : Eff σ ε α} {f : α → Eff σ ε β} (hR : Keeps R m)
    {s : σ} (hf : ∀ a t, R s t → wp (f a) Q (fun _ _ => True) t) : wp (m >>= f) Q (fun _ _ => True) s :=
  hR.wp_bind_or (fun _ _ _ => trivial) hf

end Eff

end TenantRag

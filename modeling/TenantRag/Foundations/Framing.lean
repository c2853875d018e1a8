import Mathlib.Data.Set.Function

/-!
# Framing

A stream of parts, each behind a word for its length. The words are as long as one
another, so the stream is read from the front: the first word gives the length of the
first part, and so on. Something in front of the parts, without a length of its own, is
told from them by a symbol that it does not have and every word begins with.

## What is proved

* `frames_injective` — the stream determines its parts.
* `headed_injective` — with the same symbol at the start of every word, the stream
  determines what stands in front as well.
* `terminated_injective` — groups that end with a separator they do not have are
  determined by what they are together.
-/

namespace TenantRag

/-- Words for lengths. -/
structure LengthCode (α : Type) where
  /-- The word for a length. -/
  word : ℕ → List α
  /-- How long the words are, besides their first symbol. -/
  width : ℕ
  /-- The lengths below it have words of their own. -/
  bound : ℕ
  /-- All words are as long as one another. -/
  length_word : ∀ n, (word n).length = width + 1
  /-- Different lengths have different words. -/
  word_injOn : Set.InjOn word {n | n < bound}

variable {α : Type}

/-! ### Cutting at a symbol -/

/-- Where two lists without a symbol are continued by nothing or by the symbol, they and what continues them are
determined by what they are together. -/
theorem cut_injective {mark : α} {xs ys r s : List α} (hxs : mark ∉ xs) (hys : mark ∉ ys)
    (hr : ∀ a ∈ r.head?, a = mark) (hs : ∀ a ∈ s.head?, a = mark) (h : xs ++ r = ys ++ s) : xs = ys ∧ r = s := by
  induction xs generalizing ys with
  | nil =>
    cases ys with
    | nil => exact ⟨rfl, h⟩
    | cons y ys =>
      rw [List.nil_append, List.cons_append] at h
      exact absurd (hr y (by simp [h])) fun hy => hys (hy ▸ List.mem_cons_self)
  | cons x xs ih =>
    cases ys with
    | nil =>
      rw [List.nil_append, List.cons_append] at h
      exact absurd (hs x (by simp [← h])) fun hx => hxs (hx ▸ List.mem_cons_self)
    | cons y ys =>
      rw [List.cons_append, List.cons_append, List.cons.injEq] at h
      obtain ⟨rfl, h⟩ := h
      obtain ⟨rfl, hrest⟩ := ih (fun hmem => hxs (List.mem_cons_of_mem _ hmem)) (fun hmem => hys (List.mem_cons_of_mem _ hmem)) h
      exact ⟨rfl, hrest⟩

/-- Groups, each with a separator behind it. -/
def terminated (sep : α) (groups : List (List α)) : List α := groups.flatMap fun g => g ++ [sep]

theorem terminated_injective {sep : α} {gs hs : List (List α)} (hgs : ∀ g ∈ gs, sep ∉ g) (hhs : ∀ g ∈ hs, sep ∉ g)
    (h : terminated sep gs = terminated sep hs) : gs = hs := by
  induction gs generalizing hs with
  | nil =>
    cases hs with
    | nil => rfl
    | cons g hs => simp [terminated] at h
  | cons g gs ih =>
    cases hs with
    | nil => simp [terminated] at h
    | cons g' hs =>
      rw [List.forall_mem_cons] at hgs hhs
      rw [terminated, terminated, List.flatMap_cons, List.flatMap_cons, List.append_assoc, List.append_assoc] at h
      obtain ⟨rfl, hrest⟩ := cut_injective hgs.1 hhs.1 (by simp) (by simp) h
      rw [ih hgs.2 hhs.2 (List.append_cancel_left hrest)]

namespace LengthCode

variable (C : LengthCode α)

/-- The parts, each behind the word for its length. -/
def frames (parts : List (List α)) : List α := parts.flatMap fun p => C.word p.length ++ p

/-- The lengths of the parts have words of their own. -/
def Fits (parts : List (List α)) : Prop := ∀ p ∈ parts, p.length < C.bound

variable {C}

theorem frames_cons_ne_nil (p : List α) (ps : List (List α)) : C.frames (p :: ps) ≠ [] := by
  intro h
  have hlen := congrArg List.length h
  rw [frames, List.flatMap_cons, List.length_append, List.length_append, C.length_word, List.length_nil] at hlen
  omega

/-- The stream determines its parts. -/
theorem frames_injective {ps qs : List (List α)} (hps : C.Fits ps) (hqs : C.Fits qs) (h : C.frames ps = C.frames qs) :
    ps = qs := by
  induction ps generalizing qs with
  | nil =>
    cases qs with
    | nil => rfl
    | cons q qs => exact absurd h.symm (frames_cons_ne_nil q qs)
  | cons p ps ih =>
    cases qs with
    | nil => exact absurd h (frames_cons_ne_nil p ps)
    | cons q qs =>
      rw [Fits, List.forall_mem_cons] at hps hqs
      rw [frames, frames, List.flatMap_cons, List.flatMap_cons, List.append_assoc, List.append_assoc] at h
      obtain ⟨hword, h⟩ := List.append_inj h ((C.length_word _).trans (C.length_word _).symm)
      have hlen : p.length = q.length := by
        apply C.word_injOn
        · exact hps.1
        · exact hqs.1
        · exact hword
      obtain ⟨rfl, hrest⟩ := List.append_inj h hlen
      rw [ih hps.2 hqs.2 hrest]

/-- With the same symbol at the start of every word, what stands in front without the symbol is determined as well. -/
theorem headed_injective {mark : α} {head head' : List α} {ps qs : List (List α)} (hhead : mark ∉ head)
    (hhead' : mark ∉ head') (hps : C.Fits ps) (hqs : C.Fits qs)
    (hmark : ∀ p ∈ ps ++ qs, (C.word p.length).head? = some mark) (h : head ++ C.frames ps = head' ++ C.frames qs) :
    head = head' ∧ ps = qs := by
  have hbegins : ∀ rs : List (List α), (∀ p ∈ rs, p ∈ ps ++ qs) → ∀ a ∈ (C.frames rs).head?, a = mark := by
    intro rs hrs a ha
    cases rs with
    | nil => cases ha
    | cons r rs =>
      have hword := hmark r (hrs r List.mem_cons_self)
      rw [frames, List.flatMap_cons, List.append_assoc, List.head?_append, hword] at ha
      exact (Option.some.inj ha).symm
  obtain ⟨hheads, hframes⟩ := cut_injective hhead hhead' (hbegins ps fun p hp => List.mem_append_left _ hp)
    (hbegins qs fun p hp => List.mem_append_right _ hp) h
  exact ⟨hheads, frames_injective hps hqs hframes⟩

end LengthCode

end TenantRag

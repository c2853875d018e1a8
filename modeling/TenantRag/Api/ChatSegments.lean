import TenantRag.Api.ChatRuns

/-!
# The chats of one user: no orphaned segments

A conversation leaves its session only with the commit of a deletion. By then
nothing of it is stored and no task that stores any of it is pending; and nothing
brings it back, since its request answered already.

## What is proved

* `Retired.step` — a conversation that left its session stays outside of all sessions.
* `no_orphaned_segments` — in every run in which no id is drawn twice: a session is
  only removed by a commit, after which nothing of a question answered in it is
  stored or will be; and a conversation is recorded in the step that enqueues its
  persistence.
-/

namespace TenantRag

namespace ChatSystem

variable {F : Type} [PyFloat F] {S : RegistrySettings} {user : Text} {s s' : ChatSystem F} {C T : List Uuid} {c : Uuid}
  {key : SessionKey}

/-- The conversation's request answered, and the conversation belongs to no session. -/
def Retired (s : ChatSystem F) (c : Uuid) : Prop :=
  (∃ st ∈ s.streams, st.request.conversationId = c ∧ unanswered st.phase = false) ∧ ¬ InSession s.world.registry c

/-- Nothing of the conversation is stored, and no pending task stores any of it. -/
def Forgotten (user : Text) (s : ChatSystem F) (c : Uuid) : Prop :=
  (∀ g ∈ s.segments, g.conversationId ≠ c) ∧ c ∉ (s.pending user).filterMap persists

section Frames

omit [PyFloat F]

/-- Requests of the same conversation are the same. -/
theorem Invariant.request_unique (h : Invariant S user s C T) (hC : C.Nodup) {st st' : StreamState F}
    (hst : st ∈ s.streams) (hst' : st' ∈ s.streams) (hc : st.request.conversationId = st'.request.conversationId) :
    st = st' := by
  obtain ⟨i, hi⟩ := List.mem_iff_getElem?.mp hst
  obtain ⟨j, hj⟩ := List.mem_iff_getElem?.mp hst'
  obtain rfl := h.stream_unique hC hi hj hc
  exact Option.some.inj (hi.symm.trans hj)

theorem Retired.step (h : Invariant S user s C T) (hC : C.Nodup) (he : Evolves S s s') (hr : Retired s c) :
    Retired s' c := by
  obtain ⟨⟨st, hst, hc, ha⟩, hnot⟩ := hr
  obtain ⟨st', hst', hreq, ha'⟩ := he.requests st hst
  refine ⟨⟨st', hst', by rw [hreq, hc], ha' ha⟩, ?_⟩
  rintro ⟨k, hk⟩
  rcases he.recorded k c hk with hold | ⟨st₂, h₂, hc₂, hp⟩
  · exact hnot ⟨k, hold⟩
  · obtain rfl := h.request_unique hC hst h₂ (hc.trans hc₂.symm)
    rw [ha] at hp
    cases hp

/-- A recorded conversation stays recorded or is retired. -/
theorem Recorded.step (h : Invariant S user s C T) (hC : C.Nodup) (he : Evolves S s s')
    (hr : Recorded s.world.registry key c) : Recorded s'.world.registry key c ∨ Retired s' c := by
  obtain ⟨cs, hcs, hmem⟩ := hr
  rcases he.removed key cs hcs with ⟨more, hmore⟩ | ⟨hgone, -⟩
  · exact .inl ⟨_, hmore, List.mem_append_left _ hmem⟩
  · obtain ⟨st, hst, hc, hk, ha⟩ := h.origin key c ⟨cs, hcs, hmem⟩
    obtain ⟨st', hst', hreq, ha'⟩ := he.requests st hst
    refine .inr ⟨⟨st', hst', by rw [hreq, hc], ha' ha⟩, ?_⟩
    rintro ⟨k, hk'⟩
    rcases he.recorded k c hk' with hold | ⟨st₂, h₂, hc₂, hp⟩
    · -- the conversation is in no other session
      obtain ⟨st₂, h₂, hc₂, hk₂, -⟩ := h.origin k c hold
      obtain rfl := h.request_unique hC hst h₂ (hc.trans hc₂.symm)
      obtain rfl : key = k := Except.ok.inj (hk.symm.trans hk₂)
      obtain ⟨ds, hds, -⟩ := hk'
      rw [hgone] at hds
      cases hds
    · obtain rfl := h.request_unique hC hst h₂ (hc.trans hc₂.symm)
      rw [ha] at hp
      cases hp

theorem Retired.forgotten (h : Invariant S user s C T) (hr : Retired s c) : Forgotten user s c := by
  refine ⟨fun g hg heq => hr.2 (heq ▸ h.stored g hg), fun hmem => hr.2 (h.embedded c hmem)⟩

end Frames

/-- What every step keeps, in a system that satisfies the invariant, a whole run keeps. -/
theorem Invariant.along {P : ChatSystem F → Prop}
    (hstep : ∀ C T s s', Invariant S user s C T → C.Nodup → Evolves S s s' → P s → P s')
    (h : Invariant S user s C T) {as : List (Action F)} {frames : List (ℕ × SseEvent F)}
    (hrun : (machine S user).run s as = some (s', frames)) (hC : (C ++ drawnConversations as).Nodup)
    (hT : (T ++ drawnTasks as).Nodup) (hP : P s) : P s' := by
  refine (machine S user).run_induction (I := fun as _ t => (C ++ drawnConversations as).Nodup →
    (T ++ drawnTasks as).Nodup → P t) (fun _ _ => hP) ?_ hrun hC hT
  intro as frames t a u fs hr ih hs hC hT
  rw [drawnConversations_append, ← List.append_assoc] at hC
  rw [drawnTasks_append, ← List.append_assoc] at hT
  have hC' := (List.nodup_append.mp hC).1
  have hT' := (List.nodup_append.mp hT).1
  have hinv := h.run hr hC' hT'
  exact hstep _ _ t u hinv hC' (hinv.step hs hC hT).2 (ih hC' hT')

/-- The question with this conversation was answered in the session in the course of the run. -/
def AnsweredIn (S : RegistrySettings) (user : Text) (s : ChatSystem F) (as : List (Action F)) (key : SessionKey)
    (c : Uuid) : Prop :=
  ∃ bs, bs <+: as ∧ ∃ t frames, (machine S user).run s bs = some (t, frames) ∧ Recorded t.world.registry key c

/-- **No orphaned segments**: wherever a session disappears in a run, a commit removed it, and
from then on nothing of a question answered in it is stored or will be stored; and every
conversation whose persistence is accepted is recorded in its session in the same step. -/
theorem no_orphaned_segments {m : ℕ} {hm : 0 < m} {before after : List (Action F)} {a : Action F}
    {s₁ s₂ : ChatSystem F} {f₁ f₂ f : List (ℕ × SseEvent F)}
    (hC : (drawnConversations (before ++ a :: after)).Nodup) (hT : (drawnTasks (before ++ a :: after)).Nodup)
    (hbefore : (machine S user).run (start m hm) before = some (s₁, f₁))
    (hstep : (machine S user).step s₁ a = some (s₂, f₂)) (hafter : (machine S user).run s₂ after = some (s, f)) :
    (∀ key, s₁.world.registry.Exists key → ¬ s₂.world.registry.Exists key →
      (∃ u sid ids, ChatRegistry.sessionKey S u sid = .ok key ∧
        ChatRegistry.commitSessionDeletion S u sid s₁.world.registry = .ok ids s₂.world.registry) ∧
      ∀ c, AnsweredIn S user (start m hm) before key c → Forgotten user s c) ∧
    ∀ id r c, s₁.world.queue.records.get? id = none → s₂.world.queue.records.get? id = some r →
      persists r.workFactory = some c → ∃ st ∈ s₂.streams, st.request.conversationId = c ∧
        ∃ key, ChatRegistry.sessionKey S st.request.userId st.request.sessionId = .ok key ∧
          Recorded s₂.world.registry key c := by
  rw [show before ++ a :: after = (before ++ [a]) ++ after by simp, drawnConversations_append,
    drawnConversations_append] at hC
  rw [show before ++ a :: after = (before ++ [a]) ++ after by simp, drawnTasks_append, drawnTasks_append] at hT
  have hC₂ := (List.nodup_append.mp hC).1
  have hT₂ := (List.nodup_append.mp hT).1
  have hC₁ := (List.nodup_append.mp hC₂).1
  have hT₁ := (List.nodup_append.mp hT₂).1
  have hinv₁ : Invariant S user s₁ (drawnConversations before) (drawnTasks before) :=
    (Invariant.start m hm).run hbefore hC₁ hT₁
  obtain ⟨hinv₂, he⟩ := hinv₁.step hstep hC₂ hT₂
  refine ⟨fun key hex hgone => ⟨?_, fun c hc => ?_⟩, he.accepted⟩
  · obtain ⟨cs, hcs⟩ := hex
    rcases he.removed key cs hcs with ⟨more, hmore⟩ | ⟨-, u, sid, hk, hcommit⟩
    · exact absurd ⟨_, hmore⟩ hgone
    · exact ⟨u, sid, cs, hk, hcommit⟩
  · -- up to the commit the conversation is recorded or retired, after it retired
    obtain ⟨bs, ⟨cs, rfl⟩, t, fs, hbs, hrec⟩ := hc
    obtain ⟨t', _, _, hbs', hcs, -⟩ := (Machine.run_append_iff _).mp hbefore
    rw [hbs, Option.some.injEq, Prod.mk.injEq] at hbs'
    obtain ⟨rfl, -⟩ := hbs'
    rw [drawnConversations_append] at hC₁
    rw [drawnTasks_append] at hT₁
    have hinv : Invariant S user t (drawnConversations bs) (drawnTasks bs) :=
      (Invariant.start m hm).run hbs (List.nodup_append.mp hC₁).1 (List.nodup_append.mp hT₁).1
    have hone : ∀ C T (s s' : ChatSystem F), Invariant S user s C T → C.Nodup → Evolves S s s' →
        Recorded s.world.registry key c ∨ Retired s c → Recorded s'.world.registry key c ∨ Retired s' c :=
      fun C T s s' hinv hC he hor => hor.elim (fun h => h.step hinv hC he) fun h => .inr (h.step hinv hC he)
    have h₁ := hinv.along hone hcs hC₁ hT₁ (.inl hrec)
    have h₂ : Retired s₂ c := by
      rcases hone _ _ _ _ hinv₁ (List.nodup_append.mp hC₂).1 he h₁ with ⟨ds, hds, -⟩ | hret
      · exact absurd ⟨ds, hds⟩ hgone
      · exact hret
    exact (hinv₂.along (P := fun t => Retired t c) (fun _ _ _ _ hi hC he hr => Retired.step hi hC he hr) hafter hC hT h₂).forgotten
      (hinv₂.run hafter hC hT)

/-- A session gets a question, whose conversation is stored, and is deleted; these are the
steps before the commit. -/
def deletedChatActions : List (Action WholeFloat) :=
  let u := text ['a']
  let sid := (Uuid.ofNat 1).str
  let r : ChatRequest := ⟨u, sid, text ['q'], text ['r'], Uuid.ofNat 2⟩
  let stages : List (Action WholeFloat) := List.replicate 6 (.stream 0 .stageDone)
  [.manage (.createSession u sid), .query r, .stream 0 .prepared, .stream 0 .start] ++ stages ++
    [.stream 0 (.chunk (text ['w']) ⟨3⟩), .stream 0 .next,
      .stream 0 (.exhausted ⟨⟨4⟩, ⟨7⟩, Uuid.ofNat 3, Uuid.ofNat 4, 0⟩), .stream 0 .next, .stream 0 .next,
      .workerGet 0 1, .work 0 (.insert 0), .work 0 (.insert 1), .delete sid, .work 0 (.finish .exception [] 2),
      .deletion 0 (.ensured (Uuid.ofNat 5) 2), .workerGet 0 3, .work 0 (.finish .success (text ['t']) 4),
      .workerGet 0 5, .work 0 (.remove ⟨Uuid.ofNat 2, 1⟩), .work 0 (.remove ⟨Uuid.ofNat 2, 0⟩), .work 0 .confirm]

theorem no_orphaned_segments_deleted_chat :
    ∃ (s₁ s₂ : ChatSystem WholeFloat) (f₁ f₂ : List (ℕ × SseEvent WholeFloat)),
      (machine ⟨.any, fun _ => true⟩ (text ['a'])).run (start 1 (by decide)) deletedChatActions = some (s₁, f₁) ∧
        (machine ⟨.any, fun _ => true⟩ (text ['a'])).step s₁ (.work 0 (.finish .success [] 6)) = some (s₂, f₂) ∧
          (s₁.world.registry.conversations (text ['a'], (Uuid.ofNat 1).str) = some [Uuid.ofNat 2] ∧
            s₂.world.registry.conversations (text ['a'], (Uuid.ofNat 1).str) = none) ∧
          ∀ c, AnsweredIn ⟨.any, fun _ => true⟩ (text ['a']) (start 1 (by decide)) deletedChatActions
            (text ['a'], (Uuid.ofNat 1).str) c → Forgotten (text ['a']) s₂ c := by
  obtain ⟨⟨s₁, f₁⟩, hrun⟩ := Option.isSome_iff_exists.mp
    (show ((machine ⟨.any, fun _ => true⟩ (text ['a'])).run (start 1 (by decide))
      deletedChatActions).isSome = true by decide +kernel)
  have hnext : (((machine ⟨.any, fun _ => true⟩ (text ['a'])).run (start 1 (by decide))
      deletedChatActions).bind fun p =>
        ((machine ⟨.any, fun _ => true⟩ (text ['a'])).step p.1 (.work 0 (.finish .success [] 6))).map fun q =>
          (p.1.world.registry.conversations (text ['a'], (Uuid.ofNat 1).str),
            q.1.world.registry.conversations (text ['a'], (Uuid.ofNat 1).str))) =
      some (some [Uuid.ofNat 2], none) := by decide +kernel
  rw [hrun, Option.bind_some, Option.map_eq_some_iff] at hnext
  obtain ⟨⟨s₂, f₂⟩, hstep, heq⟩ := hnext
  rw [Prod.mk.injEq] at heq
  have hafter : (machine ⟨.any, fun _ => true⟩ (text ['a'])).run s₂ [] = some (s₂, []) := rfl
  have hall := no_orphaned_segments (by decide +kernel) (by decide +kernel) hrun hstep hafter
  exact ⟨s₁, s₂, f₁, f₂, hrun, hstep, heq, (hall.1 _ ⟨_, heq.1⟩ (by simp [ChatRegistry.Exists, heq.2])).2⟩

end ChatSystem

end TenantRag

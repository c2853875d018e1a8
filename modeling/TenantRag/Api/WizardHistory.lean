import TenantRag.Api.Wizards

/-!
# The endpoints of the wizards: what a run has done

What the endpoints, the queue and its workers keep of each other, over any run in which no id is drawn twice
for a task.

## What is proved

* `step_stepped` — all that a step can do to the queue and the maps.
* `History.step` — a step keeps that each task has its work, that a record says how the call of its task
  ended, and that the calls of a user come in the order in which its tasks end.
* `history_run` — and so does a run.
-/

namespace TenantRag

namespace WizardSystem

open InMemoryTaskQueue (acceptedIds acceptedPairs finishedPairs ofUser)

variable {K : Type}

/-! ### What is observed -/

/-- What the queue shows. -/
def taskEvents (evs : List (Event K)) : List TaskEvent :=
  evs.filterMap fun
    | .queue e => some e
    | _ => none

/-- The accepted tasks with their work, in order. -/
def submissions (evs : List (Event K)) : List (Uuid × QueuedWork) :=
  evs.filterMap fun
    | .submitted id work => some (id, work)
    | _ => none

/-- The calls that ended, in order. -/
def calls (evs : List (Event K)) : List (Call K) :=
  evs.filterMap fun
    | .called call => some call
    | _ => none

@[simp] theorem taskEvents_append (evs evs' : List (Event K)) : taskEvents (evs ++ evs') = taskEvents evs ++ taskEvents evs' :=
  List.filterMap_append

@[simp] theorem submissions_append (evs evs' : List (Event K)) :
    submissions (evs ++ evs') = submissions evs ++ submissions evs' := List.filterMap_append

@[simp] theorem calls_append (evs evs' : List (Event K)) : calls (evs ++ evs') = calls evs ++ calls evs' :=
  List.filterMap_append

/-- The request is answered, and nothing else. -/
def Answers (evs : List (Event K)) : Prop := ∀ e ∈ evs, ∃ result, e = .answered result

theorem Answers.silent {evs : List (Event K)} (h : Answers evs) : taskEvents evs = [] ∧ submissions evs = [] ∧ calls evs = [] := by
  refine ⟨List.filterMap_eq_nil_iff.mpr ?_, List.filterMap_eq_nil_iff.mpr ?_, List.filterMap_eq_nil_iff.mpr ?_⟩ <;>
  · intro e he
    obtain ⟨result, rfl⟩ := h e he
    rfl

theorem answers_one (result : Except UploadError Answer) : Answers [(.answered result : Event K)] := by
  intro e he
  exact ⟨result, List.mem_singleton.mp he⟩

theorem queue_events (tevs : List TaskEvent) :
    taskEvents (tevs.map (Event.queue (K := K))) = tevs ∧ submissions (tevs.map (Event.queue (K := K))) = [] ∧
      calls (tevs.map (Event.queue (K := K))) = [] := by
  refine ⟨?_, List.filterMap_eq_nil_iff.mpr ?_, List.filterMap_eq_nil_iff.mpr ?_⟩
  · induction tevs with
    | nil => rfl
    | cons e tevs ih => exact congrArg (e :: ·) ih
  all_goals
    intro e he
    obtain ⟨t, -, rfl⟩ := List.mem_map.mp he
    rfl

/-! ### What a step does -/

variable [DecidableEq K] {S : WizardSettings} {s s' : WizardSystem K}

/-- The call, in the world `w`, has this result, and leaves `w'` behind. -/
def Ends (r : Save.Request K) (w : Save.World K) (result : Except Bool (Option Text)) (w' : Save.World K) : Prop :=
  r.run w =
    match result with
    | .ok answer => .ok answer w'
    | .error unresolved => .error unresolved w'

/-- What a step does to the queue and the maps, and what is observed. -/
inductive Stepped (S : WizardSettings) (s s' : WizardSystem K) : Action K → List (Event K) → Prop where
  /-- A request is answered, or waits. -/
  | answered {a : Action K} {evs : List (Event K)} (queue : s'.queue = s.queue) (worlds : s'.worlds = s.worlds)
      (answers : Answers evs) : Stepped S s s' a evs
  /-- A wizard is created, or not. -/
  | created {rt : Save.Runtime K} {userId : Text} {c : WizardCollectionType} (scope : WizardScope)
      (result : Except Bool (Option Text)) (w : Save.World K) (answer : Except UploadError Answer)
      (ends : Ends (.create rt) (s.worlds scope) result w) (state : s' = s.setWorld scope w) :
      Stepped S s s' (.create rt userId c) [.called ⟨none, scope, .create rt, result⟩, .answered answer]
  /-- Work is accepted. -/
  | accepted {a : Action K} (answer : List (Event K)) (user operation : Text) (work : QueuedWork) (id : Uuid) (now : ℕ)
      (drawn : drawnTasks [a] = [id]) (enqueued : s.queue.enqueue S.userIdPattern user operation work id now = .ok s'.queue)
      (worlds : s'.worlds = s.worlds) (owner : ∀ job, work = .wizard job → job.scope.1 = user) (answers : Answers answer) :
      Stepped S s s' a ([.queue (.accepted user id), .submitted id work] ++ answer)
  /-- A worker starts its next item, or the queue is being closed. -/
  | moved {a : Action K} (qa : InMemoryTaskQueue.Action QueuedWork) (tevs : List TaskEvent)
      (step : (InMemoryTaskQueue.machine QueuedWork S.userIdPattern).step s.queue qa = some (s'.queue, tevs))
      (accepts : ∀ user operation work id now, qa ≠ .enqueue user operation work id now) (accepted : acceptedPairs tevs = [])
      (finished : finishedPairs tevs = []) (worlds : s'.worlds = s.worlds) :
      Stepped S s s' a (tevs.map .queue)
  /-- A worker did its work. -/
  | worked {a : Action K} (i now : ℕ) (rt : Save.Runtime K) (u : Text) (id : Uuid) (job : WizardJob) (outcome : WorkOutcome)
      (result : Except Bool (Option Text)) (w : Save.World K) (work : s.queue.workOf id = some (.wizard job))
      (finished : s.queue.workerFinish i outcome now = some (s'.queue, [.finished u id outcome]))
      (ends : Ends (job.request rt) (s.worlds job.scope) result w) (success : outcome = .success ↔ ∃ answer, result = .ok answer)
      (worlds : s'.worlds = Function.update s.worlds job.scope w) :
      Stepped S s s' a [.queue (.finished u id outcome), .called ⟨some id, job.scope, job.request rt, result⟩]
  /-- The work of another endpoint ended. -/
  | ended {a : Action K} (i now : ℕ) (u : Text) (id : Uuid) (outcome : WorkOutcome) (work : s.queue.workOf id = some .other)
      (finished : s.queue.workerFinish i outcome now = some (s'.queue, [.finished u id outcome])) (worlds : s'.worlds = s.worlds) :
      Stepped S s s' a [.queue (.finished u id outcome)]

omit [DecidableEq K] in
theorem workAt_eq_some {i : ℕ} {id : Uuid} {work : QueuedWork} (h : s.workAt i = some (id, work)) :
    ∃ u, s.queue.tasks[i]? = some ⟨u, .busy id⟩ ∧ s.queue.workOf id = some work := by
  unfold workAt at h
  split at h
  · rename_i u id' hi
    obtain ⟨work', hwork, heq⟩ := Option.map_eq_some_iff.mp h
    obtain ⟨rfl, rfl⟩ := Prod.mk.inj heq
    exact ⟨u, hi, hwork⟩
  · cases h

omit [DecidableEq K] in
/-- The end of the work that a worker is busy with. -/
theorem finish_cases {t : WizardSystem K} {i now : ℕ} {outcome : WorkOutcome} {events evs : List (Event K)} {u : Text} {id : Uuid}
    (hi : t.queue.tasks[i]? = some ⟨u, .busy id⟩) (h : t.finish i outcome now events = some (s', evs)) :
    t.queue.workerFinish i outcome now = some (s'.queue, [.finished u id outcome]) ∧ s'.worlds = t.worlds ∧
      evs = [.queue (.finished u id outcome)] ++ events := by
  obtain ⟨⟨q, tevs⟩, hq, heq⟩ := Option.map_eq_some_iff.mp h
  obtain ⟨rfl, rfl⟩ := Prod.mk.inj heq
  have htevs : tevs = [.finished u id outcome] := by
    simp only [InMemoryTaskQueue.workerFinish, hi, Option.some.injEq, Prod.mk.injEq] at hq
    exact hq.2.symm
  subst htevs
  exact ⟨hq, rfl, rfl⟩

theorem run_create_ok {rt : Save.Runtime K} {w w' : Save.World K} {wizardId : Text} (h : Save.createWizard rt w = .ok wizardId w') :
    Ends (.create rt) w (.ok (some wizardId)) w' := by
  simp only [Ends, Save.Request.run, Functor.map, EStateM.map, Eff.mapError, h]

theorem run_create_error {rt : Save.Runtime K} {w w' : Save.World K} {e : Save.CreateError}
    (h : Save.createWizard rt w = .error e w') : Ends (.create rt) w (.error e.unresolved) w' := by
  simp only [Ends, Save.Request.run, Functor.map, EStateM.map, Eff.mapError, h]

/-- All that a step can do. -/
theorem step_stepped {a : Action K} {evs : List (Event K)} (hs : (machine S).step s a = some (s', evs)) :
    Stepped S s s' a evs := by
  change step S s a = some (s', evs) at hs
  cases a with
  | create rt userId c =>
    simp only [step, create, Option.some.injEq] at hs
    split at hs
    · cases hs
      exact .answered rfl rfl (answers_one _)
    · rename_i user huser
      cases hrun : Save.createWizard rt (s.worlds (user, c)) with
      | ok wizardId w =>
        rw [hrun] at hs
        cases hs
        exact .created (user, c) (.ok (some wizardId)) w _ (run_create_ok hrun) rfl
      | error e w =>
        rw [hrun] at hs
        cases hs
        exact .created (user, c) (.error e.unresolved) w _ (run_create_error hrun) rfl
  | listWizards userId c =>
    cases hs
    exact .answered rfl rfl (answers_one _)
  | getWizard userId c wizardId =>
    cases hs
    exact .answered rfl rfl (answers_one _)
  | getTask taskId userId =>
    cases hs
    exact .answered rfl rfl (answers_one _)
  | lookup job =>
    simp only [step] at hs
    split at hs
    · cases hs
      exact .answered rfl rfl (answers_one _)
    · cases hs
      exact .answered rfl rfl fun e he => absurd he List.not_mem_nil
  | ensured i taskId now =>
    simp only [step] at hs
    split at hs
    case h_2 => cases hs
    case h_1 job hi =>
      simp only [enqueueJob, Option.some.injEq] at hs
      split at hs
      · cases hs
        exact .answered rfl rfl (answers_one _)
      case h_2 q hq =>
        cases hs
        exact .accepted _ job.scope.1 job.operation (.wizard job) taskId now rfl hq rfl
          (fun job' heq => by cases heq; rfl) (answers_one _)
  | unavailable i =>
    simp only [step] at hs
    split at hs
    · cases hs
      exact .answered rfl rfl (answers_one _)
    · cases hs
  | enqueueOther userId operation taskId now =>
    simp only [step, enqueueOther, Option.some.injEq] at hs
    split at hs
    · cases hs
      exact .answered rfl rfl (answers_one _)
    case h_2 q hq =>
      cases hs
      exact .accepted [] userId operation .other taskId now rfl hq rfl (fun job heq => by cases heq)
        fun e he => absurd he List.not_mem_nil
  | workerGet i now =>
    obtain ⟨⟨q, tevs⟩, hq, heq⟩ := Option.map_eq_some_iff.mp hs
    obtain ⟨rfl, rfl⟩ := Prod.mk.inj heq
    have hnone : acceptedPairs tevs = [] ∧ finishedPairs tevs = [] := by
      obtain ⟨v, item, items, n, -, -, ⟨-, rfl, -⟩ | ⟨id, -, -, rfl, -⟩ | ⟨id, r, -, -, rfl, -⟩⟩ :=
        InMemoryTaskQueue.workerGet_cases hq
      all_goals exact ⟨rfl, rfl⟩
    exact .moved (.workerGet i now) tevs hq (by simp) hnone.1 hnone.2 rfl
  | work i rt now =>
    change s.work i rt now = some (s', evs) at hs
    unfold work at hs
    split at hs
    case h_2 => cases hs
    case h_1 id job hwork =>
      obtain ⟨u, hi, hof⟩ := workAt_eq_some hwork
      split at hs
      case h_1 answer w hrun =>
        obtain ⟨hfinish, hworlds, rfl⟩ := finish_cases (t := s.setWorld job.scope w) hi hs
        exact .worked i now rt u id job .success (.ok answer) w hof hfinish hrun ⟨fun _ => ⟨answer, rfl⟩, fun _ => rfl⟩ hworlds
      case h_2 unresolved w hrun =>
        obtain ⟨hfinish, hworlds, rfl⟩ := finish_cases (t := s.setWorld job.scope w) hi hs
        exact .worked i now rt u id job .exception (.error unresolved) w hof hfinish hrun
          ⟨(fun h => by cases h), fun h => by cases h.choose_spec⟩ hworlds
  | workOther i outcome now =>
    change s.workOther i outcome now = some (s', evs) at hs
    unfold workOther at hs
    split at hs
    case h_2 => cases hs
    case h_1 id hwork =>
      obtain ⟨u, hi, hof⟩ := workAt_eq_some hwork
      obtain ⟨hfinish, hworlds, rfl⟩ := finish_cases hi hs
      exact .ended i now u id outcome hof hfinish hworlds
  | closeBegin =>
    cases hs
    exact .moved .closeBegin [] rfl (by simp) rfl rfl rfl
  | closeJoined c userId =>
    obtain ⟨q, hq, heq⟩ := Option.map_eq_some_iff.mp hs
    obtain ⟨rfl, rfl⟩ := Prod.mk.inj heq
    exact .moved (.closeJoined c userId) [] (Option.map_eq_some_iff.mpr ⟨q, hq, rfl⟩) (by simp) rfl rfl rfl
  | closeStop c =>
    obtain ⟨q, hq, heq⟩ := Option.map_eq_some_iff.mp hs
    obtain ⟨rfl, rfl⟩ := Prod.mk.inj heq
    exact .moved (.closeStop c) [] (Option.map_eq_some_iff.mpr ⟨q, hq, rfl⟩) (by simp) rfl rfl rfl
  | closeEnd c =>
    obtain ⟨q, hq, heq⟩ := Option.map_eq_some_iff.mp hs
    obtain ⟨rfl, rfl⟩ := Prod.mk.inj heq
    exact .moved (.closeEnd c) [] (Option.map_eq_some_iff.mpr ⟨q, hq, rfl⟩) (by simp) rfl rfl rfl

/-! ### What holds of a history -/

/-- The ids of the tasks of a user that ended a call, in order. -/
def callIds (u : Text) (evs : List (Event K)) : List Uuid :=
  (calls evs).filterMap fun call => if call.scope.1 = u then call.taskId else none

omit [DecidableEq K] in
@[simp] theorem callIds_append (u : Text) (evs evs' : List (Event K)) : callIds u (evs ++ evs') = callIds u evs ++ callIds u evs' := by
  rw [callIds, calls_append, List.filterMap_append, callIds, callIds]

omit [DecidableEq K] in
theorem callIds_of_calls {u : Text} {evs : List (Event K)} (h : calls evs = []) : callIds u evs = [] := by
  rw [callIds, h, List.filterMap_nil]

/-- The record of a task is that of its submission, and where it says how the task ended, its call ended so. -/
structure Recorded (evs : List (Event K)) (id : Uuid) (r : TaskRecord QueuedWork) : Prop where
  /-- Its work was submitted. -/
  submitted : (id, r.workFactory) ∈ submissions evs
  /-- The user of a wizard is the user of the task. -/
  owner : ∀ job, r.workFactory = .wizard job → job.scope.1 = r.userId
  /-- A task that succeeded is one whose call returned. -/
  succeeded : ∀ job, r.workFactory = .wizard job → r.status = .succeeded →
    ∃ rt answer, (⟨some id, job.scope, job.request rt, .ok answer⟩ : Call K) ∈ calls evs
  /-- A task that failed is one whose call raised. -/
  failed : ∀ job, r.workFactory = .wizard job → r.status = .failed →
    ∃ rt unresolved, (⟨some id, job.scope, job.request rt, .error unresolved⟩ : Call K) ∈ calls evs

omit [DecidableEq K] in
theorem Recorded.later {evs ev : List (Event K)} {id : Uuid} {before r : TaskRecord QueuedWork} (h : Recorded evs id before)
    (hwork : r.workFactory = before.workFactory) (huser : r.userId = before.userId)
    (hstatus : r.status = before.status ∨ r.status = .running) : Recorded (evs ++ ev) id r := by
  have hended : ∀ status : TaskStatus, status ≠ .running → r.status = status → before.status = status := by
    intro status hne heq
    rcases hstatus with hstatus | hstatus
    · exact hstatus.symm.trans heq
    · exact absurd (heq.symm.trans hstatus) hne
  refine ⟨?_, fun job hjob => ?_, fun job hjob hs => ?_, fun job hjob hs => ?_⟩
  · rw [submissions_append, hwork]
    exact List.mem_append_left _ h.submitted
  · rw [huser]
    exact h.owner job (hwork ▸ hjob)
  · obtain ⟨rt, answer, hmem⟩ := h.succeeded job (hwork ▸ hjob) (hended _ (by decide) hs)
    exact ⟨rt, answer, by rw [calls_append]; exact List.mem_append_left _ hmem⟩
  · obtain ⟨rt, unresolved, hmem⟩ := h.failed job (hwork ▸ hjob) (hended _ (by decide) hs)
    exact ⟨rt, unresolved, by rw [calls_append]; exact List.mem_append_left _ hmem⟩

/-- The call is that of the work that was submitted for its task, or it creates a wizard. -/
def Made (evs : List (Event K)) (call : Call K) : Prop :=
  match call.taskId with
  | none => ∃ rt, call.request = .create rt
  | some id => ∃ rt job, (id, QueuedWork.wizard job) ∈ submissions evs ∧ call.scope = job.scope ∧ call.request = job.request rt

omit [DecidableEq K] in
theorem Made.later {evs ev : List (Event K)} {call : Call K} (h : Made evs call) : Made (evs ++ ev) call := by
  unfold Made at h ⊢
  split at h
  · exact h
  · obtain ⟨rt, job, hmem, hrest⟩ := h
    exact ⟨rt, job, by rw [submissions_append]; exact List.mem_append_left _ hmem, hrest⟩

/-- What holds of the queue and what was observed, where the given ids were drawn for tasks. -/
structure History (s : WizardSystem K) (evs : List (Event K)) (drawn : List Uuid) : Prop where
  /-- The queue keeps its order. -/
  queue : s.queue.Invariant (taskEvents evs)
  /-- Each accepted task has its submission. -/
  submitted : (submissions evs).map Prod.fst = acceptedIds (taskEvents evs)
  /-- The ids of the accepted tasks were drawn. -/
  drawn : (acceptedIds (taskEvents evs)).Sublist drawn
  /-- The records. -/
  records : ∀ id r, s.queue.records.get? id = some r → Recorded evs id r
  /-- A user's tasks make their calls in the order in which they end. -/
  order : ∀ u, (callIds u evs).Sublist (ofUser u (finishedPairs (taskEvents evs)))
  /-- Where calls come from. -/
  made : ∀ call ∈ calls evs, Made evs call

omit [DecidableEq K] in
theorem history_start (m : ℕ) (hm : 0 < m) : History (start m hm : WizardSystem K) [] [] := by
  have hnew : InMemoryTaskQueue.new (m : ℤ) = .ok (InMemoryTaskQueue.fresh m hm : InMemoryTaskQueue QueuedWork) := by
    have hpos : m ≠ 0 := by omega
    simp [InMemoryTaskQueue.new, hpos]
  refine ⟨InMemoryTaskQueue.Invariant.new hnew, rfl, List.Sublist.refl _, fun id r hr => ?_, fun u => List.Sublist.refl _,
    fun call hcall => absurd hcall List.not_mem_nil⟩
  cases hr

omit [DecidableEq K] in
/-- The history with what a step adds to it. -/
theorem History.extend {evs ev : List (Event K)} {drawn new : List Uuid} (tevs : List TaskEvent)
    (subs : List (Uuid × QueuedWork)) (h : History s evs drawn) (htasks : taskEvents ev = tevs) (hsubs : submissions ev = subs)
    (hqueue : s'.queue.Invariant (taskEvents evs ++ tevs)) (hids : subs.map Prod.fst = acceptedIds tevs)
    (hnew : (acceptedIds tevs).Sublist new) (hrecords : ∀ id r, s'.queue.records.get? id = some r → Recorded (evs ++ ev) id r)
    (horder : ∀ u, (callIds u ev).Sublist (ofUser u (finishedPairs tevs)))
    (hmade : ∀ call ∈ calls ev, Made evs call) : History s' (evs ++ ev) (drawn ++ new) := by
  refine ⟨?_, ?_, ?_, hrecords, fun u => ?_, fun call hcall => ?_⟩
  · rw [taskEvents_append, htasks]
    exact hqueue
  · rw [submissions_append, hsubs, List.map_append, h.submitted, hids, taskEvents_append, htasks,
      InMemoryTaskQueue.acceptedIds_append]
  · rw [taskEvents_append, htasks, InMemoryTaskQueue.acceptedIds_append]
    exact h.drawn.append hnew
  · rw [callIds_append, taskEvents_append, htasks, InMemoryTaskQueue.finishedPairs_append, InMemoryTaskQueue.ofUser_append]
    exact (h.order u).append (horder u)
  · rw [calls_append, List.mem_append] at hcall
    exact (hcall.elim (h.made call) (hmade call)).later

section Kept

omit [DecidableEq K]

variable {evs ev : List (Event K)} {drawn : List Uuid}

theorem History.accepted_nodup {new : List Uuid} (h : History s evs drawn) (hn : (drawn ++ new).Nodup) :
    (acceptedIds (taskEvents evs)).Nodup := (List.nodup_append.mp hn).1.sublist h.drawn

/-- A step of the queue that accepts nothing keeps its order. -/
theorem History.quiet (h : History s evs drawn) (hn : (acceptedIds (taskEvents evs)).Nodup)
    {qa : InMemoryTaskQueue.Action QueuedWork} {tevs : List TaskEvent}
    (hstep : (InMemoryTaskQueue.machine QueuedWork S.userIdPattern).step s.queue qa = some (s'.queue, tevs))
    (haccepted : acceptedPairs tevs = []) : s'.queue.Invariant (taskEvents evs ++ tevs) := by
  refine h.queue.step hstep ?_
  rw [InMemoryTaskQueue.acceptedIds_append, acceptedIds, acceptedIds, haccepted, List.map_nil, List.append_nil]
  exact hn

theorem History.answered (h : History s evs drawn) (hqueue : s'.queue = s.queue) (answers : Answers ev) (new : List Uuid) :
    History s' (evs ++ ev) (drawn ++ new) := by
  obtain ⟨htask, hsub, hcalls⟩ := answers.silent
  refine h.extend [] [] htask hsub ?_ rfl (List.nil_sublist _) (fun id r hr => ?_) (fun u => ?_) fun call hcall => ?_
  · rw [hqueue, List.append_nil]
    exact h.queue
  · exact (h.records id r (hqueue ▸ hr)).later rfl rfl (.inl rfl)
  · rw [callIds_of_calls hcalls]
    exact List.nil_sublist _
  · rw [hcalls] at hcall
    cases hcall

theorem History.created (h : History s evs drawn) (hqueue : s'.queue = s.queue) (scope : WizardScope) (rt : Save.Runtime K)
    (result : Except Bool (Option Text)) (answer : Except UploadError Answer) (new : List Uuid) :
    History s' (evs ++ [.called ⟨none, scope, .create rt, result⟩, .answered answer]) (drawn ++ new) := by
  refine h.extend [] [] rfl rfl ?_ rfl (List.nil_sublist _) (fun id r hr => ?_) (fun u => ?_) fun call hcall => ?_
  · rw [hqueue, List.append_nil]
    exact h.queue
  · exact (h.records id r (hqueue ▸ hr)).later rfl rfl (.inl rfl)
  · simp [callIds, calls]
  · obtain rfl := List.mem_singleton.mp hcall
    exact ⟨rt, rfl⟩

theorem History.accepted {answer : List (Event K)} {user operation : Text} {work : QueuedWork} {id : Uuid} {now : ℕ}
    (h : History s evs drawn) (hn : (drawn ++ [id]).Nodup)
    (henqueue : s.queue.enqueue S.userIdPattern user operation work id now = .ok s'.queue)
    (howner : ∀ job, work = .wizard job → job.scope.1 = user) (answers : Answers answer) :
    History s' (evs ++ ([.queue (.accepted user id), .submitted id work] ++ answer)) (drawn ++ [id]) := by
  obtain ⟨htask, hsub, hcalls⟩ := answers.silent
  have hstep : (InMemoryTaskQueue.machine QueuedWork S.userIdPattern).step s.queue (.enqueue user operation work id now) =
      some (s'.queue, [.accepted user id]) := by
    simp only [InMemoryTaskQueue.machine, henqueue]
  have htasks : taskEvents ([.queue (.accepted user id), .submitted id work] ++ answer) = [.accepted user id] := by
    rw [taskEvents_append, htask]
    rfl
  have hsubs : submissions ([.queue (.accepted user id), .submitted id work] ++ answer) = [(id, work)] := by
    rw [submissions_append, hsub]
    rfl
  have hcalls : calls ([.queue (.accepted user id), .submitted id work] ++ answer) = [] := by
    rw [calls_append, hcalls]
    rfl
  have hone : acceptedIds [TaskEvent.accepted user id] = [id] := rfl
  refine h.extend _ _ htasks hsubs (h.queue.step hstep ?_) rfl (List.Sublist.refl _) (fun id' r hr => ?_) (fun u => ?_)
    fun call hcall => ?_
  · rw [InMemoryTaskQueue.acceptedIds_append, hone]
    exact hn.sublist (h.drawn.append (List.Sublist.refl _))
  · cases h.queue.record_cases hstep hr with
    | accepted user' op' now' henq huser hstatus =>
      cases henq
      refine ⟨?_, fun job hjob => huser ▸ howner job hjob, fun job _ hs => ?_, fun job _ hs => ?_⟩
      · rw [submissions_append, hsubs]
        exact List.mem_append_right _ List.mem_cons_self
      · rw [hstatus] at hs
        cases hs
      · rw [hstatus] at hs
        cases hs
    | kept before hfound hwork huser hstatus => exact (h.records _ _ hfound).later hwork huser hstatus
    | finished before user' outcome hfound hwork huser hended =>
      rw [List.mem_singleton] at hended
      cases hended
  · rw [callIds_of_calls hcalls]
    exact List.nil_sublist _
  · rw [hcalls] at hcall
    cases hcall

theorem History.moved {qa : InMemoryTaskQueue.Action QueuedWork} {tevs : List TaskEvent} (h : History s evs drawn)
    (hn : (acceptedIds (taskEvents evs)).Nodup)
    (hstep : (InMemoryTaskQueue.machine QueuedWork S.userIdPattern).step s.queue qa = some (s'.queue, tevs))
    (haccepts : ∀ user operation work id now, qa ≠ .enqueue user operation work id now)
    (haccepted : acceptedPairs tevs = []) (hfinished : finishedPairs tevs = []) (new : List Uuid) :
    History s' (evs ++ tevs.map .queue) (drawn ++ new) := by
  obtain ⟨htask, hsub, hcalls⟩ := queue_events (K := K) tevs
  refine h.extend _ _ htask hsub (h.quiet hn hstep haccepted) ?_ ?_ (fun id r hr => ?_) (fun u => ?_) fun call hcall => ?_
  · rw [acceptedIds, haccepted]
    rfl
  · rw [acceptedIds, haccepted]
    exact List.nil_sublist _
  · cases h.queue.record_cases hstep hr with
    | accepted user' op' now' henq => exact absurd henq (haccepts _ _ _ _ _)
    | kept before hfound hwork huser hstatus => exact (h.records _ _ hfound).later hwork huser hstatus
    | finished before user' outcome hfound hwork huser hended =>
      have hmem : (user', id) ∈ finishedPairs tevs := List.mem_filterMap.mpr ⟨_, hended, rfl⟩
      rw [hfinished] at hmem
      cases hmem
  · rw [callIds_of_calls hcalls]
    exact List.nil_sublist _
  · rw [hcalls] at hcall
    cases hcall

section Finish

variable {i now : ℕ} {u : Text} {id : Uuid} {outcome : WorkOutcome} {before : TaskRecord QueuedWork}

/-- Where a worker finishes a task, the records are right when that of the task is. -/
theorem History.finish_records (S : WizardSettings) (h : History s evs drawn) (hbefore : s.queue.records.get? id = some before)
    (hfinished : s.queue.workerFinish i outcome now = some (s'.queue, [.finished u id outcome]))
    (hended : ∀ r : TaskRecord QueuedWork, r.workFactory = before.workFactory → r.userId = before.userId →
      (r.status = .succeeded ↔ outcome = .success) → Recorded (evs ++ ev) id r) :
    ∀ id' r, s'.queue.records.get? id' = some r → Recorded (evs ++ ev) id' r := by
  intro id' r hr
  have hstep : (InMemoryTaskQueue.machine QueuedWork S.userIdPattern).step s.queue (.workerFinish i outcome now) =
      some (s'.queue, [.finished u id outcome]) := hfinished
  cases h.queue.record_cases hstep hr with
  | accepted user' op' now' henq => cases henq
  | kept before' hfound hwork huser hstatus => exact (h.records _ _ hfound).later hwork huser hstatus
  | finished before' user' outcome' hfound hwork huser hend hsucceeded =>
    rw [List.mem_singleton, TaskEvent.finished.injEq] at hend
    obtain ⟨rfl, rfl, rfl⟩ := hend
    rw [hbefore, Option.some.injEq] at hfound
    subst hfound
    exact hended r hwork huser hsucceeded

/-- The record of a task whose call ended. -/
theorem Recorded.called {job : WizardJob} {rt : Save.Runtime K} {result : Except Bool (Option Text)}
    {r : TaskRecord QueuedWork} (h : Recorded evs id before) (hjob : before.workFactory = .wizard job)
    (hcall : (⟨some id, job.scope, job.request rt, result⟩ : Call K) ∈ calls ev)
    (hsuccess : outcome = .success ↔ ∃ answer, result = .ok answer) (hwork : r.workFactory = before.workFactory)
    (huser : r.userId = before.userId) (hsucceeded : r.status = .succeeded ↔ outcome = .success) :
    Recorded (evs ++ ev) id r := by
  have hcall' : (⟨some id, job.scope, job.request rt, result⟩ : Call K) ∈ calls (evs ++ ev) := by
    rw [calls_append]
    exact List.mem_append_right _ hcall
  refine ⟨?_, fun job' hjob' => ?_, fun job' hjob' hs => ?_, fun job' hjob' hs => ?_⟩
  · rw [submissions_append, hwork]
    exact List.mem_append_left _ h.submitted
  · rw [huser]
    exact h.owner job' (hwork ▸ hjob')
  · obtain ⟨answer, rfl⟩ := hsuccess.mp (hsucceeded.mp hs)
    rw [hwork, hjob] at hjob'
    cases hjob'
    exact ⟨rt, answer, hcall'⟩
  · rw [hwork, hjob] at hjob'
    cases hjob'
    cases result with
    | ok answer =>
      rw [hsucceeded.mpr (hsuccess.mpr ⟨answer, rfl⟩)] at hs
      cases hs
    | error unresolved => exact ⟨rt, unresolved, hcall'⟩

theorem History.worked (S : WizardSettings) {rt : Save.Runtime K} {job : WizardJob} {result : Except Bool (Option Text)}
    (h : History s evs drawn) (hn : (acceptedIds (taskEvents evs)).Nodup)
    (hwork : s.queue.workOf id = some (.wizard job))
    (hfinished : s.queue.workerFinish i outcome now = some (s'.queue, [.finished u id outcome]))
    (hsuccess : outcome = .success ↔ ∃ answer, result = .ok answer) (new : List Uuid) :
    History s' (evs ++ [.queue (.finished u id outcome), .called ⟨some id, job.scope, job.request rt, result⟩])
      (drawn ++ new) := by
  obtain ⟨before, hbefore, hjob⟩ := Option.map_eq_some_iff.mp hwork
  have hrecord := h.records id before hbefore
  have howner : job.scope.1 = u := by
    obtain ⟨u', id', r', _, hi, hr', -, hu', -, hev, -⟩ := h.queue.workerFinish_cases hfinished
    cases hev
    rw [hbefore, Option.some.injEq] at hr'
    rw [hrecord.owner job hjob, hr', hu']
  have hstep : (InMemoryTaskQueue.machine QueuedWork S.userIdPattern).step s.queue (.workerFinish i outcome now) =
      some (s'.queue, [.finished u id outcome]) := hfinished
  refine h.extend [.finished u id outcome] [] rfl rfl (h.quiet hn hstep rfl) rfl (List.nil_sublist _) ?_ (fun v => ?_)
    fun call hcall => ?_
  · refine h.finish_records S hbefore hfinished fun r hwork' huser hsucceeded => ?_
    exact hrecord.called hjob List.mem_cons_self hsuccess hwork' huser hsucceeded
  · rw [show finishedPairs [TaskEvent.finished u id outcome] = [(u, id)] from rfl, InMemoryTaskQueue.ofUser_singleton, ← howner]
    simp only [callIds, calls, List.filterMap_cons, List.filterMap_nil]
    split_ifs <;> exact List.Sublist.refl _
  · obtain rfl := List.mem_singleton.mp hcall
    exact ⟨rt, job, hjob ▸ hrecord.submitted, rfl, rfl⟩

theorem History.ended (S : WizardSettings) (h : History s evs drawn) (hn : (acceptedIds (taskEvents evs)).Nodup)
    (hwork : s.queue.workOf id = some .other)
    (hfinished : s.queue.workerFinish i outcome now = some (s'.queue, [.finished u id outcome])) (new : List Uuid) :
    History s' (evs ++ [.queue (.finished u id outcome)]) (drawn ++ new) := by
  obtain ⟨before, hbefore, hother⟩ := Option.map_eq_some_iff.mp hwork
  have hstep : (InMemoryTaskQueue.machine QueuedWork S.userIdPattern).step s.queue (.workerFinish i outcome now) =
      some (s'.queue, [.finished u id outcome]) := hfinished
  refine h.extend [.finished u id outcome] [] rfl rfl (h.quiet hn hstep rfl) rfl (List.nil_sublist _) ?_
    (fun v => List.nil_sublist _) fun call hcall => absurd hcall List.not_mem_nil
  refine h.finish_records S hbefore hfinished fun r hwork' huser _ => ?_
  have hno : ∀ job, r.workFactory ≠ .wizard job := fun job hjob => by
    rw [hwork', hother] at hjob
    cases hjob
  refine ⟨?_, fun job hjob => absurd hjob (hno job), fun job hjob => absurd hjob (hno job), fun job hjob => absurd hjob (hno job)⟩
  rw [submissions_append, hwork']
  exact List.mem_append_left _ (h.records _ _ hbefore).submitted

end Finish

end Kept

/-- A step keeps what holds of a history. -/
theorem History.step {a : Action K} {evs ev : List (Event K)} {drawn : List Uuid} (h : History s evs drawn)
    (hs : Stepped S s s' a ev) (hn : (drawn ++ drawnTasks [a]).Nodup) : History s' (evs ++ ev) (drawn ++ drawnTasks [a]) := by
  have hnodup := h.accepted_nodup hn
  cases hs with
  | answered hqueue _ answers => exact h.answered hqueue answers _
  | created scope result w answer _ hstate => exact h.created (hstate ▸ rfl) scope _ result answer _
  | accepted answer user operation work id now hdrawn henqueue _ howner answers =>
    rw [hdrawn] at hn ⊢
    exact h.accepted hn henqueue howner answers
  | moved qa tevs hstep haccepts haccepted hfinished _ => exact h.moved hnodup hstep haccepts haccepted hfinished _
  | worked i now rt u id job outcome result w hwork hfinished _ hsuccess _ =>
    exact h.worked S hnodup hwork hfinished hsuccess _
  | ended i now u id outcome hwork hfinished _ => exact h.ended S hnodup hwork hfinished _

omit [DecidableEq K] in
theorem drawnTasks_append (as bs : List (Action K)) : drawnTasks (as ++ bs) = drawnTasks as ++ drawnTasks bs :=
  List.filterMap_append

/-- What holds of every run in which no task id is drawn twice. -/
theorem history_run {m : ℕ} {hm : 0 < m} {as : List (Action K)} {evs : List (Event K)} (hT : (drawnTasks as).Nodup)
    (hrun : (machine S).run (start m hm) as = some (s, evs)) : History s evs (drawnTasks as) := by
  refine (machine S).run_induction (I := fun as evs t => (drawnTasks as).Nodup → History t evs (drawnTasks as))
    (fun _ => history_start m hm) ?_ hrun hT
  intro as evs t a u ev hr ih hs hT
  rw [drawnTasks_append] at hT ⊢
  exact (ih (List.nodup_append.mp hT).1).step (step_stepped hs) hT

omit [DecidableEq K] in
/-- The tasks of a user make their calls in the order in which they were accepted. -/
theorem History.callIds_submitted {evs : List (Event K)} {drawn : List Uuid} (h : History s evs drawn) (u : Text) :
    (callIds u evs).Sublist ((submissions evs).map Prod.fst) := by
  have haccepted : ofUser u (acceptedPairs (taskEvents evs)) =
      ofUser u (finishedPairs (taskEvents evs)) ++ s.queue.runningIds u ++ s.queue.queuedIds u := by
    rw [h.queue.order, h.queue.active]
  have hfinished : (ofUser u (finishedPairs (taskEvents evs))).Sublist (ofUser u (acceptedPairs (taskEvents evs))) := by
    rw [haccepted, List.append_assoc]
    exact List.sublist_append_left _ _
  have hall : (ofUser u (acceptedPairs (taskEvents evs))).Sublist (acceptedIds (taskEvents evs)) := by
    unfold ofUser acceptedIds
    exact List.Sublist.map _ List.filter_sublist
  rw [h.submitted]
  exact ((h.order u).trans hfinished).trans hall

end WizardSystem

end TenantRag

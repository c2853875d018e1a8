import TenantRag.Api.WizardHistory
import TenantRag.Foundations.Lists

/-!
# The endpoints of the wizards: what their users read

Over any run of the endpoints, their workers and the queue, whatever is interleaved, where the providers draw
no identifier of another document, and a call that raises has a complete compensation.

## What is proved

* `worlds_run` — the maps and the collection of a scope are those its own calls lead to.
* `wizards_refine` — `list_wizards` and `get_wizard` show the texts that the calls of the scope lead to.
* `task_outcome` — what `get_task` says of a task is what became of its call.
* `History.accepted_behind` — the tasks of a user call in the order they were accepted.
* `read_your_write` — a save that is reported as succeeded is what `get_wizard` answers, until another task
  changes the wizard.
-/

namespace TenantRag

namespace WizardSystem

open InMemoryTaskQueue (acceptedIds acceptedPairs finishedPairs ofUser)
open Save (Drafts)

variable {K : Type}

/-! ### The calls of a scope -/

/-- The calls of a scope that returned, with their answers, in order. -/
def returned (scope : WizardScope) (evs : List (Event K)) : List (Save.Request K × Option Text) :=
  (calls evs).filterMap fun call =>
    match call.result with
    | .ok answer => if call.scope = scope then some (call.request, answer) else none
    | .error _ => none

theorem returned_append (scope : WizardScope) (evs evs' : List (Event K)) :
    returned scope (evs ++ evs') = returned scope evs ++ returned scope evs' := by
  rw [returned, calls_append, List.filterMap_append, returned, returned]

theorem returned_called {scope : WizardScope} {taskId : Option Uuid} {r : Save.Request K} {answer : Option Text}
    (evs : List (Event K)) :
    returned scope (.called ⟨taskId, scope, r, .ok answer⟩ :: evs) = (r, answer) :: returned scope evs := by
  simp only [returned, calls, List.filterMap_cons, if_true]

theorem mem_returned {scope : WizardScope} {evs : List (Event K)} {p : Save.Request K × Option Text} (h : p ∈ returned scope evs) :
    ∃ call ∈ calls evs, call.scope = scope ∧ call.request = p.1 := by
  obtain ⟨call, hcall, heq⟩ := List.mem_filterMap.mp h
  refine ⟨call, hcall, ?_⟩
  split at heq
  · split_ifs at heq with hscope
    exact ⟨hscope, congrArg Prod.fst (Option.some.inj heq)⟩
  · cases heq

theorem mem_calls {evs : List (Event K)} {call : Call K} (h : call ∈ calls evs) : ∃ front back, evs = front ++ .called call :: back := by
  obtain ⟨e, he, heq⟩ := List.mem_filterMap.mp h
  split at heq
  · cases heq
    exact List.append_of_mem he
  · cases heq

variable [DecidableEq K] {S : WizardSettings} {s s' : WizardSystem K} {m : ℕ} {hm : 0 < m} {as : List (Action K)}
  {evs : List (Event K)}

/-- What a step does to the maps and the collections. -/
theorem Stepped.call_cases {a : Action K} {ev : List (Event K)} (hs : Stepped S s s' a ev) :
    (calls ev = [] ∧ s'.worlds = s.worlds) ∨
      ∃ call w, calls ev = [call] ∧ Ends call.request (s.worlds call.scope) call.result w ∧
        s'.worlds = Function.update s.worlds call.scope w := by
  cases hs with
  | answered _ hworlds answers => exact .inl ⟨answers.silent.2.2, hworlds⟩
  | created scope result w answer hends hstate => exact .inr ⟨⟨none, scope, _, result⟩, w, rfl, hends, hstate ▸ rfl⟩
  | accepted answer user op work id now hdrawn henqueue hworlds howner answers =>
    refine .inl ⟨?_, hworlds⟩
    rw [calls_append, answers.silent.2.2]
    rfl
  | moved qa tevs hstep haccepts haccepted hfinished hworlds => exact .inl ⟨(queue_events tevs).2.2, hworlds⟩
  | worked i now rt u id job outcome result w hwork hfinished hends hsuccess hworlds =>
    exact .inr ⟨⟨some id, job.scope, job.request rt, result⟩, w, rfl, hends, hworlds⟩
  | ended i now u id outcome hwork hfinished hworlds => exact .inl ⟨rfl, hworlds⟩

/-- What the providers of a step are known for: they draw no identifier of another document, and where a call raises,
its compensation is complete. -/
def Settled (S : WizardSettings) (s : WizardSystem K) (a : Action K) : Prop :=
  ∀ s' ev, (machine S).step s a = some (s', ev) → ∀ call ∈ calls ev,
    call.request.Fresh (s.worlds call.scope) ∧ call.result ≠ .error true

/-- Over any run, the maps and the collection of a scope are those that its own calls lead to. -/
theorem worlds_run (hsettled : (machine S).StepsAlong (Settled S) (start m hm) as)
    (hrun : (machine S).run (start m hm) as = some (s, evs)) (scope : WizardScope) :
    Save.Run (returned scope evs) (s.worlds scope) := by
  refine (machine S).run_induction (I := fun as evs t => (machine S).StepsAlong (Settled S) (start m hm) as →
    Save.Run (returned scope evs) (t.worlds scope)) ?_ ?_ hrun hsettled
  · exact fun _ => Save.Run.empty
  intro as evs t a u ev hr ih hs hsettled
  have hbefore := ih (Machine.StepsAlong.init _ hsettled)
  have hcalls := hsettled as a (List.prefix_refl _) t evs hr u ev hs
  rw [returned_append]
  rcases (step_stepped hs).call_cases with ⟨hnone, hworlds⟩ | ⟨call, w, hone, hends, hworlds⟩
  · have hreturned : returned scope ev = [] := by rw [returned, hnone, List.filterMap_nil]
    rw [hreturned, List.append_nil, hworlds]
    exact hbefore
  · obtain ⟨hfresh, hresolved⟩ := hcalls call (hone ▸ List.mem_cons_self)
    obtain ⟨taskId, scope', r, result⟩ := call
    dsimp only at hends hfresh hresolved hworlds
    have hreturned : returned scope ev = [(⟨taskId, scope', r, result⟩ : Call K)].filterMap _ := congrArg _ hone
    rw [hworlds]
    by_cases hscope : scope' = scope
    · subst hscope
      rw [Function.update_self]
      cases result with
      | ok answer =>
        rw [hreturned]
        simpa using Save.Run.returned hbefore hfresh hends
      | error unresolved =>
        cases unresolved with
        | true => exact absurd rfl hresolved
        | false =>
          rw [hreturned]
          simpa using Save.Run.compensated hbefore hfresh hends
    · rw [Function.update_of_ne (Ne.symm hscope)]
      have hother : returned scope ev = [] := by
        rw [hreturned]
        cases result <;> simp [hscope]
      rw [hother, List.append_nil]
      exact hbefore

/-! ### What is read -/

section Reads

omit [DecidableEq K]

variable {user : Text} {c : WizardCollectionType}

theorem getParagraphData_eq (documents : DocumentMap) {wizardId : Text} {document : Uuid}
    (hid : requiredUuid wizardId "document_id" = .ok document) :
    documents.getParagraphData wizardId =
      match documents.documents.get? document with
      | none => .error (keyError "document_id")
      | some data => .ok data := by
  simp only [DocumentMap.getParagraphData, hid]
  rfl

/-- The resource of a document that there is. -/
theorem resource_ok (huser : validatedUserId S.userIdPattern user = .ok user) {wizardId : Text} {document : Uuid}
    (hid : requiredUuid wizardId "document_id" = .ok document) {data : Dict ℕ Text}
    (hdata : (s.worlds (user, c)).documents.documents.get? document = some data) :
    s.resource S user c wizardId = .ok ⟨wizardId, user, c, data.values.flatten, data.keys⟩ := by
  have hget := getParagraphData_eq (s.worlds (user, c)).documents hid
  rw [hdata] at hget
  simp only [resource, huser, bind, Except.bind, DocumentMap.getFullText, DocumentMap.getParagraphs, hget]

theorem getWizard_ok (huser : validatedUserId S.userIdPattern user = .ok user) {wizardId text : Text} {document : Uuid}
    (hid : requiredUuid wizardId "document_id" = .ok document) (htext : (s.worlds (user, c)).drafts document = some text) :
    ∃ r, s.getWizard S user c wizardId = .ok r ∧ r.fullText = text := by
  obtain ⟨data, hdata, rfl⟩ := Option.map_eq_some_iff.mp htext
  rw [getWizard, resource_ok huser hid hdata]
  exact ⟨_, rfl, rfl⟩

theorem getWizard_missing (huser : validatedUserId S.userIdPattern user = .ok user) {wizardId : Text} {document : Uuid}
    (hid : requiredUuid wizardId "document_id" = .ok document) (htext : (s.worlds (user, c)).drafts document = none) :
    s.getWizard S user c wizardId = .error (.http 404 "NOT_FOUND" "wizard not found") := by
  have hdata := Option.map_eq_none_iff.mp htext
  have hget := getParagraphData_eq (s.worlds (user, c)).documents hid
  rw [hdata] at hget
  simp only [getWizard, resource, huser, bind, Except.bind, DocumentMap.getFullText, hget]
  rfl

/-- The resources of the texts of a scope: one for each document, and no other. -/
structure Lists (user : Text) (c : WizardCollectionType) (drafts : Drafts) (resources : List WizardResource) : Prop where
  /-- No wizard stands twice. -/
  once : (resources.map WizardResource.wizardId).Nodup
  /-- Every document has its resource. -/
  every : ∀ document text, drafts document = some text → ∃ r ∈ resources, r.wizardId = document.str ∧ r.fullText = text
  /-- Every resource is of a document of the scope. -/
  only : ∀ r ∈ resources, r.userId = user ∧ r.collectionType = c ∧
    ∃ document, r.wizardId = document.str ∧ drafts document = some r.fullText

/-- The list has the resource of every document. -/
theorem listWizards_eq (huser : validatedUserId S.userIdPattern user = .ok user) :
    ∃ resources, s.listWizards S user c = .ok resources ∧ Lists user c (s.worlds (user, c)).drafts resources := by
  have hlist : (s.worlds (user, c)).documents.listDocuments.mapM (s.resource S user c) =
      .ok ((s.worlds (user, c)).documents.documents.entries.map fun e => ⟨e.1.str, user, c, e.2.values.flatten, e.2.keys⟩) := by
    rw [DocumentMap.listDocuments, mapM_eq_ok_iff, Dict.keys, List.map_map, List.forall₂_map_left_iff,
      List.forall₂_map_right_iff, List.forall₂_same]
    exact fun e he => resource_ok huser (requiredUuid_str e.1 _) (Dict.mem_entries_iff.mp he)
  refine ⟨_, by rw [listWizards, huser]; exact congrArg (Except.mapError listError) hlist, ?_, fun document text htext => ?_,
    fun r hr => ?_⟩
  · have hids : ((s.worlds (user, c)).documents.documents.entries.map fun e =>
        (⟨e.1.str, user, c, e.2.values.flatten, e.2.keys⟩ : WizardResource)).map WizardResource.wizardId =
        (s.worlds (user, c)).documents.documents.keys.map Uuid.str := by
      simp [Dict.keys]
    rw [hids]
    exact (Dict.nodup_keys _).map Uuid.str_injective
  · obtain ⟨data, hdata, rfl⟩ := Option.map_eq_some_iff.mp htext
    exact ⟨_, List.mem_map_of_mem (Dict.mem_entries_iff.mpr hdata), rfl, rfl⟩
  · obtain ⟨e, he, rfl⟩ := List.mem_map.mp hr
    exact ⟨rfl, rfl, e.1, rfl, Option.map_eq_some_iff.mpr ⟨e.2, Dict.mem_entries_iff.mp he, rfl⟩⟩

end Reads

/-! ### A run -/

omit [DecidableEq K] in
theorem fresh_of_empty {w : Save.World K} (h : w.outside.chunks = .empty) (r : Save.Request K) : r.Fresh w := by
  cases r with
  | save rt documentId currentText modified =>
    intro document _ id _ record hrecord
    rw [h] at hrecord
    cases hrecord
  | _ => trivial

/-- Nothing is stored where a step makes a call, and where the call raises, its compensation is complete. -/
def checkStep (S : WizardSettings) (s : WizardSystem ℤ) (a : Action ℤ) : Bool :=
  (step S s a).elim true fun r => (calls r.2).all fun call =>
    (s.worlds call.scope).outside.chunks = .empty && call.result != .error true

theorem settled_of_check {S : WizardSettings} (s : WizardSystem ℤ) (a : Action ℤ) (h : checkStep S s a = true) : Settled S s a := by
  intro s' ev hs call hcall
  rw [checkStep, show step S s a = some (s', ev) from hs, Option.elim_some, List.all_eq_true] at h
  have hstep := h call hcall
  rw [Bool.and_eq_true, decide_eq_true_eq, bne_iff_ne] at hstep
  exact ⟨fresh_of_empty hstep.1 _, hstep.2⟩

/-- An embedding provider, and any user. -/
def settingsSample : WizardSettings := ⟨.any, true⟩

/-- The save of "CD". -/
def jobSample : WizardJob := ⟨(lit "a", .policy), (Save.uuidSample 0).str, .save (lit "CD") none⟩

/-- A wizard is created, and "CD" is saved in it. -/
def savedWizard : List (Action ℤ) :=
  [.create Save.runSample (lit "a") .policy, .lookup jobSample, .ensured 0 (Uuid.ofNat 9) 0, .workerGet 0 1,
    .work 0 Save.runSample 2]

/-- The run of `savedWizard`. -/
theorem savedWizard_run :
    ∃ (s : WizardSystem ℤ) (evs : List (Event ℤ)) (snapshot : TaskSnapshot),
      (machine settingsSample).run (start 1 (by decide)) savedWizard = some (s, evs) ∧
        submissions evs = [(snapshot.taskId, .wizard jobSample)] ∧ snapshot.status = .succeeded ∧
          s.getTask settingsSample (Uuid.ofNat 9).str (lit "a") = .ok snapshot := by
  have hshown : ((machine settingsSample).run (start 1 (by decide)) savedWizard).map (fun r =>
      ((r.1.getTask settingsSample (Uuid.ofNat 9).str (lit "a")).toOption.map fun snapshot =>
        (snapshot.taskId, snapshot.status), submissions r.2)) =
      some (some (Uuid.ofNat 9, .succeeded), [(Uuid.ofNat 9, .wizard jobSample)]) := by decide +kernel
  obtain ⟨⟨s, evs⟩, hrun, heq⟩ := Option.map_eq_some_iff.mp hshown
  obtain ⟨hget, hsubmitted⟩ := Prod.mk.inj heq
  obtain ⟨snapshot, hsnapshot, hstatus⟩ := Option.map_eq_some_iff.mp hget
  obtain ⟨hid, hstatus⟩ := Prod.mk.inj hstatus
  refine ⟨s, evs, snapshot, hrun, by rw [hsubmitted, hid], hstatus, ?_⟩
  cases hres : s.getTask settingsSample (Uuid.ofNat 9).str (lit "a") with
  | error e =>
    rw [hres] at hsnapshot
    cases hsnapshot
  | ok snapshot' =>
    rw [hres] at hsnapshot
    exact congrArg Except.ok (Option.some.inj hsnapshot)

theorem savedWizard_settled :
    (machine settingsSample).StepsAlong (Settled settingsSample) (start 1 (by decide)) savedWizard :=
  Machine.StepsAlong.of_check _ settled_of_check (by decide +kernel)

/-- **What the endpoints show**: over any run, whatever is interleaved, the texts of a scope are those that its calls which
returned lead to, in the order they did; the store has the same texts; and `list_wizards` and `get_wizard` show them, and
nothing else. -/
theorem wizards_refine (hsettled : (machine S).StepsAlong (Settled S) (start m hm) as)
    (hrun : (machine S).run (start m hm) as = some (s, evs)) (user : Text) (c : WizardCollectionType)
    (huser : validatedUserId S.userIdPattern user = .ok user) :
    Drafts.Run (returned (user, c) evs) (s.worlds (user, c)).drafts ∧
      (s.worlds (user, c)).stored = (s.worlds (user, c)).drafts ∧
      (∃ resources, s.listWizards S user c = .ok resources ∧ Lists user c (s.worlds (user, c)).drafts resources) ∧
      ∀ wizardId document, requiredUuid wizardId "document_id" = .ok document →
        match (s.worlds (user, c)).drafts document with
        | some text => ∃ r, s.getWizard S user c wizardId = .ok r ∧ r.fullText = text
        | none => s.getWizard S user c wizardId = .error (.http 404 "NOT_FOUND" "wizard not found") := by
  have hworld := worlds_run hsettled hrun (user, c)
  refine ⟨hworld.drafts, hworld.sound.stored_eq_drafts, listWizards_eq huser, fun wizardId document hid => ?_⟩
  cases htext : (s.worlds (user, c)).drafts document with
  | some text => exact getWizard_ok huser hid htext
  | none => exact getWizard_missing huser hid htext

theorem wizards_refine_saved :
    ∃ (s : WizardSystem ℤ) (evs : List (Event ℤ)),
      (machine settingsSample).run (start 1 (by decide)) savedWizard = some (s, evs) ∧
        Drafts.Run (returned (lit "a", .policy) evs) (s.worlds (lit "a", .policy)).drafts ∧
          (s.worlds (lit "a", .policy)).stored = (s.worlds (lit "a", .policy)).drafts ∧
            ∃ resources, s.listWizards settingsSample (lit "a") .policy = .ok resources ∧
              Lists (lit "a") .policy (s.worlds (lit "a", .policy)).drafts resources := by
  obtain ⟨s, evs, snapshot, hrun, -⟩ := savedWizard_run
  have h := wizards_refine savedWizard_settled hrun (lit "a") .policy (by decide)
  exact ⟨s, evs, hrun, h.1, h.2.1, h.2.2.1⟩

/-! ### Tasks -/

omit [DecidableEq K] in
/-- What `get_task` shows is the record of a task of the user. -/
theorem getTask_ok {taskId user : Text} {snapshot : TaskSnapshot} {drawn : List Uuid} (h : History s evs drawn)
    (hget : s.getTask S taskId user = .ok snapshot) : validatedUserId S.userIdPattern user = .ok user ∧
      ∃ r, Recorded evs snapshot.taskId r ∧ r.userId = user ∧ r.status = snapshot.status := by
  have hok : s.queue.get S.userIdPattern taskId user = .ok snapshot := by
    rw [getTask] at hget
    cases hres : s.queue.get S.userIdPattern taskId user with
    | ok snapshot' =>
      rw [hres] at hget
      cases hget
      rfl
    | error e =>
      rw [hres] at hget
      cases hget
  refine ⟨?_, ?_⟩
  · unfold InMemoryTaskQueue.get at hok
    split at hok
    · cases hok
    · split at hok
      · cases hok
      case h_2 user' huser =>
        obtain rfl := validatedUserId_eq huser
        exact huser
  · obtain ⟨id, r, hr, rfl, hu, -⟩ := InMemoryTaskQueue.get_ok hok
    have hid : r.taskId = id := ((h.queue.placed id).recorded r hr).1
    exact ⟨r, hid ▸ h.records id r hr, hu, rfl⟩

/-- **What a task says is true**: over any run in which no task id is drawn twice, what `get_task` says of the task of a
wizard is what became of its call; and the tasks of a user make their calls once, in the order they were accepted. -/
theorem task_outcome (hT : (drawnTasks as).Nodup) (hrun : (machine S).run (start m hm) as = some (s, evs)) {taskId user : Text}
    {snapshot : TaskSnapshot} (hget : s.getTask S taskId user = .ok snapshot) :
    (∃ work, (snapshot.taskId, work) ∈ submissions evs ∧ ∀ job, work = .wizard job → job.scope.1 = user ∧
      (snapshot.status = .succeeded →
        ∃ rt answer, (⟨some snapshot.taskId, job.scope, job.request rt, .ok answer⟩ : Call K) ∈ calls evs) ∧
      (snapshot.status = .failed →
        ∃ rt unresolved, (⟨some snapshot.taskId, job.scope, job.request rt, .error unresolved⟩ : Call K) ∈ calls evs)) ∧
      (callIds user evs).Sublist ((submissions evs).map Prod.fst) ∧ (callIds user evs).Nodup := by
  have h := history_run hT hrun
  obtain ⟨-, r, hrecord, huser, hstatus⟩ := getTask_ok h hget
  have hcalls := h.callIds_submitted user
  refine ⟨⟨r.workFactory, hrecord.submitted, fun job hjob => ⟨?_, fun hs => ?_, fun hs => ?_⟩⟩, hcalls, ?_⟩
  · rw [hrecord.owner job hjob, huser]
  · exact hrecord.succeeded job hjob (hstatus.trans hs)
  · exact hrecord.failed job hjob (hstatus.trans hs)
  · rw [h.submitted] at hcalls
    exact (hT.sublist h.drawn).sublist hcalls

theorem task_outcome_saved :
    ∃ (s : WizardSystem ℤ) (evs : List (Event ℤ)) (snapshot : TaskSnapshot) (rt : Save.Runtime ℤ) (answer : Option Text),
      (machine settingsSample).run (start 1 (by decide)) savedWizard = some (s, evs) ∧
        s.getTask settingsSample (Uuid.ofNat 9).str (lit "a") = .ok snapshot ∧
          (⟨some snapshot.taskId, (lit "a", .policy), jobSample.request rt, .ok answer⟩ : Call ℤ) ∈ calls evs := by
  obtain ⟨s, evs, snapshot, hrun, hsubmitted, hstatus, hget⟩ := savedWizard_run
  obtain ⟨⟨work, hmem, houtcome⟩, -⟩ := task_outcome (by decide) hrun hget
  rw [hsubmitted, List.mem_singleton, Prod.mk.injEq] at hmem
  obtain ⟨rt, answer, hcall⟩ := (houtcome jobSample hmem.2).2.1 hstatus
  exact ⟨s, evs, snapshot, rt, answer, hrun, hget, hcall⟩

/-! ### The last save -/

omit [DecidableEq K] in
theorem drafts_run_concat {before : List (Save.Request K × Option Text)} {r : Save.Request K} {answer : Option Text}
    {after : Drafts} (h : Drafts.Run (before ++ [(r, answer)]) after) :
    ∃ drafts, Drafts.Run before drafts ∧ Drafts.Step drafts r answer after := by
  generalize hall : before ++ [(r, answer)] = all at h
  cases h with
  | empty => simp at hall
  | step h hs =>
    obtain ⟨rfl, hlast⟩ := List.append_inj' hall rfl
    cases hlast
    exact ⟨_, h, hs⟩

/-- The document that a call saves or deletes. -/
def changed : Save.Request K → Option Text
  | .create _ => none
  | .save _ documentId _ _ | .delete _ documentId => some documentId

omit [DecidableEq K] in
/-- A document keeps the text of the last call that saved it. -/
theorem drafts_of_last {front back : List (Save.Request K × Option Text)} {rt : Save.Runtime K} {wizardId text : Text}
    {modified : Option (List ℤ)} {answer : Option Text} {after : Drafts}
    (h : Drafts.Run (front ++ (.save rt wizardId text modified, answer) :: back) after)
    (hback : ∀ call ∈ back, ∀ other, changed call.1 = some other →
      requiredUuid other "document_id" ≠ requiredUuid wizardId "document_id") :
    ∃ document, requiredUuid wizardId "document_id" = .ok document ∧ after document = some text := by
  induction back using List.reverseRecOn generalizing after with
  | nil =>
    obtain ⟨drafts, -, hs⟩ := drafts_run_concat h
    cases hs with
    | save hid _ => exact ⟨_, hid, Function.update_self ..⟩
  | append_singleton back call ih =>
    obtain ⟨r, answer'⟩ := call
    rw [← List.cons_append, ← List.append_assoc] at h
    obtain ⟨drafts, hbefore, hs⟩ := drafts_run_concat h
    obtain ⟨document, hid, htext⟩ := ih hbefore fun call hcall => hback call (List.mem_append_left _ hcall)
    have hlast := hback (r, answer') (List.mem_append_right _ List.mem_cons_self)
    refine ⟨document, hid, ?_⟩
    -- the last call is about another document
    cases hs with
    | create hnew =>
      rw [Function.update_of_ne, htext]
      rintro rfl
      rw [hnew] at htext
      cases htext
    | save hid' _ =>
      rw [Function.update_of_ne, htext]
      rintro rfl
      exact hlast _ rfl (hid'.trans hid.symm)
    | delete hid' _ =>
      rw [Function.update_of_ne, htext]
      rintro rfl
      exact hlast _ rfl (hid'.trans hid.symm)

omit [DecidableEq K] in
theorem changed_request {rt : Save.Runtime K} {job : WizardJob} {other : Text} (h : changed (job.request rt) = some other) :
    other = job.wizardId := by
  obtain ⟨scope, wizardId, change⟩ := job
  cases change <;> exact (Option.some.inj h).symm

omit [DecidableEq K] in
/-- What a user's task calls behind the call of another one was accepted behind it. -/
theorem History.accepted_behind {drawn : List Uuid} (h : History s evs drawn) (hnodup : ((submissions evs).map Prod.fst).Nodup)
    {front back : List (Event K)} {call call' : Call K} {id id' : Uuid} {work : QueuedWork} {before after : List (Uuid × QueuedWork)}
    (hevs : evs = front ++ .called call :: back) (hid : call.taskId = some id)
    (hsubmitted : submissions evs = before ++ (id, work) :: after) (hcall : call' ∈ calls back)
    (huser : call'.scope.1 = call.scope.1) (hid' : call'.taskId = some id') : id' ∈ after.map Prod.fst := by
  have hids : callIds call.scope.1 evs = callIds call.scope.1 front ++ id :: callIds call.scope.1 back := by
    rw [hevs, callIds_append]
    simp only [callIds, calls, List.filterMap_cons, if_pos, hid]
  have hmem : id' ∈ callIds call.scope.1 back :=
    List.mem_filterMap.mpr ⟨call', hcall, by rw [if_pos huser, hid']⟩
  have hsub := h.callIds_submitted call.scope.1
  rw [hids, hsubmitted, List.map_append, List.map_cons] at hsub
  rw [hsubmitted, List.map_append, List.map_cons] at hnodup
  exact (sublist_behind hnodup hsub).subset hmem

/-- **A user reads what it wrote**: over any run, whatever is interleaved, where the task of a save is reported as
succeeded, and no task about the same wizard was accepted behind it, `get_wizard` answers the text that was saved. -/
theorem read_your_write (hT : (drawnTasks as).Nodup) (hsettled : (machine S).StepsAlong (Settled S) (start m hm) as)
    (hrun : (machine S).run (start m hm) as = some (s, evs)) {taskId user wizardId text : Text} {c : WizardCollectionType}
    {modified : Option (List ℤ)} {snapshot : TaskSnapshot} {before after : List (Uuid × QueuedWork)}
    (hget : s.getTask S taskId user = .ok snapshot) (hstatus : snapshot.status = .succeeded)
    (hsubmitted : submissions evs = before ++ (snapshot.taskId, .wizard ⟨(user, c), wizardId, .save text modified⟩) :: after)
    (hlast : ∀ p ∈ after, ∀ job, p.2 = .wizard job → job.scope = (user, c) →
      requiredUuid job.wizardId "document_id" ≠ requiredUuid wizardId "document_id") :
    ∃ r, s.getWizard S user c wizardId = .ok r ∧ r.fullText = text := by
  have h := history_run hT hrun
  have hnodup : ((submissions evs).map Prod.fst).Nodup := h.submitted ▸ hT.sublist h.drawn
  obtain ⟨huser, r, hrecord, -, hsucceeded⟩ := getTask_ok h hget
  have hmem : (snapshot.taskId, QueuedWork.wizard ⟨(user, c), wizardId, .save text modified⟩) ∈ submissions evs := by
    rw [hsubmitted]
    exact List.mem_append_right _ List.mem_cons_self
  have hwork : r.workFactory = .wizard ⟨(user, c), wizardId, .save text modified⟩ :=
    congrArg Prod.snd (List.inj_on_of_nodup_map hnodup hrecord.submitted hmem rfl)
  obtain ⟨rt, answer, hcall⟩ := hrecord.succeeded _ hwork (hsucceeded.trans hstatus)
  obtain ⟨front, back, hevs⟩ := mem_calls hcall
  -- what is called behind it is about other wizards
  have hbehind : ∀ p ∈ returned (user, c) back, ∀ other, changed p.1 = some other →
      requiredUuid other "document_id" ≠ requiredUuid wizardId "document_id" := by
    intro p hp other hother
    obtain ⟨call, hback, hscope, hrequest⟩ := mem_returned hp
    have hmade := h.made call (by rw [hevs, calls_append]; exact List.mem_append_right _ (List.mem_cons_of_mem _ hback))
    rw [← hrequest] at hother
    cases hid : call.taskId with
    | none =>
      rw [Made, hid] at hmade
      obtain ⟨rt', hcreate⟩ := hmade
      rw [hcreate] at hother
      cases hother
    | some id =>
      rw [Made, hid] at hmade
      obtain ⟨rt', job, hjob, hscope', hrequest'⟩ := hmade
      obtain rfl := changed_request (hrequest' ▸ hother)
      have hafter := h.accepted_behind hnodup hevs rfl hsubmitted hback (congrArg Prod.fst hscope) hid
      obtain ⟨p', hp', hp'id⟩ := List.mem_map.mp hafter
      have heq : p' = (id, .wizard job) :=
        List.inj_on_of_nodup_map hnodup (hsubmitted ▸ List.mem_append_right _ (List.mem_cons_of_mem _ hp')) hjob hp'id
      exact hlast p' hp' job (heq ▸ rfl) (hscope' ▸ hscope)
  have hreturned : returned (user, c) evs = returned (user, c) front ++
      (.save rt wizardId text modified, answer) :: returned (user, c) back := by
    rw [hevs, returned_append, returned_called]
    rfl
  have hworld := (worlds_run hsettled hrun (user, c)).drafts
  rw [hreturned] at hworld
  obtain ⟨document, hid, htext⟩ := drafts_of_last hworld hbehind
  exact getWizard_ok huser hid htext

theorem read_your_write_saved :
    ∃ (s : WizardSystem ℤ) (evs : List (Event ℤ)),
      (machine settingsSample).run (start 1 (by decide)) savedWizard = some (s, evs) ∧
        ∃ r, s.getWizard settingsSample (lit "a") .policy (Save.uuidSample 0).str = .ok r ∧ r.fullText = lit "CD" := by
  obtain ⟨s, evs, snapshot, hrun, hsubmitted, hstatus, hget⟩ := savedWizard_run
  have hone : submissions evs = [] ++ (snapshot.taskId, .wizard jobSample) :: [] := hsubmitted
  exact ⟨s, evs, hrun, read_your_write (by decide) savedWizard_settled hrun hget hstatus hone
    fun p hp => absurd hp List.not_mem_nil⟩

end WizardSystem

end TenantRag

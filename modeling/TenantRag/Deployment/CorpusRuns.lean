import TenantRag.Deployment.CorpusTransitions

/-!
# Runs of the corpus state

The seven transitions of the corpus state, one after another from
`new_corpus_state`: what every reachable state satisfies, that its file is read back
as that state, when a generation becomes active, and what becomes of the documents
of one that is superseded.

## The model

A step is a transition with its arguments. An observer sees which generations were
marked verified. Two generations are the same when they differ in nothing but their
ingestion policy.

## What is proved

* `CorpusInvariant.step`, `invariant_run` — what every transition keeps, every run keeps.
* `corpus_state_machine` — the file of a reachable state, when a generation becomes active and
  what is to be deleted, over every run.
-/

namespace TenantRag

variable {F : Type} [PyFloat F] {env : CorpusEnv F}

/-- A transition with its arguments and the times at which it is called. -/
inductive CorpusStep where
  /-- `record_active_ingestion_policy(state, fixtures)`. -/
  | recordPolicy (fixtures : WizardFixtures) (now : UtcTime)
  /-- `begin_replacement(state, run_id, fixtures)`. -/
  | begin (runId : Text) (fixtures : WizardFixtures) (created now : UtcTime)
  /-- `record_replacement_document(state, document)`. -/
  | record (document : CorpusDocument) (now : UtcTime)
  /-- `mark_replacement_verified(state)`. -/
  | verify (verified now : UtcTime)
  /-- `discard_pending_replacement(state)`. -/
  | discard (now : UtcTime)
  /-- `promote_replacement(state)`. -/
  | promote (completed now : UtcTime)
  /-- `remove_pending_cleanup(state, document)`. -/
  | remove (document : CorpusDocument) (now : UtcTime)

/-- The transition. -/
def CorpusState.apply (s : CorpusState env) : CorpusStep → Except PyError (CorpusState env)
  | .recordPolicy fixtures now => s.recordActiveIngestionPolicy fixtures now
  | .begin runId fixtures created now => s.beginReplacement runId fixtures created now
  | .record document now => s.recordReplacementDocument document now
  | .verify verified now => s.markReplacementVerified verified now
  | .discard now => s.discardPendingReplacement now
  | .promote completed now => s.promoteReplacement completed now
  | .remove document now => s.removePendingCleanup document now

/-- What an observer sees. -/
inductive CorpusEvent (env : CorpusEnv F) where
  /-- A generation was marked verified. -/
  | markedVerified (g : CorpusGeneration env)

/-- What is seen of a transition that led to a state. -/
def CorpusStep.events (s : CorpusState env) : CorpusStep → List (CorpusEvent env)
  | .verify _ _ => s.pendingReplacement.toList.map .markedVerified
  | _ => []

/-- The corpus state: a transition that raises is refused. -/
def corpusMachine (env : CorpusEnv F) : Machine (CorpusState env) CorpusStep (CorpusEvent env) where
  step s a := (s.apply a).toOption.map fun t => (t, a.events t)

/-- The document of a step that records it at Create. -/
def CorpusStep.created : CorpusStep → Option Text
  | .record document _ => if document.status = .created then some document.wizardId.val else none
  | _ => none

/-- The texts and the numbers of fixtures are read back from JSON: they come from decoded text,
which has no surrogates that form a pair, and from numbers that `int` reads. -/
structure WizardFixtures.Readable (f : WizardFixtures) : Prop where
  /-- The encoding. -/
  textEncoding : Unpaired f.rules.textEncoding
  /-- The separator. -/
  textJoinSeparator : Unpaired f.rules.textJoinSeparator
  /-- The paths and the sizes of the files. -/
  files : ∀ e ∈ f.inventory.knowledge ++ f.inventory.policy,
    Unpaired e.path ∧ (decimal e.sizeBytes.natAbs).length ≤ Json.intMaxStrDigits
  /-- The extensions. -/
  extensions : ∀ t ∈ f.rules.supportedExtensions, Unpaired t
  /-- The limits. -/
  limits : ∀ n ∈ [f.rules.uploadMaxFileBytes, f.rules.uploadMaxTotalBytes, f.rules.uploadReadChunkBytes],
    (decimal n.natAbs).length ≤ Json.intMaxStrDigits

/-- The fixtures of a step are valid. -/
def CorpusStep.Valid : CorpusStep → Prop
  | .recordPolicy fixtures _ => fixtures.Readable
  | .begin runId fixtures _ _ => Unpaired runId ∧ fixtures.Readable
  | _ => True

/-- Every step has valid fixtures, and every created document a fresh wizard id. -/
structure ValidSteps (as : List CorpusStep) : Prop where
  /-- The fixtures. -/
  fixtures : ∀ a ∈ as, a.Valid
  /-- The wizard ids. -/
  fresh : (as.filterMap CorpusStep.created).Nodup

/-- What every run keeps. -/
structure CorpusInvariant (diagnosticUserId : Text) (as : List CorpusStep) (evs : List (CorpusEvent env)) (s : CorpusState env) :
    Prop where
  /-- The state is that of one user. -/
  user : s.diagnosticUserId = diagnosticUserId
  /-- It satisfies the rules of the loader. -/
  consistent : s.Consistent
  /-- Its times are timestamps. -/
  dated : s.Dated
  /-- Its documents were created on the way. -/
  created : ∀ key ∈ s.identities, key.2 ∈ as.filterMap CorpusStep.created
  /-- A verified replacement was marked so on the way. -/
  marked : ∀ g ∈ s.pendingReplacement, g.verifiedAt ≠ none → .markedVerified g ∈ evs

/-! ### Recorded documents -/

theorem find?_eq_none_map {ds : List CorpusDocument} {d : CorpusDocument}
    (h : (ds.find? fun item => item.collection = d.collection) = none) :
    (ds.map fun item => if item.collection = d.collection then d else item) = ds := by
  rw [List.find?_eq_none] at h
  refine (List.map_congr_left fun item hitem => ?_).trans (List.map_id ds)
  exact if_neg (by simpa using h item hitem)

theorem eq_of_collection {ds : List CorpusDocument} (hnodup : (ds.map CorpusDocument.collection).Nodup)
    {d e : CorpusDocument} (hd : d ∈ ds) (he : e ∈ ds) (h : d.collection = e.collection) : d = e :=
  List.inj_on_of_nodup_map hnodup hd he h

/-- A document that is recorded is a new one at Create, or takes the place of one with its identity. -/
theorem keys_recordedDocuments {ds : List CorpusDocument} {d : CorpusDocument}
    (hnodup : (ds.map CorpusDocument.collection).Nodup)
    (h : CorpusState.checkTransition (ds.find? fun item => item.collection = d.collection) d = .ok ()) :
    (d.status = .created ∧ (CorpusState.recordedDocuments ds d).map CorpusDocument.key = ds.map CorpusDocument.key ++ [d.key]) ∨
      d.status ≠ .created ∧ (CorpusState.recordedDocuments ds d).map CorpusDocument.key = ds.map CorpusDocument.key := by
  rw [CorpusState.recordedDocuments]
  cases hfind : ds.find? fun item => item.collection = d.collection with
  | none =>
    rw [hfind, CorpusState.checkTransition] at h
    split_ifs at h with hcreated
    rw [find?_eq_none_map hfind]
    exact .inl ⟨not_ne_iff.mp hcreated, by simp⟩
  | some e =>
    rw [hfind, CorpusState.checkTransition] at h
    split_ifs at h with hid hstatus htask
    have hmem : e ∈ ds := List.mem_of_find?_eq_some hfind
    have hcollection : e.collection = d.collection := by simpa using List.find?_some hfind
    refine .inr ⟨?_, ?_⟩
    · intro hcreated
      rw [not_ne_iff, hcreated] at hstatus
      cases he : e.status <;> rw [he] at hstatus <;> cases hstatus
    · rw [Option.isNone_some, if_neg Bool.false_ne_true, List.append_nil, List.map_map]
      refine List.map_congr_left fun item hitem => ?_
      by_cases hc : item.collection = d.collection
      · have heq : item = e := eq_of_collection hnodup hitem hmem (hc.trans hcollection.symm)
        rw [Function.comp_apply, if_pos hc, heq, CorpusDocument.key, CorpusDocument.key, hcollection, not_ne_iff.mp hid]
      · rw [Function.comp_apply, if_neg hc]

/-! ### What every transition keeps -/

section Steps

variable {user : Text} {as : List CorpusStep} {evs : List (CorpusEvent env)} {s s' : CorpusState env}

theorem documents_eq_of_values {g g' : CorpusGeneration env} {v : GenerationValues F} (h : g'.values = v)
    (hv : v.documents = g.documents) : g'.documents = g.documents :=
  (congrArg GenerationValues.documents h).trans hv

theorem created_mono {a : CorpusStep} {id : Text} (h : id ∈ as.filterMap CorpusStep.created) :
    id ∈ (as ++ [a]).filterMap CorpusStep.created := by
  rw [List.filterMap_append]
  exact List.mem_append_left _ h

/-- What is kept by a transition that adds no document. -/
theorem CorpusInvariant.of_sublist {a : CorpusStep} {evs' : List (CorpusEvent env)} (hi : CorpusInvariant user as evs s)
    (huser : s'.diagnosticUserId = s.diagnosticUserId) (hconsistent : s'.identities.Nodup → s'.Consistent)
    (hdated : s'.Dated)
    (hids : s'.identities.Subperm s.identities)
    (hmarked : ∀ g ∈ s'.pendingReplacement, g.verifiedAt ≠ none → .markedVerified g ∈ evs ++ evs') :
    CorpusInvariant user (as ++ [a]) (evs ++ evs') s' where
  user := huser.trans hi.user
  consistent := by
    obtain ⟨l, hperm, hsub⟩ := hids
    exact hconsistent (hperm.nodup_iff.mp (hi.consistent.identities.sublist hsub))
  dated := hdated
  created key hkey := created_mono (hi.created key (hids.subset hkey))
  marked := hmarked

theorem CorpusInvariant.recordPolicy {fixtures : WizardFixtures} {now : UtcTime} (hi : CorpusInvariant user as evs s)
    (h : s.recordActiveIngestionPolicy fixtures now = .ok s') :
    CorpusInvariant user (as ++ [.recordPolicy fixtures now]) (evs ++ []) s' := by
  obtain ⟨g, g', hg, hvalues, rfl⟩ := CorpusState.recordedPolicy_spec h
  have hdocuments : g'.documents = g.documents := documents_eq_of_values hvalues rfl
  have hids : CorpusState.identities { s with active := some g', updatedAt := timestamp now } = s.identities := by
    simp only [CorpusState.identities, documentsOf, hg, Option.elim_some, hdocuments]
  refine hi.of_sublist rfl (fun hnodup => ?_) ?_ (hids ▸ List.Subperm.refl _) ?_
  · refine ⟨?_, hi.consistent.pendingReplacement, hi.consistent.pendingCleanup, fun hnone => (nomatch hnone), hnodup⟩
    rintro _ ⟨⟩
    obtain ⟨hcompleted, hverified, hcomplete⟩ := hi.consistent.active g hg
    refine ⟨?_, ?_, hdocuments ▸ hcomplete⟩
    · exact fun hnone => hcompleted ((congrArg GenerationValues.completedAt hvalues).symm.trans hnone)
    · exact fun hnone => hverified ((congrArg GenerationValues.verifiedAt hvalues).symm.trans hnone)
  · refine ⟨⟨now, rfl⟩, ?_, hi.dated.pendingReplacement⟩
    rintro _ ⟨⟩
    obtain ⟨hcreated, hverified, hcompleted⟩ := hi.dated.active g hg
    rw [hvalues]
    exact ⟨hcreated, hverified, hcompleted⟩
  · intro p hp hverified
    rw [List.append_nil]
    exact hi.marked p hp hverified

theorem CorpusInvariant.begin {runId : Text} {fixtures : WizardFixtures} {created now : UtcTime}
    (hi : CorpusInvariant user as evs s)
    (h : s.beginReplacement runId fixtures created now = .ok s') :
    CorpusInvariant user (as ++ [.begin runId fixtures created now]) (evs ++ []) s' := by
  obtain ⟨hnone, digest, g, hvalues, rfl⟩ := CorpusState.begun_spec h
  have hdocuments : g.documents = [] := congrArg GenerationValues.documents hvalues
  have hverified : g.verifiedAt = none := congrArg GenerationValues.verifiedAt hvalues
  have hcompleted : g.completedAt = none := congrArg GenerationValues.completedAt hvalues
  have hids : CorpusState.identities { s with pendingReplacement := some g, updatedAt := timestamp now } = s.identities := by
    simp only [CorpusState.identities, documentsOf, hnone, Option.elim_some, Option.elim_none, hdocuments]
  refine hi.of_sublist rfl (fun hnodup => ?_) ?_ (hids ▸ List.Subperm.refl _) ?_
  · refine ⟨hi.consistent.active, ?_, hi.consistent.pendingCleanup, hi.consistent.superseded, hnodup⟩
    rintro _ ⟨⟩
    exact hcompleted
  · refine ⟨⟨now, rfl⟩, hi.dated.active, ?_⟩
    rintro _ ⟨⟩
    rw [hvalues]
    exact ⟨⟨created, rfl⟩, nofun, nofun⟩
  · rintro _ ⟨⟩ hnot
    exact absurd hverified hnot

theorem CorpusInvariant.record {document : CorpusDocument} {now : UtcTime} (hi : CorpusInvariant user as evs s)
    (hfresh : ∀ id ∈ (CorpusStep.record document now).created, id ∉ as.filterMap CorpusStep.created)
    (h : s.recordReplacementDocument document now = .ok s') :
    CorpusInvariant user (as ++ [.record document now]) (evs ++ []) s' := by
  obtain ⟨g, g', hg, hunverified, hcheck, hvalues, rfl⟩ := CorpusState.recorded_spec h
  have hdocuments : g'.documents = CorpusState.recordedDocuments g.documents document :=
    congrArg GenerationValues.documents hvalues
  have hverified : g'.verifiedAt = none := (congrArg GenerationValues.verifiedAt hvalues).trans hunverified
  have hcompleted : g'.completedAt = none :=
    (congrArg GenerationValues.completedAt hvalues).trans (hi.consistent.pendingReplacement g hg)
  have hconsistent : ∀ hnodup : (CorpusState.identities
      { s with pendingReplacement := some g', updatedAt := timestamp now }).Nodup,
      CorpusState.Consistent { s with pendingReplacement := some g', updatedAt := timestamp now } := by
    intro hnodup
    refine ⟨hi.consistent.active, ?_, hi.consistent.pendingCleanup, hi.consistent.superseded, hnodup⟩
    rintro _ ⟨⟩
    exact hcompleted
  have hdated : CorpusState.Dated { s with pendingReplacement := some g', updatedAt := timestamp now } := by
    refine ⟨⟨now, rfl⟩, hi.dated.active, ?_⟩
    rintro _ ⟨⟩
    obtain ⟨hcreated, hverified, hcompleted⟩ := hi.dated.pendingReplacement g hg
    rw [hvalues]
    exact ⟨hcreated, hverified, hcompleted⟩
  have hmarked : ∀ p ∈ (some g' : Option (CorpusGeneration env)), p.verifiedAt ≠ none → .markedVerified p ∈ evs ++ [] := by
    rintro _ ⟨⟩ hnot
    exact absurd hverified hnot
  rcases keys_recordedDocuments g.collections hcheck with ⟨hcreated, hkeys⟩ | ⟨-, hkeys⟩
  · have hid : (CorpusStep.record document now).created = some document.wizardId.val := if_pos hcreated
    have hids : (CorpusState.identities { s with pendingReplacement := some g', updatedAt := timestamp now }).Perm
        (document.key :: s.identities) := by
      simp only [CorpusState.identities, documentsOf, hg, Option.elim_some, hdocuments, List.map_append, hkeys,
        List.append_assoc]
      exact (List.perm_middle.append_left _).trans List.perm_middle
    have hnew : document.key ∉ s.identities := fun hmem =>
      hfresh document.wizardId.val hid (hi.created document.key hmem)
    refine ⟨hi.user, hconsistent (hids.nodup_iff.mpr (List.nodup_cons.mpr ⟨hnew, hi.consistent.identities⟩)), hdated,
      fun key hkey => ?_, hmarked⟩
    rcases List.mem_cons.mp (hids.mem_iff.mp hkey) with rfl | hold
    · rw [List.filterMap_append, List.mem_append]
      exact .inr (List.mem_filterMap.mpr ⟨_, List.mem_singleton_self _, hid⟩)
    · exact created_mono (hi.created key hold)
  · have hids : CorpusState.identities { s with pendingReplacement := some g', updatedAt := timestamp now } =
        s.identities := by
      simp only [CorpusState.identities, documentsOf, hg, Option.elim_some, hdocuments, List.map_append, hkeys]
    exact hi.of_sublist rfl hconsistent hdated (hids ▸ List.Subperm.refl _) hmarked

theorem CorpusInvariant.verify {verified now : UtcTime} (hi : CorpusInvariant user as evs s)
    (h : s.markReplacementVerified verified now = .ok s') :
    CorpusInvariant user (as ++ [.verify verified now]) (evs ++ (CorpusStep.verify verified now).events s') s' := by
  obtain ⟨g, g', hg, -, -, hvalues, rfl⟩ := CorpusState.verified_spec h
  have hdocuments : g'.documents = g.documents := documents_eq_of_values hvalues rfl
  have hcompleted : g'.completedAt = none :=
    (congrArg GenerationValues.completedAt hvalues).trans (hi.consistent.pendingReplacement g hg)
  have hids : CorpusState.identities { s with pendingReplacement := some g', updatedAt := timestamp now } = s.identities := by
    simp only [CorpusState.identities, documentsOf, hg, Option.elim_some, hdocuments]
  refine hi.of_sublist rfl (fun hnodup => ?_) ?_ (hids ▸ List.Subperm.refl _) ?_
  · refine ⟨hi.consistent.active, ?_, hi.consistent.pendingCleanup, hi.consistent.superseded, hnodup⟩
    rintro _ ⟨⟩
    exact hcompleted
  · refine ⟨⟨now, rfl⟩, hi.dated.active, ?_⟩
    rintro _ ⟨⟩
    obtain ⟨hcreated, -, hcompleted⟩ := hi.dated.pendingReplacement g hg
    rw [hvalues]
    refine ⟨hcreated, ?_, hcompleted⟩
    rintro _ ⟨⟩
    exact ⟨verified, rfl⟩
  · rintro _ ⟨⟩ -
    exact List.mem_append_right _ List.mem_cons_self

theorem CorpusInvariant.discard {now : UtcTime} (hi : CorpusInvariant user as evs s)
    (h : s.discardPendingReplacement now = .ok s') : CorpusInvariant user (as ++ [.discard now]) (evs ++ []) s' := by
  obtain rfl := CorpusState.discarded_spec h
  have hids : List.Sublist (CorpusState.identities { s with pendingReplacement := none, updatedAt := timestamp now })
      s.identities := by
    simp only [CorpusState.identities, documentsOf, Option.elim_none, List.append_nil]
    exact ((List.sublist_append_left _ _).append_right _).map _
  refine hi.of_sublist rfl (fun hnodup => ?_) ?_ hids.subperm nofun
  · exact ⟨hi.consistent.active, nofun, hi.consistent.pendingCleanup, hi.consistent.superseded, hnodup⟩
  · exact ⟨⟨now, rfl⟩, hi.dated.active, nofun⟩

theorem CorpusInvariant.promote {completed now : UtcTime} (hi : CorpusInvariant user as evs s)
    (h : s.promoteReplacement completed now = .ok s') :
    CorpusInvariant user (as ++ [.promote completed now]) (evs ++ []) s' := by
  obtain ⟨g, g', hg, hverified, hvalues, rfl⟩ := CorpusState.promoted_spec h
  have hdocuments : g'.documents = g.documents := documents_eq_of_values hvalues rfl
  have hcomplete : Complete g.documents := by
    obtain ⟨t, ht⟩ := Option.ne_none_iff_exists'.mp hverified
    exact (g.verified t ht).2
  have hids : (CorpusState.identities { s with
      active := some g', pendingReplacement := none, pendingCleanup := s.pendingCleanup ++ documentsOf s.active,
      updatedAt := timestamp now }).Perm s.identities := by
    simp only [CorpusState.identities, documentsOf, hg, Option.elim_some, Option.elim_none, hdocuments, List.append_nil]
    refine List.Perm.map _ ?_
    refine List.perm_append_comm.trans ?_
    rw [List.append_assoc]
    exact List.perm_append_comm
  refine hi.of_sublist rfl (fun hnodup => ?_) ?_ hids.subperm nofun
  · refine ⟨?_, nofun, fun d hd => ?_, fun hnone => (nomatch hnone), hnodup⟩
    · rintro _ ⟨⟩
      refine ⟨?_, ?_, hdocuments ▸ hcomplete⟩
      · exact fun hnone => nomatch (congrArg GenerationValues.completedAt hvalues).symm.trans hnone
      · exact fun hnone => hverified ((congrArg GenerationValues.verifiedAt hvalues).symm.trans hnone)
    · rcases List.mem_append.mp hd with hd | hd
      · exact hi.consistent.pendingCleanup d hd
      · cases ha : s.active with
        | none =>
          rw [ha] at hd
          cases hd
        | some active =>
          rw [ha] at hd
          exact (hi.consistent.active active ha).2.2.2 d hd
  · refine ⟨⟨now, rfl⟩, ?_, nofun⟩
    rintro _ ⟨⟩
    obtain ⟨hcreated, hverified, -⟩ := hi.dated.pendingReplacement g hg
    rw [hvalues]
    refine ⟨hcreated, hverified, ?_⟩
    rintro _ ⟨⟩
    exact ⟨completed, rfl⟩

theorem CorpusInvariant.remove {document : CorpusDocument} {now : UtcTime} (hi : CorpusInvariant user as evs s)
    (h : s.removePendingCleanup document now = .ok s') :
    CorpusInvariant user (as ++ [.remove document now]) (evs ++ []) s' := by
  obtain rfl := CorpusState.removed_spec h
  have hsub := List.filter_sublist (l := s.pendingCleanup)
    (p := fun item => !(item.collection = document.collection && item.wizardId = document.wizardId))
  refine hi.of_sublist rfl (fun hnodup => ?_) ⟨⟨now, rfl⟩, hi.dated.active, hi.dated.pendingReplacement⟩ ?_ ?_
  · refine ⟨hi.consistent.active, hi.consistent.pendingReplacement, fun d hd => ?_, fun hnone => ?_, hnodup⟩
    · exact hi.consistent.pendingCleanup d (hsub.subset hd)
    · exact List.filter_eq_nil_iff.mpr fun d hd => by
        rw [hi.consistent.superseded hnone] at hd
        cases hd
  · exact ((hsub.append_left _).map CorpusDocument.key).subperm
  · intro p hp hverified
    rw [List.append_nil]
    exact hi.marked p hp hverified

/-- A transition keeps the invariant, where its new wizard id is fresh. -/
theorem CorpusInvariant.step {a : CorpusStep} (hi : CorpusInvariant user as evs s)
    (hfresh : ∀ id ∈ a.created, id ∉ as.filterMap CorpusStep.created) (h : s.apply a = .ok s') :
    CorpusInvariant user (as ++ [a]) (evs ++ a.events s') s' := by
  cases a with
  | recordPolicy fixtures now => exact hi.recordPolicy h
  | begin runId fixtures created now => exact hi.begin h
  | record document now => exact hi.record hfresh h
  | verify verified now => exact hi.verify h
  | discard now => exact hi.discard h
  | promote completed now => exact hi.promote h
  | remove document now => exact hi.remove h

theorem step_eq_some_iff {a : CorpusStep} {ev : List (CorpusEvent env)} :
    (corpusMachine env).step s a = some (s', ev) ↔ s.apply a = .ok s' ∧ ev = a.events s' := by
  simp only [corpusMachine, Option.map_eq_some_iff, Prod.mk.injEq, toOption_eq_some_iff]
  constructor
  · rintro ⟨t, ht, rfl, rfl⟩
    exact ⟨ht, rfl⟩
  · rintro ⟨ht, rfl⟩
    exact ⟨s', ht, rfl, rfl⟩

theorem invariant_new (user : Text) (now : UtcTime) :
    CorpusInvariant user [] ([] : List (CorpusEvent env)) (CorpusState.new env user now) where
  user := rfl
  consistent := ⟨nofun, nofun, nofun, fun _ => rfl, List.nodup_nil⟩
  dated := ⟨⟨now, rfl⟩, nofun, nofun⟩
  created := nofun
  marked := nofun

/-- What every transition keeps, every run keeps. -/
theorem invariant_run {now : UtcTime} (hfresh : (as.filterMap CorpusStep.created).Nodup)
    (h : (corpusMachine env).run (CorpusState.new env user now) as = some (s, evs)) : CorpusInvariant user as evs s := by
  suffices hgen : (as.filterMap CorpusStep.created).Nodup → CorpusInvariant user as evs s from hgen hfresh
  clear hfresh
  refine (corpusMachine env).run_induction
    (I := fun as evs s => (as.filterMap CorpusStep.created).Nodup → CorpusInvariant user as evs s)
    (fun _ => invariant_new user now) (fun as evs t a u ev _ ih hstep hnodup => ?_) h
  obtain ⟨happly, rfl⟩ := step_eq_some_iff.mp hstep
  rw [List.filterMap_append, List.nodup_append] at hnodup
  refine (ih hnodup.1).step (fun id hid hold => ?_) happly
  exact hnodup.2.2 id hold id (List.mem_filterMap.mpr ⟨a, List.mem_singleton_self a, hid⟩) rfl

/-! ### Texts that JSON keeps -/

/-- A generation that differs in what it has gained on the way is as readable. -/
theorem GenerationValues.Readable.congr {v w : GenerationValues F} (h : v.Readable)
    (hw : w = { v with documents := w.documents, verifiedAt := w.verifiedAt, completedAt := w.completedAt }) :
    w.Readable := by
  rw [hw]
  exact ⟨h.generationId, h.textEncoding, h.textJoinSeparator, h.files, h.extensions, h.limits⟩

/-- A transition keeps the texts of a state readable, where its fixtures are valid. -/
theorem readable_step {a : CorpusStep} (hr : s.Readable) (hvalid : a.Valid) (h : s.apply a = .ok s') : s'.Readable := by
  cases a with
  | recordPolicy fixtures now =>
    obtain ⟨g, g', hg, hvalues, rfl⟩ := CorpusState.recordedPolicy_spec h
    refine ⟨hr.user, ?_, hr.pendingReplacement⟩
    rintro _ ⟨⟩
    obtain ⟨hid, hencoding, hseparator, hfiles, -, -⟩ := hr.active g hg
    rw [hvalues]
    exact ⟨hid, hencoding, hseparator, hfiles, hvalid.extensions, hvalid.limits⟩
  | begin runId fixtures created now =>
    obtain ⟨-, digest, g, hvalues, rfl⟩ := CorpusState.begun_spec h
    obtain ⟨hrun, hf⟩ := hvalid
    refine ⟨hr.user, hr.active, ?_⟩
    rintro _ ⟨⟩
    rw [hvalues]
    exact ⟨plain_str hrun, plain_str hf.textEncoding, plain_str hf.textJoinSeparator, hf.files, hf.extensions, hf.limits⟩
  | record document now =>
    obtain ⟨g, g', hg, -, -, hvalues, rfl⟩ := CorpusState.recorded_spec h
    refine ⟨hr.user, hr.active, ?_⟩
    rintro _ ⟨⟩
    exact (hr.pendingReplacement g hg).congr (by rw [hvalues])
  | verify verified now =>
    obtain ⟨g, g', hg, -, -, hvalues, rfl⟩ := CorpusState.verified_spec h
    refine ⟨hr.user, hr.active, ?_⟩
    rintro _ ⟨⟩
    exact (hr.pendingReplacement g hg).congr (by rw [hvalues])
  | discard now =>
    obtain rfl := CorpusState.discarded_spec h
    exact ⟨hr.user, hr.active, nofun⟩
  | promote completed now =>
    obtain ⟨g, g', hg, -, hvalues, rfl⟩ := CorpusState.promoted_spec h
    refine ⟨hr.user, ?_, nofun⟩
    rintro _ ⟨⟩
    exact (hr.pendingReplacement g hg).congr (by rw [hvalues])
  | remove document now =>
    obtain rfl := CorpusState.removed_spec h
    exact ⟨hr.user, hr.active, hr.pendingReplacement⟩

/-- So does a run. -/
theorem readable_run (hu : Unpaired user) {now : UtcTime} (hvalid : ∀ a ∈ as, a.Valid)
    (h : (corpusMachine env).run (CorpusState.new env user now) as = some (s, evs)) : s.Readable := by
  suffices hgen : (∀ a ∈ as, a.Valid) → s.Readable from hgen hvalid
  clear hvalid
  have hnew : (CorpusState.new env user now).Readable := ⟨hu, by rintro g ⟨⟩, by rintro g ⟨⟩⟩
  refine (corpusMachine env).run_induction (I := fun as _ s => (∀ a ∈ as, a.Valid) → s.Readable)
    (fun _ => hnew) (fun as evs t a u ev _ ih hstep hvalid => ?_) h
  have hlast : a.Valid := hvalid a (List.mem_append_right _ (List.mem_singleton_self a))
  exact readable_step (ih fun b hb => hvalid b (List.mem_append_left _ hb)) hlast (step_eq_some_iff.mp hstep).1

/-! ### Generations that become active or are superseded -/

/-- The generations differ in nothing but their ingestion policy. -/
def SameGeneration (g g' : CorpusGeneration env) : Prop :=
  ∃ policy, g'.values = { g.values with ingestionPolicy := policy }

/-- Exactly one document of each collection, and it is saved. -/
def OneSaved (g : CorpusGeneration env) : Prop :=
  ∀ c : FixtureCollection, ∃ d ∈ g.documents, d.collection = c ∧ d.status = .saved ∧
    ∀ d' ∈ g.documents, d'.collection = c → d' = d

/-- A verified generation has exactly one saved document of each collection. -/
theorem oneSaved_of_verified {g : CorpusGeneration env} (h : g.verifiedAt ≠ none) : OneSaved g := by
  obtain ⟨t, ht⟩ := Option.ne_none_iff_exists'.mp h
  obtain ⟨-, ⟨hknowledge, hpolicy⟩, hsaved⟩ := g.verified t ht
  intro c
  have hmem : c ∈ g.documents.map CorpusDocument.collection := by
    cases c with
    | knowledge => exact hknowledge
    | policy => exact hpolicy
  obtain ⟨d, hd, rfl⟩ := List.mem_map.mp hmem
  exact ⟨d, hd, rfl, hsaved d hd, fun d' hd' h' => eq_of_collection g.collections hd' hd h'⟩

/-- What a transition makes of the active generation: it is the same as before, or the verified
replacement, and then the documents of the one before are to be deleted. -/
theorem active_cases {a : CorpusStep} (h : s.apply a = .ok s') :
    (∀ g', g' ∈ s'.active → ∃ g ∈ s.active, SameGeneration g g') ∧ (∀ g ∈ s.active, ∃ g' ∈ s'.active, SameGeneration g g') ∨
      ∃ p g', s.pendingReplacement = some p ∧ p.verifiedAt ≠ none ∧ s'.active = some g' ∧
        g'.values = { p.values with completedAt := g'.completedAt } ∧
        ∀ g ∈ s.active, ∀ d ∈ g.documents, d ∈ s'.pendingCleanup := by
  have hsame : s'.active = s.active → (∀ g', g' ∈ s'.active → ∃ g ∈ s.active, SameGeneration g g') ∧
      ∀ g ∈ s.active, ∃ g' ∈ s'.active, SameGeneration g g' := by
    intro heq
    rw [heq]
    exact ⟨fun g hg => ⟨g, hg, g.ingestionPolicy, rfl⟩, fun g hg => ⟨g, hg, g.ingestionPolicy, rfl⟩⟩
  cases a with
  | recordPolicy fixtures now =>
    obtain ⟨g, g', hg, hvalues, rfl⟩ := CorpusState.recordedPolicy_spec h
    refine .inl ⟨?_, fun g₀ hg₀ => ?_⟩
    · rintro _ ⟨⟩
      exact ⟨g, hg, _, hvalues⟩
    · obtain rfl : g₀ = g := Option.some.inj (hg₀.symm.trans hg)
      exact ⟨g', rfl, _, hvalues⟩
  | begin runId fixtures created now =>
    obtain ⟨-, digest, g, -, rfl⟩ := CorpusState.begun_spec h
    exact .inl (hsame rfl)
  | record document now =>
    obtain ⟨g, g', -, -, -, -, rfl⟩ := CorpusState.recorded_spec h
    exact .inl (hsame rfl)
  | verify verified now =>
    obtain ⟨g, g', -, -, -, -, rfl⟩ := CorpusState.verified_spec h
    exact .inl (hsame rfl)
  | discard now =>
    obtain rfl := CorpusState.discarded_spec h
    exact .inl (hsame rfl)
  | promote completed now =>
    obtain ⟨p, g', hp, hverified, hvalues, rfl⟩ := CorpusState.promoted_spec h
    have hcompleted : g'.completedAt = some (timestamp completed) := congrArg GenerationValues.completedAt hvalues
    refine .inr ⟨p, g', hp, hverified, rfl, by rw [hvalues, hcompleted], fun g hg d hd => ?_⟩
    refine List.mem_append_right _ ?_
    rwa [hg]
  | remove document now =>
    obtain rfl := CorpusState.removed_spec h
    exact .inl (hsame rfl)

/-- A document that is to be deleted stays so, unless a step removes it. -/
theorem pendingCleanup_step {a : CorpusStep} (h : s.apply a = .ok s') {d : CorpusDocument} (hd : d ∈ s.pendingCleanup) :
    d ∈ s'.pendingCleanup ∨ ∃ document now, a = .remove document now ∧ document.key = d.key := by
  cases a with
  | recordPolicy fixtures now =>
    obtain ⟨g, g', -, -, rfl⟩ := CorpusState.recordedPolicy_spec h
    exact .inl hd
  | begin runId fixtures created now =>
    obtain ⟨-, digest, g, -, rfl⟩ := CorpusState.begun_spec h
    exact .inl hd
  | record document now =>
    obtain ⟨g, g', -, -, -, -, rfl⟩ := CorpusState.recorded_spec h
    exact .inl hd
  | verify verified now =>
    obtain ⟨g, g', -, -, -, -, rfl⟩ := CorpusState.verified_spec h
    exact .inl hd
  | discard now =>
    obtain rfl := CorpusState.discarded_spec h
    exact .inl hd
  | promote completed now =>
    obtain ⟨p, g', -, -, -, rfl⟩ := CorpusState.promoted_spec h
    exact .inl (List.mem_append_left _ hd)
  | remove document now =>
    obtain rfl := CorpusState.removed_spec h
    by_cases hkey : d.collection = document.collection ∧ d.wizardId = document.wizardId
    · exact .inr ⟨document, now, rfl, by rw [CorpusDocument.key, CorpusDocument.key, hkey.1, hkey.2]⟩
    · refine .inl (List.mem_filter.mpr ⟨hd, ?_⟩)
      rw [Bool.not_eq_true', Bool.and_eq_false_iff, decide_eq_false_iff_not, decide_eq_false_iff_not]
      exact not_and_or.mp hkey

/-- So it does in a run. -/
theorem pendingCleanup_run {d : CorpusDocument} (hd : d ∈ s.pendingCleanup)
    (h : (corpusMachine env).run s as = some (s', evs)) :
    d ∈ s'.pendingCleanup ∨ ∃ document now, .remove document now ∈ as ∧ document.key = d.key := by
  refine (corpusMachine env).run_induction
    (I := fun as _ t => d ∈ t.pendingCleanup ∨ ∃ document now, .remove document now ∈ as ∧ document.key = d.key)
    (.inl hd) (fun as evs t a u ev _ ih hstep => ?_) h
  rcases ih with hin | ⟨document, now, hmem, hkey⟩
  · rcases pendingCleanup_step (step_eq_some_iff.mp hstep).1 hin with hin | ⟨document, now, rfl, hkey⟩
    · exact .inl hin
    · exact .inr ⟨document, now, List.mem_append_right _ (List.mem_singleton_self _), hkey⟩
  · exact .inr ⟨document, now, List.mem_append_left _ hmem, hkey⟩

end Steps

/-- The corpus state over a whole run with valid fixtures and fresh wizard ids: the file of the
state reached is read back as that state; a generation becomes active only where it was marked
verified and holds exactly one saved document of each collection; the documents of a
superseded generation are to be deleted until a step removes them; and no document of the
active generation is to be deleted or belongs to the pending replacement. -/
theorem corpus_state_machine (env : CorpusEnv F) {user : Text} (hu : Unpaired user) {now : UtcTime} {as : List CorpusStep}
    (hvalid : ValidSteps as) {s : CorpusState env} {evs : List (CorpusEvent env)}
    (h : (corpusMachine env).run (CorpusState.new env user now) as = some (s, evs)) :
    (∀ path, loadCorpusState env path (some (writeCorpusState s)) user = .ok (some s)) ∧
      (∀ bs a cs t ev u ev', as = bs ++ a :: cs → (corpusMachine env).run (CorpusState.new env user now) bs = some (t, ev) →
        (corpusMachine env).step t a = some (u, ev') →
        (∀ g' ∈ u.active, (∀ g ∈ t.active, ¬ SameGeneration g g') → ∃ p ∈ t.pendingReplacement,
          g'.values = { p.values with completedAt := g'.completedAt } ∧ OneSaved p ∧ .markedVerified p ∈ ev) ∧
        (∀ g ∈ t.active, (∀ g' ∈ u.active, ¬ SameGeneration g g') → ∀ d ∈ g.documents, ∀ ds, ds <+: cs →
          ∀ v ev'', (corpusMachine env).run u ds = some (v, ev'') →
            d ∈ v.pendingCleanup ∨ ∃ document now, .remove document now ∈ ds ∧ document.key = d.key)) ∧
      (∀ g ∈ s.active, ∀ d ∈ g.documents, d.key ∉ s.pendingCleanup.map CorpusDocument.key ∧
        d.key ∉ (documentsOf s.pendingReplacement).map CorpusDocument.key) := by
  have hi := invariant_run hvalid.fresh h
  refine ⟨fun path => ?_, fun bs a cs t ev u ev' has hbs hstep => ⟨fun g' hg' hnew => ?_, fun g hg hold d hd ds _ v ev'' hrun => ?_⟩,
    fun g hg d hd => ?_⟩
  · have hload := load_write hi.consistent hi.dated (readable_run hu hvalid.fixtures h) path
    rwa [hi.user] at hload
  · have hbefore : (bs.filterMap CorpusStep.created).Nodup := by
      have hnodup := hvalid.fresh
      rw [has, List.filterMap_append, List.nodup_append] at hnodup
      exact hnodup.1
    rcases active_cases (step_eq_some_iff.mp hstep).1 with ⟨hkept, -⟩ | ⟨p, q, hp, hverified, hq, hvalues, -⟩
    · obtain ⟨g, hg, hsame⟩ := hkept g' hg'
      exact absurd hsame (hnew g hg)
    · obtain rfl : g' = q := Option.some.inj (hg'.symm.trans hq)
      exact ⟨p, hp, hvalues, oneSaved_of_verified hverified, (invariant_run hbefore hbs).marked p hp hverified⟩
  · refine pendingCleanup_run ?_ hrun
    rcases active_cases (step_eq_some_iff.mp hstep).1 with ⟨-, hkept⟩ | ⟨p, q, -, -, -, -, hcleanup⟩
    · obtain ⟨g', hg', hsame⟩ := hkept g hg
      exact absurd hsame (hold g' hg')
    · exact hcleanup g hg d hd
  · have hnodup := hi.consistent.identities
    have hmem : d.key ∈ (documentsOf s.active).map CorpusDocument.key := by
      refine List.mem_map_of_mem ?_
      rwa [hg]
    rw [CorpusState.identities, List.map_append, List.map_append, List.append_assoc, List.nodup_append] at hnodup
    exact ⟨fun hin => hnodup.2.2 _ hmem _ (List.mem_append_right _ hin) rfl,
      fun hin => hnodup.2.2 _ hmem _ (List.mem_append_left _ hin) rfl⟩

/-! ### A run -/

/-- The digest of the manifest of `sampleFixtures`. -/
def sampleCorpusDigest : Sha256 where
  digits := (lit "37d8cb3431b3a29e37623c1ce48cb05bf4275612f7749a7c1ece28e9edc4faaf").filterMap digitOfChar
  length_digits := by decide +kernel

/-- One codec, and a hash that is right on one manifest. -/
def sampleCorpusEnv : CorpusEnv WholeFloat where
  codecName t := if t = lit "utf-8" then some t else none
  sha _ := sampleCorpusDigest
  otherTimestamp _ := none

/-- A file for each collection. -/
def sampleFixtures : WizardFixtures where
  inventory := {
    knowledge := [⟨lit "knowledge/a.txt", 1, lit "ca978112ca1bbdcafac231b39a23dc4da786eff8147c4e72b9807785afee48bb"⟩]
    policy := [⟨lit "policy/b.txt", 1, lit "3e23e8160039594a33894f6564e1b1348bbd7a0088d42c4acb73eeaed59c009d"⟩] }
  rules := ⟨[lit ".txt"], lit "utf-8", [10, 10], 10, 20, 5⟩

/-- The time of every step. -/
def sampleTime : UtcTime := ⟨2024, 1, 2, 3, 4, 5, 678000, by decide, by decide⟩

/-- A number as the text of a UUID. -/
def sampleUuid (n : ℕ) : UuidText := ⟨(Uuid.ofNat n).str, by rw [Uuid.ofText_str]; rfl⟩

/-- A document of a collection before its save is submitted. -/
def samplePreSubmit (c : FixtureCollection) (n : ℕ) (status : DocumentState) (h : status.isPreSubmit = true) :
    CorpusDocument where
  collection := c
  wizardId := sampleUuid n
  status := status
  taskId := none
  chunkIds := []
  storageFingerprint := none
  chunks_sorted := by decide
  task := h.symm
  integrity := by cases status <;> first | exact ⟨rfl, rfl⟩ | cases h

/-- The same document once its save was submitted. -/
def sampleSubmitted (c : FixtureCollection) (n : ℕ) : CorpusDocument where
  collection := c
  wizardId := sampleUuid n
  status := .saveSubmitted
  taskId := some (sampleUuid (n + 100))
  chunkIds := []
  storageFingerprint := none
  chunks_sorted := by decide
  task := rfl
  integrity := ⟨rfl, rfl⟩

/-- The same document once it is saved. -/
def sampleSaved (c : FixtureCollection) (n : ℕ) : CorpusDocument where
  collection := c
  wizardId := sampleUuid n
  status := .saved
  taskId := some (sampleUuid (n + 100))
  chunkIds := [sampleUuid (n + 200)]
  storageFingerprint := some ⟨sampleCorpusDigest.hexdigest, by decide +kernel⟩
  chunks_sorted := by simp [SortedUnique]
  task := rfl
  integrity := ⟨by simp, by simp⟩

/-- What is recorded of a document, in order. -/
def sampleStages (c : FixtureCollection) (n : ℕ) : List CorpusDocument :=
  [samplePreSubmit c n .created rfl, samplePreSubmit c n .saveSubmitting rfl, sampleSubmitted c n, sampleSaved c n]

/-- A replacement is begun, its two documents are recorded until they are saved, and it is marked verified. -/
def sampleReplacement (runId : Text) (n : ℕ) : List CorpusStep :=
  .begin runId sampleFixtures sampleTime sampleTime ::
    ((sampleStages .knowledge n ++ sampleStages .policy (n + 1)).map fun d => .record d sampleTime) ++
      [.verify sampleTime sampleTime]

/-- A first generation becomes active and a second one is verified. -/
def sampleBefore : List CorpusStep :=
  sampleReplacement (lit "first") 1 ++ .promote sampleTime sampleTime :: sampleReplacement (lit "second") 3

/-- Then the second one becomes active, and a document of the first one is deleted. -/
def sampleCorpusSteps : List CorpusStep :=
  sampleBefore ++ [.promote sampleTime sampleTime, .remove (sampleSaved .knowledge 1) sampleTime]

theorem sampleFixtures_readable : sampleFixtures.Readable where
  textEncoding := (scalar_of_encodable rfl).unpaired
  textJoinSeparator := (scalar_of_encodable rfl).unpaired
  files := by
    show ∀ e ∈ ([_, _] : List FixtureEntry), _
    rw [List.forall_mem_cons, List.forall_mem_singleton]
    exact ⟨⟨(scalar_of_encodable rfl).unpaired, by decide⟩, (scalar_of_encodable rfl).unpaired, by decide⟩
  extensions := List.forall_mem_singleton.mpr (scalar_of_encodable rfl).unpaired
  limits := by decide

theorem sampleReplacement_valid {runId : Text} (h : Unpaired runId) (n : ℕ) :
    ∀ a ∈ sampleReplacement runId n, a.Valid := by
  intro a ha
  rcases List.mem_append.mp ha with ha | ha
  · rcases List.mem_cons.mp ha with rfl | ha
    · exact ⟨h, sampleFixtures_readable⟩
    · obtain ⟨d, -, rfl⟩ := List.mem_map.mp ha
      trivial
  · obtain rfl := List.mem_singleton.mp ha
    trivial

theorem sampleCorpusSteps_valid : ValidSteps sampleCorpusSteps where
  fixtures := by
    have hfirst := sampleReplacement_valid (scalar_of_encodable (t := lit "first") rfl).unpaired 1
    have hsecond := sampleReplacement_valid (scalar_of_encodable (t := lit "second") rfl).unpaired 3
    simp only [sampleCorpusSteps, sampleBefore, List.forall_mem_append, List.forall_mem_cons]
    exact ⟨⟨hfirst, trivial, hsecond⟩, trivial, trivial, List.forall_mem_nil _⟩
  fresh := by decide +kernel

/-- Generations with different ids are different. -/
theorem not_sameGeneration {g g' : CorpusGeneration env} (h : g.generationId ≠ g'.generationId) : ¬ SameGeneration g g' := by
  rintro ⟨policy, hvalues⟩
  exact h (Json.str.inj (congrArg GenerationValues.generationId hvalues)).symm

/-- The file of the state reached is read back; what became active was verified with two saved documents; the documents of
the first generation are to be deleted, but for the one that was; and none of the second one is. -/
theorem corpus_state_machine_sample : ∃ t ev u ev' s evs,
    (corpusMachine sampleCorpusEnv).run (CorpusState.new sampleCorpusEnv (lit "diagnostic") sampleTime) sampleBefore =
      some (t, ev) ∧
    (corpusMachine sampleCorpusEnv).step t (.promote sampleTime sampleTime) = some (u, ev') ∧
    (corpusMachine sampleCorpusEnv).run (CorpusState.new sampleCorpusEnv (lit "diagnostic") sampleTime) sampleCorpusSteps =
      some (s, evs) ∧
    loadCorpusState sampleCorpusEnv "state.json" (some (writeCorpusState s)) (lit "diagnostic") = .ok (some s) ∧
    (∃ q ∈ u.active, ∃ p ∈ t.pendingReplacement, q.values = { p.values with completedAt := q.completedAt } ∧ OneSaved p ∧
      .markedVerified p ∈ ev) ∧
    (∃ g ∈ t.active, OneSaved g ∧ ∀ d ∈ g.documents, d ∈ s.pendingCleanup ∨ ∃ document now,
      .remove document now ∈ [CorpusStep.remove (sampleSaved .knowledge 1) sampleTime] ∧ document.key = d.key) ∧
    s.pendingCleanup.map CorpusDocument.key = [(sampleSaved .policy 2).key] ∧
    ∀ g ∈ s.active, ∀ d ∈ g.documents, d.key ∉ s.pendingCleanup.map CorpusDocument.key ∧
      d.key ∉ (documentsOf s.pendingReplacement).map CorpusDocument.key := by
  have hfacts : (((corpusMachine sampleCorpusEnv).run (CorpusState.new sampleCorpusEnv (lit "diagnostic") sampleTime)
      sampleBefore).bind fun r => ((corpusMachine sampleCorpusEnv).step r.1 (.promote sampleTime sampleTime)).bind fun r₁ =>
        ((corpusMachine sampleCorpusEnv).step r₁.1 (.remove (sampleSaved .knowledge 1) sampleTime)).map fun r₂ =>
          decide (r.1.active.map CorpusGeneration.generationId = some (lit "first") ∧
            (r.1.active.bind CorpusGeneration.verifiedAt).isSome = true ∧
            r₁.1.active.map CorpusGeneration.generationId = some (lit "second") ∧
            r₂.1.pendingCleanup.map CorpusDocument.key = [(sampleSaved .policy 2).key])) = some true := by
    decide +kernel
  obtain ⟨⟨t, ev⟩, hbefore, hfacts⟩ := Option.bind_eq_some_iff.mp hfacts
  obtain ⟨⟨u, ev'⟩, hstep, hfacts⟩ := Option.bind_eq_some_iff.mp hfacts
  obtain ⟨⟨s, ev''⟩, hremove, hfacts⟩ := Option.map_eq_some_iff.mp hfacts
  obtain ⟨hfirst, hverified, hsecond, hcleanup⟩ := of_decide_eq_true hfacts
  obtain ⟨g, hg, hgid⟩ := Option.map_eq_some_iff.mp hfirst
  obtain ⟨q, hq, hqid⟩ := Option.map_eq_some_iff.mp hsecond
  have hremoved : (corpusMachine sampleCorpusEnv).run u [.remove (sampleSaved .knowledge 1) sampleTime] = some (s, ev'') :=
    ((corpusMachine sampleCorpusEnv).run_cons_iff).mpr ⟨s, ev'', [], hremove, rfl, (List.append_nil ev'').symm⟩
  have hlast : (corpusMachine sampleCorpusEnv).run t [.promote sampleTime sampleTime, .remove (sampleSaved .knowledge 1) sampleTime] =
      some (s, ev' ++ ev'') :=
    ((corpusMachine sampleCorpusEnv).run_cons_iff).mpr ⟨u, ev', ev'', hstep, hremoved, rfl⟩
  have hrun := ((corpusMachine sampleCorpusEnv).run_append_iff).mpr ⟨t, ev, ev' ++ ev'', hbefore, hlast, rfl⟩
  have huser : Unpaired (lit "diagnostic") := (scalar_of_encodable rfl).unpaired
  obtain ⟨hload, hmachine, hnone⟩ := corpus_state_machine sampleCorpusEnv huser sampleCorpusSteps_valid hrun
  obtain ⟨hactive, hsuperseded⟩ := hmachine sampleBefore _ _ t ev u ev' rfl hbefore hstep
  have hdifferent : ¬ SameGeneration g q := not_sameGeneration (by rw [hgid, hqid]; decide)
  refine ⟨t, ev, u, ev', s, _, hbefore, hstep, hrun, hload "state.json", ⟨q, hq, hactive q hq fun g' hg' => ?_⟩,
    ⟨g, hg, ?_, fun d hd => ?_⟩, hcleanup, hnone⟩
  · obtain rfl : g = g' := Option.some.inj (hg.symm.trans hg')
    exact hdifferent
  · rw [hg, Option.bind_some] at hverified
    exact oneSaved_of_verified (Option.isSome_iff_ne_none.mp hverified)
  · refine hsuperseded g hg (fun q' hq' => ?_) d hd _ List.prefix_rfl s ev'' hremoved
    obtain rfl : q = q' := Option.some.inj (hq.symm.trans hq')
    exact hdifferent

end TenantRag

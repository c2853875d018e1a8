import TenantRag.Rag.Normalization
import TenantRag.Rag.RetrievalIsolation

/-!
# Retrieval does not depend on the order of storage

The results of a search come in some order, and so do the scores of the cross encoder.
Neither order reaches the answer: normalization keeps the same candidates of any
permutation, and the scored candidates are sorted by score and object id, which leaves
one order.

## What is proved

* `crossEncoder_toOption` — the scored candidates are a function of the set of candidates.
* `retrieve_perm` — two retrievals over permuted results return the same list, or both raise.
-/

namespace TenantRag

variable {K : Type}

/-! ### Scores of texts -/

/-- A reranker scores every text by the query and the text alone, and returns the scores in any order. -/
def ScoresBy (score : Text → Text → VectorItem K) (rerank : Text → List Text → Except PyError (Option (List (RawScore K)))) :
    Prop :=
  ∀ q texts, ∃ raw, rerank q texts = .ok (some raw) ∧
    raw.Perm (texts.zipIdx.map fun t => .result (.int t.2) (score q t.1))

/-- A candidate with the score of its text, where that is a number. -/
def scoredBy (score : Text → Text → VectorItem K) (q : Text) (c : SearchResult) : Option (Candidate K) :=
  (rerankScore (score q c.retrievalText)).toOption.map c.scored

theorem mapM_option_eq {α β : Type} (f : α → Option β) (l : List α) :
    l.mapM f = if ∀ a ∈ l, (f a).isSome then some (l.filterMap f) else none := by
  induction l with
  | nil => rfl
  | cons a l ih =>
    rw [List.mapM_cons, ih]
    cases ha : f a with
    | none => simp [ha]
    | some b =>
      by_cases hall : ∀ x ∈ l, (f x).isSome
      · rw [if_pos hall, if_pos (List.forall_mem_cons.mpr ⟨by simp [ha], hall⟩), List.filterMap_cons, ha]
        rfl
      · rw [if_neg hall, if_neg fun h => hall (List.forall_mem_cons.mp h).2]
        rfl

/-- The score that names a place. -/
def scoreAt (score : Text → Text → VectorItem K) (q : Text) (texts : List Text) (i : ℕ) : RawScore K :=
  .result (.int i) (score q (texts.getD i []))

/-- Scores in any order are those of the places in some order. -/
theorem ScoresBy.places {score : Text → Text → VectorItem K}
    {rerank : Text → List Text → Except PyError (Option (List (RawScore K)))} (h : ScoresBy score rerank) (q : Text)
    (texts : List Text) : ∃ places : List ℕ, places.Perm (List.range texts.length) ∧
      rerank q texts = .ok (some (places.map (scoreAt score q texts))) := by
  obtain ⟨raw, hraw, hperm⟩ := h q texts
  have hindexed : (texts.zipIdx.map fun t => RawScore.result (.int t.2) (score q t.1)) =
      (List.range texts.length).map (scoreAt score q texts) := by
    refine List.ext_getElem (by simp) fun i h₁ h₂ => ?_
    have hi : i < texts.length := by simpa using h₁
    simp [scoreAt, hi]
  rw [hindexed] at hperm
  obtain ⟨places, hplaces, rfl⟩ : ∃ places : List ℕ, places.Perm (List.range texts.length) ∧
      places.map (scoreAt score q texts) = raw := by
    have hcomp : Relation.Comp (List.Forall₂ fun i r => scoreAt score q texts i = r) List.Perm
        (List.range texts.length) raw :=
      ⟨_, List.forall₂_map_right_iff.mpr (List.forall₂_same.mpr fun _ _ => rfl), hperm.symm⟩
    rw [List.forall₂_comp_perm_eq_perm_comp_forall₂] at hcomp
    obtain ⟨places, hplaces, hall⟩ := hcomp
    exact ⟨places, hplaces.symm, List.forall₂_eq_eq_eq ▸ List.forall₂_map_left_iff.mpr hall⟩
  exact ⟨places, hplaces, hraw⟩

/-- The scores that name some places give the candidates there. -/
theorem scoreCandidates_toOption {score : Text → Text → VectorItem K} {q : Text} {cs : List SearchResult}
    {places used : List ℕ} (hnodup : places.Nodup) (h : ∀ i ∈ places, i ∉ used ∧ i < cs.length) :
    (scoreCandidates cs (places.map (scoreAt score q (cs.map SearchResult.retrievalText))) used).toOption =
      (picks cs places).mapM (scoredBy score q) := by
  induction places generalizing used with
  | nil => rfl
  | cons i places ih =>
    obtain ⟨hi, hplaces⟩ := List.forall_mem_cons.mp h
    obtain ⟨hnot, hnodup⟩ := List.nodup_cons.mp hnodup
    have hget : cs[i]? = some cs[i] := List.getElem?_eq_getElem hi.2
    have htext : (cs.map SearchResult.retrievalText).getD i [] = cs[i].retrievalText := by simp [hi.2]
    have hindex : rerankIndex cs.length (.int (i : ℤ)) = .ok i := by
      rw [← Int.ofNat_eq_natCast, rerankIndex, if_pos hi.2]
    have hfree : ∀ j ∈ places, j ∉ i :: used ∧ j < cs.length := fun j hj => by
      rw [List.mem_cons, not_or]
      exact ⟨⟨fun heq => hnot (heq ▸ hj), (hplaces j hj).1⟩, (hplaces j hj).2⟩
    have hrest := ih hnodup hfree
    rw [picks_cons hget, List.mapM_cons, ← hrest, List.map_cons, scoreAt, htext, scoreCandidates]
    simp only [hindex, if_neg hi.1, hget, scoredBy]
    cases rerankScore (score q cs[i].retrievalText) with
    | error e => rfl
    | ok x =>
      simp only
      cases scoreCandidates cs (places.map (scoreAt score q (cs.map SearchResult.retrievalText))) (i :: used) with
      | error e => rfl
      | ok rest => rfl

section Order

variable [LinearOrder K]

/-- Two sorted lists of candidates with one set of elements are the same, where ids are not shared. -/
theorem sorted_eq_of_perm {a b : List (Candidate K)} (hids : (a.map Candidate.objectId).Nodup) (h : a.Perm b) :
    a.insertionSort Candidate.before = b.insertionSort Candidate.before := by
  have ha := List.perm_insertionSort Candidate.before a
  have hb := List.perm_insertionSort Candidate.before b
  refine ((ha.trans h).trans hb.symm).eq_of_pairwise (fun x y hx hy hxy hyx => ?_) (List.pairwise_insertionSort _ a)
    (List.pairwise_insertionSort _ b)
  have hx' : x ∈ a := ha.mem_iff.mp hx
  have hy' : y ∈ a := h.mem_iff.mpr (hb.mem_iff.mp hy)
  exact List.inj_on_of_nodup_map hids hx' hy' (Candidate.objectId_eq_of_before hxy hyx)

omit [LinearOrder K] in
theorem map_objectId_filterMap_sublist (score : Text → Text → VectorItem K) (q : Text) (cs : List SearchResult) :
    ((cs.filterMap (scoredBy score q)).map Candidate.objectId).Sublist (cs.map SearchResult.objectId) := by
  induction cs with
  | nil => exact List.nil_sublist _
  | cons c cs ih =>
    rw [List.filterMap_cons, List.map_cons, scoredBy]
    cases rerankScore (score q c.retrievalText) with
    | error e => exact ih.cons _
    | ok x => exact ih.cons_cons _

/-- The scored candidates are a function of the set of candidates. -/
theorem crossEncoder_toOption {score : Text → Text → VectorItem K}
    {rerank : Text → List Text → Except PyError (Option (List (RawScore K)))} (hscores : ScoresBy score rerank)
    {q : Text} {cs : List SearchResult} (hids : (cs.map SearchResult.objectId).Nodup) :
    (crossEncoder rerank q cs).toOption =
      if ∀ c ∈ cs, (scoredBy score q c).isSome then
        some ((cs.filterMap (scoredBy score q)).insertionSort Candidate.before)
      else none := by
  rw [crossEncoder]
  by_cases hempty : cs.isEmpty
  · rw [if_pos hempty]
    rw [List.isEmpty_iff] at hempty
    subst hempty
    rfl
  rw [if_neg hempty]
  obtain ⟨places, hplaces, hraw⟩ := hscores.places q (cs.map SearchResult.retrievalText)
  rw [List.length_map] at hplaces
  have hlt : ∀ i ∈ places, i ∉ ([] : List ℕ) ∧ i < cs.length := fun i hi =>
    ⟨List.not_mem_nil, List.mem_range.mp (hplaces.mem_iff.mp hi)⟩
  have hnodup : places.Nodup := hplaces.nodup_iff.mpr List.nodup_range
  have hpicks : (picks cs places).Perm cs := by
    have h : (picks cs places).Perm (picks cs (List.range cs.length)) := picks_perm_of_perm hplaces
    rwa [picks_range] at h
  have hscored : (scoreCandidates cs (places.map (scoreAt score q (cs.map SearchResult.retrievalText))) []).toOption =
      (picks cs places).mapM (scoredBy score q) := scoreCandidates_toOption hnodup hlt
  rw [mapM_option_eq] at hscored
  have hlength : (places.map (scoreAt score q (cs.map SearchResult.retrievalText))).length = cs.length := by
    rw [List.length_map, hplaces.length_eq, List.length_range]
  rw [hraw]
  simp only [bind, Except.bind, if_neg (not_not.mpr hlength)]
  have hall : (∀ c ∈ picks cs places, (scoredBy score q c).isSome) ↔ ∀ c ∈ cs, (scoredBy score q c).isSome := by
    simp only [hpicks.mem_iff]
  by_cases hnumbers : ∀ c ∈ cs, (scoredBy score q c).isSome
  · rw [if_pos (hall.mpr hnumbers), toOption_eq_some_iff] at hscored
    rw [if_pos hnumbers, hscored]
    have hperm := hpicks.filterMap (scoredBy score q)
    have hids' := (map_objectId_filterMap_sublist score q cs).nodup hids
    rw [sorted_eq_of_perm hids' hperm.symm]
    rfl
  · rw [if_neg (mt hall.mp hnumbers)] at hscored
    rw [if_neg hnumbers]
    cases hresult : scoreCandidates cs (places.map (scoreAt score q (cs.map SearchResult.retrievalText))) [] with
    | error e => rfl
    | ok selected =>
      rw [hresult] at hscored
      cases hscored

/-- Permuted candidates have the same scored candidates. -/
theorem crossEncoder_perm {score : Text → Text → VectorItem K}
    {rerank rerank' : Text → List Text → Except PyError (Option (List (RawScore K)))} (h : ScoresBy score rerank)
    (h' : ScoresBy score rerank') {q : Text} {cs cs' : List SearchResult} (hids : (cs.map SearchResult.objectId).Nodup)
    (hperm : cs.Perm cs') : (crossEncoder rerank q cs).toOption = (crossEncoder rerank' q cs').toOption := by
  have hids' : (cs'.map SearchResult.objectId).Nodup := (hperm.map _).nodup_iff.mp hids
  rw [crossEncoder_toOption h hids, crossEncoder_toOption h' hids']
  simp only [hperm.mem_iff]
  split_ifs with hnumbers
  · rw [sorted_eq_of_perm ((map_objectId_filterMap_sublist score q cs).nodup hids) (hperm.filterMap _)]
  · rfl

/-! ### Two runs -/

variable [Field K]

/-- What follows the scores does not look at the candidates. -/
theorem retrieveScored_final (S : RetrievalSettings K) (R : RetrievalRuntime K) (client : CollectionClient K)
    (T : CollectionType) (cs cs' : List SearchResult) (scored : List (Candidate K)) :
    (retrieveScored S R client T cs scored).map RetrievalStages.final =
      (retrieveScored S R client T cs' scored).map RetrievalStages.final := by
  simp only [retrieveScored, bind, Except.bind]
  cases rerankedCandidates (S.config T) T scored with
  | error e => rfl
  | ok reranked =>
    dsimp only
    cases hydratePool R.vectors client.hydrateMmrHead T ((eligibleCandidates (S.config T) T reranked).take
        (adaptiveK R.sigmoid (S.config T) (eligibleCandidates (S.config T) T reranked))) with
    | error e => rfl
    | ok hydrated =>
      dsimp only
      cases selectPool R.vectors (S.config T) hydrated.1 hydrated.2 with
      | error e => rfl
      | ok selected =>
        dsimp only
        cases finalResults T selected with
        | error e => rfl
        | ok results =>
          dsimp only
          cases budgeted S R.encode T results with
          | error e => rfl
          | ok final => rfl

/-- Two retrievals over permuted results, whose rerankers score texts alike and answer in any order,
return the same list, or both raise. -/
theorem retrieve_perm {score : Text → Text → VectorItem K}
    {rerank rerank' : Text → List Text → Except PyError (Option (List (RawScore K)))} (h : ScoresBy score rerank)
    (h' : ScoresBy score rerank') {results results' : List RawResult} (hperm : results.Perm results')
    (S : RetrievalSettings K) (R : RetrievalRuntime K)
    (hydrate : List SearchResult → Except PyError (Option (List (RawHydrated K)))) (T : CollectionType) (q : Text)
    (v : RawMatrix K) :
    (retrieve S { R with rerank := rerank } ⟨fun _ _ _ => .ok (some results), hydrate⟩ T q v).toOption =
      (retrieve S { R with rerank := rerank' } ⟨fun _ _ _ => .ok (some results'), hydrate⟩ T q v).toOption := by
  rw [retrieve, retrieve, retrieveStages, retrieveStages]
  simp only [bind, Except.bind]
  cases requiredText (.str q) "query_text" with
  | error e => rfl
  | ok query =>
    dsimp only
    cases queryMultiVector v with
    | error e => rfl
    | ok vector =>
      dsimp only [retrieveFrom, bind, Except.bind]
      have hcandidates : (normalizedCandidates R.uuid5 T results).Perm (normalizedCandidates R.uuid5 T results') :=
        normalizedCandidates_perm hperm
      have hscored := crossEncoder_perm h h' (q := query) (normalizedCandidates_nodup results) hcandidates
      cases hs : crossEncoder rerank query (normalizedCandidates R.uuid5 T results) with
      | error e =>
        cases hs' : crossEncoder rerank' query (normalizedCandidates R.uuid5 T results') with
        | error e' => rfl
        | ok scored' =>
          rw [hs, hs'] at hscored
          cases hscored
      | ok scored =>
        rw [hs] at hscored
        have hs' := toOption_eq_some_iff.mp hscored.symm
        rw [hs']
        exact congrArg Except.toOption (retrieveScored_final S R ⟨fun _ _ _ => .ok (some results), hydrate⟩ T
          (normalizedCandidates R.uuid5 T results) (normalizedCandidates R.uuid5 T results') scored)

end Order

/-! ### Two policy chunks -/

/-- A result of a search for the user's chunk with a number. -/
def resultSample (n : ℕ) : RawResult :=
  .result (.str (Uuid.ofNat n).str) (.str (Uuid.ofNat n).str) (.str (lit "opening hours")) .none

/-- The scores of the sample, the last first. -/
def rerankBackwards (_ : Text) (texts : List Text) : Except PyError (Option (List (RawScore ℚ))) :=
  .ok (some (texts.zipIdx.map fun t => RawScore.result (.int t.2) (.number 1)).reverse)

/-- Every request is answered with its own identity. -/
def hydrateSample (requests : List SearchResult) : Except PyError (Option (List (RawHydrated ℚ))) :=
  .ok (some (requests.map fun c => .result (.str c.objectId.str) (.str c.canonicalId.str) .notSequence .none .none .none))

/-- A search for the policy chunks that storage returns in this order. -/
def retrieveSample (rerank : Text → List Text → Except PyError (Option (List (RawScore ℚ)))) (results : List RawResult) :
    Except PyError (List (ContextItem ℚ)) :=
  retrieve settingsSample { runtimeSample with rerank := rerank } ⟨fun _ _ _ => .ok (some results), hydrateSample⟩
    .policy (lit "hours?") querySample

/-- Both orders return both chunks. -/
theorem retrieve_perm_sample :
    (retrieveSample runtimeSample.rerank [resultSample 1, resultSample 2]).toOption =
        (retrieveSample rerankBackwards [resultSample 2, resultSample 1]).toOption ∧
      (retrieveSample runtimeSample.rerank [resultSample 1, resultSample 2]).toOption.map List.length = some 2 := by
  have hforwards : ScoresBy (fun _ _ => .number 1) runtimeSample.rerank := fun q texts => ⟨_, rfl, .refl _⟩
  have hbackwards : ScoresBy (fun _ _ => .number 1) rerankBackwards := fun q texts => ⟨_, rfl, List.reverse_perm _⟩
  refine ⟨?_, by decide +kernel⟩
  exact retrieve_perm hforwards hbackwards (.swap _ _ _) settingsSample runtimeSample hydrateSample .policy
    (lit "hours?") querySample

end TenantRag

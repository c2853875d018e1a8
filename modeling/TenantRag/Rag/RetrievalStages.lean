import TenantRag.Foundations.Picks
import TenantRag.Foundations.Result
import TenantRag.Rag.Retrieval
import TenantRag.Weaviate.Isolation

/-!
# The stages of retrieval

What each stage of `retrieve` leaves of the list before it, from the response of the
search to the final list.

## What is proved

* `retrieveStages_run` — the stages of a retrieval that returned, one after the other.
* `crossEncoder_spec` — the candidates in the order of their scores, none added or lost.
* `collapseConversations_spec` — each conversation stands for its best segment.
* `hydratePool_spec` — a part of the pool in its order, each with its answer.
* `mmr_spec`, `selectPool_spec` — MMR picks places of the pool, none of them twice.
* `finalResults_eq`, `budgetResults_spec` — the final list is a prefix of what was picked.
-/

namespace TenantRag

variable {K : Type}

/-! ### One run -/

section Run

variable [Field K] [LinearOrder K]

/-- What `retrieve` did before it returned. -/
structure RetrievalRun (S : RetrievalSettings K) (R : RetrievalRuntime K) (client : CollectionClient K)
    (T : CollectionType) (queryText : Text) (queryVector : RawMatrix K) (s : RetrievalStages K) : Prop where
  /-- The query is not blank. -/
  query : isBlank queryText = false
  /-- The candidates are those of the search. -/
  search : ∃ vector results, queryMultiVector queryVector = .ok vector ∧
    client.hybridSearch queryText vector (S.config T).candidateCount = .ok (some results) ∧
    s.candidates = normalizedCandidates R.uuid5 T results
  /-- They are scored. -/
  scored : crossEncoder R.rerank queryText s.candidates = .ok s.scored
  /-- Segments are collapsed to conversations. -/
  reranked : rerankedCandidates (S.config T) T s.scored = .ok s.reranked
  /-- The floor is applied. -/
  eligible : s.eligible = eligibleCandidates (S.config T) T s.reranked
  /-- The list is cut at its largest gap. -/
  adaptivePool : s.adaptivePool = s.eligible.take (adaptiveK R.sigmoid (S.config T) s.eligible)
  /-- The pool is hydrated. -/
  hydratedPool : hydratePool R.vectors client.hydrateMmrHead T s.adaptivePool = .ok (s.hydratedPool, s.mmrUsable)
  /-- MMR reranks it where it can. -/
  mmrSelected : selectPool R.vectors (S.config T) s.hydratedPool s.mmrUsable = .ok s.mmrSelected
  /-- The items of the answer. -/
  results : finalResults T s.mmrSelected = .ok s.results
  /-- The budget is applied. -/
  final : budgeted S R.encode T s.results = .ok s.final

/-- A retrieval that returned went through all its stages. -/
theorem retrieveStages_run {S : RetrievalSettings K} {R : RetrievalRuntime K} {client : CollectionClient K}
    {T : CollectionType} {q : Text} {v : RawMatrix K} {s : RetrievalStages K}
    (h : retrieveStages S R client T q v = .ok s) : RetrievalRun S R client T q v s := by
  obtain ⟨query, hquery, h⟩ := bind_eq_ok_iff.mp h
  obtain ⟨vector, hvector, h⟩ := bind_eq_ok_iff.mp h
  obtain ⟨results, hresults, h⟩ := bind_eq_ok_iff.mp h
  obtain ⟨hq, hblank⟩ := requiredText_eq_ok_iff.mp hquery
  cases hq
  cases results with
  | none => cases h
  | some results =>
    obtain ⟨scored, hscored, h⟩ := bind_eq_ok_iff.mp h
    obtain ⟨reranked, hreranked, h⟩ := bind_eq_ok_iff.mp h
    obtain ⟨⟨hydrated, usable⟩, hhydrated, h⟩ := bind_eq_ok_iff.mp h
    obtain ⟨selected, hselected, h⟩ := bind_eq_ok_iff.mp h
    obtain ⟨items, hitems, h⟩ := bind_eq_ok_iff.mp h
    obtain ⟨final, hfinal, h⟩ := bind_eq_ok_iff.mp h
    cases h
    exact ⟨hblank, ⟨vector, results, hvector, hresults, rfl⟩, hscored, hreranked, rfl, rfl, hhydrated, hselected,
      hitems, hfinal⟩

end Run

/-! ### Scores -/

/-- The search result that a candidate is made of. -/
def Candidate.result (c : Candidate K) : SearchResult := ⟨c.objectId, c.canonicalId, c.retrievalText, c.segmentIndex⟩

@[simp] theorem SearchResult.result_scored (c : SearchResult) (x : K) : (c.scored x).result = c := rfl

@[simp] theorem SearchResult.segmentId_scored (c : SearchResult) (x : K) : (c.scored x).segmentId = none := rfl

/-- The scored candidates are at places of the list, none of them twice. -/
theorem scoreCandidates_picks {cs : List SearchResult} {raw : List (RawScore K)} {used : List ℕ}
    {selected : List (Candidate K)} (h : scoreCandidates cs raw used = .ok selected) :
    ∃ places : List ℕ, places.length = raw.length ∧ places.Nodup ∧ (∀ i ∈ places, i ∉ used ∧ i < cs.length) ∧
      selected.map Candidate.result = picks cs places ∧ ∀ c ∈ selected, c.segmentId = none := by
  induction raw generalizing used selected with
  | nil =>
    cases h
    exact ⟨[], rfl, List.nodup_nil, by simp, rfl, by simp⟩
  | cons r raw ih =>
    cases r with
    | other => cases h
    | result index score =>
      rw [scoreCandidates] at h
      split at h
      · cases h
      rename_i i hi
      by_cases hused : i ∈ used
      · rw [if_pos hused] at h
        cases h
      rw [if_neg hused] at h
      split at h
      · cases h
      rename_i x hx
      split at h
      · rename_i c rest hc hrest
        cases h
        obtain ⟨places, hlength, hnodup, hplaces, hpicks, hsegment⟩ := ih hrest
        have hlt : i < cs.length := (List.getElem?_eq_some_iff.mp hc).1
        refine ⟨i :: places, by rw [List.length_cons, List.length_cons, hlength], ?_, ?_, ?_, ?_⟩
        · exact List.nodup_cons.mpr ⟨fun hin => (hplaces i hin).1 List.mem_cons_self, hnodup⟩
        · intro j hj
          rcases List.mem_cons.mp hj with rfl | hj
          · exact ⟨hused, hlt⟩
          · exact ⟨fun hin => (hplaces j hj).1 (List.mem_cons_of_mem i hin), (hplaces j hj).2⟩
        · rw [List.map_cons, hpicks, SearchResult.result_scored, picks_cons hc]
        · intro d hd
          rcases List.mem_cons.mp hd with rfl | hd
          · rfl
          · exact hsegment d hd
      · cases h
      · cases h

section Order

variable [LinearOrder K]

instance : Std.Total (Candidate.before (K := K)) where
  total a b := by
    unfold Candidate.before
    rcases lt_trichotomy a.rerankScore b.rerankScore with h | h | h
    · exact .inr (.inl h)
    · rcases le_total a.objectId.str b.objectId.str with hid | hid
      · exact .inl (.inr ⟨h.symm, hid⟩)
      · exact .inr (.inr ⟨h, hid⟩)
    · exact .inl (.inl h)

instance : IsTrans (Candidate K) Candidate.before where
  trans a b c := by
    rintro (hab | ⟨hab, hidab⟩) (hbc | ⟨hbc, hidbc⟩)
    · exact .inl (hbc.trans hab)
    · exact .inl (by rw [hbc]; exact hab)
    · exact .inl (by rw [← hab]; exact hbc)
    · exact .inr ⟨hbc.trans hab, hidab.trans hidbc⟩

/-- Of two candidates only one comes before the other, unless they have one id. -/
theorem Candidate.objectId_eq_of_before {a b : Candidate K} (hab : a.before b) (hba : b.before a) :
    a.objectId = b.objectId := by
  rcases hab with hab | ⟨hab, hidab⟩
  · rcases hba with hba | ⟨hba, -⟩
    · exact absurd hab hba.asymm
    · exact absurd hab (by rw [hba]; exact lt_irrefl _)
  · rcases hba with hba | ⟨-, hidba⟩
    · exact absurd hba (by rw [hab]; exact lt_irrefl _)
    · exact Uuid.str_injective (le_antisymm hidab hidba)

/-- The candidates in the order of their scores, none added or lost. -/
theorem crossEncoder_spec {rerank : Text → List Text → Except PyError (Option (List (RawScore K)))} {q : Text}
    {cs : List SearchResult} {selected : List (Candidate K)} (h : crossEncoder rerank q cs = .ok selected) :
    (selected.map Candidate.result).Perm cs ∧ selected.Pairwise Candidate.before ∧
      ∀ c ∈ selected, c.segmentId = none := by
  rw [crossEncoder] at h
  by_cases hempty : cs.isEmpty
  · rw [if_pos hempty] at h
    cases h
    rw [List.isEmpty_iff] at hempty
    subst hempty
    exact ⟨.nil, .nil, by simp⟩
  rw [if_neg hempty] at h
  obtain ⟨raw, -, h⟩ := bind_eq_ok_iff.mp h
  cases raw with
  | none => cases h
  | some raw =>
    simp only at h
    by_cases hlength : raw.length = cs.length
    case neg =>
      rw [if_pos hlength] at h
      cases h
    rw [if_neg (not_not.mpr hlength)] at h
    obtain ⟨scored, hscored, h⟩ := bind_eq_ok_iff.mp h
    cases h
    obtain ⟨places, hplaces, hnodup, hlt, hpicks, hsegment⟩ := scoreCandidates_picks hscored
    have hperm : (scored.insertionSort Candidate.before).Perm scored := List.perm_insertionSort _ _
    refine ⟨(hperm.map _).trans ?_, List.pairwise_insertionSort _ _, fun c hc => hsegment c (hperm.mem_iff.mp hc)⟩
    rw [hpicks]
    exact picks_perm hnodup (fun i hi => (hlt i hi).2) (hplaces.trans hlength)

/-! ### Conversations -/

/-- The segment index of a candidate that has one. -/
def Candidate.indexNumber (c : Candidate K) : ℕ := (c.segmentIndex.natural?).getD 0

/-- One candidate ranks before another: a higher score, then a lower segment index, then a lower id. -/
def Candidate.Beats (a b : Candidate K) : Prop := a.better a.indexNumber b b.indexNumber = true

theorem Candidate.beats_iff {a b : Candidate K} : a.Beats b ↔ b.rerankScore < a.rerankScore ∨
    b.rerankScore = a.rerankScore ∧ (a.indexNumber < b.indexNumber ∨
      a.indexNumber = b.indexNumber ∧ a.objectId.str < b.objectId.str) := by
  rw [Candidate.Beats, Candidate.better, decide_eq_true_eq]

theorem Candidate.not_beats_self (a : Candidate K) : ¬ a.Beats a := by
  rw [Candidate.beats_iff]
  rintro (h | ⟨-, h | ⟨-, h⟩⟩)
  · exact lt_irrefl _ h
  · exact lt_irrefl _ h
  · exact lt_irrefl _ h

theorem Candidate.Beats.trans {a b c : Candidate K} (hab : a.Beats b) (hbc : b.Beats c) : a.Beats c := by
  rw [Candidate.beats_iff] at hab hbc ⊢
  rcases hab with hab | ⟨hab, hab'⟩
  · rcases hbc with hbc | ⟨hbc, -⟩
    · exact .inl (hbc.trans hab)
    · exact .inl (by rw [hbc]; exact hab)
  · rcases hbc with hbc | ⟨hbc, hbc'⟩
    · exact .inl (by rw [← hab]; exact hbc)
    · refine .inr ⟨hbc.trans hab, ?_⟩
      rcases hab' with hab' | ⟨hab', hid⟩
      · rcases hbc' with hbc' | ⟨hbc', -⟩
        · exact .inl (hab'.trans hbc')
        · exact .inl (by omega)
      · rcases hbc' with hbc' | ⟨hbc', hid'⟩
        · exact .inl (by omega)
        · exact .inr ⟨hab'.trans hbc', hid.trans hid'⟩

omit [LinearOrder K] in
theorem Candidate.index_eq_ok {c : Candidate K} {i : ℕ} (h : c.index = .ok i) : c.indexNumber = i := by
  rw [Candidate.index] at h
  cases hn : c.segmentIndex.natural? with
  | none =>
    rw [hn] at h
    cases h
  | some n =>
    rw [hn] at h
    rw [Candidate.indexNumber, hn]
    exact Except.ok.inj h

/-- No candidate of the conversation ranks before this one. -/
structure BestOf (cs : List (Candidate K)) (k : Uuid) (c : Candidate K) : Prop where
  /-- It is one of the candidates. -/
  mem : c ∈ cs
  /-- It is of the conversation. -/
  canonicalId : c.canonicalId = k
  /-- None ranks before it. -/
  best : ∀ d ∈ cs, d.canonicalId = k → ¬ d.Beats c

/-- The dictionary has the best candidate of each conversation seen. -/
def HoldsBest (seen : List (Candidate K)) (selected : Dict Uuid (Candidate K)) : Prop :=
  (∀ k c, selected.get? k = some c → BestOf seen k c) ∧ ∀ d ∈ seen, d.canonicalId ∈ selected.keys

theorem HoldsBest.set {seen : List (Candidate K)} {selected : Dict Uuid (Candidate K)} {c : Candidate K}
    (h : HoldsBest seen selected) (hc : ∀ d ∈ seen, d.canonicalId = c.canonicalId → ¬ d.Beats c) :
    HoldsBest (seen ++ [c]) (selected.set c.canonicalId c) := by
  refine ⟨fun k d hget => ?_, fun d hd => ?_⟩
  · rw [Dict.get?_set] at hget
    split_ifs at hget with hk
    · cases hget
      refine ⟨by simp, hk, fun e he hek => ?_⟩
      rw [List.mem_append, List.mem_singleton] at he
      rcases he with he | rfl
      · exact hc e he (hek.trans hk.symm)
      · exact e.not_beats_self
    · obtain ⟨hmem, hcanonical, hbest⟩ := h.1 k d hget
      refine ⟨List.mem_append_left _ hmem, hcanonical, fun e he hek => ?_⟩
      rw [List.mem_append, List.mem_singleton] at he
      rcases he with he | rfl
      · exact hbest e he hek
      · exact absurd hek hk
  · rw [Dict.mem_keys_set]
    rw [List.mem_append, List.mem_singleton] at hd
    rcases hd with hd | rfl
    · exact .inr (h.2 d hd)
    · exact .inl rfl

theorem bestSegments_spec {seen cs : List (Candidate K)} {selected result : Dict Uuid (Candidate K)}
    (hs : HoldsBest seen selected) (h : bestSegments cs selected = .ok result) : HoldsBest (seen ++ cs) result := by
  induction cs generalizing seen selected with
  | nil =>
    cases h
    rwa [List.append_nil]
  | cons c cs ih =>
    rw [← List.singleton_append, ← List.append_assoc]
    rw [bestSegments] at h
    cases hget : selected.get? c.canonicalId with
    | none =>
      rw [hget] at h
      refine ih (hs.set fun d hd hk => ?_) h
      have hmem := hs.2 d hd
      rw [hk, Dict.mem_keys_iff, hget] at hmem
      obtain ⟨_, hnone⟩ := hmem
      cases hnone
    | some current =>
      rw [hget] at h
      obtain ⟨i, hi, h⟩ := bind_eq_ok_iff.mp h
      obtain ⟨j, hj, h⟩ := bind_eq_ok_iff.mp h
      obtain ⟨hmem, hcanonical, hbest⟩ := hs.1 _ _ hget
      have hbeats : c.better i current j = true ↔ c.Beats current := by
        rw [Candidate.Beats, Candidate.index_eq_ok hi, Candidate.index_eq_ok hj]
      by_cases hbetter : c.better i current j = true
      · rw [if_pos hbetter] at h
        refine ih (hs.set fun d hd hk hbeat => ?_) h
        exact hbest d hd hk (hbeat.trans (hbeats.mp hbetter))
      · rw [if_neg hbetter] at h
        refine ih ⟨fun k d hk => ?_, fun d hd => ?_⟩ h
        · obtain ⟨hmem', hcanonical', hbest'⟩ := hs.1 k d hk
          refine ⟨List.mem_append_left _ hmem', hcanonical', fun e he hek => ?_⟩
          rw [List.mem_append, List.mem_singleton] at he
          rcases he with he | rfl
          · exact hbest' e he hek
          · rw [← hek, hget] at hk
            cases hk
            exact mt hbeats.mpr hbetter
        · rw [List.mem_append, List.mem_singleton] at hd
          rcases hd with hd | rfl
          · exact hs.2 d hd
          · exact Dict.mem_keys_iff.mpr ⟨current, hget⟩

/-- The loop raises nothing where every candidate has its index. -/
theorem bestSegments_ok {cs : List (Candidate K)} {selected : Dict Uuid (Candidate K)}
    (hcs : ∀ c ∈ cs, ∃ i, c.index = .ok i) (hs : ∀ k c, selected.get? k = some c → ∃ i, c.index = .ok i) :
    ∃ result, bestSegments cs selected = .ok result := by
  induction cs generalizing selected with
  | nil => exact ⟨selected, rfl⟩
  | cons c cs ih =>
    obtain ⟨⟨i, hi⟩, hcs⟩ := List.forall_mem_cons.mp hcs
    have hset : ∀ k d, (selected.set c.canonicalId c).get? k = some d → ∃ i, d.index = .ok i := by
      intro k d hd
      rw [Dict.get?_set] at hd
      split_ifs at hd with hk
      · cases hd
        exact ⟨i, hi⟩
      · exact hs k d hd
    rw [bestSegments]
    cases hget : selected.get? c.canonicalId with
    | none => exact ih hcs hset
    | some current =>
      obtain ⟨j, hj⟩ := hs _ _ hget
      simp only [hi, hj, bind, Except.bind]
      split_ifs with hbetter
      · exact ih hcs hset
      · exact ih hcs hs

theorem collapseConversations_ok {cs : List (Candidate K)} (limit : ℕ) (hcs : ∀ c ∈ cs, ∃ i, c.index = .ok i) :
    ∃ out, collapseConversations cs limit = .ok out := by
  have hbest : ∃ selected, bestSegments cs .empty = .ok selected := bestSegments_ok hcs (by simp)
  obtain ⟨selected, hselected⟩ := hbest
  rw [collapseConversations, hselected]
  exact ⟨_, rfl⟩

/-- Each collapsed candidate stands for the best segment of its conversation; no conversation has two. -/
theorem collapseConversations_spec {cs out : List (Candidate K)} {limit : ℕ}
    (h : collapseConversations cs limit = .ok out) :
    out.Pairwise Candidate.before ∧ (out.map Candidate.objectId).Nodup ∧
      ∀ x ∈ out, ∃ c, BestOf cs x.objectId c ∧ x = c.standFor x.objectId := by
  obtain ⟨selected, hselected, h⟩ := bind_eq_ok_iff.mp h
  cases h
  have hbest : HoldsBest cs selected := by
    rw [← List.nil_append cs]
    exact bestSegments_spec ⟨by simp, by simp⟩ hselected
  have htake := List.take_sublist limit
    ((selected.entries.map fun e => e.2.standFor e.1).insertionSort Candidate.before)
  have hperm := List.perm_insertionSort Candidate.before (selected.entries.map fun e => e.2.standFor e.1)
  refine ⟨(List.pairwise_insertionSort _ _).sublist htake, ?_, fun x hx => ?_⟩
  · refine (htake.map _).nodup ((hperm.map _).nodup_iff.mpr ?_)
    rw [List.map_map]
    exact selected.nodupKeys
  · obtain ⟨e, he, rfl⟩ := List.mem_map.mp (hperm.mem_iff.mp (htake.subset hx))
    obtain ⟨k, c⟩ := e
    exact ⟨c, hbest.1 k c (Dict.mem_entries_iff.mp he), rfl⟩

/-! ### Floor and gap -/

section Field

variable [Field K]

theorem eligibleCandidates_sublist (C : RetrievalConfig K) (T : CollectionType) (reranked : List (Candidate K)) :
    (eligibleCandidates C T reranked).Sublist reranked := by
  simp only [eligibleCandidates]
  split_ifs with hrescue
  · cases reranked with
    | nil => exact List.filter_sublist
    | cons first rest =>
      simp only
      split_ifs with hfloor
      · exact List.singleton_sublist.mpr List.mem_cons_self
      · exact List.filter_sublist
  · exact List.filter_sublist

/-! ### Hydration -/

/-- What is requested for a candidate. -/
structure Candidate.Requests (T : CollectionType) (c : Candidate K) (request : SearchResult) : Prop where
  /-- The canonical id is the id of the candidate. -/
  canonicalId : request.canonicalId = c.objectId
  /-- The text is the one that was found. -/
  retrievalText : request.retrievalText = c.retrievalText
  /-- For a conversation the object is its segment. -/
  segment : T = .conversations → c.segmentId = some request.objectId ∧
    ∃ n, c.segmentIndex.natural? = some n ∧ request.segmentIndex = .int n
  /-- For a chunk the object is the candidate. -/
  chunk : T ≠ .conversations → request.objectId = c.objectId ∧ request.segmentIndex = .none

omit [LinearOrder K] [Field K] in
theorem hydrationRequest_spec {T : CollectionType} {c : Candidate K} {request : SearchResult}
    (h : hydrationRequest T c = .ok request) : c.Requests T request := by
  cases T with
  | conversations =>
    simp only [hydrationRequest] at h
    split at h
    · cases h
    · rename_i segmentId hsegment
      obtain ⟨t, ht, h⟩ := bind_eq_ok_iff.mp h
      obtain ⟨index, hindex, h⟩ := bind_eq_ok_iff.mp h
      cases h
      rw [Candidate.index] at hindex
      cases hn : c.segmentIndex.natural? with
      | none =>
        rw [hn] at hindex
        cases hindex
      | some n =>
        rw [hn] at hindex
        cases hindex
        exact ⟨rfl, PyValue.str.inj (requiredText_eq_ok_iff.mp ht).1.symm, fun _ => ⟨hsegment, _, hn, rfl⟩, by simp⟩
  | knowledgeFacts | policy =>
    obtain ⟨t, ht, h⟩ := bind_eq_ok_iff.mp h
    cases h
    exact ⟨rfl, PyValue.str.inj (requiredText_eq_ok_iff.mp ht).1.symm, by simp, fun _ => ⟨rfl, rfl⟩⟩

/-- A candidate that is kept, with the answer for it. -/
structure HydratedCandidate.From (V : VectorArithmetic K) (T : CollectionType) (request : SearchResult) (raw : RawHydrated K)
    (x : HydratedCandidate K) : Prop where
  /-- What was requested for it. -/
  requested : hydrationRequest T x.toCandidate = .ok request
  /-- The answer has the identity of the request, and is not quarantined. -/
  answered : ∃ vector rawText index, raw = .result (.str request.objectId.str) (.str request.canonicalId.str) vector
    rawText index .none ∧ index.same request.segmentIndex = true ∧
    hydratedText T x.toCandidate request rawText = some x.rawText ∧ x.diversityVector = usableVector V vector

omit [LinearOrder K] [Field K] in
theorem hydrateCandidate_eq_some {V : VectorArithmetic K} {T : CollectionType} {c : Candidate K} {request : SearchResult} {raw : RawHydrated K}
    {x : HydratedCandidate K} (hrequest : hydrationRequest T c = .ok request)
    (h : hydrateCandidate V T c request raw = some x) : x.toCandidate = c ∧ x.From V T request raw := by
  cases raw with
  | other => cases h
  | result objectId canonicalId vector rawText index reason =>
    rw [hydrateCandidate] at h
    by_cases hsame : objectId ≠ .str request.objectId.str ∨ canonicalId ≠ .str request.canonicalId.str ∨
        index.same request.segmentIndex = false
    · rw [if_pos hsame] at h
      cases h
    rw [if_neg hsame] at h
    by_cases hreason : reason = .none
    case neg =>
      rw [if_pos hreason] at h
      cases h
    rw [if_neg (not_not.mpr hreason)] at h
    push Not at hsame
    obtain ⟨hobject, hcanonical, hindex⟩ := hsame
    obtain ⟨t, ht, rfl⟩ := Option.map_eq_some_iff.mp h
    refine ⟨rfl, hrequest, vector, rawText, index, by rw [hobject, hcanonical, hreason], ?_, ht, rfl⟩
    simpa using hindex

omit [LinearOrder K] [Field K] in
theorem hydrateCandidate_toCandidate {V : VectorArithmetic K} {T : CollectionType} {c : Candidate K}
    {request : SearchResult} {raw : RawHydrated K} {x : HydratedCandidate K} (h : hydrateCandidate V T c request raw = some x) :
    x.toCandidate = c := by
  cases raw with
  | other => cases h
  | result objectId canonicalId vector rawText index reason =>
    rw [hydrateCandidate] at h
    split_ifs at h
    obtain ⟨t, -, rfl⟩ := Option.map_eq_some_iff.mp h
    rfl

omit [LinearOrder K] [Field K] in
/-- What hydration leaves of the pool: a part in its order, each candidate with its answer. -/
theorem hydratePool_spec {V : VectorArithmetic K}
    {hydrate : List SearchResult → Except PyError (Option (List (RawHydrated K)))}
    {T : CollectionType} {pool : List (Candidate K)} {hydrated : List (HydratedCandidate K)} {usable : Bool}
    (h : hydratePool V hydrate T pool = .ok (hydrated, usable)) :
    (hydrated.map HydratedCandidate.toCandidate).Sublist pool ∧
      (usable = true → ∀ x ∈ hydrated, x.diversityVector.isSome) ∧
      (pool ≠ [] → ∃ requested raw, pool.mapM (hydrationRequest T) = .ok requested ∧
        hydrate requested = .ok (some raw) ∧
        ∀ x ∈ hydrated, ∃ request ∈ requested, ∃ answer ∈ raw, x.From V T request answer) := by
  rw [hydratePool] at h
  by_cases hempty : pool.isEmpty
  · rw [if_pos hempty] at h
    cases h
    rw [List.isEmpty_iff] at hempty
    exact ⟨List.nil_sublist _, by simp, fun hne => absurd hempty hne⟩
  rw [if_neg hempty] at h
  obtain ⟨requested, hrequested, h⟩ := bind_eq_ok_iff.mp h
  obtain ⟨raw, hraw, h⟩ := bind_eq_ok_iff.mp h
  cases raw with
  | none => cases h
  | some raw =>
    simp only at h
    split_ifs at h with hlength
    cases h
    have hanswer : ∀ p ∈ pool.zip (requested.zip raw), ∀ x, hydrateCandidate V T p.1 p.2.1 p.2.2 = some x →
        x.toCandidate = p.1 ∧ p.2.1 ∈ requested ∧ p.2.2 ∈ raw ∧ x.From V T p.2.1 p.2.2 := by
      rintro ⟨c, request, answer⟩ hp x hx
      obtain ⟨hzip, hrequest, hmem⟩ := mem_zip_zip hp
      have hasked := (List.forall₂_iff_zip.mp (mapM_eq_ok_iff.mp hrequested)).2 hzip
      obtain ⟨hc, hfrom⟩ := hydrateCandidate_eq_some hasked hx
      exact ⟨hc, hrequest, hmem, hfrom⟩
    refine ⟨?_, fun husable => List.all_eq_true.mp husable, fun _ => ⟨requested, raw, hrequested, hraw, fun x hx => ?_⟩⟩
    · exact filterMap_zip_sublist (fun c p x hx => (hydrateCandidate_toCandidate hx)) pool (requested.zip raw)
    · obtain ⟨p, hp, hx⟩ := List.mem_filterMap.mp hx
      obtain ⟨-, hrequest, hmem, hfrom⟩ := hanswer p hp x hx
      exact ⟨p.2.1, hrequest, p.2.2, hmem, hfrom⟩

/-! ### MMR -/

theorem mmrBest_mem {objective : ℕ → Except PyError K} {remaining : List ℕ} {best best' : ℕ × Option K}
    (h : mmrBest objective remaining best = .ok best') : best'.1 = best.1 ∨ best'.1 ∈ remaining := by
  induction remaining generalizing best with
  | nil =>
    cases h
    exact .inl rfl
  | cons index rest ih =>
    obtain ⟨value, -, h⟩ := bind_eq_ok_iff.mp h
    rcases ih h with hbest | hrest
    · rw [hbest]
      split_ifs with hbetter
      · exact .inr List.mem_cons_self
      · exact .inl rfl
    · exact .inr (List.mem_cons_of_mem _ hrest)

/-- Each turn picks one of the remaining places and takes it away. -/
theorem mmrSelect_spec {objective : List ℕ → ℕ → Except PyError K} {n : ℕ} {remaining selected places : List ℕ}
    (hnodup : remaining.Nodup) (h : mmrSelect objective n remaining selected = .ok places) :
    ∃ more : List ℕ, places = selected ++ more ∧ more.Nodup ∧ more ⊆ remaining ∧
      more.length = min n remaining.length := by
  induction n generalizing remaining selected with
  | zero =>
    cases h
    exact ⟨[], by simp, List.nodup_nil, List.nil_subset _, by simp⟩
  | succ n ih =>
    cases remaining with
    | nil =>
      cases h
      exact ⟨[], by simp, List.nodup_nil, List.nil_subset _, by simp⟩
    | cons first rest =>
      obtain ⟨best, hbest, h⟩ := bind_eq_ok_iff.mp h
      have hmem : best.1 ∈ first :: rest := by
        rcases mmrBest_mem hbest with hfirst | hin
        · rw [hfirst]
          exact List.mem_cons_self
        · exact hin
      obtain ⟨more, hplaces, hmore, hsub, hlength⟩ := ih (hnodup.erase _) h
      refine ⟨best.1 :: more, by rw [hplaces, List.append_assoc, List.singleton_append], ?_, ?_, ?_⟩
      · exact List.nodup_cons.mpr ⟨fun hin => hnodup.not_mem_erase (hsub hin), hmore⟩
      · exact List.cons_subset.mpr ⟨hmem, List.Subset.trans hsub List.erase_subset⟩
      · rw [List.length_cons, hlength, List.length_erase_of_mem hmem]
        simp only [List.length_cons]
        omega

/-- MMR picks as many places of the pool as it may, none of them twice. -/
theorem mmr_spec {V : VectorArithmetic K} {C : RetrievalConfig K} {k : ℕ}
    {pool selected : List (HydratedCandidate K)} (h : mmr V C k pool = .ok selected) :
    selected.Subperm pool ∧ selected.length = min k pool.length := by
  obtain ⟨places, hplaces, h⟩ := bind_eq_ok_iff.mp h
  cases h
  obtain ⟨more, hmore, hnodup, hsub, hlength⟩ := mmrSelect_spec List.nodup_range hplaces
  rw [List.nil_append] at hmore
  subst hmore
  have hlt : ∀ i ∈ places, i < pool.length := fun i hi => List.mem_range.mp (hsub hi)
  refine ⟨picks_subperm hnodup hlt, (picks_length hlt).trans ?_⟩
  rw [hlength, List.length_range]
  omega

/-- So does the selection, with MMR or without. -/
theorem selectPool_spec {V : VectorArithmetic K} {C : RetrievalConfig K}
    {pool selected : List (HydratedCandidate K)} {usable : Bool} (h : selectPool V C pool usable = .ok selected) :
    selected.Subperm pool ∧ selected.length = min C.finalCount pool.length := by
  rw [selectPool] at h
  split_ifs at h with husable
  · exact mmr_spec h
  · cases h
    exact ⟨(List.take_sublist _ _).subperm, List.length_take⟩

/-! ### The final list -/

/-- The item of the final list for a candidate. -/
def HydratedCandidate.item (T : CollectionType) (c : HydratedCandidate K) : ContextItem K :=
  ⟨c.objectId, c.rawText, if T = .conversations then none else some (.number c.rerankScore)⟩

omit [Field K] [LinearOrder K] in
/-- The items are those of the selected candidates, and none is blank. -/
theorem finalResults_eq {T : CollectionType} {selected : List (HydratedCandidate K)} {items : List (ContextItem K)}
    (h : finalResults T selected = .ok items) :
    items = selected.map (HydratedCandidate.item T) ∧ ∀ c ∈ selected, isBlank c.rawText = false := by
  refine mapM_eq_ok_map (fun c item hitem => ?_) h
  obtain ⟨t, ht, hitem⟩ := bind_eq_ok_iff.mp hitem
  cases hitem
  obtain ⟨hsame, hblank⟩ := requiredText_eq_ok_iff.mp ht
  cases hsame
  exact ⟨rfl, hblank⟩

omit [Field K] [LinearOrder K] in
/-- The loop leaves the longest prefix that fits, of those no longer than its list. -/
theorem budgetLoop_spec {encode : Text → List ℕ} {budget : ℕ} {n : ℕ} {items : List (ContextItem K)}
    (hn : items.length ≤ n) :
    budgetLoop encode budget n items <+: items ∧
      (budgetLoop encode budget n items ≠ [] → fitsBudget encode budget (budgetLoop encode budget n items) = true) ∧
      ∀ p, p <+: items → (budgetLoop encode budget n items).length < p.length → fitsBudget encode budget p = false := by
  induction n generalizing items with
  | zero =>
    have hnil : items = [] := List.eq_nil_of_length_eq_zero (by omega)
    subst hnil
    refine ⟨List.prefix_refl _, fun hne => absurd rfl hne, fun p hp hlt => ?_⟩
    rw [List.prefix_nil.mp hp] at hlt
    exact absurd hlt (Nat.not_lt_zero _)
  | succ n ih =>
    rw [budgetLoop]
    by_cases hstop : (items.isEmpty || fitsBudget encode budget items) = true
    · rw [if_pos hstop]
      refine ⟨List.prefix_refl _, fun hne => ?_, fun p hp hlt => absurd hp.length_le (by omega)⟩
      rcases Bool.or_eq_true_iff.mp hstop with hempty | hfits
      · exact absurd (List.isEmpty_iff.mp hempty) hne
      · exact hfits
    · rw [if_neg hstop]
      rw [Bool.or_eq_true, not_or] at hstop
      have hshort : items.dropLast.length ≤ n := by
        rw [List.length_dropLast]
        omega
      obtain ⟨hinitial, hfits, hlongest⟩ := ih hshort
      refine ⟨hinitial.trans (List.dropLast_prefix items), hfits, fun p hp hlt => ?_⟩
      -- a prefix of the list is the whole list, which did not fit, or one of the shorter list
      rcases eq_or_ne p items with rfl | hne
      · simpa using hstop.2
      · refine hlongest p ?_ hlt
        have hlength : p.length < items.length :=
          lt_of_le_of_ne hp.length_le fun heq => hne (hp.eq_of_length heq)
        refine List.prefix_of_prefix_length_le hp (List.dropLast_prefix items) ?_
        rw [List.length_dropLast]
        omega

omit [Field K] [LinearOrder K] in
/-- The budget leaves the longest prefix that fits. -/
theorem budgetResults_spec {encode : Text → List ℕ} {budget : ℕ} {results final : List (ContextItem K)}
    (h : budgetResults encode budget results = .ok final) :
    final <+: results ∧ (final ≠ [] → fitsBudget encode budget final = true) ∧
      ∀ p, p <+: results → final.length < p.length → fitsBudget encode budget p = false := by
  obtain ⟨selected, hselected, hloop⟩ := bind_eq_ok_iff.mp h
  have hsame : selected = results := by
    rw [← List.map_id results]
    refine (mapM_eq_ok_map (P := fun _ => True) (fun c item hitem => ?_) hselected).1
    obtain ⟨t, ht, hitem⟩ := bind_eq_ok_iff.mp hitem
    cases hitem
    obtain ⟨htext, -⟩ := requiredText_eq_ok_iff.mp ht
    cases htext
    exact ⟨rfl, trivial⟩
  rw [← Except.ok.inj hloop, hsame]
  exact budgetLoop_spec le_rfl

omit [Field K] [LinearOrder K] in
/-- With a budget or without, the final list is a prefix. -/
theorem budgeted_spec {S : RetrievalSettings K} {encode : Text → List ℕ} {T : CollectionType}
    {results final : List (ContextItem K)} (h : budgeted S encode T results = .ok final) : final <+: results := by
  rw [budgeted] at h
  split at h
  · cases h
    exact List.prefix_refl _
  · exact (budgetResults_spec h).1

end Field

end Order

end TenantRag

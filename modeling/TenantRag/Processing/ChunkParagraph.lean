import TenantRag.Processing.Chunker

/-!
# The chunks of a paragraph

The loop that ends one chunk after the other, the merging of small chunks and the
checks of the result, put together.

## The model

* `Ready` — what the loop needs at the start of a chunk.

## What is proved

* `chunkLoop_spec` — the loop cuts the paragraph into chunks unless one begins where the rule is stuck.
* `chunkParagraph_spec` — the same of the whole function.
* `chunkParagraph_total` — a tokenizer that counts every slice is never stuck.
-/

namespace TenantRag

variable {K : Type} [LinearOrder K] [Zero K] [One K]

section Loop
variable {cfg : ChunkingConfig K} {paragraph : Text} {tokenizer : Tokenizer} {boundaries : List (ℕ × K)} {threshold : K}
  {solid : Text → Prop} {count : Text → ℕ} {start : ℕ}

/-- What the loop needs at the start of a chunk. -/
structure Ready (cfg : ChunkingConfig K) (paragraph : Text) (boundaries : List (ℕ × K)) (solid : Text → Prop)
    (count : Text → ℕ) (start : ℕ) : Prop where
  le : start ≤ paragraph.length
  solid : start < paragraph.length → StartSolid cfg paragraph solid count boundaries start

/-- The loop cuts what remains into chunks that fit, unless a chunk begins where the rule is stuck. -/
theorem chunkLoop_spec (hcounts : CountsSolid tokenizer paragraph solid count)
    (hordered : boundaries.Pairwise fun b b' => b.1 ≤ b'.1)
    (hnext : ∀ start stop, Ready cfg paragraph boundaries solid count start → start < paragraph.length →
      ChunkEnd cfg paragraph solid count boundaries threshold start stop →
      Ready cfg paragraph boundaries solid count stop)
    (hready : Ready cfg paragraph boundaries solid count start) :
    (NeverStuck cfg paragraph count boundaries threshold start solid →
      ∃ spans, chunkLoop cfg paragraph tokenizer boundaries threshold start = .ok spans ∧
        Tiles start spans paragraph.length ∧
        ∀ s ∈ spans, s.start < s.stop ∧ solid (s.text paragraph) ∧ Fits cfg paragraph count s) ∧
    (¬ NeverStuck cfg paragraph count boundaries threshold start solid →
      ∃ e, chunkLoop cfg paragraph tokenizer boundaries threshold start = .error e) := by
  induction hn : paragraph.length - start using Nat.strong_induction_on generalizing start with
  | _ n ih =>
  rw [chunkLoop]
  by_cases hlt : start < paragraph.length
  · rw [if_pos hlt]
    obtain ⟨hok, herror⟩ := selectNextEnd_spec threshold hcounts hordered hlt (hready.solid hlt)
    by_cases hstuck : Stuck cfg paragraph count boundaries threshold start solid
    · obtain ⟨e, he⟩ := herror hstuck
      rw [he]
      exact ⟨fun hnever => absurd hstuck (hnever start .refl hlt), fun _ => ⟨e, rfl⟩⟩
    · obtain ⟨stop, hselect, hstop⟩ := hok hstuck
      have hprogress := hstop.lt
      obtain ⟨hrest, hfail⟩ := ih (paragraph.length - stop) (by omega) (hnext start stop hready hlt hstop) rfl
      rw [hselect, neverStuck_next ⟨hlt, hstop.cut⟩ hstuck]
      simp only [if_neg (Nat.not_le.mpr hprogress)]
      constructor
      · intro hnever
        obtain ⟨spans, hspans, htiles, hall⟩ := hrest hnever
        rw [hspans]
        refine ⟨_, rfl, ⟨rfl, hprogress.le, htiles⟩, ?_⟩
        rw [List.forall_mem_cons]
        exact ⟨⟨hprogress, hstop.counted, hstop.fits⟩, hall⟩
      · intro hnever
        obtain ⟨e, he⟩ := hfail hnever
        rw [he]
        exact ⟨e, rfl⟩
  · rw [if_neg hlt]
    have hend : start = paragraph.length := le_antisymm hready.le (Nat.not_lt.mp hlt)
    refine ⟨fun _ => ⟨[], rfl, hend, by simp⟩, fun hnever => absurd (fun s hs hs' => ?_) hnever⟩
    rcases Relation.ReflTransGen.cases_head hs with rfl | ⟨_, hstep, _⟩
    · exact absurd hs' hlt
    · exact absurd hstep.1 hlt

end Loop

/-! ### The whole function -/

/-- What the parts of a coarser list have and joined spans have, all its spans have. -/
theorem Coarser.forall {P Q : Span → Prop} {merged spans : List Span} (h : Coarser P merged spans)
    (hspans : ∀ s ∈ spans, Q s) (hP : ∀ s, P s → Q s) : ∀ s ∈ merged, Q s := by
  induction h with
  | nil => exact fun s hs => absurd hs List.not_mem_nil
  | cons _ _ hsame _ ih =>
    rw [List.forall_mem_append] at hspans
    rw [List.forall_mem_cons]
    refine ⟨?_, ih hspans.2⟩
    rcases hsame with rfl | hjoined
    · exact hspans.1 _ List.mem_cons_self
    · exact hP _ hjoined

/-- A coarser list of spans that are not empty has no empty span. -/
theorem Coarser.lt {P : Span → Prop} {merged spans : List Span} (h : Coarser P merged spans)
    (hspans : ∀ s ∈ spans, s.start < s.stop) : ∀ s ∈ merged, s.start < s.stop := by
  induction h with
  | nil => exact fun s hs => absurd hs List.not_mem_nil
  | @cons s group _ _ hne htiles _ _ ih =>
    rw [List.forall_mem_append] at hspans
    rw [List.forall_mem_cons]
    refine ⟨?_, ih hspans.2⟩
    obtain ⟨first, rest, rfl⟩ := List.exists_cons_of_ne_nil hne
    obtain ⟨hstart, -, hrest⟩ := htiles
    have hlt := hspans.1 first List.mem_cons_self
    have hle := hrest.le
    omega

/-- No text is above the limit. -/
theorem anyM_above {tokenizer : Tokenizer} {chunks : List Text} {limit : ℕ}
    (h : ∀ chunk ∈ chunks, ∃ tokens, tokenCount chunk tokenizer = .ok tokens ∧ tokens ≤ limit) :
    (chunks.anyM fun chunk => do
      let tokens ← tokenCount chunk tokenizer
      return decide (limit < tokens)) = .ok false := by
  induction chunks with
  | nil => rfl
  | cons chunk chunks ih =>
    rw [List.forall_mem_cons] at h
    obtain ⟨⟨tokens, hcount, hle⟩, hrest⟩ := h
    rw [List.anyM, hcount]
    simp only [bind, Except.bind, pure, Except.pure, decide_eq_false (Nat.not_lt.mpr hle)]
    exact ih hrest

section Whole
variable [Neg K] {np : Numpy K} {cfg : ChunkingConfig K} {separator paragraph : Text} {tokenizer : Tokenizer}
  {boundaries : List (ℕ × K)} {solid : Text → Prop} {count : Text → ℕ}

omit [Neg K] in
/-- Chunks that fit and make up the paragraph pass the checks. -/
theorem checkedChunks_eq_ok (hcounts : CountsSolid tokenizer paragraph solid count) {spans : List Span}
    (htiles : Tiles 0 spans paragraph.length)
    (hspans : ∀ s ∈ spans, solid (s.text paragraph) ∧ Fits cfg paragraph count s) :
    checkedChunks cfg paragraph tokenizer (spans.map (Span.text paragraph)) = .ok (spans.map (Span.text paragraph)) := by
  have hnone := anyM_above fun chunk hchunk => by
    obtain ⟨s, hs, rfl⟩ := List.mem_map.mp hchunk
    exact ⟨_, hcounts.span (hspans s hs).1, (hspans s hs).2⟩
  have hwhole : (spans.map (Span.text paragraph)).flatten = paragraph := by
    rw [htiles.flatten, slice_zero_length]
  rw [checkedChunks, hnone]
  simp only [bind, Except.bind, pure, Except.pure, hwhole, Bool.false_eq_true, if_false, ne_eq, not_true_eq_false]

variable (cfg) in
/-- The chunks of a paragraph whose boundaries are known: they tile it, none is empty and none is too large, unless one
begins where the rule is stuck. -/
theorem chunkParagraph_spec {similarityThreshold : Option K} {encoder : SentenceEncoder K}
    (hunits : semanticUnits separator paragraph ≠ []) (hthreshold : ∀ t ∈ similarityThreshold, 0 ≤ t ∧ t ≤ 1)
    (hboundaries : boundarySimilarities np separator paragraph encoder = .ok boundaries)
    (hcounts : CountsSolid tokenizer paragraph solid count) (hordered : boundaries.Pairwise fun b b' => b.1 ≤ b'.1)
    (hnext : ∀ start stop, Ready cfg paragraph boundaries solid count start → start < paragraph.length →
      ChunkEnd cfg paragraph solid count boundaries (similarityThreshold.getD cfg.chunkThreshold) start stop →
      Ready cfg paragraph boundaries solid count stop)
    (hready : Ready cfg paragraph boundaries solid count 0) :
    (NeverStuck cfg paragraph count boundaries (similarityThreshold.getD cfg.chunkThreshold) 0 solid →
      ∃ spans, chunkParagraph np cfg separator paragraph tokenizer similarityThreshold encoder =
          .ok (spans.map (Span.text paragraph)) ∧
        Tiles 0 spans paragraph.length ∧
        ∀ s ∈ spans, s.start < s.stop ∧ solid (s.text paragraph) ∧ count (s.text paragraph) ≤ cfg.maxTokens) ∧
    (¬ NeverStuck cfg paragraph count boundaries (similarityThreshold.getD cfg.chunkThreshold) 0 solid →
      ∃ e, chunkParagraph np cfg separator paragraph tokenizer similarityThreshold encoder = .error e) := by
  obtain ⟨hok, herror⟩ := chunkLoop_spec hcounts hordered hnext hready
  simp only [chunkParagraph, if_neg hunits, validateSimilarityThreshold_getD hthreshold cfg.chunk_mem, hboundaries, bind,
    Except.bind]
  constructor
  · intro hnever
    obtain ⟨spans, hspans, htiles, hall⟩ := hok hnever
    obtain ⟨merged, hmerge, htiles', hsolid, hcoarser, -⟩ := mergeSmallCompatibleChunks_spec
      (boundaries.foldl (fun d b => d.set b.1 b.2) Dict.empty) hcounts htiles fun s hs => (hall s hs).2.1
    have hfits := hcoarser.forall (fun s hs => (hall s hs).2.2) fun _ h => h
    simp only [hspans, hmerge]
    exact ⟨merged, checkedChunks_eq_ok hcounts htiles' fun s hs => ⟨hsolid s hs, hfits s hs⟩, htiles',
      fun s hs => ⟨hcoarser.lt (fun s hs => (hall s hs).1) s hs, hsolid s hs, hfits s hs⟩⟩
  · intro hnever
    obtain ⟨e, he⟩ := herror hnever
    simp only [he]
    exact ⟨e, rfl⟩

/-- The boundaries of a text: the starts of its units behind the first. -/
theorem boundarySimilarities_eq_ok {encoder : SentenceEncoder K} (hregular : encoder.Regular np) (separator paragraph : Text) :
    ∃ boundaries, boundarySimilarities np separator paragraph encoder = .ok boundaries ∧
      boundaries.map Prod.fst = (semanticUnits separator paragraph).tail.map (·.start) := by
  rw [boundarySimilarities]
  generalize semanticUnits separator paragraph = units
  by_cases hlength : units.length < 2
  · have hnil : units.tail = [] := List.eq_nil_of_length_eq_zero (by rw [List.length_tail]; omega)
    refine ⟨[], if_pos hlength, ?_⟩
    rw [hnil]
    rfl
  · obtain ⟨rows, hrows, hfinite⟩ := hregular (units.map (·.embeddingText))
    have hne : units.map (·.embeddingText) ≠ [] := by
      intro hnil
      rw [List.map_eq_nil_iff] at hnil
      rw [hnil] at hlength
      exact hlength (by decide)
    simp only [if_neg hlength, encodeSentences_eq_ok hne hrows hfinite]
    refine ⟨_, rfl, List.map_fst_zip ?_⟩
    have hrowsLength := hfinite.length_eq
    simp only [List.length_map, List.length_zipWith, List.length_tail] at hrowsLength ⊢
    omega

omit [LinearOrder K] [Zero K] [One K] [Neg K] in
/-- Each boundary is the start of a unit behind the first. -/
theorem exists_unit_of_boundary {units : List SemanticUnit} (h : boundaries.map Prod.fst = units.tail.map (·.start))
    {b : ℕ × K} (hb : b ∈ boundaries) : ∃ v ∈ units.tail, v.start = b.1 := by
  have hin : b.1 ∈ boundaries.map Prod.fst := List.mem_map_of_mem hb
  rw [h] at hin
  exact List.mem_map.mp hin

omit [LinearOrder K] [Zero K] [One K] [Neg K] in
/-- The boundaries of a text are in order. -/
theorem boundaries_ordered {units : List SemanticUnit} (hcovers : Covers paragraph 0 units paragraph.length)
    (h : boundaries.map Prod.fst = units.tail.map (·.start)) : boundaries.Pairwise fun b b' => b.1 ≤ b'.1 := by
  rw [← List.pairwise_map (f := Prod.fst) (R := (· ≤ ·)), h, List.pairwise_map]
  refine (hcovers.pairwise.sublist (List.tail_sublist units)).imp_of_mem fun {u v} hu _ hbefore => ?_
  obtain ⟨-, hwhole, -⟩ := hcovers.bounds (List.mem_of_mem_tail hu)
  exact hwhole.lt.le.trans hbefore

/-- A paragraph that is not blank is cut into chunks: they tile it, none is empty and none is too large, whatever the
tokenizer, as long as it counts every slice, and no character alone as more than the target. -/
theorem chunkParagraph_total (np : Numpy K) (cfg : ChunkingConfig K) (separator paragraph : Text) (tokenizer : Tokenizer)
    (similarityThreshold : Option K) (encoder : SentenceEncoder K) (count : Text → ℕ) (hblank : isBlank paragraph = false)
    (hthreshold : ∀ t ∈ similarityThreshold, 0 ≤ t ∧ t ≤ 1) (hregular : encoder.Regular np)
    (hcounts : CountsSlices tokenizer paragraph count) (hone : ∀ c ∈ paragraph, count [c] ≤ cfg.targetTokens) :
    ∃ spans, chunkParagraph np cfg separator paragraph tokenizer similarityThreshold encoder =
        .ok (spans.map (Span.text paragraph)) ∧
      Tiles 0 spans paragraph.length ∧ (spans.map (Span.text paragraph)).flatten = paragraph ∧
      ∀ s ∈ spans, s.start < s.stop ∧ count (s.text paragraph) ≤ cfg.maxTokens := by
  have hunits : semanticUnits separator paragraph ≠ [] := by
    rw [Ne, semanticUnits_eq_nil_iff, hblank]
    decide
  have hcovers := covers_semanticUnits separator paragraph
  obtain ⟨boundaries, hboundaries, hstarts⟩ := boundarySimilarities_eq_ok hregular separator paragraph
  have hfirst : ∀ start, start < paragraph.length → ∃ c ∈ paragraph, slice paragraph start (start + 1) = [c] := by
    intro start hlt
    refine ⟨_, List.getElem_mem hlt, ?_⟩
    rw [slice_succ le_rfl (List.getElem?_eq_getElem hlt), slice_self, List.nil_append]
  have hready : ∀ start, start ≤ paragraph.length → Ready cfg paragraph boundaries (fun _ => True) count start := by
    intro start hle
    refine ⟨hle, fun hlt => ⟨trivial, fun b hb _ => ⟨?_, trivial⟩, start + 1, Nat.lt_succ_self _, hlt, trivial, ?_⟩⟩
    · obtain ⟨v, hv, hstart⟩ := exists_unit_of_boundary hstarts hb
      obtain ⟨-, hwhole, -⟩ := hcovers.bounds (List.mem_of_mem_tail hv)
      exact hstart.symm.le.trans (hwhole.lt.le.trans hwhole.le)
    · obtain ⟨c, hc, hslice⟩ := hfirst start hlt
      rw [hslice]
      exact hone c hc
  have hnever : NeverStuck cfg paragraph count boundaries (similarityThreshold.getD cfg.chunkThreshold) 0 fun _ => True := by
    intro start _ hlt hstuck
    obtain ⟨c, hc, hslice⟩ := hfirst start hlt
    obtain ⟨j, hj⟩ := exists_halving_eq_succ hlt
    refine hstuck.2 ⟨⟨j, trivial, ?_⟩, fun _ _ _ _ => trivial⟩
    rw [hj, hslice]
    exact (hone c hc).trans target_le_prefixLimit
  obtain ⟨hok, -⟩ := chunkParagraph_spec cfg hunits hthreshold hboundaries hcounts.solid
    (boundaries_ordered hcovers hstarts) (fun _ stop _ _ hstop => hready stop hstop.le) (hready 0 (Nat.zero_le _))
  obtain ⟨spans, hspans, htiles, hall⟩ := hok hnever
  exact ⟨spans, hspans, htiles, by rw [htiles.flatten, slice_zero_length], fun s hs => ⟨(hall s hs).1, (hall s hs).2.2⟩⟩

end Whole

/-- Seven letters and a sentence in chunks of at most six characters. -/
theorem chunkParagraph_total_sample :
    ∃ spans : List Span, chunkParagraph numpySample chunkingSample (lit " ") (lit "abcdefg. Hi you.") tokenizerSample none
        encoderSample = .ok (spans.map (Span.text (lit "abcdefg. Hi you."))) ∧
      ∀ s ∈ spans, (s.text (lit "abcdefg. Hi you.")).length ≤ 6 :=
  have ⟨spans, hspans, _, _, hall⟩ := chunkParagraph_total numpySample chunkingSample (lit " ") (lit "abcdefg. Hi you.")
    tokenizerSample none encoderSample List.length (by decide) (by simp) encoderSample_regular (tokenizerSample_counts _)
    (fun _ _ => show 1 ≤ 4 by decide)
  ⟨spans, hspans, fun s hs => (hall s hs).2⟩

end TenantRag

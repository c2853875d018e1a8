import Mathlib.Algebra.Order.Ring.Int
import Mathlib.Data.List.Basic
import TenantRag.Foundations.Result
import TenantRag.Processing.SemanticUnits

/-!
# Splitting into paragraphs

The text is cut at the start of each unit that is less similar to the unit before
it than the threshold. The encoder is outside the repository, and so is the
arithmetic of floats: both are parameters, and floats are compared by a linear order.

## The model

* `ChunkingConfig` — the thresholds and token limits, with the checks their construction makes.
* `encodeSentences`, `Numpy.cosineSimilarity` — the rows an encoder returns, checked and scaled, and their similarity.
* `splitIntoParagraphs` — the paragraphs.

## What is proved

* `units_split` — the units tile the text, and the paragraphs are cut at the starts of dissimilar units and nowhere else.
-/

namespace TenantRag

/-! ### Configuration and embeddings -/

/-- `ChunkingConfig`, as its construction checks it. -/
structure ChunkingConfig (K : Type) [LinearOrder K] [Zero K] [One K] where
  paragraphThreshold : K
  chunkThreshold : K
  targetTokens : ℕ
  minTokens : ℕ
  maxTokens : ℕ
  paragraph_mem : 0 ≤ paragraphThreshold ∧ paragraphThreshold ≤ 1
  chunk_mem : 0 ≤ chunkThreshold ∧ chunkThreshold ≤ 1
  positive : 0 < minTokens
  min_le_target : minTokens ≤ targetTokens
  target_le_max : targetTokens ≤ maxTokens

/-- What is used of `numpy`: whether a number is finite, the norm of a row, division, and the product of rows. -/
structure Numpy (K : Type) where
  isFinite : K → Bool
  norm : List K → K
  div : K → K → K
  dot : List K → List K → K

/-- `SentenceEncoder.encode`: the rows of the matrix. -/
abbrev SentenceEncoder (K : Type) := List Text → Except PyError (List (List K))

section Embedding
variable {K : Type} [LinearOrder K] [Zero K] [One K] [Neg K]

/-- `_validate_similarity_threshold`. -/
def validateSimilarityThreshold (value : K) : Except PyError K :=
  if 0 ≤ value ∧ value ≤ 1 then .ok value
  else .error (valueError "similarity_threshold must be between 0 and 1 inclusive")

/-- `_encode_sentences`. -/
def encodeSentences (np : Numpy K) (encoder : SentenceEncoder K) (sentences : List Text) :
    Except PyError (List (List K)) := do
  let embeddings ← encoder sentences
  let width := (embeddings.head?.map List.length).getD 0
  if embeddings.any fun row => row.length != width then
    throw (valueError "setting an array element with a sequence")
  if embeddings = [] ∨ embeddings.length ≠ sentences.length then
    throw (valueError "encoder must return one vector per input semantic unit")
  if width = 0 then
    throw (valueError "encoder vectors must contain at least one dimension")
  if ¬ embeddings.all fun row => row.all np.isFinite then
    throw (valueError "encoder returned non-finite values")
  if embeddings.any fun row => np.norm row = 0 then
    throw (valueError "encoder returned a zero-length vector")
  return embeddings.map fun row => row.map fun x => np.div x (np.norm row)

/-- `_cosine_similarity`. -/
def Numpy.cosineSimilarity (np : Numpy K) (left right : List K) : K := min (max (np.dot left right) (-1)) 1

/-- Finite vectors, one for each sentence and all of one dimension; none is zero, which is to say that no norm is, as
`numpy` computes it. -/
structure FiniteNonzero (np : Numpy K) (rows : List (List K)) (sentences : List Text) : Prop where
  length_eq : rows.length = sentences.length
  dimension : ∃ width, 0 < width ∧ ∀ row ∈ rows, row.length = width
  finite : ∀ row ∈ rows, ∀ x ∈ row, np.isFinite x = true
  nonzero : ∀ row ∈ rows, np.norm row ≠ 0

/-- The encoder returns finite vectors that are not zero. -/
def SentenceEncoder.Regular (np : Numpy K) (encoder : SentenceEncoder K) : Prop :=
  ∀ sentences, ∃ rows, encoder sentences = .ok rows ∧ FiniteNonzero np rows sentences

omit [One K] [Neg K] in
/-- Finite vectors that are not zero pass the checks. -/
theorem encodeSentences_eq_ok {np : Numpy K} {encoder : SentenceEncoder K} {sentences : List Text} {rows : List (List K)}
    (hne : sentences ≠ []) (h : encoder sentences = .ok rows) (hrows : FiniteNonzero np rows sentences) :
    encodeSentences np encoder sentences = .ok (rows.map fun row => row.map fun x => np.div x (np.norm row)) := by
  obtain ⟨hlength, ⟨width, hpos, hwidth⟩, hfinite, hnonzero⟩ := hrows
  have hrowsne : rows ≠ [] := by
    rintro rfl
    exact hne (List.length_eq_zero_iff.mp hlength.symm)
  obtain ⟨first, rest, rfl⟩ := List.exists_cons_of_ne_nil hrowsne
  have hfirst : first.length = width := hwidth first List.mem_cons_self
  have hsame : ((first :: rest).any fun row => row.length != first.length) = false := by
    rw [List.any_eq_false]
    intro row hrow
    simp [hwidth row hrow, hfirst]
  have hall : ((first :: rest).all fun row => row.all np.isFinite) = true := by
    simp only [List.all_eq_true]
    exact hfinite
  have hnone : ((first :: rest).any fun row => decide (np.norm row = 0)) = false := by
    rw [List.any_eq_false]
    intro row hrow
    simpa using hnonzero row hrow
  have hwidth0 : first.length ≠ 0 := by omega
  simp only [encodeSentences, h, bind, Except.bind, pure, Except.pure, List.head?_cons, Option.map_some, Option.getD_some,
    hsame, hall, hnone, hlength, hwidth0, List.cons_ne_nil, ne_eq, not_true_eq_false, or_self, if_false, Bool.false_eq_true]

end Embedding

/-! ### Paragraphs -/

section Split
variable {K : Type} [LinearOrder K] [Zero K] [One K] [Neg K] (np : Numpy K)

/-- The starts of the units behind the first, each with its similarity to the unit before. -/
def unitBoundaries (units : List SemanticUnit) (embeddings : List (List K)) : List (ℕ × K) :=
  (units.tail.map (·.start)).zip (List.zipWith np.cosineSimilarity embeddings embeddings.tail)

/-- The loop of `split_into_paragraphs`: the spans of the paragraphs from `paragraphStart` on. -/
def paragraphSpans (threshold : K) (textEnd : ℕ) : ℕ → List (ℕ × K) → List Span
  | paragraphStart, [] => [⟨paragraphStart, textEnd⟩]
  | paragraphStart, (boundary, similarity) :: rest =>
      if similarity < threshold then
        ⟨paragraphStart, boundary⟩ :: paragraphSpans threshold textEnd boundary rest
      else paragraphSpans threshold textEnd paragraphStart rest

/-- `split_into_paragraphs`. -/
def splitIntoParagraphs (cfg : ChunkingConfig K) (separator text : Text) (similarityThreshold : Option K)
    (encoder : SentenceEncoder K) : Except PyError (List Text) :=
  match semanticUnits separator text with
  | [] => .ok []
  | [_] => .ok [text]
  | units => do
      let threshold ← validateSimilarityThreshold (similarityThreshold.getD cfg.paragraphThreshold)
      let embeddings ← encodeSentences np encoder (units.map (·.embeddingText))
      return (paragraphSpans threshold text.length 0 (unitBoundaries np units embeddings)).map (Span.text text)

end Split

/-- A unit lies inside a span. -/
def SemanticUnit.Inside (u : SemanticUnit) (s : Span) : Prop := s.start ≤ u.start ∧ u.stop ≤ s.stop

/-- A unit lies outside a span. -/
def SemanticUnit.Outside (u : SemanticUnit) (s : Span) : Prop := u.stop ≤ s.start ∨ s.stop ≤ u.start

variable {text : Text}

/-- The units that are covered lie in order. -/
theorem Covers.bounds {a b : ℕ} {units : List SemanticUnit} (h : Covers text a units b) {u : SemanticUnit} (hu : u ∈ units) :
    a ≤ u.start ∧ u.Whole text ∧ u.stop ≤ b := by
  induction units generalizing a with
  | nil => cases hu
  | cons v units ih =>
    obtain ⟨hstart, -, hv, hrest⟩ := h
    rcases List.mem_cons.mp hu with rfl | hu
    · exact ⟨hstart, hv, hrest.le⟩
    · obtain ⟨hle, hwhole, hstop⟩ := ih hrest hu
      exact ⟨hstart.trans (hv.lt.le.trans hle), hwhole, hstop⟩

theorem Covers.pairwise {a b : ℕ} {units : List SemanticUnit} (h : Covers text a units b) :
    units.Pairwise fun u v => u.stop ≤ v.start := by
  induction units generalizing a with
  | nil => exact List.Pairwise.nil
  | cons u units ih =>
    obtain ⟨-, -, -, hrest⟩ := h
    exact List.Pairwise.cons (fun v hv => (hrest.bounds hv).1) (ih hrest)

/-- A character that is not white space is in exactly one of the units. -/
theorem Covers.exactly_one {a b i : ℕ} {c : PyChar} {units : List SemanticUnit} (h : Covers text a units b) (ha : a ≤ i)
    (hb : i < b) (hi : text[i]? = some c) (hc : isSpace c = false) :
    (units.filter fun u => u.start ≤ i ∧ i < u.stop).length = 1 := by
  have hgap {a' b' : ℕ} (hblank : isBlank (slice text a' b') = true) (ha' : a' ≤ i) : b' ≤ i := by
    by_contra hlt
    have hspace := isBlank_iff.mp hblank c (mem_slice_iff.mpr ⟨i, ha', Nat.not_le.mp hlt, hi⟩)
    rw [hc] at hspace
    cases hspace
  induction units generalizing a with
  | nil =>
    have hle := hgap h.2 ha
    omega
  | cons u units ih =>
    obtain ⟨-, hblank, -, hrest⟩ := h
    have hstart := hgap hblank ha
    by_cases hstop : i < u.stop
    · have hnone : units.filter (fun u => u.start ≤ i ∧ i < u.stop) = [] := by
        rw [List.filter_eq_nil_iff]
        intro v hv
        have hle := (hrest.bounds hv).1
        simp only [decide_eq_true_eq]
        omega
      rw [List.filter_cons_of_pos (by simp [hstart, hstop]), hnone]
      rfl
    · rw [List.filter_cons_of_neg (by simp [hstop])]
      exact ih hrest (Nat.not_lt.mp hstop)

/-! ### Where the cuts are -/

section Cuts
variable {K : Type} [LinearOrder K]

/-- The spans of the paragraphs: they tile the text, the first holds the unit before the first boundary, each holds a
unit, none cuts a unit, and behind the first they start at the boundaries below the threshold. -/
theorem paragraphSpans_spec {paragraphStart stop : ℕ} {u : SemanticUnit} {units : List SemanticUnit}
    {similarities : List K} (hcovers : Covers text u.start (u :: units) stop) (hle : paragraphStart ≤ u.start)
    (hlength : similarities.length = units.length) (threshold : K) :
    ∃ first rest,
      paragraphSpans threshold stop paragraphStart ((units.map (·.start)).zip similarities) = first :: rest ∧
      Tiles paragraphStart (first :: rest) stop ∧ u.Inside first ∧
      (∀ s ∈ first :: rest, ∃ v ∈ u :: units, v.Inside s) ∧
      (∀ s ∈ first :: rest, ∀ v ∈ u :: units, v.Inside s ∨ v.Outside s) ∧
      rest.map (·.start) =
        (((units.map (·.start)).zip similarities).filter fun b => b.2 < threshold).map (·.1) := by
  induction units generalizing u paragraphStart similarities with
  | nil =>
    have hinside : u.Inside ⟨paragraphStart, stop⟩ := ⟨hle, (hcovers.bounds List.mem_cons_self).2.2⟩
    refine ⟨⟨paragraphStart, stop⟩, [], rfl, ⟨rfl, hle.trans hcovers.le, rfl⟩, hinside, ?_, ?_, rfl⟩
    · simpa using hinside
    · simpa using Or.inl hinside
  | cons v units ih =>
    obtain ⟨similarity, similarities, rfl⟩ := List.exists_cons_of_length_eq_add_one hlength
    rw [List.length_cons, List.length_cons, Nat.add_left_inj] at hlength
    obtain ⟨-, -, hu, hnext, -, hv, hrest⟩ := hcovers
    have hcovers' : Covers text v.start (v :: units) stop := ⟨le_rfl, by rw [slice_self, isBlank_nil], hv, hrest⟩
    rw [List.map_cons, List.zip_cons_cons, paragraphSpans]
    by_cases hcut : similarity < threshold
    · -- the paragraph ends where `v` starts
      obtain ⟨first, rest, hspans, htiles, hinside, hsome, hwhole, hstarts⟩ := ih hcovers' le_rfl hlength
      have hinside' : u.Inside ⟨paragraphStart, v.start⟩ := ⟨hle, hnext⟩
      have hstart : first.start = v.start := htiles.1
      rw [if_pos hcut, hspans]
      refine ⟨_, first :: rest, rfl, ⟨rfl, hle.trans (hu.lt.le.trans hnext), htiles⟩, hinside', ?_, ?_, ?_⟩
      · rw [List.forall_mem_cons]
        refine ⟨⟨u, List.mem_cons_self, hinside'⟩, fun s hs => ?_⟩
        obtain ⟨w, hw, hin⟩ := hsome s hs
        exact ⟨w, List.mem_cons_of_mem u hw, hin⟩
      · rw [List.forall_mem_cons]
        constructor
        · rw [List.forall_mem_cons]
          exact ⟨.inl hinside', fun w hw => .inr (.inr (hcovers'.bounds hw).1)⟩
        · intro s hs
          rw [List.forall_mem_cons]
          exact ⟨.inr (.inl (hnext.trans (htiles.bounds hs).1)), hwhole s hs⟩
      · rw [List.filter_cons_of_pos (by simpa using hcut), List.map_cons, List.map_cons, hstart, hstarts]
    · -- `v` belongs to the same paragraph
      obtain ⟨first, rest, hspans, htiles, hinside, hsome, hwhole, hstarts⟩ :=
        ih hcovers' (hle.trans (hu.lt.le.trans hnext)) hlength
      have hinside' : u.Inside first := by
        refine ⟨htiles.1.trans_le hle, hnext.trans (hv.lt.le.trans hinside.2)⟩
      rw [if_neg hcut, hspans]
      refine ⟨first, rest, rfl, htiles, hinside', fun s hs => ?_, fun s hs => ?_, ?_⟩
      · obtain ⟨w, hw, hin⟩ := hsome s hs
        exact ⟨w, List.mem_cons_of_mem u hw, hin⟩
      · rw [List.forall_mem_cons]
        refine ⟨?_, hwhole s hs⟩
        rcases List.mem_cons.mp hs with rfl | hs
        · exact .inl hinside'
        · exact .inr (.inl (hinside'.2.trans (htiles.2.2.bounds hs).1))
      · rw [List.filter_cons_of_neg (by simpa using hcut), hstarts]

variable [Zero K] [One K] [Neg K] {np : Numpy K}

omit [Zero K] in
/-- A boundary is the start of a unit, with its similarity to the unit before. -/
theorem mem_unitBoundaries {units : List SemanticUnit} {embeddings : List (List K)} {b : ℕ} {similarity : K} :
    (b, similarity) ∈ unitBoundaries np units embeddings ↔
      ∃ (i : ℕ) (v : SemanticUnit) (left right : List K), units[i + 1]? = some v ∧ embeddings[i]? = some left ∧
        embeddings[i + 1]? = some right ∧ v.start = b ∧ np.cosineSimilarity left right = similarity := by
  rw [unitBoundaries, List.mem_iff_getElem?]
  constructor
  · rintro ⟨i, hi⟩
    rw [List.getElem?_zip_eq_some, List.getElem?_map, List.getElem?_tail, List.getElem?_zipWith_eq_some] at hi
    obtain ⟨hunit, left, right, hleft, hright, hsimilarity⟩ := hi
    obtain ⟨v, hv, hstart⟩ := Option.map_eq_some_iff.mp hunit
    rw [List.getElem?_tail] at hright
    exact ⟨i, v, left, right, hv, hleft, hright, hstart, hsimilarity⟩
  · rintro ⟨i, v, left, right, hv, hleft, hright, hstart, hsimilarity⟩
    refine ⟨i, ?_⟩
    rw [List.getElem?_zip_eq_some, List.getElem?_map, List.getElem?_tail, List.getElem?_zipWith_eq_some]
    exact ⟨by rw [hv, Option.map_some, hstart], left, right, hleft, by rwa [List.getElem?_tail], hsimilarity⟩

omit [Neg K] in
theorem validateSimilarityThreshold_getD {threshold : Option K} {default : K} (h : ∀ t ∈ threshold, 0 ≤ t ∧ t ≤ 1)
    (hdefault : 0 ≤ default ∧ default ≤ 1) :
    validateSimilarityThreshold (threshold.getD default) = .ok (threshold.getD default) := by
  cases threshold with
  | none => exact if_pos hdefault
  | some t => exact if_pos (h t rfl)

/-- What is returned for a text that is not blank, once the checks have passed. -/
theorem splitIntoParagraphs_eq_ok {cfg : ChunkingConfig K} {separator : Text} {similarityThreshold : Option K}
    {encoder : SentenceEncoder K} {embeddings : List (List K)} (hne : semanticUnits separator text ≠ [])
    (hthreshold : ∀ t ∈ similarityThreshold, 0 ≤ t ∧ t ≤ 1)
    (hencode : encodeSentences np encoder ((semanticUnits separator text).map (·.embeddingText)) = .ok embeddings) :
    splitIntoParagraphs np cfg separator text similarityThreshold encoder =
      .ok ((paragraphSpans (similarityThreshold.getD cfg.paragraphThreshold) text.length 0
        (unitBoundaries np (semanticUnits separator text) embeddings)).map (Span.text text)) := by
  rw [splitIntoParagraphs]
  rcases hunits : semanticUnits separator text with - | ⟨u, - | ⟨v, units⟩⟩
  · exact absurd hunits hne
  · -- a single unit: nothing is encoded
    rw [unitBoundaries, List.tail_cons, List.map_nil, List.zip_nil_left, paragraphSpans, List.map_singleton, Span.text,
      slice_zero_length]
  · rw [hunits] at hencode
    simp only [validateSimilarityThreshold_getD hthreshold cfg.paragraph_mem, hencode, bind, Except.bind, pure,
      Except.pure]

/-- The units tile the text. For a text that is not blank, a threshold between zero and one and an encoder that returns
finite vectors that are not zero, the paragraphs are slices that make up the text, each with a whole unit and none with
part of one, and they are cut exactly at the starts of the units that are less similar than the threshold. -/
theorem units_split (np : Numpy K) (cfg : ChunkingConfig K) (separator text : Text) :
    ((semanticUnits separator text).Pairwise fun u v => u.stop ≤ v.start) ∧
    (∀ u ∈ semanticUnits separator text, u.start < u.stop ∧ u.stop ≤ text.length ∧ u.embeddingText ≠ []) ∧
    (∀ i c, text[i]? = some c → isSpace c = false →
      ((semanticUnits separator text).filter fun u => u.start ≤ i ∧ i < u.stop).length = 1) ∧
    ∀ (similarityThreshold : Option K) (encoder : SentenceEncoder K), isBlank text = false →
      (∀ t ∈ similarityThreshold, 0 ≤ t ∧ t ≤ 1) → encoder.Regular np →
      ∃ embeddings spans,
        encodeSentences np encoder ((semanticUnits separator text).map (·.embeddingText)) = .ok embeddings ∧
        splitIntoParagraphs np cfg separator text similarityThreshold encoder = .ok (spans.map (Span.text text)) ∧
        Tiles 0 spans text.length ∧ (spans.map (Span.text text)).flatten = text ∧
        (∀ s ∈ spans, (∃ u ∈ semanticUnits separator text, u.Inside s) ∧
          ∀ u ∈ semanticUnits separator text, u.Inside s ∨ u.Outside s) ∧
        ∀ b, b ∈ (spans.map (·.start)).tail ↔
          ∃ (i : ℕ) (v : SemanticUnit) (left right : List K), (semanticUnits separator text)[i + 1]? = some v ∧
            embeddings[i]? = some left ∧ embeddings[i + 1]? = some right ∧ v.start = b ∧
            np.cosineSimilarity left right < similarityThreshold.getD cfg.paragraphThreshold := by
  have hcovers := covers_semanticUnits separator text
  refine ⟨hcovers.pairwise, fun u hu => ?_, fun i c hi hc => ?_, fun threshold encoder hblank hthreshold hregular => ?_⟩
  · obtain ⟨-, hwhole, -⟩ := hcovers.bounds hu
    exact ⟨hwhole.lt, hwhole.le, hwhole.embedded⟩
  · exact hcovers.exactly_one (Nat.zero_le i) (List.getElem?_eq_some_iff.mp hi).1 hi hc
  have hne : semanticUnits separator text ≠ [] := by
    rw [Ne, semanticUnits_eq_nil_iff, hblank]
    decide
  obtain ⟨rows, hrows, hfinite⟩ := hregular ((semanticUnits separator text).map (·.embeddingText))
  have hencode := encodeSentences_eq_ok (by simpa using hne) hrows hfinite
  have hlength := hfinite.length_eq
  generalize hembeddings : (rows.map fun row => row.map fun x => np.div x (np.norm row)) = embeddings at hencode
  have hlength' : embeddings.length = (semanticUnits separator text).length := by
    rw [← hembeddings, List.length_map, hlength, List.length_map]
  obtain ⟨u, units, hunits⟩ := List.exists_cons_of_ne_nil hne
  have hsimilarities : (List.zipWith np.cosineSimilarity embeddings embeddings.tail).length = units.length := by
    rw [hunits, List.length_cons] at hlength'
    rw [List.length_zipWith, List.length_tail, hlength']
    omega
  have hfirst : Covers text u.start (u :: units) text.length := by
    rw [hunits] at hcovers
    obtain ⟨-, -, hu, hrest⟩ := hcovers
    exact ⟨le_rfl, by rw [slice_self, isBlank_nil], hu, hrest⟩
  obtain ⟨first, rest, hspans, htiles, -, hsome, hwhole, hstarts⟩ :=
    paragraphSpans_spec hfirst (Nat.zero_le u.start) hsimilarities (threshold.getD cfg.paragraphThreshold)
  have hboundaries : (units.map (·.start)).zip (List.zipWith np.cosineSimilarity embeddings embeddings.tail) =
      unitBoundaries np (semanticUnits separator text) embeddings := by
    rw [unitBoundaries, hunits, List.tail_cons]
  rw [hboundaries] at hspans hstarts
  refine ⟨embeddings, first :: rest, hencode, ?_, htiles, ?_, fun s hs => ?_, fun b => ?_⟩
  · rw [splitIntoParagraphs_eq_ok hne hthreshold hencode, hspans]
  · rw [htiles.flatten, slice_zero_length]
  · rw [hunits]
    exact ⟨hsome s hs, hwhole s hs⟩
  · rw [List.map_cons, List.tail_cons, hstarts]
    simp only [List.mem_map, List.mem_filter, decide_eq_true_eq, Prod.exists, exists_and_right, exists_eq_right,
      mem_unitBoundaries]
    constructor
    · rintro ⟨similarity, ⟨i, v, left, right, hv, hleft, hright, hstart, rfl⟩, hlt⟩
      exact ⟨i, v, left, right, hv, hleft, hright, hstart, hlt⟩
    · rintro ⟨i, v, left, right, hv, hleft, hright, hstart, hlt⟩
      exact ⟨_, ⟨i, v, left, right, hv, hleft, hright, hstart, rfl⟩, hlt⟩

end Cuts

/-! ### A sample -/

/-- One-dimensional vectors over the integers. -/
def numpySample : Numpy ℤ where
  isFinite _ := true
  norm row := (row.map Int.natAbs).sum
  div x y := x / y
  dot left right := (List.zipWith (· * ·) left right).sum

/-- Each sentence to one and the same unit vector. -/
def encoderSample : SentenceEncoder ℤ := fun sentences => .ok (sentences.map fun _ => [1])

/-- A configuration. -/
def chunkingSample : ChunkingConfig ℤ where
  paragraphThreshold := 1
  chunkThreshold := 1
  targetTokens := 4
  minTokens := 2
  maxTokens := 6
  paragraph_mem := by decide
  chunk_mem := by decide
  positive := by decide
  min_le_target := by decide
  target_le_max := by decide

theorem encoderSample_regular : encoderSample.Regular numpySample := by
  intro sentences
  refine ⟨_, rfl, by simp, ⟨1, by decide, by simp⟩, fun _ _ _ _ => rfl, ?_⟩
  intro row hrow
  obtain ⟨-, -, rfl⟩ := List.mem_map.mp hrow
  decide

/-- Two sentences of one meaning are one paragraph. -/
theorem units_split_sample :
    ∃ spans : List Span, splitIntoParagraphs numpySample chunkingSample (lit " ") (lit "A b. C d.\n") none encoderSample =
        .ok (spans.map (Span.text (lit "A b. C d.\n"))) ∧
      (spans.map (Span.text (lit "A b. C d.\n"))).flatten = lit "A b. C d.\n" := by
  obtain ⟨-, -, -, hsplit⟩ := units_split numpySample chunkingSample (lit " ") (lit "A b. C d.\n")
  obtain ⟨-, spans, -, hspans, -, hflatten, -⟩ := hsplit none encoderSample (by decide) (by simp) encoderSample_regular
  exact ⟨spans, hspans, hflatten⟩

end TenantRag

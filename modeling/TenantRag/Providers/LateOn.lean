import TenantRag.Processing.ChunkParagraph

/-!
# Segments of LateOn

The LateOn provider is the tokenizer its own texts are chunked with. It strips what
it counts, and it rejects a blank text. The chunker measures slices of the text; a
slice it measures at a start with white space ahead may be blank.

## The model

* `LateOnProvider.encode` — the token ids of a text, the document prefix behind the first.
* `LateOnProvider.segmentDocument` — the chunks, checked once more.
* `Blocked` — a start behind which there is too much white space.

## What is proved

* `LateOnCounts.countsSolid` — what the chunker needs of the tokenizer, for slices that are not blank.
* `stuck_iff_blocked` — where the rule of the cuts is stuck, said of the white space of the text.
* `segmentDocument_iff` — a text is cut into segments exactly if the rule begins no chunk at a blocked start.
* `segmentDocument_of_starts` — it is if neither the text nor one of its units begins at one.
* `segmentDocument_flush` — it is if neither the text nor one of its units begins with white space.
-/

namespace TenantRag

/-! ### Stripping -/

/-- Something else than white space stops the stripping from the left. -/
theorem dropWhile_append_solid (xs ys : Text) {c : PyChar} (hc : isSpace c = false) :
    ∃ zs, (xs ++ c :: ys).dropWhile isSpace = zs ++ c :: ys := by
  rw [List.dropWhile_append]
  split
  · exact ⟨[], by simp [hc]⟩
  · exact ⟨_, rfl⟩

/-- The same from the right. -/
theorem rdropWhile_append_solid (xs ys : Text) {c : PyChar} (hc : isSpace c = false) :
    ∃ zs, (xs ++ c :: ys).rdropWhile isSpace = xs ++ c :: zs := by
  obtain ⟨zs, hzs⟩ := dropWhile_append_solid ys.reverse xs.reverse hc
  refine ⟨zs.reverse, ?_⟩
  rw [List.rdropWhile, List.reverse_append, List.reverse_cons, List.append_assoc, List.singleton_append, hzs]
  simp

/-- Where a text stands, its stripped text stands within what stripping leaves. -/
theorem strip_within {s s' : Text} (h : s <:+: s') : strip s <:+: strip s' := by
  by_cases hnil : strip s = []
  · rw [hnil]
    exact List.nil_infix
  obtain ⟨⟨c, cs, hhead, hc⟩, ds, d, hlast, hd⟩ := strip_ends hnil
  obtain ⟨xs, ys, -, -, hs⟩ := strip_split s
  obtain ⟨before, behind, rfl⟩ := h
  have hsplit : before ++ s ++ behind = (before ++ xs) ++ c :: (cs ++ (ys ++ behind)) := by
    rw [hs, ← List.cons_append, ← hhead]
    simp only [List.append_assoc]
  obtain ⟨zs, hzs⟩ := dropWhile_append_solid (before ++ xs) (cs ++ (ys ++ behind)) hc
  have hmid : zs ++ c :: (cs ++ (ys ++ behind)) = (zs ++ ds) ++ d :: (ys ++ behind) := by
    rw [← List.cons_append, ← hhead, hlast]
    simp
  obtain ⟨rest, hrest⟩ := rdropWhile_append_solid (zs ++ ds) (ys ++ behind) hd
  have hstrip : strip (before ++ s ++ behind) = zs ++ ds ++ d :: rest := by rw [hsplit, strip, hzs, hmid, hrest]
  refine ⟨zs, rest, ?_⟩
  rw [hstrip, hlast]
  simp

/-! ### The provider -/

/-- `ONNXLateOnProvider`: the ids its tokenizer gives a text, special tokens added. -/
structure LateOnProvider where
  inputIds : Text → List ℕ
  documentPrefixId : ℕ
  closed : Bool

/-- `LATEON_DOCUMENT_MAX_MODEL_TOKENS`. -/
def lateOnDocumentMaxModelTokens : ℕ := 300

/-- `ONNXLateOnError`, a `RuntimeError`. -/
def lateOnError (message : String) : PyError := ⟨.runtimeError, message⟩

/-- `ONNXLateOnProvider.encode`. -/
def LateOnProvider.encode (provider : LateOnProvider) : Tokenizer := fun text =>
  if isBlank text then .error (valueError "text must not be empty")
  else if provider.closed then .error (runtimeError "LateOn provider is closed")
  else
    match provider.inputIds (strip text) with
    | [] => .error (lateOnError "LateOn tokenizer returned no document tokens")
    | first :: ids => .ok (first :: provider.documentPrefixId :: ids)

section Segment
variable {K : Type} [LinearOrder K] [Zero K] [One K] [Neg K] (np : Numpy K) (cfg : ChunkingConfig K)

/-- The checks of `segment_document`. -/
def checkedSegments (provider : LateOnProvider) (canonical : Text) (segments : List Text) : Except PyError (List Text) := do
  if segments = [] ∨ segments.flatten ≠ canonical then throw (lateOnError "LateOn segmentation was not lossless")
  let above ← segments.anyM fun segment => do
    let tokens ← tokenCount segment provider.encode
    return lateOnDocumentMaxModelTokens < tokens
  if above then throw (lateOnError "LateOn segmentation exceeded its document limit")
  return segments

/-- `ONNXLateOnProvider.segment_document`. -/
def LateOnProvider.segmentDocument (provider : LateOnProvider) (separator : Text) (encoder : SentenceEncoder K)
    (text : Text) : Except PyError (List Text) :=
  if isBlank text then .error (valueError "text must not be empty")
  else do
    let segments ← chunkParagraph np cfg separator text provider.encode none encoder
    checkedSegments provider text segments

/-- The tokenizer adds special tokens to a count of the stripped text that is monotone, and gives no character more than
the target. -/
structure LateOnCounts (provider : LateOnProvider) (text : Text) (special : ℕ) (inner : Text → ℕ) : Prop where
  special_pos : 0 < special
  counted : ∀ s, s <:+: text → isBlank s = false → (provider.inputIds (strip s)).length = special + inner (strip s)
  mono : ∀ s s', s <:+: s' → s' <:+: text → inner s ≤ inner s'
  one : ∀ c ∈ text, isSpace c = false → special + 1 + inner [c] ≤ cfg.targetTokens

end Segment

variable {K : Type} [LinearOrder K] [Zero K] [One K] {cfg : ChunkingConfig K} {provider : LateOnProvider} {text : Text}
  {special : ℕ} {inner : Text → ℕ}

/-- The tokens of a slice: the special ones, the prefix and those of the stripped slice. -/
def lateOnCount (special : ℕ) (inner : Text → ℕ) (s : Text) : ℕ := special + 1 + inner (strip s)

theorem strip_within_self (s : Text) : strip s <:+: s := by
  obtain ⟨xs, ys, -, -, hs⟩ := strip_split s
  exact ⟨xs, ys, by rw [List.append_assoc]; exact hs.symm⟩

/-- What the chunker needs: slices that are not blank are counted, the others are rejected. -/
theorem LateOnCounts.countsSolid (h : LateOnCounts cfg provider text special inner) (hopen : provider.closed = false) :
    CountsSolid provider.encode text (fun s => isBlank s = false) (lateOnCount special inner) where
  counted s hs hblank := by
    have hlength := h.counted s hs hblank
    obtain ⟨first, ids, hids⟩ : ∃ first ids, provider.inputIds (strip s) = first :: ids := by
      refine List.exists_cons_of_ne_nil fun hnil => ?_
      rw [hnil, List.length_nil] at hlength
      have hpos := h.special_pos
      omega
    rw [hids, List.length_cons] at hlength
    simp only [tokenCount, LateOnProvider.encode, hblank, hopen, hids, Bool.false_eq_true, if_false, bind, Except.bind,
      pure, Except.pure, List.length_cons, lateOnCount]
    rw [hlength, Nat.add_right_comm]
  rejected s _ hblank := by
    rw [Bool.not_eq_false] at hblank
    exact ⟨_, by rw [tokenCount, LateOnProvider.encode, if_pos hblank]; rfl⟩
  upward s s' hs hblank := by
    rw [← Bool.not_eq_true] at hblank ⊢
    exact fun hblank' => hblank (isBlank_of_within hs hblank')
  mono s s' hs hs' :=
    Nat.add_le_add_left (h.mono _ _ (strip_within hs) ((strip_within_self s').trans hs')) _

/-! ### Starts of chunks -/

/-- The prefix up to the first character that is not white space fits. -/
theorem LateOnCounts.first (h : LateOnCounts cfg provider text special inner) {start : ℕ}
    (hsolid : isBlank (slice text start text.length) = false) :
    ∃ m, start < m ∧ m ≤ text.length ∧ isBlank (slice text start m) = false ∧
      lateOnCount special inner (slice text start m) ≤ cfg.targetTokens := by
  rw [slice_length] at hsolid
  obtain ⟨c, hc, hspace⟩ := not_isBlank_iff.mp hsolid
  have hne : (text.drop start).dropWhile isSpace ≠ [] := by
    intro hnil
    rw [List.dropWhile_eq_nil_iff] at hnil
    rw [hnil c hc] at hspace
    cases hspace
  obtain ⟨d, rest, hrest⟩ := List.exists_cons_of_ne_nil hne
  have hd : isSpace d = false := by
    have hhead := List.head_dropWhile_not isSpace hne
    simpa only [hrest, List.head_cons] using hhead
  have hsplit : text.drop start = ((text.drop start).takeWhile isSpace ++ [d]) ++ rest := by
    rw [List.append_assoc, List.singleton_append, ← hrest, List.takeWhile_append_dropWhile]
  generalize hblanks : (text.drop start).takeWhile isSpace = blanks at hsplit
  have hblank : isBlank blanks = true := by
    rw [← hblanks]
    exact isBlank_iff.mpr fun c hc => List.mem_takeWhile_imp hc
  have hlength := congrArg List.length hsplit
  simp only [List.length_drop, List.length_append, List.length_singleton] at hlength
  have hslice : slice text start (start + (blanks.length + 1)) = blanks ++ [d] := by
    rw [slice, List.drop_take, Nat.add_sub_cancel_left, hsplit]
    exact List.take_left' (by simp)
  have hstrip : strip (blanks ++ [d]) = [d] := by
    have hsolo := strip_append (t := [d]) hblank isBlank_nil
    rw [List.append_nil] at hsolo
    rw [hsolo]
    exact strip_eq_self (List.cons_ne_nil d []) hd hd
  refine ⟨start + (blanks.length + 1), by omega, by omega, ?_, ?_⟩
  · rw [hslice]
    exact not_isBlank_iff.mpr ⟨d, by simp, hd⟩
  · rw [hslice, lateOnCount, hstrip]
    refine h.one d ?_ hd
    exact List.mem_of_mem_drop (i := start) (by rw [hsplit]; simp)

/-- Two units of a text are the same, or one is before the other. -/
theorem Covers.order {a b : ℕ} {units : List SemanticUnit} (h : Covers text a units b) {u v : SemanticUnit} (hu : u ∈ units)
    (hv : v ∈ units) : u = v ∨ u.stop ≤ v.start ∨ v.stop ≤ u.start := by
  induction units generalizing a with
  | nil => cases hu
  | cons w units ih =>
    obtain ⟨-, -, -, hrest⟩ := h
    rcases List.mem_cons.mp hu with rfl | hu' <;> rcases List.mem_cons.mp hv with rfl | hv'
    · exact .inl rfl
    · exact .inr (.inl (hrest.bounds hv').1)
    · exact .inr (.inr (hrest.bounds hu').1)
    · exact ih hrest hu' hv'

variable {boundaries : List (ℕ × K)} {threshold : K} {units : List SemanticUnit}

/-- At the start of a unit the chunker is ready. -/
theorem LateOnCounts.ready_unit (h : LateOnCounts cfg provider text special inner) (hcovers : Covers text 0 units text.length)
    (hstarts : ∀ b ∈ boundaries, ∃ v ∈ units, v.start = b.1) {start : ℕ} {u : SemanticUnit} (hu : u ∈ units)
    (hstart : start ≤ u.start) (hfirst : ∀ v ∈ units, start < v.start → u = v ∨ u.stop ≤ v.start)
    (hnot : start < u.start → ∀ b ∈ boundaries, b.1 ≠ u.start) :
    Ready cfg text boundaries (fun s => isBlank s = false) (lateOnCount special inner) start := by
  obtain ⟨-, hwhole, -⟩ := hcovers.bounds hu
  have hall : isBlank (slice text start text.length) = false :=
    isBlank_slice_mono hstart hwhole.lt.le hwhole.le hwhole.solid
  refine ⟨hstart.trans (hwhole.lt.le.trans hwhole.le), fun _ => ⟨hall, fun b hb hlt => ?_, h.first hall⟩⟩
  obtain ⟨v, hv, hvb⟩ := hstarts b hb
  obtain ⟨-, hwhole', -⟩ := hcovers.bounds hv
  rw [← hvb] at hlt ⊢
  refine ⟨hwhole'.lt.le.trans hwhole'.le, ?_⟩
  rcases hfirst v hv hlt with rfl | hbefore
  · exact absurd hvb.symm (hnot hlt b hb)
  · exact isBlank_slice_mono hstart hwhole.lt.le hbefore hwhole.solid

/-- Behind the end of a prefix there is something else than white space up to every later offset: otherwise the prefix
up to there would count the same. -/
theorem LateOnCounts.solid_behind (h : LateOnCounts cfg provider text special inner) (hopen : provider.closed = false)
    {limit start top stop later : ℕ}
    (htop : IsGreatest (fittingOffsets text (lateOnCount special inner) start limit) top)
    (hstop : stop = top ∨ IsGreatest (spaceOffsets text start top) stop) (hlater : stop < later)
    (hle : later ≤ text.length) : isBlank (slice text stop later) = false := by
  obtain ⟨hlt, hstopTop⟩ : start < stop ∧ stop ≤ top := by
    rcases hstop with rfl | hspace
    · exact ⟨htop.1.1, le_rfl⟩
    · exact ⟨hspace.1.1, hspace.1.2.1⟩
  rw [← Bool.not_eq_true]
  intro hblank
  have hsame : strip (slice text start later) = strip (slice text start stop) := by
    have hstrip := strip_append (t := slice text start stop) isBlank_nil hblank
    rwa [List.nil_append, slice_append_slice text hlt.le hlater.le] at hstrip
  have hmax : ∀ k, start ≤ k → k ≤ text.length → (lateOnCount special inner (slice text start k) ≤ limit ↔ k ≤ top) :=
    fun k => fits_iff (h.countsSolid hopen) htop
  have hfits : lateOnCount special inner (slice text start later) ≤ limit := by
    rw [lateOnCount, hsame]
    exact (hmax stop hlt.le (hlater.le.trans hle)).mpr hstopTop
  have hbefore := (hmax later (hlt.trans hlater).le hle).mp hfits
  rcases hstop with rfl | hspace
  · omega
  · -- the blank slice would have white space behind the last
    have hget := List.getElem?_eq_getElem (hlater.trans_le hle)
    have hchar := isBlank_iff.mp hblank _ (mem_slice_iff.mpr ⟨stop, le_rfl, hlater, hget⟩)
    have hlast := hspace.2 (show stop + 1 ∈ spaceOffsets text start top from
      ⟨hlt.trans (Nat.lt_succ_self stop), hlater.trans_le hbefore, by rw [Nat.add_sub_cancel, hget]; exact hchar⟩)
    omega

/-- From one chunk to the next the chunker stays ready. -/
theorem LateOnCounts.ready_next (h : LateOnCounts cfg provider text special inner) (hopen : provider.closed = false)
    (hcovers : Covers text 0 units text.length) (hstarts : ∀ b ∈ boundaries, ∃ v ∈ units, v.start = b.1) {start stop : ℕ}
    (hready : Ready cfg text boundaries (fun s => isBlank s = false) (lateOnCount special inner) start)
    (hlt : start < text.length)
    (hend : ChunkEnd cfg text (fun s => isBlank s = false) (lateOnCount special inner) boundaries threshold start stop) :
    Ready cfg text boundaries (fun s => isBlank s = false) (lateOnCount special inner) stop := by
  have hprogress := hend.lt
  rcases hend.cut.origin with ⟨b, hb, rfl⟩ | rfl | ⟨top, htop, hstop⟩
  · obtain ⟨v, hv, hvb⟩ := hstarts b hb
    rw [← hvb]
    refine h.ready_unit hcovers hstarts hv le_rfl (fun w hw hlt' => ?_) fun h => absurd h (Nat.lt_irrefl _)
    obtain ⟨-, hwhole, -⟩ := hcovers.bounds hw
    rcases hcovers.order hv hw with heq | hbefore | hafter
    · exact .inl heq
    · exact .inr hbefore
    · have hwlt := hwhole.lt
      omega
  · exact ⟨le_rfl, fun hlt' => absurd hlt' (Nat.lt_irrefl _)⟩
  · have hbehind : ∀ later, stop < later → later ≤ text.length → isBlank (slice text stop later) = false :=
      fun later => h.solid_behind hopen htop hstop
    refine ⟨hend.le, fun hlt' => ⟨hbehind _ hlt' le_rfl, fun b hb hlt'' => ?_, h.first (hbehind _ hlt' le_rfl)⟩⟩
    have hle' := ((hready.solid hlt).boundary b hb (hprogress.trans hlt'')).1
    exact ⟨hle', hbehind _ hlt'' hle'⟩

/-- At the start of a text that is not blank the chunker is ready. -/
theorem LateOnCounts.ready_zero (h : LateOnCounts cfg provider text special inner) (hcovers : Covers text 0 units text.length)
    (hne : units ≠ []) (hstarts : ∀ b ∈ boundaries, ∃ v ∈ units.tail, v.start = b.1) :
    Ready cfg text boundaries (fun s => isBlank s = false) (lateOnCount special inner) 0 := by
  obtain ⟨u, rest, rfl⟩ := List.exists_cons_of_ne_nil hne
  have hordered := hcovers.pairwise
  rw [List.pairwise_cons] at hordered
  obtain ⟨-, hwhole, -⟩ := hcovers.bounds List.mem_cons_self
  refine h.ready_unit hcovers (fun b hb => ?_) List.mem_cons_self (Nat.zero_le _) (fun v hv _ => ?_) fun _ b hb hsame => ?_
  · obtain ⟨v, hv, hvb⟩ := hstarts b hb
    exact ⟨v, List.mem_cons_of_mem _ hv, hvb⟩
  · rcases List.mem_cons.mp hv with rfl | hv
    · exact .inl rfl
    · exact .inr (hordered.1 v hv)
  · obtain ⟨v, hv, hvb⟩ := hstarts b hb
    have hle := hordered.1 v hv
    have hlt := hwhole.lt
    omega

/-! ### Blocked starts -/

/-- A chunk from `start` needs a prefix, and there is too much white space for one: the halvings of what remains are
blank where they fit, or the longest prefix that fits is white space and a word behind it. -/
def Blocked (cfg : ChunkingConfig K) (text : Text) (count : Text → ℕ) (boundaries : List (ℕ × K)) (threshold : K)
    (start : ℕ) : Prop :=
  NeedsPrefix cfg text count boundaries threshold start ∧
    ((∀ j, count (slice text start (halving text start j)) ≤ prefixLimit cfg text count start →
        isBlank (slice text start (halving text start j)) = true) ∨
      ∃ top blanks word, IsGreatest (fittingOffsets text count start (prefixLimit cfg text count start)) top ∧
        slice text start top = blanks ++ word ∧ blanks ≠ [] ∧ isBlank blanks = true ∧ ∀ c ∈ word, isSpace c = false)

/-- A slice that ends in a word: its last white space is what is before the word. -/
theorem isGreatest_spaceOffsets_iff {start top k : ℕ} (hk : start < k) (hktop : k ≤ top) (hle : top ≤ text.length)
    (hblank : isBlank (slice text start k) = true) :
    IsGreatest (spaceOffsets text start top) k ↔ ∀ c ∈ slice text k top, isSpace c = false := by
  constructor
  · intro hlast c hc
    obtain ⟨i, hki, hitop, hget⟩ := mem_slice_iff.mp hc
    rw [← Bool.not_eq_true]
    intro hspace
    have hbefore := hlast.2 (show i + 1 ∈ spaceOffsets text start top from
      ⟨by omega, hitop, by rw [Nat.add_sub_cancel, hget]; exact hspace⟩)
    omega
  · intro hword
    refine ⟨⟨hk, hktop, ?_⟩, fun i hi => ?_⟩
    · have hget := List.getElem?_eq_getElem (show k - 1 < text.length by omega)
      rw [hget]
      exact isBlank_iff.mp hblank _ (mem_slice_iff.mpr ⟨k - 1, by omega, by omega, hget⟩)
    · obtain ⟨hi, hitop, hspace⟩ := hi
      by_contra hbehind
      have hget := List.getElem?_eq_getElem (show i - 1 < text.length by omega)
      rw [hget] at hspace
      have hno := hword _ (mem_slice_iff.mpr ⟨i - 1, by omega, by omega, hget⟩)
      exact absurd (hspace.symm.trans hno) (by decide)

/-- Where blank slices cannot be counted, the rule of the cuts is stuck at the blocked starts. -/
theorem stuck_iff_blocked {count : Text → ℕ} {start : ℕ} :
    Stuck cfg text count boundaries threshold start (fun s => isBlank s = false) ↔
      Blocked cfg text count boundaries threshold start := by
  rw [Stuck, Blocked]
  refine and_congr_right fun _ => ?_
  generalize prefixLimit cfg text count start = limit
  constructor
  · intro hstuck
    by_cases hhalving : ∃ j, isBlank (slice text start (halving text start j)) = false ∧
        count (slice text start (halving text start j)) ≤ limit
    · -- the prefix up to the last white space is blank
      obtain ⟨top, k, htop, hlast, hblank⟩ : ∃ top k, IsGreatest (fittingOffsets text count start limit) top ∧
          IsGreatest (spaceOffsets text start top) k ∧ isBlank (slice text start k) = true := by
        by_contra hno
        refine hstuck ⟨hhalving, fun top k htop hlast => ?_⟩
        rw [← Bool.not_eq_true]
        exact fun hblank => hno ⟨top, k, htop, hlast, hblank⟩
      obtain ⟨hk, hktop, -⟩ := hlast.1
      have hle := htop.1.2.1
      refine .inr ⟨top, slice text start k, slice text k top, htop, (slice_append_slice text hk.le hktop).symm, ?_, hblank,
        (isGreatest_spaceOffsets_iff hk hktop hle hblank).mp hlast⟩
      exact slice_ne_nil hk (hktop.trans hle)
    · refine .inl fun j hfits => ?_
      by_contra hsolid
      exact hhalving ⟨j, Bool.not_eq_true _ ▸ hsolid, hfits⟩
  · rintro (hblank | ⟨top, blanks, word, htop, hslice, hne, hblank, hword⟩) hprefix
    · obtain ⟨j, hsolid, hfits⟩ := hprefix.halving
      exact absurd (hsolid.symm.trans (hblank j hfits)) (by decide)
    · -- the white space of the longest prefix is its blank part
      have hlength := congrArg List.length hslice
      rw [length_slice htop.1.2.1, List.length_append] at hlength
      have hpos := List.length_pos_iff.mpr hne
      have hktop : start + blanks.length ≤ top := by omega
      have hparts := (slice_append_slice text (Nat.le_add_right start blanks.length) hktop).trans hslice
      obtain ⟨hblanks, hrest⟩ := List.append_inj hparts (by rw [length_slice (hktop.trans htop.1.2.1)]; omega)
      have hlast : IsGreatest (spaceOffsets text start top) (start + blanks.length) :=
        (isGreatest_spaceOffsets_iff (by omega) hktop htop.1.2.1 (by rwa [hblanks])).mpr (by rwa [hrest])
      have hsolid := hprefix.space _ _ htop hlast
      rw [hblanks] at hsolid
      exact absurd (hsolid.symm.trans hblank) (by decide)

/-- A start with something else than white space ahead is not blocked. -/
theorem LateOnCounts.not_blocked (h : LateOnCounts cfg provider text special inner) {start : ℕ} {c : PyChar}
    (hget : text[start]? = some c) (hc : isSpace c = false) :
    ¬ Blocked cfg text (lateOnCount special inner) boundaries threshold start := by
  have hsolid : ∀ m, start < m → isBlank (slice text start m) = false := fun m hm =>
    not_isBlank_iff.mpr ⟨c, mem_slice_iff.mpr ⟨start, le_rfl, hm, hget⟩, hc⟩
  have hlt : start < text.length := (List.getElem?_eq_some_iff.mp hget).1
  obtain ⟨j, hj⟩ := exists_halving_eq_succ hlt
  have hfits : lateOnCount special inner (slice text start (start + 1)) ≤ prefixLimit cfg text (lateOnCount special inner) start := by
    rw [slice_succ le_rfl hget, slice_self, List.nil_append, lateOnCount, strip_eq_self (List.cons_ne_nil c []) hc hc]
    exact (h.one c (List.mem_of_getElem? hget) hc).trans target_le_prefixLimit
  rw [← stuck_iff_blocked]
  rintro ⟨-, hsearch⟩
  exact hsearch ⟨⟨j, by rw [hj]; exact ⟨hsolid _ (Nat.lt_succ_self start), hfits⟩⟩, fun top k _ hlast => hsolid k hlast.1.1⟩

/-- Every chunk but the first begins at a boundary or with something else than white space. -/
theorem LateOnCounts.next_start (h : LateOnCounts cfg provider text special inner) (hopen : provider.closed = false)
    {start stop : ℕ} (hcut : NextCut cfg text (lateOnCount special inner) boundaries threshold start stop)
    (hlt : stop < text.length) : (∃ b ∈ boundaries, b.1 = stop) ∨ ∃ c, text[stop]? = some c ∧ isSpace c = false := by
  rcases hcut.origin with hb | rfl | ⟨top, htop, hstop⟩
  · exact .inl hb
  · exact absurd hlt (Nat.lt_irrefl _)
  · obtain ⟨c, hc, hspace⟩ := not_isBlank_iff.mp (h.solid_behind hopen htop hstop (Nat.lt_succ_self stop) hlt)
    obtain ⟨i, hi, hi', hget⟩ := mem_slice_iff.mp hc
    rw [le_antisymm (Nat.lt_succ_iff.mp hi') hi] at hget
    exact .inr ⟨c, hget, hspace⟩

/-! ### Segments -/

section Segments
variable [Neg K] {np : Numpy K}

omit [Neg K] in
/-- Chunks that are not blank and within the limit pass the checks. -/
theorem checkedSegments_eq_ok (h : LateOnCounts cfg provider text special inner) (hopen : provider.closed = false)
    (hcap : cfg.maxTokens ≤ lateOnDocumentMaxModelTokens) {spans : List Span} (hblank : isBlank text = false)
    (htiles : Tiles 0 spans text.length)
    (hspans : ∀ s ∈ spans, isBlank (s.text text) = false ∧ lateOnCount special inner (s.text text) ≤ cfg.maxTokens) :
    checkedSegments provider text (spans.map (Span.text text)) = .ok (spans.map (Span.text text)) := by
  have hwhole : (spans.map (Span.text text)).flatten = text := by
    rw [htiles.flatten, slice_zero_length]
  have hne : ¬ (spans.map (Span.text text) = [] ∨ (spans.map (Span.text text)).flatten ≠ text) := by
    rintro (hnil | hlost)
    · rw [hnil] at hwhole
      rw [← hwhole] at hblank
      exact absurd hblank (by decide)
    · exact hlost hwhole
  have hnone := anyM_above fun chunk hchunk => by
    obtain ⟨s, hs, rfl⟩ := List.mem_map.mp hchunk
    exact ⟨_, (h.countsSolid hopen).span (hspans s hs).1, (hspans s hs).2.trans hcap⟩
  rw [checkedSegments, if_neg hne]
  beta_reduce
  rw [hnone]
  rfl

/-- The text is cut into segments that are not blank, make it up and stay within the limit. -/
def Segmented (np : Numpy K) (cfg : ChunkingConfig K) (separator : Text) (provider : LateOnProvider)
    (encoder : SentenceEncoder K) (text : Text) : Prop :=
  ∃ segments, provider.segmentDocument np cfg separator encoder text = .ok segments ∧ segments.flatten = text ∧
    ∀ s ∈ segments, isBlank s = false ∧
      ∃ tokens, tokenCount s provider.encode = .ok tokens ∧ tokens ≤ lateOnDocumentMaxModelTokens

/-- A text that is not blank is cut into segments exactly if the rule of the cuts, which is one on the text, the
offsets of its units and the counts of its slices, begins no chunk at a blocked start. -/
theorem segmentDocument_iff (np : Numpy K) (cfg : ChunkingConfig K) (separator : Text) (provider : LateOnProvider)
    (encoder : SentenceEncoder K) (text : Text) (special : ℕ) (inner : Text → ℕ) (hblank : isBlank text = false)
    (hopen : provider.closed = false) (hcap : cfg.maxTokens ≤ lateOnDocumentMaxModelTokens)
    (hregular : encoder.Regular np) (hcounts : LateOnCounts cfg provider text special inner) :
    ∃ boundaries, boundarySimilarities np separator text encoder = .ok boundaries ∧
      boundaries.map Prod.fst = (semanticUnits separator text).tail.map (·.start) ∧
      (Segmented np cfg separator provider encoder text ↔
        ∀ start, Relation.ReflTransGen (NextStart cfg text (lateOnCount special inner) boundaries cfg.chunkThreshold) 0 start →
          start < text.length → ¬ Blocked cfg text (lateOnCount special inner) boundaries cfg.chunkThreshold start) := by
  have hunits : semanticUnits separator text ≠ [] := by
    rw [Ne, semanticUnits_eq_nil_iff, hblank]
    decide
  have hcovers := covers_semanticUnits separator text
  obtain ⟨boundaries, hboundaries, hoffsets⟩ := boundarySimilarities_eq_ok hregular separator text
  have hstarts : ∀ b ∈ boundaries, ∃ v ∈ (semanticUnits separator text).tail, v.start = b.1 := fun b =>
    exists_unit_of_boundary hoffsets
  have hstarts' : ∀ b ∈ boundaries, ∃ v ∈ semanticUnits separator text, v.start = b.1 := by
    intro b hb
    obtain ⟨v, hv, hvb⟩ := hstarts b hb
    exact ⟨v, List.mem_of_mem_tail hv, hvb⟩
  have hsolid := hcounts.countsSolid hopen
  obtain ⟨hok, herror⟩ := chunkParagraph_spec cfg hunits (show ∀ t ∈ (none : Option K), 0 ≤ t ∧ t ≤ 1 by simp) hboundaries hsolid
    (boundaries_ordered hcovers hoffsets) (fun _ _ hready hlt hend => hcounts.ready_next hopen hcovers hstarts' hready hlt hend)
    (hcounts.ready_zero hcovers hunits hstarts)
  refine ⟨boundaries, hboundaries, hoffsets, ?_⟩
  simp only [NeverStuck, stuck_iff_blocked, Option.getD_none] at hok herror
  refine ⟨?_, fun hnever => ?_⟩
  · rintro ⟨segments, hsegments, -⟩
    by_contra hnever
    obtain ⟨e, he⟩ := herror hnever
    simp only [LateOnProvider.segmentDocument, hblank, he, bind, Except.bind] at hsegments
    cases hsegments
  · obtain ⟨spans, hspans, htiles, hall⟩ := hok hnever
    refine ⟨spans.map (Span.text text), ?_, by rw [htiles.flatten, slice_zero_length], fun s hs => ?_⟩
    · simp only [LateOnProvider.segmentDocument, hblank, hspans, bind, Except.bind, Bool.false_eq_true, if_false]
      exact checkedSegments_eq_ok hcounts hopen hcap hblank htiles fun s hs => (hall s hs).2
    · obtain ⟨span, hspan, rfl⟩ := List.mem_map.mp hs
      obtain ⟨-, hblank', hfits⟩ := hall span hspan
      exact ⟨hblank', _, hsolid.span hblank', hfits.trans hcap⟩

/-- A text is cut into segments if neither it nor one of its units begins at a blocked start. -/
theorem segmentDocument_of_starts (np : Numpy K) (cfg : ChunkingConfig K) (separator : Text) (provider : LateOnProvider)
    (encoder : SentenceEncoder K) (text : Text) (special : ℕ) (inner : Text → ℕ) (hblank : isBlank text = false)
    (hopen : provider.closed = false) (hcap : cfg.maxTokens ≤ lateOnDocumentMaxModelTokens)
    (hregular : encoder.Regular np) (hcounts : LateOnCounts cfg provider text special inner)
    (hstarts : ∀ boundaries, boundaries.map Prod.fst = (semanticUnits separator text).tail.map (·.start) →
      ∀ start, start = 0 ∨ start ∈ boundaries.map Prod.fst →
        ¬ Blocked cfg text (lateOnCount special inner) boundaries cfg.chunkThreshold start) :
    Segmented np cfg separator provider encoder text := by
  obtain ⟨boundaries, -, hoffsets, hiff⟩ := segmentDocument_iff np cfg separator provider encoder text special inner hblank
    hopen hcap hregular hcounts
  refine hiff.mpr fun start hreach hlt => ?_
  rcases Relation.ReflTransGen.cases_tail hreach with rfl | ⟨before, -, hstep⟩
  · exact hstarts boundaries hoffsets 0 (.inl rfl)
  · rcases hcounts.next_start hopen hstep.2 hlt with ⟨b, hb, rfl⟩ | ⟨c, hget, hc⟩
    · exact hstarts boundaries hoffsets b.1 (.inr (List.mem_map_of_mem hb))
    · exact hcounts.not_blocked hget hc

/-- It is if neither the text nor one of its units begins with white space. -/
theorem segmentDocument_flush (np : Numpy K) (cfg : ChunkingConfig K) (separator : Text) (provider : LateOnProvider)
    (encoder : SentenceEncoder K) (text : Text) (special : ℕ) (inner : Text → ℕ) (hblank : isBlank text = false)
    (hopen : provider.closed = false) (hcap : cfg.maxTokens ≤ lateOnDocumentMaxModelTokens)
    (hregular : encoder.Regular np) (hcounts : LateOnCounts cfg provider text special inner)
    (hhead : ∃ c, text[0]? = some c ∧ isSpace c = false)
    (hflush : ∀ u ∈ semanticUnits separator text, ∃ c, text[u.start]? = some c ∧ isSpace c = false) :
    Segmented np cfg separator provider encoder text := by
  refine segmentDocument_of_starts np cfg separator provider encoder text special inner hblank hopen hcap hregular hcounts
    fun boundaries hoffsets start hstart => ?_
  rcases hstart with rfl | hstart
  · obtain ⟨c, hget, hc⟩ := hhead
    exact hcounts.not_blocked hget hc
  · rw [hoffsets] at hstart
    obtain ⟨u, hu, rfl⟩ := List.mem_map.mp hstart
    obtain ⟨c, hget, hc⟩ := hflush u (List.mem_of_mem_tail hu)
    exact hcounts.not_blocked hget hc

end Segments

/-! ### Samples -/

/-- A provider whose tokens are the characters, between two special ones. -/
def lateOnSample : LateOnProvider where
  inputIds text := 101 :: (text.map fun c => c.val) ++ [102]
  documentPrefixId := 7
  closed := false

theorem lateOnSample_counts (text : Text) : LateOnCounts chunkingSample lateOnSample text 2 List.length where
  special_pos := by decide
  counted s _ _ := by
    simp only [lateOnSample, List.length_append, List.length_cons, List.length_map, List.length_nil]
    omega
  mono _ _ h _ := h.length_le
  one _ _ _ := le_rfl

/-- A long word is cut, and no chunk of it begins at a blocked start; behind a space it is not, and one does. -/
theorem segmentDocument_iff_sample :
    (∃ boundaries, boundarySimilarities numpySample (lit " ") (lit "aaaaaaaaaa") encoderSample = .ok boundaries ∧
        ∀ start, Relation.ReflTransGen (NextStart chunkingSample (lit "aaaaaaaaaa") (lateOnCount 2 List.length) boundaries
          chunkingSample.chunkThreshold) 0 start → start < (lit "aaaaaaaaaa").length →
            ¬ Blocked chunkingSample (lit "aaaaaaaaaa") (lateOnCount 2 List.length) boundaries
              chunkingSample.chunkThreshold start) ∧
      ∃ boundaries, boundarySimilarities numpySample (lit " ") (lit " aaaaaaaaaa") encoderSample = .ok boundaries ∧
        ∃ start, Relation.ReflTransGen (NextStart chunkingSample (lit " aaaaaaaaaa") (lateOnCount 2 List.length) boundaries
          chunkingSample.chunkThreshold) 0 start ∧ start < (lit " aaaaaaaaaa").length ∧
            Blocked chunkingSample (lit " aaaaaaaaaa") (lateOnCount 2 List.length) boundaries
              chunkingSample.chunkThreshold start := by
  constructor
  · obtain ⟨boundaries, hboundaries, -, hiff⟩ := segmentDocument_iff numpySample chunkingSample (lit " ") lateOnSample
      encoderSample (lit "aaaaaaaaaa") 2 List.length (by decide) rfl (by decide) encoderSample_regular
      (lateOnSample_counts _)
    refine ⟨boundaries, hboundaries, hiff.mp ⟨List.replicate 7 (lit "a") ++ [lit "aaa"], ?_, rfl, fun s hs => ?_⟩⟩
    · decide +kernel
    · rcases List.mem_append.mp hs with hs | hs
      · rw [List.eq_of_mem_replicate hs]
        exact ⟨rfl, _, rfl, by decide⟩
      · rw [List.mem_singleton.mp hs]
        exact ⟨rfl, _, rfl, by decide⟩
  · obtain ⟨boundaries, hboundaries, -, hiff⟩ := segmentDocument_iff numpySample chunkingSample (lit " ") lateOnSample
      encoderSample (lit " aaaaaaaaaa") 2 List.length (by decide) rfl (by decide) encoderSample_regular
      (lateOnSample_counts _)
    refine ⟨boundaries, hboundaries, ?_⟩
    have hrejected : lateOnSample.segmentDocument numpySample chunkingSample (lit " ") encoderSample (lit " aaaaaaaaaa") =
        .error (valueError "text must not be empty") := by
      decide +kernel
    by_contra hnone
    obtain ⟨segments, hsegments, -⟩ := hiff.mpr fun start hreach hlt hblocked => hnone ⟨start, hreach, hlt, hblocked⟩
    rw [hrejected] at hsegments
    cases hsegments

/-- A long word behind a space is rejected: the bisection measures the space. -/
theorem segmentDocument_rejects_indented_word :
    LateOnCounts chunkingSample lateOnSample (lit " aaaaaaaaaa") 2 List.length ∧ encoderSample.Regular numpySample ∧
      isBlank (lit " aaaaaaaaaa") = false ∧
      lateOnSample.segmentDocument numpySample chunkingSample (lit " ") encoderSample (lit " aaaaaaaaaa") =
        .error (valueError "text must not be empty") := by
  refine ⟨lateOnSample_counts _, encoderSample_regular, by decide, ?_⟩
  decide +kernel

end TenantRag

import TenantRag.Wizard.Alignment
import TenantRag.Foundations.Result

/-!
# Unions are complete and exact

Whatever edit script the differ answers, the unions of a save are the runs of the
paragraphs that changed, and the new text is the saved text with each run replaced
by the text of its union.

## What is proved

* `contiguousGroups_spec` — groups are runs of consecutive identifiers, none next to another.
* `span_of_untouched` — the text of a paragraph that nothing touches stands in the new text.
* `replaced_suffix` — from a paragraph on, unions and kept paragraphs make up the rest of the new text.
* `alignUnions_exact` — the alignment does not raise, and is complete and exact.
-/

namespace TenantRag.Save

/-! ### Groups -/

/-- A chain of successors is a range. -/
theorem eq_range'_of_isChain {ids : List ℕ} (h : ids.IsChain fun i j => (j == i + 1) = true) :
    ids = List.range' (ids.headD 0) ids.length := by
  induction ids with
  | nil => rfl
  | cons i ids ih =>
    cases ids with
    | nil => rfl
    | cons j ids =>
      rw [List.isChain_cons_cons, beq_iff_eq] at h
      have hrest := ih h.2
      rw [List.headD_cons] at hrest ⊢
      rw [List.length_cons, List.range'_succ, ← h.1, ← hrest]

/-- Every number of the first list is smaller than every one of the second, and none is next to one. -/
def Apart (ids ids' : List ℕ) : Prop := ∀ i ∈ ids, ∀ j ∈ ids', i + 1 < j

/-- Ascending groups are apart where the last of each is not just below the first of the next. -/
theorem pairwise_apart {groups : List (List ℕ)} (hsorted : groups.flatten.Pairwise (· < ·))
    (hchain : groups.IsChain fun g g' => ∃ ha hb, (g'.head hb == g.getLast ha + 1) = false) : groups.Pairwise Apart := by
  induction groups with
  | nil => exact List.Pairwise.nil
  | cons group groups ih =>
    rw [List.flatten_cons, List.pairwise_append] at hsorted
    obtain ⟨hgroup, hrest, hbelow⟩ := hsorted
    refine List.Pairwise.cons (fun group' hgroup' i hi j hj => ?_) (ih hrest hchain.tail)
    have hmem : j ∈ groups.flatten := List.mem_flatten.mpr ⟨group', hgroup', hj⟩
    have hlt := hbelow i hi j hmem
    by_contra hnext
    -- Then `i` is the last of its group and `j` the first behind it.
    cases groups with
    | nil => cases hgroup'
    | cons next groups =>
      rw [List.isChain_cons_cons] at hchain
      obtain ⟨⟨ha, hb, hgap⟩, -⟩ := hchain
      rw [beq_eq_false_iff_ne] at hgap
      have hhead : next.head hb ∈ (next :: groups).flatten :=
        List.mem_flatten.mpr ⟨next, List.mem_cons_self, List.head_mem hb⟩
      have hlast := hbelow _ (List.getLast_mem ha) j hmem
      have hfirst := hbelow i hi _ hhead
      have hlast' : i ≤ group.getLast ha := by
        rcases List.mem_iff_getElem.mp hi with ⟨n, hn, rfl⟩
        rw [List.getLast_eq_getElem]
        rcases Nat.eq_or_lt_of_le (Nat.le_sub_one_of_lt hn) with heq | hlt'
        · exact le_of_eq (by simp only [heq])
        · exact (List.pairwise_iff_getElem.mp hgroup _ _ hn (by omega) hlt').le
      have hfirst' : next.head hb ≤ j := by
        rw [List.flatten_cons] at hmem hrest
        rw [← List.cons_head_tail hb, List.cons_append, List.mem_cons] at hmem
        rcases hmem with hmem | hmem
        · exact hmem.ge
        · rw [← List.cons_head_tail hb, List.cons_append, List.pairwise_cons] at hrest
          exact (hrest.1 j hmem).le
      omega

/-- Groups of ascending identifiers are runs of consecutive ones, and no group is next to another. -/
theorem contiguousGroups_spec {ids : List ℕ} (h : ids.Pairwise (· < ·)) :
    (contiguousGroups ids).flatten = ids ∧
      (∀ group ∈ contiguousGroups ids, ∃ start length, 0 < length ∧ group = List.range' start length) ∧
      (contiguousGroups ids).Pairwise Apart := by
  have hflatten : (contiguousGroups ids).flatten = ids := List.flatten_splitBy _ ids
  refine ⟨hflatten, fun group hgroup => ?_, ?_⟩
  · exact ⟨group.headD 0, group.length, List.length_pos_iff.mpr (List.ne_nil_of_mem_splitBy hgroup),
      eq_range'_of_isChain (List.isChain_of_mem_splitBy hgroup)⟩
  · rw [← hflatten] at h
    exact pairwise_apart h (List.isChain_getLast_head_splitBy (fun i j => j == i + 1) ids)

/-- A run in front of identifiers that do not continue it is a group of its own. -/
theorem contiguousGroups_run {start length : ℕ} (hlength : 0 < length) {ids : List ℕ}
    (hids : ∀ k ∈ ids, start + length < k) :
    contiguousGroups (List.range' start length ++ ids) = List.range' start length :: contiguousGroups ids := by
  rw [contiguousGroups, List.splitBy_append, List.splitBy_of_isChain]
  · rfl
  · simp only [ne_eq, List.range'_eq_nil_iff]
    omega
  · refine (List.isChain_range' start length 1).imp fun i j h => ?_
    rw [beq_iff_eq, h]
  · intro i hi j hj
    have hi' := List.mem_of_mem_getLast? hi
    have hj' := hids j (List.mem_of_mem_head? hj)
    rw [List.mem_range'_1] at hi'
    rw [beq_eq_false_iff_ne]
    omega

/-! ### Spans -/

section Spans

variable {saved current : Text} {ops : List Opcode} {paragraphs : List SavedParagraph}

/-- A span is mapped to the least and the greatest of the candidates of its ends. -/
theorem currentSpanForOldSpan_ok (h : EditScript saved current 0 0 ops) (hops : ops ≠ []) {s e : ℕ} (hse : s ≤ e)
    (he : e ≤ saved.length) :
    ∃ x y, currentSpanForOldSpan s e ops = .ok (x, y) ∧ x ≤ y ∧
      (x ∈ boundaryCandidates s ops ∧ ∀ z ∈ boundaryCandidates s ops, x ≤ z) ∧
      (y ∈ boundaryCandidates e ops ∧ ∀ z ∈ boundaryCandidates e ops, z ≤ y) := by
  obtain ⟨y', hy', z', hz', hle⟩ := exists_candidates_le h hops (Nat.zero_le s) hse he
  obtain ⟨x, hx⟩ := Option.isSome_iff_exists.mp (List.isSome_min?_of_mem hy')
  obtain ⟨y, hy⟩ := Option.isSome_iff_exists.mp (List.isSome_max?_of_mem hz')
  have hmin := List.min?_eq_some_iff.mp hx
  have hmax := List.max?_eq_some_iff.mp hy
  have hxy : x ≤ y := (hmin.2 y' hy').trans (hle.trans (hmax.2 z' hz'))
  refine ⟨x, y, ?_, hxy, hmin, hmax⟩
  rw [currentSpanForOldSpan, hx, hy]
  dsimp only
  rw [if_neg (by omega)]

theorem zero_mem_candidates (h : EditScript saved current 0 0 ops) (hops : ops ≠ []) : 0 ∈ boundaryCandidates 0 ops := by
  cases ops with
  | nil => exact absurd rfl hops
  | cons op ops =>
    refine mem_boundaryCandidates.mpr ⟨op, List.mem_cons_self, ?_⟩
    have hmem := currentStart_mem_candidates (h.old_bounds List.mem_cons_self).2.1
    rwa [h.1, h.2.1] at hmem

theorem length_mem_candidates {i j : ℕ} (h : EditScript saved current i j ops) (hops : ops ≠ []) :
    current.length ∈ boundaryCandidates saved.length ops := by
  induction ops generalizing i j with
  | nil => exact absurd rfl hops
  | cons op ops ih =>
    cases ops with
    | nil =>
      refine mem_boundaryCandidates.mpr ⟨op, List.mem_cons_self, ?_⟩
      have hmem := currentEnd_mem_candidates h List.mem_cons_self
      obtain ⟨-, -, -, -, -, hold, hcurrent⟩ := h
      rwa [hold, hcurrent] at hmem
    | cons op' ops =>
      obtain ⟨op'', hop, hmem⟩ := mem_boundaryCandidates.mp (ih h.2.2.2.2.2 (List.cons_ne_nil op' ops))
      exact mem_boundaryCandidates.mpr ⟨op'', List.mem_cons_of_mem op hop, hmem⟩

theorem candidates_le_length (h : EditScript saved current 0 0 ops) {p y : ℕ} (hy : y ∈ boundaryCandidates p ops) :
    y ≤ current.length := by
  obtain ⟨op, hop, hy⟩ := mem_boundaryCandidates.mp hy
  exact (candidates_bounds h hop hy).2.trans (h.current_bounds hop).2.2

/-- No edit touches the paragraph. -/
def Untouched (ops : List Opcode) (p : SavedParagraph) : Prop := ∀ op ∈ ops, op.tag ≠ .equal → ¬ Touches op p

theorem Untouched.clean {p : SavedParagraph} (h : Untouched ops p) {k : ℕ} (hstart : p.start ≤ k) (hstop : k ≤ p.stop) :
    Clean ops k := by
  intro op hop htag
  have hout := h op hop htag
  rw [Touches] at hout
  constructor
  · rintro ⟨hin, hin'⟩
    rw [if_neg (by omega)] at hout
    omega
  · rintro ⟨hin, hin'⟩
    rw [if_pos (by omega)] at hout
    omega

/-- The text of a paragraph that nothing touches stands in the new text. -/
theorem span_of_untouched (h : EditScript saved current 0 0 ops) {p : SavedParagraph} (hp : Untouched ops p) {x : ℕ}
    (hx : x ∈ boundaryCandidates p.start ops) (hlength : p.stop ≤ saved.length) (n : ℕ) (hn : p.start + n ≤ p.stop) :
    x + n ∈ boundaryCandidates (p.start + n) ops ∧
      slice saved p.start (p.start + n) = slice current x (x + n) := by
  induction n with
  | zero => exact ⟨hx, by rw [Nat.add_zero, Nat.add_zero, slice_self, slice_self]⟩
  | succ n ih =>
    obtain ⟨hmem, hslice⟩ := ih (by omega)
    obtain ⟨op, hop, hstart, hend⟩ := h.covers (Nat.zero_le (p.start + n)) (by omega)
    have htag : op.tag = .equal := by
      by_contra htag
      refine hp op hop htag ?_
      rw [Touches, if_neg (by omega)]
      omega
    have here : op.currentStart + (p.start + n - op.oldStart) ∈ boundaryCandidates (p.start + n) ops := by
      refine mem_boundaryCandidates.mpr ⟨op, hop, ?_⟩
      rw [candidates, if_neg (by omega), if_pos htag]
      exact List.mem_singleton_self _
    have hsame := candidates_unique h (Nat.zero_le _) (hp.clean (by omega) (by omega)) hmem here
    constructor
    · refine mem_boundaryCandidates.mpr ⟨op, hop, ?_⟩
      rw [candidates, if_neg (by omega), if_pos htag, List.mem_singleton]
      omega
    · have hread := h.getElem?_equal hop htag hstart hend
      rw [← hsame] at hread
      obtain ⟨c, hc⟩ : ∃ c, saved[p.start + n]? = some c := ⟨_, List.getElem?_eq_getElem (by omega)⟩
      rw [← Nat.add_assoc, ← Nat.add_assoc, slice_succ (by omega) hc, slice_succ (by omega) (hread ▸ hc), hslice]

/-! ### Replacing the unions -/

/-- The text of the paragraphs with each run that is a union replaced by its text, and every other paragraph kept. -/
inductive Replaced : List SavedParagraph → List ParagraphUnion → Text → Prop where
  /-- No paragraphs. -/
  | nil : Replaced [] [] []
  /-- A paragraph of no union is kept. -/
  | keep {p : SavedParagraph} {paragraphs : List SavedParagraph} {unions : List ParagraphUnion} {text : Text} :
      (∀ u ∈ unions, p.paragraphId ∉ u.paragraphIds) → Replaced paragraphs unions text →
        Replaced (p :: paragraphs) unions (p.text ++ text)
  /-- A run that is a union is replaced. -/
  | union {run paragraphs : List SavedParagraph} {u : ParagraphUnion} {unions : List ParagraphUnion} {text : Text} :
      run ≠ [] → run.map SavedParagraph.paragraphId = u.paragraphIds → Replaced paragraphs unions text →
        Replaced (run ++ paragraphs) (u :: unions) (u.currentText ++ text)

/-- Where the new text of the rest of the paragraphs starts. -/
def Reached (current : Text) (ops : List Opcode) (rest : List SavedParagraph) (s x : ℕ) : Prop :=
  if rest = [] then x = current.length
  else x ∈ boundaryCandidates s ops ∧ ∀ z ∈ boundaryCandidates s ops, x ≤ z

theorem paragraphById_ok (hids : (paragraphs.map SavedParagraph.paragraphId).Nodup) {p : SavedParagraph}
    (hp : p ∈ paragraphs) : paragraphById paragraphs p.paragraphId = .ok p := by
  suffices hfind : paragraphs.find? (fun q => q.paragraphId = p.paragraphId) = some p by
    rw [paragraphById, hfind]
  induction paragraphs with
  | nil => cases hp
  | cons q paragraphs ih =>
    rw [List.map_cons, List.nodup_cons] at hids
    rcases List.mem_cons.mp hp with rfl | hp
    · rw [List.find?_cons_of_pos (by simp)]
    · have hne : q.paragraphId ≠ p.paragraphId := fun h => hids.1 (h ▸ List.mem_map_of_mem hp)
      rw [List.find?_cons_of_neg (by simpa using hne)]
      exact ih hids.2 hp

/-- The union of a group has its identifiers. -/
theorem unionOf_ids {group : List ℕ} {u : ParagraphUnion} (h : unionOf paragraphs current ops group = .ok u) :
    u.paragraphIds = group := by
  rw [unionOf, bind_eq_ok_iff] at h
  obtain ⟨first, -, h⟩ := h
  rw [bind_eq_ok_iff] at h
  obtain ⟨last, -, h⟩ := h
  rw [bind_eq_ok_iff] at h
  obtain ⟨span, -, h⟩ := h
  cases h
  rfl

theorem map_ids_of_mapM {groups : List (List ℕ)} {unions : List ParagraphUnion}
    (h : groups.mapM (unionOf paragraphs current ops) = .ok unions) :
    unions.map ParagraphUnion.paragraphIds = groups := by
  rw [mapM_eq_ok_iff] at h
  induction h with
  | nil => rfl
  | cons hu _ ih => rw [List.map_cons, unionOf_ids hu, ih]

/-- The union of a run is cut out of the new text between the least candidate of its start and the greatest of its
end. -/
theorem unionOf_run (h : EditScript saved current 0 0 ops) (hops : ops ≠ [])
    (hids : (paragraphs.map SavedParagraph.paragraphId).Nodup) {run : List SavedParagraph} (hrun : run ≠ [])
    (hin : ∀ p ∈ run, p ∈ paragraphs) {s e : ℕ} (htiles : Tiles s (run.map SavedParagraph.span) e) (he : e ≤ saved.length) :
    ∃ x y, unionOf paragraphs current ops (run.map SavedParagraph.paragraphId) =
        .ok ⟨run.map SavedParagraph.paragraphId, slice current x y⟩ ∧ x ≤ y ∧
      (x ∈ boundaryCandidates s ops ∧ ∀ z ∈ boundaryCandidates s ops, x ≤ z) ∧
      (y ∈ boundaryCandidates e ops ∧ ∀ z ∈ boundaryCandidates e ops, z ≤ y) := by
  obtain ⟨x, y, hspan, hxy, hx, hy⟩ := currentSpanForOldSpan_ok h hops htiles.le he
  refine ⟨x, y, ?_, hxy, hx, hy⟩
  have hfirst := List.head?_eq_some_head hrun
  have hlast := List.getLast?_eq_some_getLast hrun
  have hstart : (run.head hrun).start = s :=
    htiles.head_start (s := (run.head hrun).span) (by rw [List.head?_map, hfirst]; rfl)
  have hstop : (run.getLast hrun).stop = e :=
    htiles.getLast_stop (s := (run.getLast hrun).span) (by rw [List.getLast?_map, hlast]; rfl)
  rw [unionOf, List.headD_eq_head?_getD, List.head?_map, hfirst, List.getLastD_eq_getLast?, List.getLast?_map, hlast]
  simp only [Option.map_some, Option.getD_some, paragraphById_ok hids (hin _ (List.head_mem hrun)),
    paragraphById_ok hids (hin _ (List.getLast_mem hrun)), hstart, hstop, hspan, bind, Except.bind, pure, Except.pure]

/-- What is reached behind a span whose end is clean, or at the end of the text. -/
theorem reached_of_mem (h : EditScript saved current 0 0 ops) (hops : ops ≠ []) {rest : List SavedParagraph} {s x : ℕ}
    (htiles : Tiles s (rest.map SavedParagraph.span) saved.length) (hx : x ∈ boundaryCandidates s ops)
    (hend : rest = [] → ∀ z ∈ boundaryCandidates s ops, z ≤ x) (hclean : rest ≠ [] → Clean ops s) :
    Reached current ops rest s x := by
  rw [Reached]
  split_ifs with hrest
  · subst hrest
    rw [List.map_nil, Tiles] at htiles
    subst htiles
    exact le_antisymm (candidates_le_length h hx) (hend rfl _ (length_mem_candidates h hops))
  · exact ⟨hx, fun z hz => (candidates_unique h (Nat.zero_le s) (hclean hrest) hx hz).le⟩

/-- A list begins with a run that a condition picks, up to an element it does not. -/
theorem exists_run {α : Type} (pick : α → Bool) (l : List α) :
    ∃ run behind, l = run ++ behind ∧ (∀ a ∈ run, pick a = true) ∧ ∀ a ∈ behind.head?, pick a = false := by
  refine ⟨l.takeWhile pick, l.dropWhile pick, List.takeWhile_append_dropWhile.symm, fun a => List.mem_takeWhile_imp,
    fun a ha => ?_⟩
  have hnot := List.head?_dropWhile_not pick l
  rw [ha] at hnot
  exact hnot

/-- From a paragraph on that continues no union, the unions and the paragraphs that are kept make up the rest of the
new text. -/
theorem replaced_suffix (h : EditScript saved current 0 0 ops) (hops : ops ≠ []) (hsaved : Saved saved paragraphs)
    (hids : (paragraphs.map SavedParagraph.paragraphId).Nodup) {marked : Finset ℕ}
    (hmarked : ∀ p ∈ paragraphs, p.paragraphId ∉ marked → Untouched ops p) (n : ℕ) :
    ∀ (rest : List SavedParagraph) (s k x : ℕ), rest.length = n → (∀ p ∈ rest, p ∈ paragraphs) →
      Tiles s (rest.map SavedParagraph.span) saved.length →
      rest.map SavedParagraph.paragraphId = List.range' k rest.length → Reached current ops rest s x →
      ∃ unions, (contiguousGroups ((rest.map SavedParagraph.paragraphId).filter (· ∈ marked))).mapM
          (unionOf paragraphs current ops) = .ok unions ∧ Replaced rest unions (current.drop x) := by
  induction n using Nat.strong_induction_on with
  | _ n ih =>
    intro rest s k x hn hin htiles hk hx
    cases rest with
    | nil =>
      rw [Reached, if_pos rfl] at hx
      rw [hx, List.drop_length]
      exact ⟨[], rfl, Replaced.nil⟩
    | cons p rest =>
      have hp := hin p List.mem_cons_self
      by_cases hmark : p.paragraphId ∈ marked
      · obtain ⟨run, behind, hsplit, hrun, hbehind⟩ :=
          exists_run (fun q : SavedParagraph => decide (q.paragraphId ∈ marked)) (p :: rest)
        have hne : run ≠ [] := by
          rintro rfl
          rw [List.nil_append] at hsplit
          have hhead := hbehind p (by rw [← hsplit]; rfl)
          exact absurd hmark (by simpa using hhead)
        rw [hsplit] at hn hin htiles hk ⊢
        have hlengths : n = run.length + behind.length := by rw [← hn, List.length_append]
        have hpos : 0 < run.length := List.length_pos_iff.mpr hne
        rw [List.map_append] at htiles
        obtain ⟨e, htilesRun, htilesBehind⟩ := tiles_append.mp htiles
        rw [List.map_append, List.length_append, ← List.range'_append_1] at hk
        obtain ⟨hkRun, hkBehind⟩ := List.append_inj hk (by rw [List.length_map, List.length_range'])
        obtain ⟨u, y, hu, hxy, hmin, hmax⟩ := unionOf_run h hops hids hne
          (fun q hq => hin q (List.mem_append_left _ hq)) htilesRun htilesBehind.le
        rw [Reached, if_neg (List.cons_ne_nil p rest)] at hx
        have hux : u = x := le_antisymm (hmin.2 x hx.1) (hx.2 u hmin.1)
        subst hux
        -- Behind the run stands a paragraph that nothing touches, or the end.
        have hclean : behind ≠ [] → Clean ops e := by
          intro hbehind'
          obtain ⟨q, more, rfl⟩ := List.exists_cons_of_ne_nil hbehind'
          have hq := hbehind q rfl
          have hstart : q.start = e := htilesBehind.1
          rw [← hstart]
          exact (hmarked q (hin q (List.mem_append_right _ List.mem_cons_self)) (by simpa using hq)).clean le_rfl
            (hsaved.bounds (hin q (List.mem_append_right _ List.mem_cons_self))).1
        have hreached : Reached current ops behind e y :=
          reached_of_mem h hops htilesBehind hmax.1 (fun _ => hmax.2) hclean
        obtain ⟨unions, hunions, hrest⟩ := ih behind.length (by omega) behind e (k + run.length) y rfl
          (fun q hq => hin q (List.mem_append_right _ hq)) htilesBehind hkBehind hreached
        refine ⟨⟨run.map SavedParagraph.paragraphId, slice current u y⟩ :: unions, ?_, ?_⟩
        · have hall : (run.map SavedParagraph.paragraphId).filter (· ∈ marked) = run.map SavedParagraph.paragraphId := by
            rw [List.filter_eq_self]
            intro i hi
            obtain ⟨q, hq, rfl⟩ := List.mem_map.mp hi
            exact hrun q hq
          have hgap : ∀ i ∈ (behind.map SavedParagraph.paragraphId).filter (· ∈ marked), k + run.length < i := by
            intro i hi
            obtain ⟨hmem, hmark'⟩ := List.mem_filter.mp hi
            rw [hkBehind, List.mem_range'_1] at hmem
            refine lt_of_le_of_ne hmem.1 ?_
            rintro rfl
            cases behind with
            | nil => rw [List.length_nil] at hmem; omega
            | cons q more =>
              rw [List.map_cons, List.length_cons, List.range'_succ, List.cons.injEq] at hkBehind
              have hq := hbehind q rfl
              rw [hkBehind.1] at hq
              rw [hq] at hmark'
              cases hmark'
          rw [List.map_append, List.filter_append, hall, hkRun, contiguousGroups_run hpos hgap, ← hkRun, List.mapM_cons, hu]
          simp only [bind, Except.bind, hunions, pure, Except.pure]
        · have hdrop : current.drop u = slice current u y ++ current.drop y := by
            rw [← slice_length, ← slice_length, slice_append_slice _ hxy (candidates_le_length h hmax.1)]
          rw [hdrop]
          exact @Replaced.union run behind ⟨run.map SavedParagraph.paragraphId, slice current u y⟩ unions _ hne rfl hrest
      · have hun := hmarked p hp hmark
        obtain ⟨hstart, hle, htail⟩ := htiles
        change p.start = s at hstart
        change s ≤ p.stop at hle
        change Tiles p.stop (rest.map SavedParagraph.span) saved.length at htail
        subst hstart
        rw [Reached, if_neg (List.cons_ne_nil p rest)] at hx
        obtain ⟨hmem, hslice⟩ := span_of_untouched h hun hx.1 htail.le (p.stop - p.start) (by omega)
        rw [Nat.add_sub_cancel' hle] at hmem hslice
        rw [List.map_cons, List.length_cons, List.range'_succ, List.cons.injEq] at hk
        have hreached : Reached current ops rest p.stop (x + (p.stop - p.start)) :=
          reached_of_mem h hops htail hmem
            (fun _ z hz => (candidates_unique h (Nat.zero_le _) (hun.clean hle le_rfl) hz hmem).le)
            (fun _ => hun.clean hle le_rfl)
        obtain ⟨unions, hunions, hrest⟩ := ih rest.length (by rw [← hn]; exact Nat.lt_succ_self _) rest p.stop (k + 1) _
          rfl (fun q hq => hin q (List.mem_cons_of_mem p hq)) htail hk.2 hreached
        refine ⟨unions, ?_, ?_⟩
        · rw [List.map_cons, List.filter_cons_of_neg (by simpa using hmark)]
          exact hunions
        · have hlength := candidates_le_length h hmem
          have hdrop : current.drop x = p.text ++ current.drop (x + (p.stop - p.start)) := by
            rw [hsaved.texts p hp, hslice, ← slice_length, ← slice_length, slice_append_slice _ (by omega) hlength]
          rw [hdrop]
          refine Replaced.keep (fun u hu hmem' => ?_) hrest
          have hgroup : u.paragraphIds ∈ unions.map ParagraphUnion.paragraphIds := List.mem_map_of_mem hu
          rw [map_ids_of_mapM hunions] at hgroup
          have hflatten := List.mem_flatten.mpr ⟨_, hgroup, hmem'⟩
          rw [contiguousGroups, List.flatten_splitBy, List.mem_filter, hk.2, List.mem_range'_1] at hflatten
          omega

end Spans

/-! ### The check of the alignment -/

/-- No identifier is in both. -/
def DisjointUnions (u v : ParagraphUnion) : Prop := ∀ i ∈ u.paragraphIds, i ∉ v.paragraphIds

theorem eq_of_disjoint {unions : List ParagraphUnion} (h : unions.Pairwise DisjointUnions) {u v : ParagraphUnion}
    (hu : u ∈ unions) (hv : v ∈ unions) {i : ℕ} (hiu : i ∈ u.paragraphIds) (hiv : i ∈ v.paragraphIds) : u = v := by
  by_contra hne
  have hsymm : Std.Symm DisjointUnions := ⟨fun a b hab j hjb hja => hab j hja hjb⟩
  exact h.forall hu hv hne i hiu hiv

theorem replacement_of_notMem {unions : List ParagraphUnion} {p : SavedParagraph}
    (h : ∀ u ∈ unions, p.paragraphId ∉ u.paragraphIds) : replacement unions p = p.text := by
  have hfind : unions.find? (fun u => u.paragraphIds.head? = some p.paragraphId) = none := by
    rw [List.find?_eq_none]
    intro u hu hhead
    exact h u hu (List.mem_of_mem_head? (of_decide_eq_true hhead))
  have hany : unions.any (fun u => u.paragraphIds.contains p.paragraphId) = false := by
    rw [List.any_eq_false]
    intro u hu hmem
    exact h u hu (List.contains_iff_mem.mp hmem)
  rw [replacement, hfind]
  dsimp only
  rw [hany, if_neg Bool.false_ne_true]

/-- The paragraphs of a run are replaced by the text of their union. -/
theorem flatten_replacement_run {unions : List ParagraphUnion} (hdisjoint : unions.Pairwise DisjointUnions)
    {run : List SavedParagraph} (hrun : run ≠ []) {u : ParagraphUnion} (hu : u ∈ unions)
    (hids : run.map SavedParagraph.paragraphId = u.paragraphIds) (hnodup : u.paragraphIds.Nodup) :
    (run.map (replacement unions)).flatten = u.currentText := by
  cases run with
  | nil => exact absurd rfl hrun
  | cons first more =>
    rw [List.map_cons] at hids
    have hfirst : replacement unions first = u.currentText := by
      have hfind : unions.find? (fun v => v.paragraphIds.head? = some first.paragraphId) = some u := by
        obtain ⟨v, hv⟩ : ∃ v, unions.find? (fun v => v.paragraphIds.head? = some first.paragraphId) = some v :=
          Option.isSome_iff_exists.mp (List.find?_isSome.mpr ⟨u, hu, by simp [← hids]⟩)
        have hhead : v.paragraphIds.head? = some first.paragraphId := by simpa using List.find?_some hv
        rw [hv, eq_of_disjoint hdisjoint (List.mem_of_find?_eq_some hv) hu (List.mem_of_mem_head? hhead)
          (hids ▸ List.mem_cons_self)]
      rw [replacement, hfind]
    have hmore : ∀ p ∈ more, replacement unions p = [] := by
      intro p hp
      have hmem : p.paragraphId ∈ u.paragraphIds := hids ▸ List.mem_cons_of_mem _ (List.mem_map_of_mem hp)
      have hfind : unions.find? (fun v => v.paragraphIds.head? = some p.paragraphId) = none := by
        rw [List.find?_eq_none]
        intro v hv hhead
        have hhead' := of_decide_eq_true hhead
        have hsame := eq_of_disjoint hdisjoint hv hu (List.mem_of_mem_head? hhead') hmem
        rw [hsame, ← hids, List.head?_cons, Option.some.injEq] at hhead'
        rw [← hids, List.nodup_cons, hhead'] at hnodup
        exact hnodup.1 (List.mem_map_of_mem hp)
      have hany : unions.any (fun v => v.paragraphIds.contains p.paragraphId) = true :=
        List.any_eq_true.mpr ⟨u, hu, List.contains_iff_mem.mpr hmem⟩
      rw [replacement, hfind]
      dsimp only
      rw [hany, if_pos rfl]
    have hrest : (more.map (replacement unions)).flatten = [] := by
      rw [List.flatten_eq_nil_iff, List.forall_mem_map]
      exact hmore
    rw [List.map_cons, List.flatten_cons, hfirst, hrest, List.append_nil]

/-- Text and unions that replace its runs pass the check. -/
theorem Replaced.reconstructed {rest : List SavedParagraph} {unions all : List ParagraphUnion} {text : Text}
    (h : Replaced rest unions text) (hids : (rest.map SavedParagraph.paragraphId).Nodup)
    (hdisjoint : all.Pairwise DisjointUnions) (hin : ∀ u ∈ unions, u ∈ all)
    (hother : ∀ u ∈ all, u ∈ unions ∨ ∀ p ∈ rest, p.paragraphId ∉ u.paragraphIds) :
    (rest.map (replacement all)).flatten = text := by
  induction h with
  | nil => rfl
  | @keep p paragraphs unions text hnot _ ih =>
    rw [List.map_cons, List.nodup_cons] at hids
    have hp : ∀ u ∈ all, p.paragraphId ∉ u.paragraphIds := by
      intro u hu
      rcases hother u hu with hunion | hout
      · exact hnot u hunion
      · exact hout p List.mem_cons_self
    rw [List.map_cons, List.flatten_cons, replacement_of_notMem hp, ih hids.2 hin fun u hu => ?_]
    rcases hother u hu with hunion | hout
    · exact .inl hunion
    · exact .inr fun q hq => hout q (List.mem_cons_of_mem p hq)
  | @union run paragraphs u unions text hrun hrunIds _ ih =>
    rw [List.map_append, List.nodup_append] at hids
    obtain ⟨hnodup, hnodup', hapart⟩ := hids
    rw [List.map_append, List.flatten_append,
      flatten_replacement_run hdisjoint hrun (hin u List.mem_cons_self) hrunIds (hrunIds ▸ hnodup),
      ih hnodup' (fun v hv => hin v (List.mem_cons_of_mem u hv)) fun v hv => ?_]
    rcases hother v hv with hunion | hout
    · rcases List.mem_cons.mp hunion with rfl | hunion
      · refine .inr fun q hq hmem => ?_
        rw [← hrunIds] at hmem
        exact hapart _ hmem _ (List.mem_map_of_mem hq) rfl
      · exact .inl hunion
    · exact .inr fun q hq => hout q (List.mem_append_right run hq)

/-! ### The alignment -/

/-- The paragraphs of a document: they are numbered from one on, and none is empty but the one paragraph of an empty
document. -/
structure Numbered (paragraphData : Dict ℕ Text) : Prop where
  keys : paragraphData.keys = List.range' 1 paragraphData.keys.length
  filled : paragraphData.values = [[]] ∨ paragraphData.values ≠ [] ∧ ∀ t ∈ paragraphData.values, t ≠ []

theorem map_ids_savedFrom (entries : List (ℕ × Text)) (offset : ℕ) :
    (savedFrom offset entries).map SavedParagraph.paragraphId = entries.map Prod.fst := by
  induction entries generalizing offset with
  | nil => rfl
  | cons entry entries ih =>
    obtain ⟨k, t⟩ := entry
    rw [savedFrom, List.map_cons, List.map_cons, ih]

theorem map_texts_savedFrom (entries : List (ℕ × Text)) (offset : ℕ) :
    (savedFrom offset entries).map SavedParagraph.text = entries.map Prod.snd := by
  induction entries generalizing offset with
  | nil => rfl
  | cons entry entries ih =>
    obtain ⟨k, t⟩ := entry
    rw [savedFrom, List.map_cons, List.map_cons, ih]

/-- The paragraphs follow each other through the text behind what is in front. -/
theorem tiles_savedFrom (entries : List (ℕ × Text)) (front : Text) :
    Tiles front.length ((savedFrom front.length entries).map SavedParagraph.span)
        (front ++ (entries.map Prod.snd).flatten).length ∧
      ∀ p ∈ savedFrom front.length entries, p.text = slice (front ++ (entries.map Prod.snd).flatten) p.start p.stop ∧
        p.stop = p.start + p.text.length := by
  induction entries generalizing front with
  | nil => exact ⟨by simp [savedFrom, Tiles], fun p hp => by cases hp⟩
  | cons entry entries ih =>
    obtain ⟨k, t⟩ := entry
    obtain ⟨htiles, htexts⟩ := ih (front ++ t)
    rw [List.length_append, List.append_assoc] at htiles
    rw [List.length_append] at htexts
    rw [savedFrom, List.map_cons, List.map_cons, List.flatten_cons]
    refine ⟨⟨rfl, Nat.le_add_right _ _, htiles⟩, fun p hp => ?_⟩
    rcases List.mem_cons.mp hp with rfl | hp
    · refine ⟨?_, rfl⟩
      rw [slice, ← List.append_assoc, List.take_left' (by rw [List.length_append]), List.drop_left]
    · rw [← List.append_assoc]
      exact htexts p hp

theorem savedParagraphs_saved {paragraphData : Dict ℕ Text} (h : Numbered paragraphData) :
    Saved paragraphData.values.flatten (savedParagraphs paragraphData) := by
  obtain ⟨htiles, htexts⟩ := tiles_savedFrom paragraphData.entries []
  have htext := map_texts_savedFrom paragraphData.entries 0
  refine ⟨?_, htiles, fun p hp => (htexts p hp).1, fun p hp => ?_⟩
  · intro hnil
    change savedFrom 0 paragraphData.entries = [] at hnil
    rw [hnil] at htext
    rcases h.filled with hone | ⟨hne, -⟩
    · rw [Dict.values, ← htext] at hone
      cases hone
    · exact hne htext.symm
  · have hmem : p.text ∈ paragraphData.values := by
      rw [Dict.values, ← htext]
      exact List.mem_map_of_mem hp
    rcases h.filled with hone | ⟨-, hfilled⟩
    · left
      rw [Dict.values, ← htext] at hone
      obtain ⟨q, hq, -⟩ := List.map_eq_singleton_iff.mp hone
      change savedParagraphs paragraphData = [q] at hq
      rw [hq, List.mem_singleton] at hp
      rw [hq, hp]
    · right
      have hlength := List.length_pos_iff.mpr (hfilled _ hmem)
      have hstop := (htexts p hp).2
      omega


/-- Every edit touches a paragraph. -/
theorem exists_touched {saved current : Text} {ops : List Opcode} {paragraphs : List SavedParagraph}
    (h : EditScript saved current 0 0 ops) (hsaved : Saved saved paragraphs) {op : Opcode} (hop : op ∈ ops) :
    ∃ p ∈ paragraphs, Touches op p := by
  obtain ⟨-, hle, hend⟩ := h.old_bounds hop
  rcases Nat.lt_or_ge op.oldStart saved.length with hlt | hge
  · obtain ⟨s, hs, hstart, hstop⟩ := hsaved.tiles.covers (Nat.zero_le op.oldStart) hlt
    obtain ⟨p, hp, rfl⟩ := List.mem_map.mp hs
    change p.start ≤ op.oldStart at hstart
    change op.oldStart < p.stop at hstop
    refine ⟨p, hp, ?_⟩
    rw [Touches]
    split_ifs <;> omega
  · have hlast := hsaved.getLast_stop (List.getLast?_eq_some_getLast hsaved.ne_nil)
    have hbounds := hsaved.bounds (List.getLast_mem hsaved.ne_nil)
    refine ⟨_, List.getLast_mem hsaved.ne_nil, ?_⟩
    rw [Touches, if_pos (by omega)]
    omega

/-- An ascending list of identifiers, filtered, is the sorted list of those picked. -/
theorem sort_eq_filter {ids : List ℕ} (h : ids.Pairwise (· < ·)) {picked : Finset ℕ} (hin : ∀ k ∈ picked, k ∈ ids) :
    picked.sort (· ≤ ·) = ids.filter (· ∈ picked) := by
  have hsame : (ids.filter (· ∈ picked)).toFinset = picked := by
    ext k
    rw [List.mem_toFinset, List.mem_filter, decide_eq_true_eq]
    exact ⟨fun hk => hk.2, fun hk => ⟨hin k hk, hk⟩⟩
  have hsorted := h.filter (· ∈ picked)
  calc picked.sort (· ≤ ·) = (ids.filter (· ∈ picked)).toFinset.sort (· ≤ ·) := by rw [hsame]
    _ = ids.filter (· ∈ picked) :=
        (List.toFinset_sort _ (hsorted.imp fun hlt => hlt.ne)).mpr (hsorted.imp fun hlt => hlt.le)

/-- The alignment does not raise. The unions are runs of consecutive paragraphs, no two of them next to each other,
and they have the paragraphs that were hinted at and those an edit touches, and no others. The new text is the saved
text with each run replaced by the text of its union. -/
theorem alignUnions_exact (getOpcodes : Text → Text → List Opcode) (paragraphData : Dict ℕ Text) (currentText : Text)
    (hintedIds : Finset ℕ) (hdata : Numbered paragraphData) (hhinted : ∀ k ∈ hintedIds, k ∈ paragraphData.keys)
    (hchanged : currentText ≠ paragraphData.values.flatten)
    (hscript : EditScript paragraphData.values.flatten currentText 0 0
      (getOpcodes paragraphData.values.flatten currentText)) :
    ∃ unions, alignUnions getOpcodes (savedParagraphs paragraphData) currentText hintedIds = .ok unions ∧
      (∀ u ∈ unions, ∃ start length, 0 < length ∧ u.paragraphIds = List.range' start length) ∧
      unions.Pairwise (fun u v => Apart u.paragraphIds v.paragraphIds) ∧
      (∀ k, (∃ u ∈ unions, k ∈ u.paragraphIds) ↔
        k ∈ hintedIds ∨ ∃ op ∈ getOpcodes paragraphData.values.flatten currentText, op.tag ≠ .equal ∧
          ∃ p ∈ savedParagraphs paragraphData, p.paragraphId = k ∧ Touches op p) ∧
      Replaced (savedParagraphs paragraphData) unions currentText := by
  have htext : ((savedParagraphs paragraphData).map SavedParagraph.text).flatten = paragraphData.values.flatten := by
    rw [savedParagraphs, map_texts_savedFrom, Dict.values]
  have hkeys : (savedParagraphs paragraphData).map SavedParagraph.paragraphId = paragraphData.keys :=
    map_ids_savedFrom _ _
  have hsaved := savedParagraphs_saved hdata
  set saved := paragraphData.values.flatten
  set paragraphs := savedParagraphs paragraphData
  set ops := getOpcodes saved currentText with hopsDef
  have hops : ops ≠ [] := by
    intro hnil
    rw [hnil] at hscript
    exact hchanged ((List.length_eq_zero_iff.mp hscript.2.symm).trans (List.length_eq_zero_iff.mp hscript.1.symm).symm)
  obtain ⟨derived, hderived, hmem⟩ := derivedModifiedIds_ok hsaved
    fun op hop => (hscript.old_bounds hop).2.1.trans (hscript.old_bounds hop).2.2
  have hnodup : (paragraphs.map SavedParagraph.paragraphId).Nodup := hkeys ▸ paragraphData.nodupKeys
  have hascending : paragraphData.keys.Pairwise (· < ·) := by
    rw [hdata.keys]
    exact List.pairwise_lt_range'
  have hin : ∀ k ∈ derived ∪ hintedIds, k ∈ paragraphData.keys := by
    intro k hk
    rcases Finset.mem_union.mp hk with hk | hk
    · obtain ⟨op, -, -, p, hp, rfl, -⟩ := (hmem k).mp hk
      exact hkeys ▸ List.mem_map_of_mem hp
    · exact hhinted k hk
  have hmarked : ∀ p ∈ paragraphs, p.paragraphId ∉ derived ∪ hintedIds → Untouched ops p :=
    fun p hp hnot op hop htag htouch =>
      hnot (Finset.mem_union_left _ ((hmem _).mpr ⟨op, hop, htag, p, hp, rfl, htouch⟩))
  have hsome : derived ∪ hintedIds ≠ ∅ := by
    intro hempty
    have hequal : ∀ op ∈ ops, op.tag = .equal := by
      intro op hop
      by_contra htag
      obtain ⟨p, hp, htouch⟩ := exists_touched hscript hsaved hop
      have hk := Finset.mem_union_left hintedIds ((hmem p.paragraphId).mpr ⟨op, hop, htag, p, hp, rfl, htouch⟩)
      rw [hempty] at hk
      exact absurd hk (Finset.notMem_empty _)
    have hsame := hscript.drop_eq hequal
    rw [List.drop_zero, List.drop_zero] at hsame
    exact hchanged hsame.symm
  have hreached : Reached currentText ops paragraphs 0 0 := by
    rw [Reached, if_neg hsaved.ne_nil]
    exact ⟨zero_mem_candidates hscript hops, fun z _ => Nat.zero_le z⟩
  have hrange : paragraphs.map SavedParagraph.paragraphId = List.range' 1 paragraphs.length := by
    rw [hkeys, hdata.keys, ← hkeys, List.length_map]
  obtain ⟨unions, hunions, hreplaced⟩ := replaced_suffix hscript hops hsaved hnodup hmarked paragraphs.length paragraphs
    0 1 0 rfl (fun _ hp => hp) hsaved.tiles hrange hreached
  have hgroups := map_ids_of_mapM hunions
  rw [List.drop_zero] at hreplaced
  rw [hkeys] at hunions hgroups
  obtain ⟨hflatten, hruns, hapart⟩ := contiguousGroups_spec (hascending.filter (· ∈ derived ∪ hintedIds))
  rw [← hgroups] at hflatten hruns hapart
  rw [List.pairwise_map] at hapart
  have hdisjoint : unions.Pairwise DisjointUnions := hapart.imp fun h i hi hi' => by
    have hlt := h i hi i hi'
    omega
  refine ⟨unions, ?_, fun u hu => hruns _ (List.mem_map_of_mem hu), hapart, fun k => ?_, hreplaced⟩
  · rw [alignUnions]
    simp only [htext, ← hopsDef, hderived, sort_eq_filter hascending hin, hunions, if_neg hsome, bind, Except.bind,
      hreplaced.reconstructed hnodup hdisjoint (fun _ hu => hu) (fun _ hu => .inl hu), ne_eq, not_true_eq_false, if_false,
      pure, Except.pure]
  · have hcover : (∃ u ∈ unions, k ∈ u.paragraphIds) ↔ k ∈ derived ∪ hintedIds := by
      rw [← List.mem_flatMap, List.flatMap_def, hflatten, List.mem_filter, decide_eq_true_eq]
      exact ⟨fun hk => hk.2, fun hk => ⟨hin k hk, hk⟩⟩
    rw [hcover, Finset.mem_union, hmem, or_comm]

/-- Three paragraphs. -/
def documentSample : Dict ℕ Text := ⟨[(1, lit "ab"), (2, lit "cd"), (3, lit "ef")], by decide⟩

/-- An insertion between the first two of them. -/
def opcodesSample : List Opcode := [⟨.equal, 0, 2, 0, 2⟩, ⟨.insert, 2, 2, 2, 3⟩, ⟨.equal, 2, 6, 3, 7⟩]

theorem alignUnions_exact_sample :
    ∃ unions, alignUnions (fun _ _ => opcodesSample) (savedParagraphs documentSample) (lit "abXcdef") ∅ = .ok unions ∧
      (∃ u ∈ unions, 2 ∈ u.paragraphIds) ∧ Replaced (savedParagraphs documentSample) unions (lit "abXcdef") := by
  obtain ⟨unions, hunions, -, -, hcover, hreplaced⟩ := alignUnions_exact (fun _ _ => opcodesSample) documentSample
    (lit "abXcdef") ∅ ⟨by decide, .inr ⟨by decide, by simp [documentSample, Dict.values, lit, text]⟩⟩ (by simp)
    (by decide) (by simp only [EditScript, opcodesSample]; decide)
  refine ⟨unions, hunions, (hcover 2).mpr (.inr ⟨⟨.insert, 2, 2, 2, 3⟩, ?_, by decide, ⟨2, lit "cd", 2, 4⟩, ?_, rfl, ?_⟩),
    hreplaced⟩
  · simp [opcodesSample]
  · decide
  · simp [Touches]

end TenantRag.Save

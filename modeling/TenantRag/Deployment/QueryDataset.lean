import TenantRag.Foundations.JsonLines
import TenantRag.Foundations.JsonMembers
import TenantRag.Foundations.PyError
import TenantRag.Foundations.Result

/-!
# The query dataset in JSON lines

`_jsonl_queries` in `deployment/e2e_diagnostic.py`: the records of a query dataset, one JSON object in
each line of `str.splitlines`, no name twice in any object.

## The model

A line that is no JSON text for a number of too many digits is reported like any other one. The
identifiers a turn of the loop has seen are those of the records in front.

## What is proved

* `readLine_record` — the line of a record is read as the record.
* `readLine_cut` — what is left of a line that is cut is refused.
* `readsExactly_iff` — a file is read exactly where no line has one of three characters.
-/

namespace TenantRag

namespace E2EDiagnostic

open Json

/-- `E2EDiagnosticError(message)`, a `ValueError`. -/
def e2eDiagnosticError (message : String) : PyError := valueError message

/-- A record: `query_id`, `question`, `reference` and `reference_context_ids`. -/
structure QueryRecord where
  /-- `query_id`. -/
  queryId : Text
  /-- `question`. -/
  question : Text
  /-- `reference`. -/
  reference : Option Text
  /-- `reference_context_ids`, canonical. -/
  referenceContextIds : List Text
  deriving DecidableEq

/-- `allowed`. -/
def allowed : List Text := [lit "query_id", lit "question", lit "reference", lit "reference_context_ids"]

section Reader

variable (F : Type) [PyFloat F]

/-- `unique_fields(pairs)`. -/
def uniqueFields (pairs : List (Text × Json F)) : Except PyError (Json F) :=
  if ¬ (pairs.map Prod.fst).Nodup then .error (e2eDiagnosticError "Query dataset has duplicate JSON fields")
  else .ok (.obj (dictOf pairs))

/-- `item` where it is a string. -/
def strOf : Json F → Option Text
  | .str t => some t
  | _ => none

/-- `reference` where it is valid. -/
def referenceOf (lineNumber : ℕ) (reference : Option (Json F)) : Except PyError (Option Text) :=
  match reference with
  | none | some .null => .ok none
  | some (.str reference) =>
      if (strip reference).isEmpty then
        .error (e2eDiagnosticError s!"Query dataset line {lineNumber} has an invalid reference")
      else .ok (some reference)
  | _ => .error (e2eDiagnosticError s!"Query dataset line {lineNumber} has an invalid reference")

/-- The canonical `reference_context_ids` where they are valid. -/
def referenceIdsOf (lineNumber : ℕ) (referenceIds : Option (Json F)) : Except PyError (List Text) :=
  let invalid := e2eDiagnosticError s!"Query dataset line {lineNumber} has invalid reference_context_ids"
  match referenceIds.getD (.arr []) with
  | .arr items =>
      match (items.filterMap (strOf F)).mapM Uuid.ofText with
      | none => .error invalid
      | some uuids =>
          let canonicalIds := uuids.map Uuid.str
          -- as many as there are items, so that every item is a string
          if canonicalIds.length ≠ items.length ∨ canonicalIds ≠ items.filterMap (strOf F) ∨ ¬ canonicalIds.Nodup then
            .error invalid
          else .ok canonicalIds
  | _ => .error invalid

/-- One turn of the loop: the record of a line. -/
def readLine (lineNumber : ℕ) (identifiers : List Text) (line : Text) : Except PyError QueryRecord :=
  if (strip line).isEmpty then .error (e2eDiagnosticError s!"Query dataset contains a blank line at {lineNumber}")
  else
    match loadsWith (uniqueFields F) line with
    | .error .decode => .error (e2eDiagnosticError s!"Query dataset line {lineNumber} is invalid JSON")
    | .error (.raised e) => .error e
    | .ok (.obj value) =>
        if !value.all (fun f => f.1 ∈ allowed) then
          .error (e2eDiagnosticError s!"Query dataset line {lineNumber} has unknown fields")
        else
          match get? value (lit "query_id"), get? value (lit "question") with
          | some (.str queryId), some (.str question) =>
              if (strip queryId).isEmpty ∨ queryId ≠ strip queryId ∨ (strip question).isEmpty then
                .error (e2eDiagnosticError s!"Query dataset line {lineNumber} has invalid identity or question")
              else if queryId ∈ identifiers then
                .error (e2eDiagnosticError s!"Query dataset duplicates a query ID at line {lineNumber}")
              else do
                let reference ← referenceOf F lineNumber (get? value (lit "reference"))
                let canonicalIds ← referenceIdsOf F lineNumber (get? value (lit "reference_context_ids"))
                .ok ⟨queryId, question, reference, canonicalIds⟩
          | _, _ => .error (e2eDiagnosticError s!"Query dataset line {lineNumber} has invalid identity or question")
    | .ok _ => .error (e2eDiagnosticError s!"Query dataset line {lineNumber} has unknown fields")

/-- The loop over the lines. -/
def readLines (lineNumber : ℕ) (identifiers : List Text) : List Text → Except PyError (List QueryRecord)
  | [] => .ok []
  | line :: lines => do
      let record ← readLine F lineNumber identifiers line
      let records ← readLines (lineNumber + 1) (record.queryId :: identifiers) lines
      .ok (record :: records)

/-- `_jsonl_queries(source, path)`. -/
def jsonlQueries (source : Text) : Except PyError (List QueryRecord) := do
  let records ← readLines F 1 [] (splitlines source)
  if records.isEmpty then .error (e2eDiagnosticError "Query dataset must contain at least one record")
  else .ok records

/-! ### Files -/

/-- The record has a stripped identifier that is not blank, a question and a reference that are not blank, if there is a
reference, and different canonical UUIDs. -/
structure QueryRecord.Valid (r : QueryRecord) : Prop where
  /-- The identifier is stripped. -/
  stripped : strip r.queryId = r.queryId
  /-- It is not blank. -/
  queryId : isBlank r.queryId = false
  /-- Nor is the question. -/
  question : isBlank r.question = false
  /-- Nor is the reference. -/
  reference : ∀ t ∈ r.reference, isBlank t = false
  /-- The identifiers of contexts are canonical. -/
  canonical : ∃ uuids : List Uuid, r.referenceContextIds = uuids.map Uuid.str ∧ uuids.Nodup

/-- The members of an object state a record: no name twice, no other name, the two texts, the reference or `null` or nothing, and
the identifiers of contexts or, where there are none, nothing. -/
structure StatesRecord (ms : List (Text × Json F)) (r : QueryRecord) : Prop where
  /-- No name twice. -/
  nodup : (ms.map Prod.fst).Nodup
  /-- No other name. -/
  names : ∀ m ∈ ms, m.1 ∈ allowed
  /-- The identifier. -/
  queryId : get? ms (lit "query_id") = some (.str r.queryId)
  /-- The question. -/
  question : get? ms (lit "question") = some (.str r.question)
  /-- The reference. -/
  reference : match r.reference with
    | none => get? ms (lit "reference") = none ∨ get? ms (lit "reference") = some .null
    | some t => get? ms (lit "reference") = some (.str t)
  /-- The identifiers of contexts. -/
  contexts : get? ms (lit "reference_context_ids") = some (.arr (r.referenceContextIds.map .str)) ∨
    r.referenceContextIds = [] ∧ get? ms (lit "reference_context_ids") = none

/-- `t` is a JSON text of an object that states the record, without a line feed or a carriage return. -/
def RecordText (t : Text) (r : QueryRecord) : Prop :=
  (∃ ms : List (Text × Json F), JsonText t (.obj ms) ∧ StatesRecord F ms r) ∧ ∀ c ∈ t, c.val ≠ 10 ∧ c.val ≠ 13

/-- The texts of a dataset: some records, valid, with different identifiers. -/
structure DatasetTexts (ts : List Text) (rs : List QueryRecord) : Prop where
  /-- Each text is one of its record. -/
  texts : List.Forall₂ (RecordText F) ts rs
  /-- There are some. -/
  ne_nil : rs ≠ []
  /-- Each is valid. -/
  valid : ∀ r ∈ rs, r.Valid
  /-- The identifiers are different. -/
  nodup : (rs.map QueryRecord.queryId).Nodup

/-- The files of these texts, joined by line feeds, without a final one or with it, are read as the records. -/
def ReadsExactly (ts : List Text) (rs : List QueryRecord) : Prop :=
  jsonlQueries F (join [10] ts) = .ok rs ∧ jsonlQueries F (join [10] ts ++ [10]) = .ok rs

end Reader

/-! ### The line of a record -/

section Line

variable {F : Type} [PyFloat F] {t : Text} {r : QueryRecord}

omit [PyFloat F] in
/-- No value of a record has objects in it. -/
theorem StatesRecord.hooked_values {ms : List (Text × Json F)} (h : StatesRecord F ms r) {m : Text × Json F} (hm : m ∈ ms) :
    hooked (uniqueFields F) m.2 = .ok m.2 := by
  have hget := get?_of_mem h.nodup hm
  have hname := h.names m hm
  simp only [allowed, List.mem_cons, List.not_mem_nil, or_false] at hname
  rcases hname with hname | hname | hname | hname
  · rw [hname, h.queryId, Option.some.injEq] at hget
    rw [← hget, hooked]
  · rw [hname, h.question, Option.some.injEq] at hget
    rw [← hget, hooked]
  · rw [hname] at hget
    have hreference := h.reference
    cases hr : r.reference with
    | none =>
      rw [hr] at hreference
      dsimp only at hreference
      rcases hreference with hnone | hnull
      · rw [hnone] at hget
        cases hget
      · rw [hnull, Option.some.injEq] at hget
        rw [← hget, hooked]
    | some s =>
      rw [hr] at hreference
      dsimp only at hreference
      rw [hreference, Option.some.injEq] at hget
      rw [← hget, hooked]
  · rw [hname] at hget
    rcases h.contexts with hsome | ⟨-, hnone⟩
    · rw [hsome, Option.some.injEq] at hget
      have hitems : hookedItems (uniqueFields F) (r.referenceContextIds.map .str) = .ok (r.referenceContextIds.map .str) := by
        rw [hookedItems_ok_iff, List.forall₂_map_left_iff, List.forall₂_map_right_iff]
        exact List.forall₂_same.mpr fun s _ => by rw [hooked]
      rw [← hget, hooked, hitems]
      rfl
    · rw [hnone] at hget
      cases hget

/-- The text of a record is loaded as its members. -/
theorem loadsWith_record {ms : List (Text × Json F)} (htext : JsonText t (.obj ms)) (h : StatesRecord F ms r) :
    loadsWith (uniqueFields F) t = .ok (.obj ms) := by
  refine loadsWith_ok_iff.mpr ⟨.obj ms, htext, ?_⟩
  have hmembers : hookedMembers (uniqueFields F) ms = .ok ms :=
    hookedMembers_ok_iff.mpr (List.forall₂_same.mpr fun m hm => ⟨rfl, h.hooked_values hm⟩)
  rw [hooked, hmembers]
  dsimp only
  rw [uniqueFields, if_neg (not_not_intro h.nodup), dictOf_eq h.nodup]

/-- A JSON text is not blank. -/
theorem strip_jsonText {v : Json F} (h : JsonText t v) : (strip t).isEmpty = false := by
  obtain ⟨c, cs, hc, -⟩ := h.strip_reads.begins_solid
  rw [hc]
  rfl

omit [PyFloat F] in
theorem referenceOf_record (n : ℕ) {ms : List (Text × Json F)} (h : StatesRecord F ms r) (hr : r.Valid) :
    referenceOf F n (get? ms (lit "reference")) = .ok r.reference := by
  have hreference := h.reference
  cases heq : r.reference with
  | none =>
    rw [heq] at hreference
    dsimp only at hreference
    rcases hreference with hnone | hnull
    · rw [hnone]
      rfl
    · rw [hnull]
      rfl
  | some s =>
    rw [heq] at hreference
    dsimp only at hreference
    have hblank : ¬ (strip s).isEmpty = true := by
      have hvalid := hr.reference s heq
      rw [isBlank] at hvalid
      simp [hvalid]
    rw [hreference, referenceOf, if_neg hblank]

theorem mapM_ofText_str (uuids : List Uuid) : (uuids.map Uuid.str).mapM Uuid.ofText = some uuids := by
  induction uuids with
  | nil => rfl
  | cons u us ih =>
    rw [List.map_cons, List.mapM_cons, Uuid.ofText_str, ih]
    rfl

omit [PyFloat F] in
theorem referenceIdsOf_record (n : ℕ) {ms : List (Text × Json F)} (h : StatesRecord F ms r) (hr : r.Valid) :
    referenceIdsOf F n (get? ms (lit "reference_context_ids")) = .ok r.referenceContextIds := by
  obtain ⟨uuids, hids, hnodup⟩ := hr.canonical
  have hlist : (get? ms (lit "reference_context_ids")).getD (.arr []) = .arr (r.referenceContextIds.map .str) := by
    rcases h.contexts with hsome | ⟨hempty, hnone⟩
    · rw [hsome]
      rfl
    · rw [hnone, hempty]
      rfl
  have hstrs : (r.referenceContextIds.map .str).filterMap (strOf F) = r.referenceContextIds := by
    rw [List.filterMap_map]
    exact List.filterMap_some
  have hcanonical : (uuids.map Uuid.str).Nodup := hnodup.map Uuid.str_injective
  rw [referenceIdsOf, hlist]
  dsimp only
  rw [hstrs, hids, mapM_ofText_str]
  dsimp only
  rw [if_neg (by simp [hcanonical])]

/-- The line of a record is read as the record, where its identifier is new. -/
theorem readLine_record (htext : RecordText F t r) (hr : r.Valid) (n : ℕ) {identifiers : List Text}
    (hnew : r.queryId ∉ identifiers) : readLine F n identifiers t = .ok r := by
  obtain ⟨⟨ms, hjson, hstates⟩, -⟩ := htext
  have hnames : (ms.all fun f => decide (f.1 ∈ allowed)) = true :=
    List.all_eq_true.mpr fun m hm => decide_eq_true (hstates.names m hm)
  have hidentity : ¬ ((strip r.queryId).isEmpty = true ∨ r.queryId ≠ strip r.queryId ∨ (strip r.question).isEmpty = true) := by
    have hid := hr.queryId
    have hquestion := hr.question
    rw [isBlank] at hid hquestion
    rw [hid, hquestion, hr.stripped]
    simp
  rw [readLine, strip_jsonText hjson, if_neg (by decide), loadsWith_record hjson hstates]
  dsimp only
  rw [hnames, if_neg (by decide), hstates.queryId, hstates.question]
  dsimp only
  rw [if_neg hidentity, if_neg hnew, referenceOf_record n hstates hr, referenceIdsOf_record n hstates hr]
  rfl

/-- What is left of a line that is cut is refused. -/
theorem readLine_cut {a b : Text} {c : PyChar} (h : RecordText F (a ++ c :: b) r) (hc : isWideBreak c = true) (n : ℕ)
    (identifiers : List Text) (r' : QueryRecord) : readLine F n identifiers a ≠ .ok r' := by
  intro hread
  obtain ⟨⟨ms, hjson, -⟩, -⟩ := h
  rw [readLine] at hread
  split_ifs at hread
  cases hloads : loadsWith (uniqueFields F) a with
  | error e =>
    rw [hloads] at hread
    cases e <;> cases hread
  | ok v =>
    obtain ⟨raw, htext, -⟩ := loadsWith_ok_iff.mp hloads
    exact hjson.not_cut hc htext

end Line

/-! ### Files -/

section File

variable {F : Type} [PyFloat F]

/-- Every line of a file that is read is read by itself. -/
theorem readLine_of_readLines {n : ℕ} {identifiers : List Text} {lines : List Text} {rs : List QueryRecord}
    (h : readLines F n identifiers lines = .ok rs) {line : Text} (hline : line ∈ lines) :
    ∃ m identifiers' r, readLine F m identifiers' line = .ok r := by
  induction lines generalizing n identifiers rs with
  | nil => cases hline
  | cons l lines ih =>
    rw [readLines] at h
    obtain ⟨r, hr, h⟩ := bind_eq_ok_iff.mp h
    obtain ⟨rest, hrest, -⟩ := bind_eq_ok_iff.mp h
    rcases List.mem_cons.mp hline with rfl | hline
    · exact ⟨n, identifiers, r, hr⟩
    · exact ih hrest hline

/-- The lines of the records are read as the records. -/
theorem readLines_records {ts : List Text} {rs : List QueryRecord} (h : List.Forall₂ (RecordText F) ts rs)
    (hvalid : ∀ r ∈ rs, r.Valid) (n : ℕ) (identifiers : List Text)
    (hnew : ∀ r ∈ rs, r.queryId ∉ identifiers) (hnodup : (rs.map QueryRecord.queryId).Nodup) :
    readLines F n identifiers ts = .ok rs := by
  induction h generalizing n identifiers with
  | nil => rfl
  | @cons t r ts rs ht h ih =>
    obtain ⟨hvalidHead, hvalidTail⟩ := List.forall_mem_cons.mp hvalid
    obtain ⟨hnewHead, hnewTail⟩ := List.forall_mem_cons.mp hnew
    rw [List.map_cons, List.nodup_cons] at hnodup
    have hrest : readLines F (n + 1) (r.queryId :: identifiers) ts = .ok rs := by
      refine ih hvalidTail (n + 1) _ (fun r' hr' => ?_) hnodup.2
      rw [List.mem_cons, not_or]
      exact ⟨fun heq => hnodup.1 (heq ▸ List.mem_map_of_mem hr'), hnewTail r' hr'⟩
    rw [readLines, readLine_record ht hvalidHead n hnewHead]
    change (readLines F (n + 1) (r.queryId :: identifiers) ts >>= fun records => .ok (r :: records)) = _
    rw [hrest]
    rfl

theorem RecordText.isLineBreak_iff {t : Text} {r : QueryRecord} (h : RecordText F t r) {c : PyChar} (hc : c ∈ t) :
    isLineBreak c = isWideBreak c := by
  obtain ⟨⟨ms, hjson, -⟩, hline⟩ := h
  exact isLineBreak_of_noControl hjson.noControl hline hc

/-- The first text that has one of the three characters is cut, and what is left of it is a line. -/
theorem cut_mem_lines {ts : List Text} {rs : List QueryRecord} (h : List.Forall₂ (RecordText F) ts rs)
    (hts : ¬ ∀ t ∈ ts, ∀ c ∈ t, isWideBreak c = false) (final : Text) :
    ∃ a c b r, a ∈ splitlines (join [10] ts ++ final) ∧ isWideBreak c = true ∧ RecordText F (a ++ c :: b) r := by
  induction h with
  | nil => exact absurd (by simp) hts
  | @cons t r ts rs ht h ih =>
    -- what follows the first text: a line feed and the others, or what is at the end
    obtain ⟨behind, hbehind, hrest⟩ : ∃ behind, join [10] (t :: ts) ++ final = t ++ behind ∧
        (ts ≠ [] → behind = 10 :: (join [10] ts ++ final)) := by
      cases ts with
      | nil => exact ⟨final, by rw [join_singleton], fun hne => absurd rfl hne⟩
      | cons t' ts => exact ⟨10 :: (join [10] (t' :: ts) ++ final), by rw [join_cons_cons]; simp, fun _ => rfl⟩
    rw [hbehind]
    by_cases hsolid : ∀ c ∈ t, isWideBreak c = false
    · have hothers : ¬ ∀ t ∈ ts, ∀ c ∈ t, isWideBreak c = false :=
        fun hall => hts (List.forall_mem_cons.mpr ⟨hsolid, hall⟩)
      have hne : ts ≠ [] := by
        rintro rfl
        exact hothers (by simp)
      have hbreaks : ∀ c ∈ t, isLineBreak c = false := fun c hc => by rw [ht.isLineBreak_iff hc, hsolid c hc]
      obtain ⟨a, c, b, r', ha, hc, hcut⟩ := ih hothers
      rw [hrest hne, splitlines_line hbreaks]
      exact ⟨a, c, b, r', List.mem_cons_of_mem t ha, hc, hcut⟩
    · obtain ⟨a, c, b, rfl, ha, hc⟩ := exists_first hsolid
      have hline : ∀ d ∈ a, isLineBreak d = false := fun d hd => by
        rw [ht.isLineBreak_iff (List.mem_append_left _ hd), ha d hd]
      have hcut : isLineBreak c = true := by
        rw [ht.isLineBreak_iff (List.mem_append_right _ List.mem_cons_self), hc]
      have hcr : c.val ≠ 13 := (ht.2 c (List.mem_append_right _ List.mem_cons_self)).2
      rw [List.append_assoc, List.cons_append, splitlines_cut hline hcut hcr]
      exact ⟨a, c, b, r, List.mem_cons_self, hc, ht⟩

/-- A file of records is read, with a final line feed or without, where no line is cut. -/
theorem jsonlQueries_records {ts : List Text} {rs : List QueryRecord} (h : DatasetTexts F ts rs)
    (hsolid : ∀ t ∈ ts, ∀ c ∈ t, isWideBreak c = false) {final : Text} (hfinal : final = [] ∨ final = [10]) :
    jsonlQueries F (join [10] ts ++ final) = .ok rs := by
  have hlines : ∀ t ∈ ts, t ≠ [] ∧ ∀ c ∈ t, isLineBreak c = false := by
    intro t ht
    obtain ⟨r, -, hr⟩ := forall₂_left h.texts ht
    refine ⟨?_, fun c hc => by rw [hr.isLineBreak_iff hc, hsolid t ht c hc]⟩
    rintro rfl
    obtain ⟨⟨ms, hjson, -⟩, -⟩ := hr
    have hblank := strip_jsonText hjson
    cases hblank
  have hne : ts ≠ [] := by
    rintro rfl
    exact h.ne_nil (List.forall₂_nil_left_iff.mp h.texts)
  have hread := readLines_records h.texts h.valid 1 [] (fun _ _ => List.not_mem_nil) h.nodup
  have hsome : ¬ rs.isEmpty = true := by simpa using h.ne_nil
  rw [jsonlQueries, splitlines_join hlines hfinal hne, hread]
  exact if_neg hsome

/-- A file is refused where a line is cut. -/
theorem jsonlQueries_cut {ts : List Text} {rs rs' : List QueryRecord} (h : DatasetTexts F ts rs)
    (hcut : ¬ ∀ t ∈ ts, ∀ c ∈ t, isWideBreak c = false) (final : Text) : jsonlQueries F (join [10] ts ++ final) ≠ .ok rs' := by
  intro hread
  rw [jsonlQueries] at hread
  obtain ⟨rs'', hlines, -⟩ := bind_eq_ok_iff.mp hread
  obtain ⟨a, c, b, r, ha, hc, htext⟩ := cut_mem_lines h.texts hcut final
  obtain ⟨m, identifiers, r', hr'⟩ := readLine_of_readLines hlines ha
  exact readLine_cut htext hc m identifiers r' hr'

end File

section Exact

variable (F : Type) [PyFloat F]

/-- The files of a dataset are read exactly where no text has one of the characters U+0085, U+2028 and U+2029. -/
theorem readsExactly_iff {ts : List Text} {rs : List QueryRecord} (h : DatasetTexts F ts rs) :
    ReadsExactly F ts rs ↔ ∀ t ∈ ts, ∀ c ∈ t, c.val ≠ 133 ∧ c.val ≠ 8232 ∧ c.val ≠ 8233 := by
  have hwide : (∀ t ∈ ts, ∀ c ∈ t, c.val ≠ 133 ∧ c.val ≠ 8232 ∧ c.val ≠ 8233) ↔ ∀ t ∈ ts, ∀ c ∈ t, isWideBreak c = false := by
    refine forall₂_congr fun t _ => forall₂_congr fun c _ => ?_
    simp only [isWideBreak, Bool.or_eq_false_iff, beq_eq_false_iff_ne, and_assoc]
  rw [hwide]
  constructor
  · rintro ⟨-, hread⟩
    by_contra hcut
    exact jsonlQueries_cut h hcut [10] hread
  · intro hsolid
    have hplain : jsonlQueries F (join [10] ts ++ []) = .ok rs := jsonlQueries_records h hsolid (.inl rfl)
    rw [List.append_nil] at hplain
    exact ⟨hplain, jsonlQueries_records h hsolid (.inr rfl)⟩

end Exact

/-- A record whose question has this character in the middle. -/
def recordSample (c : PyChar) : QueryRecord := ⟨lit "q", [97, c, 98], none, []⟩

/-- A text of it. -/
def recordTextSample (c : PyChar) : Text := lit "\x7b\"query_id\":\"q\",\"question\":\"a" ++ (c :: lit "b\"\x7d")

theorem recordText_sample {c : PyChar} (h34 : c.val ≠ 34) (h92 : c.val ≠ 92) (h32 : 32 ≤ c.val) :
    RecordText WholeFloat (recordTextSample c) (recordSample c) := by
  have hempty : Spaces [] := by simp [Spaces]
  have hbody {t : Text} (h : (t.all fun c => decide (c.val ≠ 34 ∧ c.val ≠ 92 ∧ 32 ≤ c.val)) = true) : StringBody t t :=
    stringBody_plain (by simpa using h)
  have hid : StringBody (lit "query_id") (lit "query_id") := hbody (by decide)
  have hquestion : StringBody (lit "question") (lit "question") := hbody (by decide)
  have hq : StringBody (lit "q") (lit "q") := hbody (by decide)
  have hvalue : StringBody [97, c, 98] [97, c, 98] := by
    refine stringBody_plain ?_
    simp [h34, h92, h32]
  have hlast := Reads.lastMember hquestion hempty hempty (Reads.str (F := WholeFloat) hvalue) hempty
  have hreads := (Reads.obj hempty (Reads.member hid hempty hempty (Reads.str hq) hempty hempty hlast)).jsonText
  have hplain : (lit "\x7b\"query_id\":\"q\",\"question\":\"a" ++ lit "b\"\x7d").all (fun c => decide (32 ≤ c.val)) = true := by
    decide
  refine ⟨⟨_, hreads, ?_⟩, fun d hd => ?_⟩
  · have hnames : [lit "query_id", lit "question"].Nodup := by decide
    refine ⟨hnames, ?_, rfl, rfl, .inl rfl, .inr ⟨rfl, rfl⟩⟩
    simp [allowed]
  · have hd32 : 32 ≤ d.val := by
      rw [recordTextSample, List.mem_append, List.mem_cons] at hd
      rcases hd with hd | rfl | hd
      · exact of_decide_eq_true (List.all_eq_true.mp hplain d (List.mem_append_left _ hd))
      · exact h32
      · exact of_decide_eq_true (List.all_eq_true.mp hplain d (List.mem_append_right _ hd))
    omega

theorem datasetTexts_sample {c : PyChar} (h34 : c.val ≠ 34) (h92 : c.val ≠ 92) (h32 : 32 ≤ c.val) :
    DatasetTexts WholeFloat [recordTextSample c] [recordSample c] where
  texts := .cons (recordText_sample h34 h92 h32) .nil
  ne_nil := List.cons_ne_nil _ _
  valid r hr := by
    obtain rfl := List.mem_singleton.mp hr
    have hstripped : strip (lit "q") = lit "q" := by decide
    have hid : isBlank (lit "q") = false := by decide
    refine ⟨hstripped, hid, ?_, by simp [recordSample], [], rfl, List.nodup_nil⟩
    have hsolid : ¬ isBlank [97, c, 98] = true := by
      intro hblank
      have hspace := isBlank_iff.mp hblank 97 List.mem_cons_self
      exact absurd hspace (by decide)
    exact (Bool.not_eq_true _).mp hsolid
  nodup := List.nodup_singleton _

/-- A record with a reference and a context. -/
def contextSample : QueryRecord := ⟨lit "r", lit "why", some (lit "so"), [(Uuid.ofNat 7).str]⟩

/-- A text of it. -/
def contextTextSample : Text :=
  lit "\x7b\"query_id\":\"r\",\"question\":\"why\",\"reference\": \"so\",\"reference_context_ids\":[\"" ++
    ((Uuid.ofNat 7).str ++ lit "\"]\x7d")

theorem contextText_sample : RecordText WholeFloat contextTextSample contextSample := by
  have hempty : Spaces [] := by simp [Spaces]
  have hspace : Spaces (lit " ") := List.forall_mem_singleton.mpr (by decide)
  have hbody {t : Text} (h : (t.all fun c => decide (c.val ≠ 34 ∧ c.val ≠ 92 ∧ 32 ≤ c.val)) = true) : StringBody t t :=
    stringBody_plain (by simpa using h)
  have hid : StringBody (Uuid.ofNat 7).str (Uuid.ofNat 7).str := hbody (by decide +kernel)
  have hcontexts := Reads.arr (F := WholeFloat) hempty (Reads.last (Reads.str hid) hempty)
  have hfourth := Reads.lastMember (hbody (t := lit "reference_context_ids") (by decide)) hempty hempty hcontexts hempty
  have hthird := Reads.member (hbody (t := lit "reference") (by decide)) hempty hspace
    (Reads.str (hbody (t := lit "so") (by decide))) hempty hempty hfourth
  have hsecond := Reads.member (hbody (t := lit "question") (by decide)) hempty hempty
    (Reads.str (hbody (t := lit "why") (by decide))) hempty hempty hthird
  have hreads := (Reads.obj hempty (Reads.member (hbody (t := lit "query_id") (by decide)) hempty hempty
    (Reads.str (hbody (t := lit "r") (by decide))) hempty hempty hsecond)).jsonText
  refine ⟨⟨_, hreads, by decide, by decide, rfl, rfl, rfl, .inl rfl⟩, ?_⟩
  have hline : contextTextSample.all (fun c => decide (c.val ≠ 10 ∧ c.val ≠ 13)) = true := by decide +kernel
  simpa using hline

theorem contextSample_valid : contextSample.Valid where
  stripped := by decide
  queryId := by decide
  question := by decide
  reference t ht := by
    cases ht
    decide
  canonical := ⟨[Uuid.ofNat 7], rfl, List.nodup_singleton _⟩

/-- A question of letters and a record with a reference and a context are read. -/
theorem readsExactly_letters :
    DatasetTexts WholeFloat [recordTextSample 99, contextTextSample] [recordSample 99, contextSample] ∧
      ReadsExactly WholeFloat [recordTextSample 99, contextTextSample] [recordSample 99, contextSample] := by
  have hone : DatasetTexts WholeFloat [recordTextSample 99] [recordSample 99] :=
    datasetTexts_sample (by decide) (by decide) (by decide)
  have htexts : DatasetTexts WholeFloat [recordTextSample 99, contextTextSample] [recordSample 99, contextSample] := by
    refine ⟨.cons (recordText_sample (by decide) (by decide) (by decide)) (.cons contextText_sample .nil),
      List.cons_ne_nil _ _, fun r hr => ?_, by decide⟩
    rcases List.mem_cons.mp hr with rfl | hr
    · exact hone.valid _ List.mem_cons_self
    · rw [List.mem_singleton.mp hr]
      exact contextSample_valid
  have hplain : ([recordTextSample 99, contextTextSample].all fun t =>
      t.all fun c => decide (c.val ≠ 133 ∧ c.val ≠ 8232 ∧ c.val ≠ 8233)) = true := by
    decide +kernel
  refine ⟨htexts, (readsExactly_iff WholeFloat htexts).mpr fun t ht c hc => ?_⟩
  exact of_decide_eq_true (List.all_eq_true.mp (List.all_eq_true.mp hplain t ht) c hc)

/-- A question with a line separator makes a dataset, and its file is refused. -/
theorem readsExactly_lineSeparator :
    DatasetTexts WholeFloat [recordTextSample 8232] [recordSample 8232] ∧
      jsonlQueries WholeFloat (join [10] [recordTextSample 8232]) =
        .error (e2eDiagnosticError "Query dataset line 1 is invalid JSON") ∧
      ¬ ReadsExactly WholeFloat [recordTextSample 8232] [recordSample 8232] := by
  have hread : jsonlQueries WholeFloat (join [10] [recordTextSample 8232]) =
      .error (e2eDiagnosticError "Query dataset line 1 is invalid JSON") := by
    decide +kernel
  refine ⟨datasetTexts_sample (by decide) (by decide) (by decide), hread, fun hexact => ?_⟩
  rw [ReadsExactly, hread] at hexact
  cases hexact.1

end E2EDiagnostic

end TenantRag

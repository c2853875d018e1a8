import TenantRag.Foundations.JsonOpening
import TenantRag.Foundations.PyError
import TenantRag.Foundations.Result

/-!
# The rewrite of a question by Granite

`parse_granite_rewrite` in `backend/providers/granite_query_rewriter.py` and the check of
`GraniteQueryRewriteConfig` in `backend/model_config.py`: the model continues a prefill that has opened
the string of the rewritten question, and what it wrote is read strictly or repaired.

## The model

`str.isalnum` is a table of which only one thing is used: white space is not alphanumeric. A candidate
that `json.loads` refuses and one that is not the object expected are skipped alike, as the two
`except` clauses do. Recursion depth is left out.

## What is proved

* `exactOf_iff` — which texts a candidate is read as a rewrite of.
* `PrefillOpens` — an accepted prefill opens the string, over members of the same name.
* `parseGraniteRewrite_roundTrip` — each spelling of a rewrite is read, the complete one strictly.
* `strictIsExact_iff` — strict acceptance is exact but where the member is stated more than once.
-/

namespace TenantRag

namespace Granite

open Json

/-- `str.isalnum` on single characters. -/
structure AlnumTable where
  /-- `c.isalnum()`. -/
  isAlnum : PyChar → Bool
  /-- White space is not alphanumeric. -/
  space : ∀ c, isSpace c = true → isAlnum c = false

/-- `GraniteRewriteFormatError(message)`, a `RuntimeError`. -/
def graniteRewriteFormatError (message : String) : PyError := runtimeError message

/-- `t.rstrip()`. -/
def rstrip (t : Text) : Text := t.rdropWhile isSpace

/-- `"rewritten_question"`. -/
def rewrittenQuestion : Text := lit "rewritten_question"

/-! ### The configuration -/

/-- The fields of `GraniteQueryRewriteConfig` that are checked. -/
structure GraniteQueryRewriteConfig where
  /-- `model_path`. -/
  modelPath : Text
  /-- `device`. -/
  device : Text
  /-- `dtype`. -/
  dtype : Text
  /-- `max_input_tokens`. -/
  maxInputTokens : ℤ
  /-- `max_new_tokens`. -/
  maxNewTokens : ℤ
  /-- `response_prefill`. -/
  responsePrefill : Text

section Parsing

variable (F : Type) [PyFloat F]

/-- `scaffold != {"rewritten_question": ""}`, negated. -/
def isScaffold (scaffold : Json F) : Bool :=
  match scaffold with
  | .obj [(key, .str t)] => key = rewrittenQuestion && t.isEmpty
  | _ => false

/-- `__post_init__`. -/
def GraniteQueryRewriteConfig.postInit (cfg : GraniteQueryRewriteConfig) : Except PyError Unit :=
  if (strip cfg.modelPath).isEmpty then .error (valueError "Granite model_path must not be empty")
  else if cfg.device ≠ lit "cuda" then
    .error (valueError "Granite Transformers rollback supports only the cuda device")
  else if cfg.dtype ≠ lit "float16" then .error (valueError "Granite query rewriting supports only float16")
  else if min cfg.maxInputTokens cfg.maxNewTokens ≤ 0 then
    .error (valueError "Granite token limits must be greater than zero")
  else
    match (loads (cfg.responsePrefill ++ [34, 125]) : Option (Json F)) with
    | none => .error (valueError "Granite response_prefill must open the rewritten_question JSON string")
    | some scaffold =>
        if !isScaffold F scaffold then
          .error (valueError "Granite response_prefill must open only the rewritten_question JSON string")
        else .ok ()

variable (T : AlnumTable)

/-- `set(value) != {"rewritten_question"}`, negated. -/
def hasExactKey (fields : List (Text × Json F)) : Bool :=
  fields.any (fun f => f.1 = rewrittenQuestion) && fields.all fun f => f.1 = rewrittenQuestion

/-- `_exact_rewritten_question(value)`. -/
def exactRewrittenQuestion (value : Json F) : Except PyError Text :=
  match value with
  | .obj fields =>
      if !hasExactKey F fields then .error (valueError "response must contain exactly rewritten_question")
      else
        match get? fields rewrittenQuestion with
        | some (.str rewritten) =>
            if (strip rewritten).isEmpty ∨ !rewritten.any T.isAlnum then
              .error (valueError "rewritten_question must be a nonempty string")
            else .ok (strip rewritten)
        | _ => .error (valueError "rewritten_question must be a nonempty string")
  | _ => .error (valueError "response must contain exactly rewritten_question")

/-- The rewrite of a candidate, if it parses and is the object expected. -/
def exactOf (candidate : Text) : Option Text :=
  match (loads candidate : Option (Json F)) with
  | none => none
  | some value => (exactRewrittenQuestion F T value).toOption

/-- The three candidates of a repair. -/
def repairInputs (responsePrefill continuation : Text) : List Text :=
  let stripped := rstrip continuation
  [continuation, responsePrefill ++ (stripped ++ [34, 125]), responsePrefill ++ (stripped ++ [125])]

/-- `parse_granite_rewrite(response_prefill, continuation)`. -/
def parseGraniteRewrite (responsePrefill continuation : Text) : Except PyError (Text × Bool) :=
  let fullOutput := responsePrefill ++ continuation
  match exactOf F T fullOutput with
  | some rewritten => .ok (rewritten, true)
  | none =>
      let repaired := ((repairInputs responsePrefill continuation).filterMap (exactOf F T)).dedup
      match repaired with
      | [rewritten] => .ok (rewritten, false)
      | _ =>
          .error (graniteRewriteFormatError
            "Granite rewrite did not satisfy the strict or repairable JSON contract")

/-! ### Candidates -/

/-- `text` is a JSON text of an object that states the rewritten question, last with the value `v`, and no other
member; `v` has an alphanumeric character. -/
def States (text v : Text) : Prop :=
  v.any T.isAlnum = true ∧ ∃ front : List (Text × Json F),
    JsonText text (.obj (front ++ [(rewrittenQuestion, .str v)])) ∧ ∀ m ∈ front, m.1 = rewrittenQuestion

variable {F T}

/-- A text with an alphanumeric character is not blank. -/
theorem AlnumTable.strip_ne_nil {v : Text} (h : v.any T.isAlnum = true) : strip v ≠ [] := by
  intro hblank
  obtain ⟨c, hc, halnum⟩ := List.any_eq_true.mp h
  rw [T.space c (strip_eq_nil_iff.mp hblank c hc)] at halnum
  cases halnum

/-- Stripping leaves the alphanumeric characters. -/
theorem AlnumTable.any_strip (v : Text) : (strip v).any T.isAlnum = v.any T.isAlnum := by
  obtain ⟨x, y, hx, hy, hv⟩ := strip_split v
  have hnone {w : Text} (hw : isBlank w = true) : w.any T.isAlnum = false := by
    rw [List.any_eq_false]
    intro c hc
    rw [T.space c (isBlank_iff.mp hw c hc)]
    decide
  calc (strip v).any T.isAlnum = (x ++ (strip v ++ y)).any T.isAlnum := by
        rw [List.any_append, List.any_append, hnone hx, hnone hy, Bool.false_or, Bool.or_false]
    _ = v.any T.isAlnum := by rw [← hv]

theorem loads_dict {t : Text} {fields : List (Text × Json F)} (h : loads t = some (.obj fields)) : ∃ ms, fields = dictOf ms := by
  obtain ⟨raw, -, hraw⟩ := loads_iff.mp h
  obtain ⟨ms, ms', -, -, hdict⟩ := hooked_obj hraw
  exact ⟨ms', (Json.obj.inj (Except.ok.inj hdict)).symm⟩

omit [PyFloat F] in
/-- A dictionary with one key has one item. -/
theorem dict_of_exactKey {ms : List (Text × Json F)} (h : hasExactKey F (dictOf ms) = true) :
    ∃ v, dictOf ms = [(rewrittenQuestion, v)] := by
  rw [hasExactKey, Bool.and_eq_true, List.all_eq_true] at h
  have hkeys : ∀ m ∈ ms, m.1 = rewrittenQuestion := by
    intro m hm
    obtain ⟨f, hf, hsame⟩ := List.mem_map.mp (mem_dictOf hm)
    rw [← hsame]
    simpa using h.2 f hf
  rcases List.eq_nil_or_concat ms with rfl | ⟨front, m, rfl⟩
  · cases h.1
  · rw [List.concat_eq_append] at hkeys ⊢
    obtain ⟨hfront, hm⟩ := List.forall_mem_append.mp hkeys
    have hkey : m = (rewrittenQuestion, m.2) := Prod.ext (hm m (List.mem_singleton_self m)) rfl
    exact ⟨m.2, by rw [hkey, dictOf_same hfront]⟩

/-- Which texts a candidate is read as a rewrite of. -/
theorem exactOf_iff {text t : Text} : exactOf F T text = some t ↔ ∃ v, States F T text v ∧ t = strip v := by
  rw [exactOf]
  constructor
  · intro h
    cases hloads : (loads text : Option (Json F)) with
    | none =>
      rw [hloads] at h
      cases h
    | some value =>
      rw [hloads] at h
      dsimp only at h
      rw [toOption_eq_some_iff] at h
      cases value with
      | obj fields =>
        obtain ⟨ms, rfl⟩ := loads_dict hloads
        rw [exactRewrittenQuestion] at h
        by_cases hkey : hasExactKey F (dictOf ms) = true
        case neg =>
          rw [if_pos (by simpa using hkey)] at h
          cases h
        obtain ⟨v, hdict⟩ := dict_of_exactKey hkey
        rw [hkey, if_neg (by decide), hdict, get?, List.lookup_cons_self] at h
        cases v with
        | str v =>
          dsimp only at h
          split_ifs at h with hbad
          rw [not_or, Bool.not_eq_true', Bool.not_eq_false] at hbad
          rw [hdict] at hloads
          exact ⟨v, ⟨hbad.2, loads_single_iff.mp hloads⟩, (Except.ok.inj h).symm⟩
        | _ => cases h
      | _ =>
        rw [exactRewrittenQuestion] at h
        · cases h
        · simp
  · rintro ⟨v, ⟨halnum, hstates⟩, rfl⟩
    have hkey : hasExactKey F [(rewrittenQuestion, (.str v : Json F))] = true := by simp [hasExactKey]
    have hgood : ¬ ((strip v).isEmpty = true ∨ (!v.any T.isAlnum) = true) := by
      rw [not_or, List.isEmpty_iff, halnum]
      exact ⟨T.strip_ne_nil halnum, by decide⟩
    rw [loads_single_iff.mpr hstates]
    dsimp only
    rw [exactRewrittenQuestion, hkey, if_neg (by decide), get?, List.lookup_cons_self]
    dsimp only
    rw [if_neg hgood]
    rfl

end Parsing

/-! ### Accepted prefills -/

section Prefill

variable {F : Type} [PyFloat F]

/-- An accepted prefill opens the string of the rewritten question, over members of the same name. -/
theorem prefillOpens {cfg : GraniteQueryRewriteConfig} (h : cfg.postInit F = .ok ()) :
    ∃ front : List (Text × Json F), OpensObject cfg.responsePrefill front rewrittenQuestion ∧
      ∀ m ∈ front, m.1 = rewrittenQuestion := by
  rw [GraniteQueryRewriteConfig.postInit] at h
  split_ifs at h
  cases hloads : (loads (cfg.responsePrefill ++ [34, 125]) : Option (Json F)) with
  | none =>
    rw [hloads] at h
    cases h
  | some scaffold =>
    rw [hloads] at h
    dsimp only at h
    split_ifs at h with hscaffold
    rw [Bool.not_eq_true', Bool.not_eq_false] at hscaffold
    obtain rfl : scaffold = .obj [(rewrittenQuestion, .str [])] := by
      unfold isScaffold at hscaffold
      split at hscaffold
      · rw [Bool.and_eq_true, decide_eq_true_eq, List.isEmpty_iff] at hscaffold
        rw [hscaffold.1, hscaffold.2]
      · cases hscaffold
    obtain ⟨front, htext, hfront⟩ := loads_single_iff.mp hloads
    exact ⟨front, opensObject_of_jsonText htext, hfront⟩

variable {T : AlnumTable} {p : Text} {front : List (Text × Json F)}

/-- The rest of the string, its quote and a brace state the rewrite. -/
theorem states_close (h : OpensObject p front rewrittenQuestion) (hfront : ∀ m ∈ front, m.1 = rewrittenQuestion)
    {e q w : Text} (he : StringBody e q) (hq : q.any T.isAlnum = true) (hw : Spaces w) :
    exactOf F T (p ++ (e ++ 34 :: 125 :: w)) = some (strip q) := by
  have hempty : Spaces [] := by simp [Spaces]
  exact exactOf_iff.mpr ⟨q, ⟨hq, front, h.close he hempty hw, hfront⟩, rfl⟩

/-- What does not go on as a string does states nothing. -/
theorem exactOf_of_not_ends (h : OpensObject p front rewrittenQuestion) {x : Text} (hx : ¬ StringEnds x) :
    exactOf F T (p ++ x) = none := by
  by_contra hsome
  obtain ⟨t, ht⟩ := Option.ne_none_iff_exists'.mp hsome
  obtain ⟨v, ⟨-, front', htext, -⟩, -⟩ := exactOf_iff.mp ht
  exact hx (h.continue_begins htext)

/-- A string that is not closed. -/
theorem not_ends_open {e q : Text} (he : StringBody e q) : ¬ StringEnds e := by
  rintro ⟨e', q', w, d, r, heq, he', -⟩
  exact he.no_quote he' _ heq

/-- A string behind whose quote something else than a brace or a comma comes. -/
theorem not_ends_quote {e q r : Text} (he : StringBody e q) (hr : ∀ c ∈ (skipSpace r).head?, c ≠ 125 ∧ c ≠ 44) :
    ¬ StringEnds (e ++ 34 :: r) := by
  rintro ⟨e', q', w, d, r', heq, he', hw, hd⟩
  obtain ⟨-, -, rfl⟩ := he.unique he' heq
  have hsolid : isJsonSpace d = false := by rcases hd with rfl | rfl <;> decide
  have hnot := hr d (by rw [hw.skip_cons hsolid]; rfl)
  rcases hd with rfl | rfl
  · exact hnot.1 rfl
  · exact hnot.2 rfl

/-- A brace behind an open string closes nothing. -/
theorem not_ends_brace {e q : Text} (he : StringBody e q) : ¬ StringEnds (e ++ [125]) := by
  rintro ⟨e', q', w, d, r, heq, he', -⟩
  rcases List.eq_nil_or_concat (w ++ d :: r) with hnil | ⟨r', c, hlast⟩
  · simp at hnil
  · rw [hlast, List.concat_eq_append, ← List.cons_append, ← List.append_assoc] at heq
    obtain ⟨rfl, -⟩ := List.append_inj' heq rfl
    exact he.no_quote he' r' rfl

/-- What is between the quotes of a string states nothing by itself. -/
theorem exactOf_body {e q : Text} (he : StringBody e q) (r : Text) (hr : r = [] ∨ r = [34]) : exactOf F T (e ++ r) = none := by
  by_contra hsome
  obtain ⟨t, ht⟩ := Option.ne_none_iff_exists'.mp hsome
  obtain ⟨v, ⟨-, front', ⟨w, s, w', hw, hw', heq, hs⟩, -⟩, -⟩ := exactOf_iff.mp ht
  rcases hs.obj_cases with ⟨-, -, -, hempty⟩ | ⟨w₁, S, hw₁, rfl, hS⟩
  · simp at hempty
  have heq : e ++ r = (w ++ 123 :: w₁) ++ 34 :: (S ++ w') := by simpa using heq
  -- up to the quote of the first name, every character stands for itself
  have hvisible : ∀ c ∈ e ++ r, 32 ≤ c.val := by
    refine List.forall_mem_append.mpr ⟨he.visible, ?_⟩
    rcases hr with rfl | rfl
    · simp
    · intro c hc
      rw [List.mem_singleton.mp hc]
      decide
  have hspace {c : PyChar} (hc : isJsonSpace c = true) : c.val ≠ 34 ∧ c.val ≠ 92 := by
    simp only [isJsonSpace, Bool.or_eq_true, decide_eq_true_eq] at hc
    omega
  have hplain : StringBody (w ++ 123 :: w₁) (w ++ 123 :: w₁) := by
    refine stringBody_plain fun c hc => ?_
    have h32 : 32 ≤ c.val := hvisible c (by rw [heq]; exact List.mem_append_left _ hc)
    rcases List.mem_append.mp hc with hc | hc
    · exact ⟨(hspace (hw c hc)).1, (hspace (hw c hc)).2, h32⟩
    · rcases List.mem_cons.mp hc with rfl | hc
      · decide
      · exact ⟨(hspace (hw₁ c hc)).1, (hspace (hw₁ c hc)).2, h32⟩
  rcases hr with rfl | rfl
  · rw [List.append_nil] at heq
    exact he.no_quote hplain _ heq
  · obtain ⟨-, -, hnil⟩ := he.unique hplain heq
    obtain ⟨cs, c, hends, -⟩ := hS.shape.1
    rw [hends] at hnil
    simp at hnil

end Prefill

/-! ### Strict acceptance -/

section Strict

variable (F : Type) [PyFloat F] (T : AlnumTable)

/-- Strict acceptance of this output is exact: it is accepted strictly exactly if it is a JSON text of an object with one
member, the rewritten question, a string with an alphanumeric character, and as that string, stripped. -/
def StrictIsExact (responsePrefill continuation : Text) : Prop :=
  ∀ t, parseGraniteRewrite F T responsePrefill continuation = .ok (t, true) ↔
    ∃ v, JsonText (responsePrefill ++ continuation) (.obj [(rewrittenQuestion, (.str v : Json F))]) ∧
      v.any T.isAlnum = true ∧ t = strip v

/-- The output is a JSON text of an object that states the rewritten question more than once, and no other member; the
last value is a string with an alphanumeric character. -/
def Restates (output : Text) : Prop :=
  ∃ (front : List (Text × Json F)) (v : Text), JsonText output (.obj (front ++ [(rewrittenQuestion, (.str v : Json F))])) ∧
    front ≠ [] ∧ (∀ m ∈ front, m.1 = rewrittenQuestion) ∧ v.any T.isAlnum = true

variable {F T}

/-- What is accepted strictly is what the whole output states. -/
theorem parse_strict_iff {p c t : Text} : parseGraniteRewrite F T p c = .ok (t, true) ↔ exactOf F T (p ++ c) = some t := by
  rw [parseGraniteRewrite]
  cases hfull : exactOf F T (p ++ c) with
  | some t' => simp
  | none =>
    dsimp only
    split <;> simp

/-- Strict acceptance is exact but where the output states the member more than once. -/
theorem strictIsExact_iff (p c : Text) : StrictIsExact F T p c ↔ ¬ Restates F T (p ++ c) := by
  constructor
  · rintro hexact ⟨front, v, htext, hne, hfront, halnum⟩
    have haccepted := parse_strict_iff.mpr (exactOf_iff.mpr ⟨v, ⟨halnum, front, htext, hfront⟩, rfl⟩)
    obtain ⟨v', htext', -, -⟩ := (hexact (strip v)).mp haccepted
    have hlength := congrArg List.length (Json.obj.inj (htext.unique htext'))
    rw [List.length_append, List.length_singleton, List.length_singleton] at hlength
    exact hne (List.length_eq_zero_iff.mp (by omega))
  · intro hnot t
    rw [parse_strict_iff, exactOf_iff]
    constructor
    · rintro ⟨v, ⟨halnum, front, htext, hfront⟩, rfl⟩
      obtain rfl : front = [] := by
        by_contra hne
        exact hnot ⟨front, v, htext, hne, hfront, halnum⟩
      exact ⟨v, htext, halnum, rfl⟩
    · rintro ⟨v, htext, halnum, rfl⟩
      exact ⟨v, ⟨halnum, [], htext, by simp⟩, rfl⟩

end Strict

/-! ### Repairs -/

section Repair

variable {F : Type} [PyFloat F] {T : AlnumTable}

theorem rstrip_split (t : Text) : ∃ w, (∀ c ∈ w, isSpace c = true) ∧ t = rstrip t ++ w := by
  refine ⟨t.rtakeWhile isSpace, fun c hc => List.mem_rtakeWhile_imp hc, ?_⟩
  rw [rstrip, List.rdropWhile_append_rtakeWhile]

theorem rstrip_concat {t : Text} {c : PyChar} (h : isSpace c = false) : rstrip (t ++ [c]) = t ++ [c] := by
  rw [rstrip, List.rdropWhile_concat_neg _ _ _ (by simp [h])]

/-- Stripping does not cut an escape: what is left of a string between its quotes stands for the string without the white
space at its end. -/
theorem rstrip_body {e q : Text} (he : StringBody e q) :
    ∃ q', StringBody (rstrip e) q' ∧ strip q' = strip q ∧ (q.any T.isAlnum = true → q'.any T.isAlnum = true) := by
  obtain ⟨w, hw, hsplit⟩ := rstrip_split e
  rw [hsplit] at he
  obtain ⟨q', rfl, hbody⟩ := he.cut hw
  have hstrip : strip (q' ++ w) = strip q' := strip_append_right (isBlank_iff.mpr hw)
  refine ⟨q', hbody, hstrip.symm, fun halnum => ?_⟩
  rw [← T.any_strip, ← hstrip, T.any_strip]
  exact halnum

/-- What is returned of a repair is one of the candidates' rewrites. -/
theorem exactOf_of_parse {p c t : Text} {strict : Bool} (h : parseGraniteRewrite F T p c = .ok (t, strict)) :
    ∃ candidate, exactOf F T candidate = some t := by
  rw [parseGraniteRewrite] at h
  cases hfull : exactOf F T (p ++ c) with
  | some t' =>
    rw [hfull] at h
    obtain ⟨rfl, -⟩ := Prod.mk.inj (Except.ok.inj h)
    exact ⟨_, hfull⟩
  | none =>
    rw [hfull] at h
    dsimp only at h
    split at h
    · rename_i t' hone
      obtain ⟨rfl, -⟩ := Prod.mk.inj (Except.ok.inj h)
      have hmem : t' ∈ ((repairInputs p c).filterMap (exactOf F T)).dedup := by
        rw [hone]
        exact List.mem_singleton_self t'
      obtain ⟨candidate, -, hcandidate⟩ := List.mem_filterMap.mp (List.mem_dedup.mp hmem)
      exact ⟨candidate, hcandidate⟩
    · cases h

/-- A repair with one rewrite. -/
theorem parse_repair {p c t : Text} (hfull : exactOf F T (p ++ c) = none)
    (hrepair : (repairInputs p c).filterMap (exactOf F T) = [t]) : parseGraniteRewrite F T p c = .ok (t, false) := by
  rw [parseGraniteRewrite, hfull]
  dsimp only
  rw [hrepair, (List.nodup_singleton t).dedup]

end Repair

/-! ### Spellings of a rewrite -/

section Spellings

variable {F : Type} [PyFloat F] {T : AlnumTable} {p e q : Text} {front : List (Text × Json F)}

/-- The closed string and brace are accepted strictly. -/
theorem parse_complete (h : OpensObject p front rewrittenQuestion) (hfront : ∀ m ∈ front, m.1 = rewrittenQuestion)
    (he : StringBody e q) (hq : q.any T.isAlnum = true) {w : Text} (hw : Spaces w) :
    parseGraniteRewrite F T p (e ++ 34 :: 125 :: w) = .ok (strip q, true) :=
  parse_strict_iff.mpr (states_close h hfront he hq hw)

/-- The string alone is closed with its brace. -/
theorem parse_open (h : OpensObject p front rewrittenQuestion) (hfront : ∀ m ∈ front, m.1 = rewrittenQuestion)
    (he : StringBody e q) (hq : q.any T.isAlnum = true) : parseGraniteRewrite F T p e = .ok (strip q, false) := by
  obtain ⟨q', hbody, hstrip, halnum⟩ := rstrip_body (T := T) he
  have hempty : Spaces [] := by simp [Spaces]
  have hcontinuation : exactOf F T e = none := by
    have hnone := exactOf_body (F := F) (T := T) he [] (.inl rfl)
    rwa [List.append_nil] at hnone
  have hclosed : exactOf F T (p ++ (rstrip e ++ [34, 125])) = some (strip q) := by
    rw [← hstrip]
    exact states_close h hfront hbody (halnum hq) hempty
  have hbrace : exactOf F T (p ++ (rstrip e ++ [125])) = none := exactOf_of_not_ends h (not_ends_brace hbody)
  apply parse_repair
  · exact exactOf_of_not_ends h (not_ends_open he)
  · simp only [repairInputs, List.filterMap_cons, hcontinuation, hclosed, hbrace, List.filterMap_nil]

/-- The closed string is given its brace. -/
theorem parse_quoted (h : OpensObject p front rewrittenQuestion) (hfront : ∀ m ∈ front, m.1 = rewrittenQuestion)
    (he : StringBody e q) (hq : q.any T.isAlnum = true) : parseGraniteRewrite F T p (e ++ [34]) = .ok (strip q, false) := by
  have hempty : Spaces [] := by simp [Spaces]
  have hrstrip : rstrip (e ++ [34]) = e ++ [34] := rstrip_concat (by decide)
  have hcontinuation : exactOf F T (e ++ [34]) = none := exactOf_body he [34] (.inr rfl)
  have hclosed : exactOf F T (p ++ (e ++ [34] ++ [34, 125])) = none := by
    have hassoc : e ++ [34] ++ [34, 125] = e ++ 34 :: [34, 125] := by simp
    rw [hassoc]
    exact exactOf_of_not_ends h (not_ends_quote he (by rintro c ⟨⟩; decide))
  have hbrace : exactOf F T (p ++ (e ++ [34] ++ [125])) = some (strip q) := by
    have hassoc : e ++ [34] ++ [125] = e ++ 34 :: 125 :: [] := by simp
    rw [hassoc]
    exact states_close h hfront he hq hempty
  apply parse_repair
  · exact exactOf_of_not_ends h (not_ends_quote he (by simp [skipSpace]))
  · simp only [repairInputs, hrstrip, List.filterMap_cons, hcontinuation, hclosed, hbrace, List.filterMap_nil]

/-- The compact JSON text of the object, with `e` between the quotes of its value. -/
def compactObject (e : Text) : Text := 123 :: 34 :: (rewrittenQuestion ++ 34 :: 58 :: 34 :: (e ++ [34, 125]))

theorem rewrittenQuestion_body : StringBody rewrittenQuestion rewrittenQuestion := by
  have hall : (rewrittenQuestion.all fun c => decide (c.val ≠ 34 ∧ c.val ≠ 92 ∧ 32 ≤ c.val)) = true := by decide
  exact stringBody_plain (by simpa using hall)

theorem compactObject_reads (he : StringBody e q) :
    JsonText (compactObject e) (.obj [(rewrittenQuestion, (.str q : Json F))]) := by
  have hempty : Spaces [] := by simp [Spaces]
  have hmember := Reads.lastMember rewrittenQuestion_body hempty hempty (Reads.str (F := F) he) hempty
  have hobject := (Reads.obj hempty hmember).jsonText
  simpa [compactObject] using hobject

/-- The complete object repeated is read by itself. -/
theorem parse_repeated (h : OpensObject p front rewrittenQuestion) (he : StringBody e q) (hq : q.any T.isAlnum = true) :
    parseGraniteRewrite F T p (compactObject e) = .ok (strip q, false) := by
  have hbrace : StringBody [123] [123] := .plain (by decide) (by decide) (by decide) .nil
  -- the string that is open would end at the quote of the name
  have hends (r : Text) : exactOf F T (p ++ (compactObject e ++ r)) = none := by
    have hassoc : compactObject e ++ r =
        [123] ++ 34 :: (rewrittenQuestion ++ (34 :: 58 :: 34 :: (e ++ [34, 125]) ++ r)) := by
      simp [compactObject]
    rw [hassoc]
    refine exactOf_of_not_ends h (not_ends_quote hbrace ?_)
    rintro c ⟨⟩
    decide
  have hrstrip : rstrip (compactObject e) = compactObject e := by
    have hlast : compactObject e = (123 :: 34 :: (rewrittenQuestion ++ 34 :: 58 :: 34 :: (e ++ [34]))) ++ [125] := by
      simp [compactObject]
    rw [hlast]
    exact rstrip_concat (by decide)
  have hcontinuation : exactOf F T (compactObject e) = some (strip q) :=
    exactOf_iff.mpr ⟨q, ⟨hq, [], compactObject_reads he, by simp⟩, rfl⟩
  apply parse_repair
  · have hfull := hends []
    rwa [List.append_nil] at hfull
  · simp only [repairInputs, hrstrip, List.filterMap_cons, hcontinuation, hends, List.filterMap_nil]

end Spellings

section RoundTrip

variable (F : Type) [PyFloat F] (T : AlnumTable)

/-- Behind every accepted prefill a rewrite `q` with an alphanumeric character is read, stripped: strictly where its string
and the object are closed, and as a repair where the brace is missing, or the quote as well, or where the complete object is
repeated. Whatever is returned for any output is stripped, not blank, and has an alphanumeric character. -/
theorem parseGraniteRewrite_roundTrip :
    (∀ cfg : GraniteQueryRewriteConfig, cfg.postInit F = .ok () →
      ∀ e q, StringBody e q → q.any T.isAlnum = true →
        (∀ w, Spaces w →
          parseGraniteRewrite F T cfg.responsePrefill (e ++ 34 :: 125 :: w) = .ok (strip q, true)) ∧
        parseGraniteRewrite F T cfg.responsePrefill e = .ok (strip q, false) ∧
        parseGraniteRewrite F T cfg.responsePrefill (e ++ [34]) = .ok (strip q, false) ∧
        parseGraniteRewrite F T cfg.responsePrefill (compactObject e) = .ok (strip q, false)) ∧
      ∀ p c t strict, parseGraniteRewrite F T p c = .ok (t, strict) →
        isBlank t = false ∧ strip t = t ∧ t.any T.isAlnum = true := by
  constructor
  · intro cfg hcfg e q he hq
    obtain ⟨front, hopens, hfront⟩ := prefillOpens hcfg
    refine ⟨fun w hw => parse_complete hopens hfront he hq hw, parse_open hopens hfront he hq, ?_, ?_⟩
    · exact parse_quoted hopens hfront he hq
    · exact parse_repeated hopens he hq
  · intro p c t strict h
    obtain ⟨candidate, hcandidate⟩ := exactOf_of_parse h
    obtain ⟨v, ⟨halnum, -⟩, rfl⟩ := exactOf_iff.mp hcandidate
    refine ⟨?_, strip_strip v, by rw [T.any_strip, halnum]⟩
    rw [isBlank, strip_strip, List.isEmpty_eq_false_iff]
    exact T.strip_ne_nil halnum

end RoundTrip

/-- Letters and digits of ASCII. -/
def asciiAlnum : AlnumTable where
  isAlnum c := (48 ≤ c.val && c.val ≤ 57) || (65 ≤ c.val && c.val ≤ 90) || (97 ≤ c.val && c.val ≤ 122)
  space c hc := by
    simp only [isSpace, Bool.or_eq_true, Bool.and_eq_true, decide_eq_true_eq, beq_iff_eq] at hc
    simp only [Bool.or_eq_false_iff, Bool.and_eq_false_iff, decide_eq_false_iff_not]
    omega

/-- A configuration that is accepted, with the prefill in use. -/
def configSample : GraniteQueryRewriteConfig where
  modelPath := lit "models/granite"
  device := lit "cuda"
  dtype := lit "float16"
  maxInputTokens := 4096
  maxNewTokens := 128
  responsePrefill := lit "\x7b\"rewritten_question\":\""

theorem configSample_accepted : configSample.postInit WholeFloat = .ok () := by
  decide +kernel

/-- A rewrite with a quote, a brace and white space at its end, read from each spelling. -/
theorem parseGraniteRewrite_roundTrip_sample :
    parseGraniteRewrite WholeFloat asciiAlnum configSample.responsePrefill (lit "a\\\"\x7d \"\x7d \n") =
        .ok (lit "a\"\x7d", true) ∧
      parseGraniteRewrite WholeFloat asciiAlnum configSample.responsePrefill (lit "a\\\"\x7d ") = .ok (lit "a\"\x7d", false) := by
  have hbody : StringBody (lit "a\\\"\x7d ") (lit "a\"\x7d ") :=
    .plain (by decide) (by decide) (by decide) (.short (by decide) (by decide)
      (.plain (by decide) (by decide) (by decide) (.plain (by decide) (by decide) (by decide) .nil)))
  have hspaces : Spaces (lit " \n") := by
    have hall : (lit " \n").all isJsonSpace = true := by decide
    intro c hc
    exact List.all_eq_true.mp hall c hc
  obtain ⟨hcomplete, hopen, -, -⟩ := (parseGraniteRewrite_roundTrip WholeFloat asciiAlnum).1 configSample
    configSample_accepted _ _ hbody (by decide)
  exact ⟨hcomplete _ hspaces, hopen⟩

/-- An output that states two rewrites is accepted strictly, with the second one. -/
theorem strictIsExact_restated :
    configSample.postInit WholeFloat = .ok () ∧
      parseGraniteRewrite WholeFloat asciiAlnum configSample.responsePrefill (lit "a\",\"rewritten_question\":\"b\"\x7d") =
        .ok (lit "b", true) ∧
      ¬ StrictIsExact WholeFloat asciiAlnum configSample.responsePrefill (lit "a\",\"rewritten_question\":\"b\"\x7d") := by
  have haccepted : parseGraniteRewrite WholeFloat asciiAlnum configSample.responsePrefill
      (lit "a\",\"rewritten_question\":\"b\"\x7d") = .ok (lit "b", true) := by
    decide +kernel
  refine ⟨configSample_accepted, haccepted, fun hexact => ?_⟩
  obtain ⟨v, htext, -, -⟩ := (hexact (lit "b")).mp haccepted
  -- a hook that takes objects of one member only would accept the text
  have hone : loadsWith (fun ms : List (Text × Json WholeFloat) => if ms.length = 1 then .ok (.obj ms) else .error ())
      (configSample.responsePrefill ++ lit "a\",\"rewritten_question\":\"b\"\x7d") = .ok (.obj [(rewrittenQuestion, .str v)]) :=
    loadsWith_ok_iff.mpr ⟨_, htext, rfl⟩
  have hnone : (loadsWith (fun ms : List (Text × Json WholeFloat) => if ms.length = 1 then .ok (.obj ms) else .error ())
      (configSample.responsePrefill ++ lit "a\",\"rewritten_question\":\"b\"\x7d")).toOption.isNone = true := by
    decide +kernel
  rw [hone] at hnone
  cases hnone

end Granite

end TenantRag

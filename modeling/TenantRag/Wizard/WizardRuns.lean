import Mathlib.Logic.Function.Basic
import TenantRag.Wizard.Crud

/-!
# Runs of the wizards

The wizards of one user and collection type over any number of calls that create, save and
delete them: `backend/wizard/crud.py` and `save_wizard`.

## The model

Each call has its own providers, and its own failing calls. A run goes on for as long as the calls return, or
say that their compensation was complete; the identifiers that a provider draws belong to no other
document. Above it stands what the wizards are for: a text for each document.

## What is proved

* `Sound.run` — every call that returns or was compensated leaves every document consistent or absent.
* `run_refines` — over any run, what the document map says of a document is its text after the calls that
  returned, and a call that was compensated is no step.
* `stored_eq_drafts` — over any run, the text that the store has of a document is the one the map has.
-/

namespace TenantRag.Save

open ChunkStore (Keyed)

variable {K : Type}

/-! ### Calls -/

/-- A call of one of the three functions. -/
inductive Request (K : Type) where
  /-- `create_wizard(user_id, collection_type)`. -/
  | create (rt : Runtime K)
  /-- `save_wizard(user_id, document_id, collection_type, current_text, modified_paragraph_ids)`. -/
  | save (rt : Runtime K) (documentId currentText : Text) (modifiedParagraphIds : Option (List ℤ))
  /-- `delete_wizard(user_id, document_id, collection_type)`. -/
  | delete (rt : Runtime K) (documentId : Text)

/-- The creation notes an exception of its cleanup. -/
def CreateError.unresolved (e : CreateError) : Bool := e.notes ≠ []

/-- The call: it answers the identifier of a new document, and raises whether its compensation had exceptions. -/
def Request.run [DecidableEq K] : Request K → Eff (World K) Bool (Option Text)
  | .create rt => some <$> .mapError CreateError.unresolved (createWizard rt)
  | .save rt documentId currentText modifiedParagraphIds => do
      .mapError SaveError.unresolved (saveWizard rt documentId currentText modifiedParagraphIds)
      pure none
  | .delete rt documentId => do
      .mapError DeleteError.unresolved (deleteWizard rt documentId)
      pure none

/-- The providers answer no identifier under which another document has a record. -/
def Request.Fresh (w : World K) : Request K → Prop
  | .save rt documentId _ _ => ∀ document, requiredUuid documentId "document_id" = .ok document →
      FreshIds rt w.outside.chunks document
  | _ => True

/-- The world of a user without wizards. -/
def World.empty : World K := ⟨⟨.empty⟩, .empty, ⟨.empty, 0, []⟩, ⟨"", [], [], [], []⟩⟩

/-- A run of calls that return, or say that their compensation was complete: those that returned, with their answers,
and the world they lead to. -/
inductive Run [DecidableEq K] : List (Request K × Option Text) → World K → Prop where
  | empty : Run [] .empty
  | returned {calls : List (Request K × Option Text)} {w w' : World K} {r : Request K} {answer : Option Text} (hw : Run calls w)
      (hfresh : r.Fresh w) (h : r.run w = .ok answer w') : Run (calls ++ [(r, answer)]) w'
  | compensated {calls : List (Request K × Option Text)} {w w' : World K} {r : Request K} (hw : Run calls w)
      (hfresh : r.Fresh w) (h : r.run w = .error false w') : Run calls w'

/-! ### What the wizards are for -/

/-- A text for each document that there is. -/
abbrev Drafts : Type := Uuid → Option Text

/-- What a call that returns does to the texts. -/
inductive Drafts.Step (before : Drafts) : Request K → Option Text → Drafts → Prop where
  /-- A new document is empty. -/
  | create {rt : Runtime K} {document : Uuid} (hnew : before document = none) :
      Step before (.create rt) (some document.str) (Function.update before document (some []))
  /-- A document that there is gets its new text. -/
  | save {rt : Runtime K} {documentId currentText old : Text} {modifiedParagraphIds : Option (List ℤ)} {document : Uuid}
      (hid : requiredUuid documentId "document_id" = .ok document) (hold : before document = some old) :
      Step before (.save rt documentId currentText modifiedParagraphIds) none
        (Function.update before document (some currentText))
  /-- A document that there is goes. -/
  | delete {rt : Runtime K} {documentId old : Text} {document : Uuid}
      (hid : requiredUuid documentId "document_id" = .ok document) (hold : before document = some old) :
      Step before (.delete rt documentId) none (Function.update before document none)

/-- A run of calls that return. -/
inductive Drafts.Run : List (Request K × Option Text) → Drafts → Prop where
  | empty : Run [] fun _ => none
  | step {calls : List (Request K × Option Text)} {before after : Drafts} {r : Request K} {answer : Option Text}
      (h : Run calls before) (hs : Drafts.Step before r answer after) : Run (calls ++ [(r, answer)]) after

/-- The texts of the document map. -/
def World.drafts (w : World K) : Drafts := fun document => (w.documents.documents.get? document).map fun data => data.values.flatten

/-- The texts of the store, in the order of the paragraph map. -/
def World.stored (w : World K) : Drafts := fun document =>
  if w.paragraphs.documentKeys document = [] then none
  else some ((w.paragraphs.documentChunks document).values.map (storedText w.outside.chunks)).flatten

/-! ### Sound worlds -/

variable {w w' : World K}

theorem sound_empty : Sound (World.empty : World K) := by
  refine ⟨fun id r hr => (by cases hr), fun document => .inl ⟨rfl, fun n => rfl, fun id r hr => by cases hr⟩⟩

/-- A document that is left alone keeps its text. -/
theorem drafts_congr {document : Uuid} (h : SameDocument document w w') : w'.drafts document = w.drafts document := by
  rw [World.drafts, World.drafts, h.documents]

theorem drafts_congr_all (h : ∀ d, SameDocument d w w') : w'.drafts = w.drafts := funext fun d => drafts_congr (h d)

/-- Where every other document is left alone, the texts differ in the one. -/
theorem drafts_update {document : Uuid} (text : Option Text) (htext : w'.drafts document = text)
    (hothers : ∀ other, other ≠ document → SameDocument other w w') :
    w'.drafts = Function.update w.drafts document text := by
  funext other
  by_cases hother : other = document
  · rw [hother, Function.update_self, htext]
  · rw [Function.update_of_ne hother, drafts_congr (hothers other hother)]

/-- What the map says of a document is what is stored of it. -/
theorem Sound.stored_eq_drafts (h : Sound w) : w.stored = w.drafts := by
  funext document
  have hkeys : w.paragraphs.documentKeys document = [] ↔ ∀ n, w.paragraphs.paragraphs.get? (document, n) = none := by
    rw [ParagraphMap.documentKeys, List.filter_eq_nil_iff]
    constructor
    · intro hnone n
      rw [Dict.get?_eq_none_iff]
      intro hmem
      exact hnone _ hmem (by simp)
    · rintro hnone ⟨d, n⟩ hmem hd
      rw [decide_eq_true_eq] at hd
      subst hd
      exact (Dict.get?_eq_none_iff.mp (hnone n)) hmem
  rw [World.stored, World.drafts]
  obtain habsent | ⟨data, chunks, hconsistent⟩ := h.documents document
  · rw [if_pos (hkeys.mpr habsent.paragraphs), habsent.documents]
    rfl
  · have hne : ¬ ∀ n, w.paragraphs.paragraphs.get? (document, n) = none := by
      intro hnone
      obtain ⟨n, hn⟩ := List.exists_mem_of_ne_nil _ hconsistent.ne_nil
      rw [← hconsistent.same] at hn
      obtain ⟨cs, hcs⟩ := Dict.mem_keys_iff.mp hn
      rw [← hconsistent.get?_paragraphs, hnone] at hcs
      cases hcs
    rw [if_neg fun hnil => hne (hkeys.mp hnil), hconsistent.documentChunks, hconsistent.saved, Option.map_some]
    exact congrArg (fun texts => some texts.flatten) (Dict.values_eq_map hconsistent.same hconsistent.texts).symm

/-! ### Steps -/

theorem Still.unchanged (hs : Still w w') (h : Sound w) : Keyed w'.outside.chunks ∧ ∀ d, SameDocument d w w' :=
  ⟨hs.chunks ▸ h.keyed, hs.same_document⟩

/-- A document that the document map answers is consistent. -/
theorem Sound.found (h : Sound w) {documentId : Text} {data : Dict ℕ Text}
    (hdata : w.documents.getParagraphData documentId = .ok data) :
    ∃ document chunks, requiredUuid documentId "document_id" = .ok document ∧ Consistent w document data chunks := by
  simp only [DocumentMap.getParagraphData, bind, Except.bind] at hdata
  cases hid : requiredUuid documentId "document_id" with
  | error e =>
    rw [hid] at hdata
    cases hdata
  | ok document =>
    rw [hid] at hdata
    dsimp only at hdata
    cases hsaved : w.documents.documents.get? document with
    | none =>
      rw [hsaved] at hdata
      cases hdata
    | some data' =>
      rw [hsaved] at hdata
      cases hdata
      obtain habsent | ⟨data', chunks, hconsistent⟩ := h.documents document
      · rw [habsent.documents] at hsaved
        cases hsaved
      · have hsame := hconsistent.saved
        rw [hsaved] at hsame
        cases hsame
        exact ⟨document, chunks, rfl, hconsistent⟩

theorem Consistent.drafts {document : Uuid} {data : Dict ℕ Text} {chunks : Dict ℕ (List Uuid)}
    (h : Consistent w document data chunks) : w.drafts document = some data.values.flatten := by
  rw [World.drafts, h.saved, Option.map_some]

variable [DecidableEq K]

/-- What a call that ends has done to a sound world: where it returns, a step of the texts to a sound world, and where it
was compensated, nothing. -/
def Kept (w : World K) (r : Request K) (m : Eff (World K) Bool (Option Text)) : Prop :=
  Eff.wp m (fun answer w' => Sound w' ∧ Drafts.Step w.drafts r answer w'.drafts)
    (fun unresolved w' => unresolved = false → Keyed w'.outside.chunks ∧ ∀ d, SameDocument d w w') w

theorem Sound.run_create (h : Sound w) (rt : Runtime K) : Kept w (.create rt) (Request.run (.create rt)) := by
  rw [Kept, Request.run, Eff.wp_map, Eff.wp_mapError]
  refine Eff.wp_mono (wp_createWizard h) (fun documentId w' hw' => ?_) fun e w' hw' hresolved => ?_
  · obtain ⟨document, rfl, hcreated⟩ := hw'
    refine ⟨h.changed hcreated.keyed (.inr ⟨_, _, hcreated.consistent⟩) hcreated.others, ?_⟩
    rw [drafts_update (some []) ?_ hcreated.others]
    · exact .create (by rw [World.drafts, hcreated.absent.documents]; rfl)
    · rw [World.drafts, hcreated.consistent.saved]
      rfl
  · exact hw' (by simpa [CreateError.unresolved] using hresolved)

theorem Sound.run_save (h : Sound w) {rt : Runtime K} {documentId currentText : Text} {modifiedParagraphIds : Option (List ℤ)}
    (hfresh : (Request.save rt documentId currentText modifiedParagraphIds).Fresh w) :
    Kept w (.save rt documentId currentText modifiedParagraphIds) (Request.run (.save rt documentId currentText modifiedParagraphIds)) := by
  rw [Kept, Request.run, Eff.wp_bind, Eff.wp_mapError]
  cases hdata : w.documents.getParagraphData documentId with
  | error e =>
    exact Eff.wp_mono (still_saveWizard_of_missing hdata) (fun _ _ hfalse => hfalse.elim) fun _ w' hs _ => hs.2.unchanged h
  | ok data =>
    obtain ⟨document, chunks, hid, hconsistent⟩ := h.found hdata
    refine Eff.wp_mono (wp_saveWizard_saved hconsistent h.keyed (hfresh document hid) hid) (fun _ w' hsaved => ?_)
      fun e w' hs hresolved => hs hresolved
    obtain ⟨data', chunks', hconsistent', htext, -⟩ := hsaved.consistent
    refine ⟨h.changed hsaved.keyed (.inr ⟨_, _, hconsistent'⟩) hsaved.others, ?_⟩
    rw [drafts_update (some currentText) (hconsistent'.drafts.trans (congrArg some htext)) hsaved.others]
    exact .save hid hconsistent.drafts

theorem Sound.run_delete (h : Sound w) (rt : Runtime K) (documentId : Text) :
    Kept w (.delete rt documentId) (Request.run (.delete rt documentId)) := by
  rw [Kept, Request.run, Eff.wp_bind, Eff.wp_mapError]
  cases hdata : w.documents.getParagraphData documentId with
  | error e =>
    exact Eff.wp_mono (still_deleteWizard_of_missing hdata) (fun _ _ hfalse => hfalse.elim) fun _ w' hs _ => hs.2.unchanged h
  | ok data =>
    obtain ⟨document, chunks, hid, hconsistent⟩ := h.found hdata
    refine Eff.wp_mono (wp_deleteWizard hconsistent h.keyed hid) (fun _ w' hw' => ?_)
      fun e w' hs hresolved => hs hresolved
    obtain ⟨hkeyed, habsent, hothers⟩ := hw'
    refine ⟨h.changed hkeyed (.inl habsent) hothers, ?_⟩
    rw [drafts_update none (by rw [World.drafts, habsent.documents]; rfl) hothers]
    exact .delete hid hconsistent.drafts

/-- A call to a sound world that returns has done its step of the texts, and one that was compensated has left every
document alone. -/
theorem Sound.run (h : Sound w) {r : Request K} (hfresh : r.Fresh w) : Kept w r r.run := by
  cases r with
  | create rt => exact h.run_create rt
  | save rt documentId currentText modifiedParagraphIds => exact h.run_save hfresh
  | delete rt documentId => exact h.run_delete rt documentId

theorem Sound.compensated (h : Sound w) {r : Request K} (hfresh : r.Fresh w) (hr : r.run w = .error false w') :
    Keyed w'.outside.chunks ∧ ∀ d, SameDocument d w w' :=
  Eff.wp_error (h.run hfresh) hr rfl

/-! ### Runs -/

section Runs

variable {calls : List (Request K × Option Text)}

/-- Over any run, every document is consistent or absent. -/
theorem Run.sound (hrun : Run calls w) : Sound w := by
  induction hrun with
  | empty => exact sound_empty
  | returned hw hfresh h ih => exact (Eff.wp_ok (ih.run hfresh) h).1
  | compensated hw hfresh h ih =>
    obtain ⟨hkeyed, hsame⟩ := ih.compensated hfresh h
    exact ih.same_documents hkeyed hsame

/-- Over any run, the texts of the document map are those that the calls that returned lead to. -/
theorem Run.drafts (hrun : Run calls w) : Drafts.Run calls w.drafts := by
  induction hrun with
  | empty => exact .empty
  | returned hw hfresh h ih => exact .step ih (Eff.wp_ok (hw.sound.run hfresh) h).2
  | compensated hw hfresh h ih =>
    rw [drafts_congr_all (hw.sound.compensated hfresh h).2]
    exact ih

end Runs

/-! ### A run -/

/-- Providers that never fail, where "CD" is inserted into the empty text. -/
def runSample : Runtime ℤ := { runtimeSample with getOpcodes := fun _ _ => [⟨.insert, 0, 0, 0, 2⟩] }

/-- The providers of a deletion whose commit of the document map raises, with its change made. -/
def failingDelete : Runtime ℤ := { runSample with faults := fun n => if n = 21 then failingSample.faults 15 else none }

/-- The answer of a call, or what it raises, with the world it ends in. -/
def ended {α ε : Type} : EStateM.Result ε (World ℤ) α → (α ⊕ ε) × World ℤ
  | .ok a w => (.inl a, w)
  | .error e w => (.inr e, w)

theorem eq_ok_of_ended {α ε : Type} {r : EStateM.Result ε (World ℤ) α} {a : α} (h : (ended r).1 = .inl a) :
    r = .ok a (ended r).2 := by
  cases r with
  | ok b w =>
    cases h
    rfl
  | error e w => cases h

theorem eq_error_of_ended {α ε : Type} {r : EStateM.Result ε (World ℤ) α} {e : ε} (h : (ended r).1 = .inr e) :
    r = .error e (ended r).2 := by
  cases r with
  | ok b w => cases h
  | error e' w =>
    cases h
    rfl

/-- A call that returns is a function that does. -/
theorem returns_of_run {ε : Type} {f : ε → Bool} {m : Eff (World ℤ) ε Unit} {w w' : World ℤ} {answer : Option Text}
    (h : (Eff.mapError f m >>= fun _ => pure answer) w = .ok answer w') : m w = .ok () w' := by
  have hm : Eff.wp m (fun _ t => t = w') (fun _ _ => False) w := by
    have hrun : Eff.wp (Eff.mapError f m >>= fun _ => pure answer) (fun _ t => t = w') (fun _ _ => False) w := by
      rw [Eff.wp, h]
    rwa [Eff.wp_bind, Eff.wp_mapError] at hrun
  obtain ⟨u, t, ht, rfl⟩ := Eff.wp_returns hm
  exact ht

/-- The call that creates. -/
def createSample : Request ℤ := .create runSample

/-- The call that saves "CD". -/
def saveSample : Request ℤ := .save runSample (uuidSample 0).str (lit "CD") none

/-- The world with the document created. -/
def worldCreated : World ℤ := (ended (createSample.run .empty)).2

/-- The world with "CD" saved. -/
def worldSaved : World ℤ := (ended (saveSample.run worldCreated)).2

theorem run_created : Run [(createSample, some (uuidSample 0).str)] worldCreated :=
  .returned .empty trivial (eq_ok_of_ended (show _ = Sum.inl (some (uuidSample 0).str) by decide +kernel))

theorem fresh_created : saveSample.Fresh worldCreated := by
  have hchunks : worldCreated.outside.chunks = .empty := by decide +kernel
  intro document _ id _ r hr
  rw [hchunks] at hr
  cases hr

theorem saveSample_returns : saveSample.run worldCreated = .ok none worldSaved :=
  eq_ok_of_ended (show _ = Sum.inl none by decide +kernel)

theorem run_saved : Run [(createSample, some (uuidSample 0).str), (saveSample, none)] worldSaved :=
  .returned run_created fresh_created saveSample_returns

/-- Over any run, the texts of the document map are those that the calls that returned lead to, and what is stored of
each document is its text. -/
theorem run_refines (calls : List (Request K × Option Text)) (w : World K) (hrun : Run calls w) :
    Drafts.Run calls w.drafts ∧ w.stored = w.drafts :=
  ⟨hrun.drafts, hrun.sound.stored_eq_drafts⟩

theorem run_refines_sample : worldSaved.drafts (uuidSample 0) = some (lit "CD") ∧
    Drafts.Run [(createSample, some (uuidSample 0).str), (saveSample, none)] worldSaved.drafts ∧
      worldSaved.stored = worldSaved.drafts :=
  ⟨by decide +kernel, run_refines _ worldSaved run_saved⟩

/-- Over any run, a save that returns has left its document consistent, with the text asked for; the paragraphs outside of
its unions keep their texts, lists and records, and the other documents everything. -/
theorem run_saves (calls : List (Request K × Option Text)) (w w' : World K) (rt : Runtime K) (documentId currentText : Text)
    (modifiedParagraphIds : Option (List ℤ)) (hrun : Run calls w)
    (hfresh : (Request.save rt documentId currentText modifiedParagraphIds).Fresh w)
    (h : saveWizard rt documentId currentText modifiedParagraphIds w = .ok () w') :
    ∃ document data chunks, requiredUuid documentId "document_id" = .ok document ∧ Consistent w document data chunks ∧
      SavedAs rt w w' document data chunks currentText modifiedParagraphIds := by
  cases hdata : w.documents.getParagraphData documentId with
  | error e => exact (Eff.wp_ok (still_saveWizard_of_missing hdata) h).elim
  | ok data =>
    obtain ⟨document, chunks, hid, hconsistent⟩ := hrun.sound.found hdata
    refine ⟨document, data, chunks, hid, hconsistent, ?_⟩
    exact Eff.wp_ok (wp_saveWizard_saved hconsistent hrun.sound.keyed (hfresh document hid) hid) h

theorem run_saves_sample :
    ∃ document data chunks, requiredUuid (uuidSample 0).str "document_id" = .ok document ∧
      Consistent worldCreated document data chunks ∧
        SavedAs runSample worldCreated worldSaved document data chunks (lit "CD") none :=
  run_saves _ worldCreated worldSaved runSample (uuidSample 0).str (lit "CD") none run_created fresh_created
    (returns_of_run saveSample_returns)

/-- Over any run, a deletion that returns has removed its document from the store and both maps, and nothing else. -/
theorem run_deletes (calls : List (Request K × Option Text)) (w w' : World K) (rt : Runtime K) (documentId : Text)
    (hrun : Run calls w) (h : deleteWizard rt documentId w = .ok () w') :
    ∃ document data chunks, requiredUuid documentId "document_id" = .ok document ∧ Consistent w document data chunks ∧
      Absent w' document ∧ ∀ other, other ≠ document → SameDocument other w w' := by
  cases hdata : w.documents.getParagraphData documentId with
  | error e => exact (Eff.wp_ok (still_deleteWizard_of_missing hdata) h).elim
  | ok data =>
    obtain ⟨document, chunks, hid, hconsistent⟩ := hrun.sound.found hdata
    refine ⟨document, data, chunks, hid, hconsistent, ?_⟩
    exact (Eff.wp_ok (wp_deleteWizard hconsistent hrun.sound.keyed hid) h).2

theorem run_deletes_sample :
    ∃ w document data chunks, deleteWizard runSample (uuidSample 0).str worldSaved = .ok () w ∧
      requiredUuid (uuidSample 0).str "document_id" = .ok document ∧ Consistent worldSaved document data chunks ∧
        Absent w document ∧ ∀ other, other ≠ document → SameDocument other worldSaved w := by
  have hrun := returns_of_run (eq_ok_of_ended
    (show (ended ((Request.delete runSample (uuidSample 0).str).run worldSaved)).1 = .inl none by decide +kernel))
  obtain ⟨document, data, chunks, hdeleted⟩ := run_deletes _ worldSaved _ runSample (uuidSample 0).str run_saved hrun
  exact ⟨_, document, data, chunks, hrun, hdeleted⟩

/-- Over any run, a call that raises, and whose compensation had no exceptions, has left the texts, the lists and the
records of every document as they were. -/
theorem run_compensated (calls : List (Request K × Option Text)) (w w' : World K) (r : Request K) (hrun : Run calls w)
    (hfresh : r.Fresh w) (h : r.run w = .error false w') (document : Uuid) : SameDocument document w w' :=
  (hrun.sound.compensated hfresh h).2 document

theorem run_compensated_sample :
    ∃ w, (Request.delete failingDelete (uuidSample 0).str).run worldSaved = .error false w ∧
      ∀ document, SameDocument document worldSaved w := by
  have hrun : (Request.delete failingDelete (uuidSample 0).str).run worldSaved =
      .error false (ended ((Request.delete failingDelete (uuidSample 0).str).run worldSaved)).2 :=
    eq_error_of_ended (by decide +kernel)
  exact ⟨_, hrun, run_compensated _ worldSaved _ (.delete failingDelete (uuidSample 0).str) run_saved trivial hrun⟩

end TenantRag.Save

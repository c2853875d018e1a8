import TenantRag.Scripts.VectorManifest

/-!
# Runs of a migration

Attempts to rebuild the collections of a manifest, one after another, each of which may end
at any storage call, before or after the call did what it was to do.

## The model

* `Maintenance.after` — what attempts leave, whether they completed or not.
* `Recreated` — a moment at which all collections of the manifest are as they were created,
  each of them after it had been deleted.
* `Safe` — what holds between and within attempts.

## What is proved

* `Safe.stored`, `Safe.readCall`, `Safe.writeCall` — what storage calls keep.
* `wp_markRebuilding`, `wp_recreateAll`, `wp_markReady` — what the loops of a rebuild do.
* `wp_preflight`, `wp_rebuildCollections`, `wp_verifyCollections`, `wp_exportCollections` — what the commands do.
* `migration_restart_safe` — what holds after any attempts from an export that succeeded.
-/

namespace TenantRag

namespace VectorMigration

variable {F : Type} [PyFloat F] {S : Settings} {entries : List ManifestEntry}

/-! ### Moments -/

/-- The collection of an entry is marked as ready. -/
def IsReady (S : Settings) (s : Storage) (e : ManifestEntry) : Prop :=
  ∃ c, s.get? e.name = some c ∧ c.config.description = some (collectionDescription S true)

/-- All collections of the manifest that there are are marked as being rebuilt. -/
def AllMarked (S : Settings) (entries : List ManifestEntry) (s : Storage) : Prop :=
  ∀ e ∈ entries, ∀ c, s.get? e.name = some c → c.config.description = some (collectionDescription S false)

/-- At the `k`-th moment all collections of the manifest are as they were created, empty and with the new vectors, and
each of them was missing at a moment before. -/
def Recreated (S : Settings) (entries : List ManifestEntry) (history : List Storage) (k : ℕ) : Prop :=
  ∃ s, history[k]? = some s ∧ ∀ e ∈ entries, s.get? e.name = some (createdCollection S e.name e.collectionType) ∧
    ∃ i ≤ k, ∃ s', history[i]? = some s' ∧ s'.get? e.name = none

theorem description_ne (S : Settings) : collectionDescription S true ≠ collectionDescription S false := by
  intro h
  have hstate := List.append_cancel_left (List.append_cancel_left (List.append_cancel_left h))
  exact absurd hstate (by decide)

theorem IsReady.not_allMarked {s : Storage} {e : ManifestEntry} (he : e ∈ entries) (h : IsReady S s e) :
    ¬ AllMarked S entries s := by
  intro hall
  obtain ⟨c, hc, hready⟩ := h
  rw [hall e he c hc] at hready
  exact description_ne S (Option.some.inj hready).symm

theorem getElem?_concat_cases {α : Type} {l : List α} {x y : α} {i : ℕ} (h : (l ++ [x])[i]? = some y) :
    i < l.length ∧ l[i]? = some y ∨ i = l.length ∧ y = x := by
  rw [List.getElem?_append] at h
  split_ifs at h with hi
  · exact .inl ⟨hi, h⟩
  · rw [List.getElem?_singleton] at h
    split_ifs at h with hzero
    exact .inr ⟨by omega, (Option.some.inj h).symm⟩

theorem getElem?_concat_of_some {α : Type} {l : List α} {x y : α} {i : ℕ} (h : l[i]? = some y) : (l ++ [x])[i]? = some y := by
  obtain ⟨hi, -⟩ := List.getElem?_eq_some_iff.mp h
  rw [List.getElem?_append_left hi, h]

theorem Recreated.concat {history : List Storage} {k : ℕ} (h : Recreated S entries history k) (s : Storage) :
    Recreated S entries (history ++ [s]) k := by
  obtain ⟨t, ht, hall⟩ := h
  refine ⟨t, getElem?_concat_of_some ht, fun e he => ?_⟩
  obtain ⟨hcreated, i, hi, s', hs', hnone⟩ := hall e he
  exact ⟨hcreated, i, hi, s', getElem?_concat_of_some hs', hnone⟩

/-! ### What holds all along -/

/-- What holds between and within attempts: the manifest is the one that was written, no name is decoded that it does not
name, and its collections are empty and have schemas that pass. No collection that has objects was changed, and from
a moment at which all collections are marked, none is ready before all are recreated. -/
structure Safe (S : Settings) (entries : List ManifestEntry) (bytes : List ℕ) (w : Maintenance) : Prop where
  manifest : w.manifest = some bytes
  last : ∃ past, w.history = past ++ [w.storage]
  names : ∀ name ∈ w.storage.keys, name ∉ entries.map ManifestEntry.name → decodedCollection S.pattern name = .ok none
  empty : ∀ e ∈ entries, ∀ c, w.storage.get? e.name = some c →
    c.count = 0 ∧ validateSourceSchema c.config e.name e.collectionType = .ok ()
  kept : ∀ (i : ℕ) (s t : Storage), w.history[i]? = some s → w.history[i + 1]? = some t →
    ∀ name c, s.get? name = some c → c.count ≠ 0 → t.get? name = some c
  ready : ∀ (i j : ℕ) (s t : Storage), i ≤ j → w.history[i]? = some s → w.history[j]? = some t → AllMarked S entries s →
    (∃ e ∈ entries, IsReady S t e) → ∃ k, i ≤ k ∧ k ≤ j ∧ Recreated S entries w.history k

variable {bytes : List ℕ} {w : Maintenance}

theorem Safe.withFates (h : Safe S entries bytes w) (fates : List Fate) : Safe S entries bytes { w with fates := fates } :=
  ⟨h.manifest, h.last, h.names, h.empty, h.kept, h.ready⟩

theorem Safe.present (h : Safe S entries bytes w) : w.history[w.history.length - 1]? = some w.storage := by
  obtain ⟨past, hpast⟩ := h.last
  rw [hpast]
  simp

/-- What a storage call that writes keeps: it loses no objects, and where something is ready then, all was recreated
since every moment at which all was marked. -/
theorem Safe.stored (h : Safe S entries bytes w) {s' : Storage}
    (hnames : ∀ name ∈ s'.keys, name ∉ entries.map ManifestEntry.name → decodedCollection S.pattern name = .ok none)
    (hempty : ∀ e ∈ entries, ∀ c, s'.get? e.name = some c →
      c.count = 0 ∧ validateSourceSchema c.config e.name e.collectionType = .ok ())
    (hkept : ∀ name c, w.storage.get? name = some c → c.count ≠ 0 → s'.get? name = some c)
    (hready : ∀ e ∈ entries, IsReady S s' e → ∀ (i : ℕ) (s : Storage), w.history[i]? = some s → AllMarked S entries s →
      ∃ k, i ≤ k ∧ k ≤ w.history.length ∧ Recreated S entries w.history k) :
    Safe S entries bytes (w.stored s') := by
  refine ⟨h.manifest, ⟨w.history, rfl⟩, hnames, hempty, fun i s t hs ht => ?_, fun i j s t hij hs ht hmarked hsome => ?_⟩
  · obtain ⟨hi, hs'⟩ | ⟨rfl, rfl⟩ := getElem?_concat_cases hs
    · obtain ⟨-, ht⟩ | ⟨hlast, rfl⟩ := getElem?_concat_cases ht
      · exact h.kept i s t hs' ht
      · have hpresent := h.present
        rw [← hlast, Nat.add_sub_cancel, hs'] at hpresent
        rw [Option.some.inj hpresent]
        exact hkept
    · obtain ⟨hlt, -⟩ | ⟨hlast, -⟩ := getElem?_concat_cases ht
      · omega
      · omega
  · obtain ⟨hj, ht⟩ | ⟨rfl, rfl⟩ := getElem?_concat_cases ht
    · obtain ⟨-, hs⟩ | ⟨rfl, -⟩ := getElem?_concat_cases hs
      · obtain ⟨k, hik, hkj, hk⟩ := h.ready i j s t hij hs ht hmarked hsome
        exact ⟨k, hik, hkj, hk.concat s'⟩
      · omega
    · obtain ⟨e, he, hisReady⟩ := hsome
      obtain ⟨-, hs⟩ | ⟨-, rfl⟩ := getElem?_concat_cases hs
      · obtain ⟨k, hik, hkj, hk⟩ := hready e he hisReady i s hs hmarked
        exact ⟨k, hik, hkj, hk.concat t⟩
      · exact absurd hmarked (hisReady.not_allMarked he)

/-- Where nothing becomes ready, nothing has to be recreated. -/
theorem Safe.ready_present (h : Safe S entries bytes w) {e : ManifestEntry} (he : e ∈ entries) (hready : IsReady S w.storage e)
    {i : ℕ} {s : Storage} (hs : w.history[i]? = some s) (hmarked : AllMarked S entries s) :
    ∃ k, i ≤ k ∧ k ≤ w.history.length ∧ Recreated S entries w.history k := by
  obtain ⟨hi, -⟩ := List.getElem?_eq_some_iff.mp hs
  obtain ⟨k, hik, hk, hrecreated⟩ := h.ready i _ s _ (by omega) hs h.present hmarked ⟨e, he, hready⟩
  exact ⟨k, hik, by omega, hrecreated⟩

theorem eq_of_name {e e' : ManifestEntry} (hnodup : (entries.map ManifestEntry.name).Nodup) (he : e ∈ entries)
    (he' : e' ∈ entries) (h : e.name = e'.name) : e = e' := List.inj_on_of_nodup_map hnodup he he' h

/-- A collection of the manifest is marked. -/
theorem Safe.described (h : Safe S entries bytes w) (hnodup : (entries.map ManifestEntry.name).Nodup) {e : ManifestEntry}
    (he : e ∈ entries) {c : StoredCollection} (hc : w.storage.get? e.name = some c) (description : Text)
    (hready : description = collectionDescription S true → ∀ (i : ℕ) (s : Storage), w.history[i]? = some s →
      AllMarked S entries s → ∃ k, i ≤ k ∧ k ≤ w.history.length ∧ Recreated S entries w.history k) :
    Safe S entries bytes (w.stored (w.storage.set e.name (c.described description))) := by
  apply h.stored
  · intro name hname hnot
    rw [Dict.keys_set_of_mem _ (Dict.mem_keys_iff.mpr ⟨c, hc⟩)] at hname
    exact h.names name hname hnot
  · intro e' he' d hd
    rw [Dict.get?_set] at hd
    split_ifs at hd with hname
    · obtain rfl := eq_of_name hnodup he he' hname
      cases hd
      exact h.empty e he c hc
    · exact h.empty e' he' d hd
  · intro name d hd hcount
    rw [Dict.get?_set, if_neg, hd]
    rintro rfl
    rw [hc] at hd
    cases hd
    exact hcount (h.empty e he c hc).1
  · rintro e' he' ⟨d, hd, hdescription⟩ i s hs hmarked
    rw [Dict.get?_set] at hd
    split_ifs at hd with hname
    · cases hd
      exact hready (Option.some.inj hdescription) i s hs hmarked
    · exact h.ready_present he' ⟨d, hd, hdescription⟩ hs hmarked

/-- A collection of the manifest is deleted. -/
theorem Safe.erased (h : Safe S entries bytes w) {e : ManifestEntry} (he : e ∈ entries) :
    Safe S entries bytes (w.stored (w.storage.erase e.name)) := by
  apply h.stored
  · intro name hname hnot
    exact h.names name (Dict.mem_keys_erase.mp hname).2 hnot
  · intro e' he' d hd
    rw [Dict.get?_erase] at hd
    split_ifs at hd
    exact h.empty e' he' d hd
  · intro name d hd hcount
    rw [Dict.get?_erase, if_neg, hd]
    rintro rfl
    exact hcount (h.empty e he d hd).1
  · rintro e' he' ⟨d, hd, hdescription⟩ i s hs hmarked
    rw [Dict.get?_erase] at hd
    split_ifs at hd
    exact h.ready_present he' ⟨d, hd, hdescription⟩ hs hmarked

/-- A collection of the manifest is created. -/
theorem Safe.created (h : Safe S entries bytes w) (hnodup : (entries.map ManifestEntry.name).Nodup) {e : ManifestEntry}
    (he : e ∈ entries) (hnone : w.storage.get? e.name = none) :
    Safe S entries bytes (w.stored (w.storage.set e.name (createdCollection S e.name e.collectionType))) := by
  apply h.stored
  · intro name hname hnot
    obtain rfl | hname := Dict.mem_keys_set.mp hname
    · exact absurd (List.mem_map_of_mem he) hnot
    · exact h.names name hname hnot
  · intro e' he' d hd
    rw [Dict.get?_set] at hd
    split_ifs at hd with hname
    · obtain rfl := eq_of_name hnodup he he' hname
      cases hd
      exact ⟨rfl, validateSourceSchema_created S e.name e.collectionType⟩
    · exact h.empty e' he' d hd
  · intro name d hd hcount
    rw [Dict.get?_set, if_neg, hd]
    rintro rfl
    rw [hnone] at hd
    cases hd
  · rintro e' he' ⟨d, hd, hdescription⟩ i s hs hmarked
    rw [Dict.get?_set] at hd
    split_ifs at hd with hname
    · cases hd
      exact absurd (Option.some.inj ((S.created_description e.name e.collectionType).symm.trans hdescription)).symm (description_ne S)
    · exact h.ready_present he' ⟨d, hd, hdescription⟩ hs hmarked

/-! ### Storage calls -/

/-- Storage calls that are not answered need `A`. -/
def Calm (A : Prop) (w : Maintenance) : Prop := ∀ fate ∈ w.fates, fate ≠ .answered → A

/-- The same state, but for what storage calls will meet. -/
def SameBut (A : Prop) (w t : Maintenance) : Prop :=
  ∃ fates : List Fate, Calm A { w with fates := fates } ∧ t = { w with fates := fates }

/-- The script was ended by a storage call. -/
def Ended (S : Settings) (entries : List ManifestEntry) (bytes : List ℕ) (A : Prop) (e : PyError) (t : Maintenance) : Prop :=
  e = stopped ∧ A ∧ Safe S entries bytes t

section Calls

variable {A : Prop} {t u : Maintenance}

theorem SameBut.refl (hcalm : Calm A w) : SameBut A w w := ⟨w.fates, hcalm, rfl⟩

theorem SameBut.trans (h : SameBut A w t) (h' : SameBut A t u) : SameBut A w u := by
  obtain ⟨_, _, rfl⟩ := h
  obtain ⟨fates, hfates, rfl⟩ := h'
  exact ⟨fates, hfates, rfl⟩

theorem SameBut.safe (h : SameBut A w t) (hw : Safe S entries bytes w) : Safe S entries bytes t := by
  obtain ⟨fates, -, rfl⟩ := h
  exact hw.withFates fates

theorem SameBut.calm (h : SameBut A w t) : Calm A t := by
  obtain ⟨fates, hfates, rfl⟩ := h
  exact hfates

theorem SameBut.manifest (h : SameBut A w t) : t.manifest = w.manifest := by
  obtain ⟨fates, -, rfl⟩ := h
  rfl

theorem SameBut.storage (h : SameBut A w t) : t.storage = w.storage := by
  obtain ⟨fates, -, rfl⟩ := h
  rfl

theorem SameBut.history (h : SameBut A w t) : t.history = w.history := by
  obtain ⟨fates, -, rfl⟩ := h
  rfl

/-- A call that is answered goes on in the same state; another one needs `A`. -/
theorem wp_nextFate {Q : Fate → Maintenance → Prop} {E : PyError → Maintenance → Prop} (hcalm : Calm A w)
    (hanswered : ∀ t, SameBut A w t → Q .answered t) (hended : A → ∀ fate, fate ≠ .answered → ∀ t, SameBut A w t → Q fate t) :
    Eff.wp nextFate Q E w := by
  rw [nextFate, Eff.wp_bind, Eff.wp_read]
  cases hfates : w.fates with
  | nil => exact hanswered w (.refl hcalm)
  | cons fate rest =>
    have hrest : SameBut A w { w with fates := rest } :=
      ⟨rest, fun fate' hfate' => hcalm fate' (hfates ▸ List.mem_cons_of_mem fate hfate'), rfl⟩
    by_cases hfate : fate = .answered
    · rw [hfate]
      exact hanswered _ hrest
    · exact hended (hcalm fate (hfates ▸ List.mem_cons_self) hfate) fate hfate _ hrest

/-- A call that reads leaves the state as it is. -/
theorem wp_readCall {α : Type} {f : Storage → Except PyError α} {Q : α → Maintenance → Prop}
    {E : PyError → Maintenance → Prop} (hcalm : Calm A w)
    (hQ : ∀ a, f w.storage = .ok a → ∀ t, SameBut A w t → Q a t)
    (hE : ∀ e, f w.storage = .error e → ∀ t, SameBut A w t → E e t) (hstopped : A → ∀ t, SameBut A w t → E stopped t) :
    Eff.wp (readCall f) Q E w := by
  rw [readCall, Eff.wp_bind]
  apply wp_nextFate hcalm
  · intro t ht
    rw [Eff.wp_bind, Eff.wp_read, ht.storage, Eff.wp_ofExcept]
    exact ⟨fun a ha => hQ a ha t ht, fun e he => hE e he t ht⟩
  · intro hA fate hfate t ht
    cases fate with
    | answered => exact absurd rfl hfate
    | refused => exact hstopped hA t ht
    | lost => exact hstopped hA t ht

/-- A call that reads what is there. -/
theorem Safe.readCall {α : Type} {f : Storage → Except PyError α} {a : α} {Q : α → Maintenance → Prop}
    (h : Safe S entries bytes w) (hcalm : Calm A w) (hf : f w.storage = .ok a) (hQ : ∀ t, SameBut A w t → Q a t) :
    Eff.wp (VectorMigration.readCall f) Q (Ended S entries bytes A) w := by
  apply wp_readCall hcalm
  · intro a' ha' t ht
    rw [hf] at ha'
    cases ha'
    exact hQ t ht
  · intro e he
    rw [hf] at he
    cases he
  · intro hA t ht
    exact ⟨rfl, hA, ht.safe h⟩

/-- A call that writes: it did what it was to do, or it ended the script before or after it did. -/
theorem Safe.writeCall {f : Storage → Except PyError Storage} {s' : Storage} {Q : Unit → Maintenance → Prop}
    (h : Safe S entries bytes w) (hcalm : Calm A w) (hf : f w.storage = .ok s')
    (hstored : Safe S entries bytes (w.stored s')) (hQ : ∀ t, SameBut A (w.stored s') t → Q () t) :
    Eff.wp (VectorMigration.writeCall f) Q (Ended S entries bytes A) w := by
  rw [VectorMigration.writeCall, Eff.wp_bind]
  have hdone : ∀ (fate : Fate) (t : Maintenance), SameBut A w t → (fate = .lost → A) →
      Eff.wp (do
        let storage ← Eff.read Maintenance.storage
        let storage' ← Eff.ofExcept (f storage)
        Eff.update fun w => w.stored storage'
        Eff.whenever (fate = .lost) (.raise stopped)) Q (Ended S entries bytes A) t := by
    rintro fate t ⟨fates, hfates, rfl⟩ hlost
    rw [Eff.wp_bind, Eff.wp_read]
    dsimp only
    rw [hf, Eff.wp_bind, Eff.wp_ofExcept_ok, Eff.wp_bind, Eff.wp_update, Eff.wp_whenever]
    constructor
    · intro hfate
      exact ⟨rfl, hlost (of_decide_eq_true hfate), hstored.withFates fates⟩
    · intro _
      exact hQ _ ⟨fates, hfates, rfl⟩
  apply wp_nextFate hcalm
  · intro t ht
    exact hdone .answered t ht fun hfate => Fate.noConfusion hfate
  · intro hA fate hfate t ht
    cases fate with
    | answered => exact absurd rfl hfate
    | refused => exact ⟨rfl, hA, ht.safe h⟩
    | lost => exact hdone .lost t ht fun _ => hA

/-! ### The checks -/

theorem wp_totalCount {c : StoredCollection} {name : Text} {Q : ℕ → Maintenance → Prop} (h : Safe S entries bytes w)
    (hcalm : Calm A w) (hc : w.storage.get? name = some c) (hQ : ∀ t, SameBut A w t → Q c.count t) :
    Eff.wp (totalCount name) Q (Ended S entries bytes A) w :=
  h.readCall hcalm (by rw [collectionOf, hc]; rfl) hQ

theorem wp_configGet {c : StoredCollection} {name : Text} {Q : CollectionConfig → Maintenance → Prop}
    (h : Safe S entries bytes w) (hcalm : Calm A w) (hc : w.storage.get? name = some c)
    (hQ : ∀ t, SameBut A w t → Q c.config t) : Eff.wp (configGet name) Q (Ended S entries bytes A) w :=
  h.readCall hcalm (by rw [collectionOf, hc]; rfl) hQ

theorem wp_validateCollection {e : ManifestEntry} {c : StoredCollection} {Q : Unit → Maintenance → Prop}
    (h : Safe S entries bytes w) (hcalm : Calm A w) (he : e ∈ entries) (hc : w.storage.get? e.name = some c)
    (hQ : ∀ t, SameBut A w t → Q () t) :
    Eff.wp (validateCollection e.name e.collectionType) Q (Ended S entries bytes A) w := by
  rw [validateCollection, Eff.wp_bind]
  refine wp_configGet h hcalm hc fun t ht => ?_
  rw [(h.empty e he c hc).2]
  exact hQ t ht

theorem wp_requireTargetEmpty {e : ManifestEntry} (h : Safe S entries bytes w) (hcalm : Calm A w) (he : e ∈ entries) :
    Eff.wp (requireTargetEmpty e) (fun _ t => SameBut A w t) (Ended S entries bytes A) w := by
  rw [requireTargetEmpty, Eff.wp_bind]
  refine h.readCall hcalm rfl fun t ht => ?_
  cases hc : w.storage.get? e.name with
  | none =>
    rw [Dict.contains, hc]
    exact ht
  | some c =>
    have hct : t.storage.get? e.name = some c := by rw [ht.storage, hc]
    rw [Dict.contains, hc, Option.isSome_some, if_pos rfl, Eff.wp_bind]
    refine wp_totalCount (ht.safe h) ht.calm hct fun u hu => ?_
    have hcu : u.storage.get? e.name = some c := by rw [hu.storage, hct]
    rw [if_neg (not_not.mpr (h.empty e he c hc).1)]
    exact wp_validateCollection (hu.safe (ht.safe h)) hu.calm he hcu fun v hv => (ht.trans hu).trans hv

/-- The collections that there are pass. -/
theorem wp_requireExistingTargetsEmpty (h : Safe S entries bytes w) (hcalm : Calm A w) :
    Eff.wp (requireExistingTargetsEmpty entries) (fun _ t => SameBut A w t) (Ended S entries bytes A) w := by
  refine Eff.wp_forEach_mem (I := SameBut A w) (.refl hcalm) fun e he t ht => ?_
  exact Eff.wp_mono (wp_requireTargetEmpty (ht.safe h) ht.calm he) (fun _ u hu => ht.trans hu) fun _ _ hu => hu

/-- The names that are decoded, where every name is decoded or not. -/
theorem canonicalNames_ok {names : List Text} (h : ∀ name ∈ names, ∃ decoded, decodedCollection S.pattern name = .ok decoded) :
    ∃ current, canonicalNames S names = .ok current ∧
      ∀ name, name ∈ current ↔ name ∈ names ∧ ∃ d, decodedCollection S.pattern name = .ok (some d) := by
  let isCanonical : Text → Bool := fun name =>
    match decodedCollection S.pattern name with
    | .ok decoded => decoded.isSome
    | .error _ => false
  have hmap : (names.mapM fun name => (decodedCollection S.pattern name).map fun decoded => (name, decoded.isSome)) =
      .ok (names.map fun name => (name, isCanonical name)) := by
    refine mapM_ok fun name hname => ?_
    obtain ⟨decoded, hdecoded⟩ := h name hname
    simp only [isCanonical, hdecoded]
    rfl
  refine ⟨_, by rw [canonicalNames, hmap]; rfl, fun name => ?_⟩
  rw [List.mem_map]
  constructor
  · rintro ⟨⟨name, b⟩, hmem, rfl⟩
    obtain ⟨hmem, hb⟩ := List.mem_filter.mp hmem
    obtain ⟨name, hname, heq⟩ := List.mem_map.mp hmem
    cases heq
    obtain ⟨decoded, hdecoded⟩ := h name hname
    simp only [isCanonical, hdecoded] at hb
    obtain ⟨d, rfl⟩ := Option.isSome_iff_exists.mp hb
    exact ⟨hname, d, hdecoded⟩
  · rintro ⟨hname, d, hd⟩
    refine ⟨(name, true), List.mem_filter.mpr ⟨List.mem_map.mpr ⟨name, hname, ?_⟩, rfl⟩, rfl⟩
    simp only [isCanonical, hd, Option.isSome_some]

/-- The names of the storage that are decoded are those of the manifest that are there. -/
theorem Safe.canonicalNames (h : Safe S entries bytes w)
    (hdecoded : ∀ e ∈ entries, decodedCollection S.pattern e.name = .ok (some (e.userId, e.collectionType))) :
    ∃ current, VectorMigration.canonicalNames S w.storage.keys = .ok current ∧
      ∀ name, name ∈ current ↔ name ∈ w.storage.keys ∧ name ∈ entries.map ManifestEntry.name := by
  have hcases : ∀ name ∈ w.storage.keys,
      (name ∈ entries.map ManifestEntry.name ∧ ∃ d, decodedCollection S.pattern name = .ok (some d)) ∨
        name ∉ entries.map ManifestEntry.name ∧ decodedCollection S.pattern name = .ok none := by
    intro name hname
    by_cases hmem : name ∈ entries.map ManifestEntry.name
    · obtain ⟨e, he, rfl⟩ := List.mem_map.mp hmem
      exact .inl ⟨hmem, _, hdecoded e he⟩
    · exact .inr ⟨hmem, h.names name hname hmem⟩
  obtain ⟨current, hcurrent, hiff⟩ := canonicalNames_ok (S := S) fun name (hname : name ∈ w.storage.keys) => by
    obtain ⟨-, d, hd⟩ | ⟨-, hnone⟩ := hcases name hname
    · exact ⟨_, hd⟩
    · exact ⟨_, hnone⟩
  refine ⟨current, hcurrent, fun name => (hiff name).trans (and_congr_right fun hname => ?_)⟩
  obtain ⟨hmem, hd⟩ | ⟨hnot, hnone⟩ := hcases name hname
  · exact iff_of_true hd hmem
  · refine iff_of_false ?_ hnot
    rintro ⟨d, hd⟩
    rw [hnone] at hd
    cases hd

/-- A manifest that was written, and what its names were taken from. -/
structure Written (F : Type) [PyFloat F] (S : Settings) (names : List Text) (entries : List ManifestEntry) (bytes : List ℕ) :
    Prop where
  listed : Listed S names entries
  encoded : encodeUtf8 (Json.dumpsVerbatim (.obj (manifestFields F S entries) : Json F)) = .ok bytes

variable {names : List Text}

/-- The checks of every attempt pass. -/
theorem wp_preflight (hwritten : Written F S names entries bytes) (h : Safe S entries bytes w) (hcalm : Calm A w) :
    Eff.wp (preflight F S) (fun es t => es = entries ∧ SameBut A w t) (Ended S entries bytes A) w := by
  obtain ⟨current, hcurrent, hiff⟩ := h.canonicalNames hwritten.listed.decoded
  rw [preflight, Eff.wp_bind, Eff.wp_of_ok (loadManifest_eq hwritten.listed hwritten.encoded h.manifest), Eff.wp_bind,
    requireNoNewCanonicalCollections, Eff.wp_bind]
  refine h.readCall hcalm rfl fun t ht => ?_
  rw [Eff.wp_bind, hcurrent, Eff.wp_ofExcept_ok, Eff.wp_whenever]
  constructor
  · intro hnew
    obtain ⟨name, hname, hnot⟩ := List.any_eq_true.mp hnew
    exact absurd ((hiff name).mp hname).2 (of_decide_eq_true hnot)
  · intro _
    rw [Eff.wp_bind]
    refine Eff.wp_mono (wp_requireExistingTargetsEmpty (ht.safe h) ht.calm) (fun _ u hu => ?_) fun _ _ he => he
    exact ⟨rfl, ht.trans hu⟩

/-! ### Marking -/

/-- The first loop marks what there is. -/
theorem wp_markRebuilding (h : Safe S entries bytes w) (hnodup : (entries.map ManifestEntry.name).Nodup) (hcalm : Calm A w) :
    Eff.wp (Eff.forEach (markRebuilding S) entries)
      (fun _ t => Safe S entries bytes t ∧ Calm A t ∧ AllMarked S entries t.storage) (Ended S entries bytes A) w := by
  let I : List ManifestEntry → List ManifestEntry → Maintenance → Prop := fun done rest t =>
    done ++ rest = entries ∧ Safe S entries bytes t ∧ Calm A t ∧ AllMarked S done t.storage
  have hloop : Eff.wp (Eff.forEach (markRebuilding S) entries) (fun _ => I entries []) (Ended S entries bytes A) w := by
    apply Eff.wp_forEach
    · exact ⟨rfl, h, hcalm, fun e he => by cases he⟩
    · rintro done e rest t ⟨hall, ht, hcalm, hmarked⟩
      have he : e ∈ entries := by simp [← hall]
      have hall' : done ++ [e] ++ rest = entries := by simp [← hall]
      rw [markRebuilding, Eff.wp_bind]
      refine ht.readCall hcalm rfl fun u hu => ?_
      rw [Eff.wp_whenever]
      cases hc : t.storage.get? e.name with
      | none =>
        rw [Dict.contains, hc]
        refine ⟨(fun hfound => by cases hfound), fun _ => ⟨hall', hu.safe ht, hu.calm, ?_⟩⟩
        rw [hu.storage]
        intro e' he' c hc'
        obtain hdone | hlast := List.mem_append.mp he'
        · exact hmarked e' hdone c hc'
        · rw [List.mem_singleton.mp hlast, hc] at hc'
          cases hc'
      | some c =>
        rw [Dict.contains, hc]
        refine ⟨fun _ => ?_, fun hfound => by cases hfound⟩
        have hcu : u.storage.get? e.name = some c := by rw [hu.storage, hc]
        have hstored := (hu.safe ht).described hnodup he hcu (collectionDescription S false)
          fun hready => absurd hready.symm (description_ne S)
        refine (hu.safe ht).writeCall hu.calm (by rw [collectionOf, hcu]; rfl) hstored fun v hv => ?_
        refine ⟨hall', hv.safe hstored, hv.calm, ?_⟩
        rw [hv.storage]
        intro e' he' d hd
        change (u.storage.set e.name _).get? e'.name = some d at hd
        rw [Dict.get?_set] at hd
        split_ifs at hd with hname
        · cases hd
          rfl
        · obtain hdone | hlast := List.mem_append.mp he'
          · exact hmarked e' hdone d (hu.storage ▸ hd)
          · exact absurd (congrArg ManifestEntry.name (List.mem_singleton.mp hlast).symm) hname
  exact Eff.wp_mono hloop (fun _ t ht => ht.2) fun _ _ ht => ht

/-! ### Recreating -/

/-- The collection of an entry is as it was created, after there had been none. -/
def Rebuilt (S : Settings) (w : Maintenance) (e : ManifestEntry) : Prop :=
  w.storage.get? e.name = some (createdCollection S e.name e.collectionType) ∧
    ∃ (i : ℕ) (s : Storage), w.history[i]? = some s ∧ s.get? e.name = none

theorem Rebuilt.same {e : ManifestEntry} (h : Rebuilt S w e) (ht : SameBut A w t) : Rebuilt S t e := by
  rw [Rebuilt, ht.storage, ht.history]
  exact h

theorem Rebuilt.stored {e : ManifestEntry} (h : Rebuilt S w e) {s' : Storage} (hs' : s'.get? e.name = w.storage.get? e.name) :
    Rebuilt S (w.stored s') e := by
  obtain ⟨hcreated, i, s, hs, hnone⟩ := h
  exact ⟨hs'.trans hcreated, i, s, getElem?_concat_of_some hs, hnone⟩

theorem wp_whenever_delete {e : ManifestEntry} {Q : Unit → Maintenance → Prop} (h : Safe S entries bytes w) (hcalm : Calm A w)
    (he : e ∈ entries) (hQ : ∀ t, Safe S entries bytes t → Calm A t → t.storage.get? e.name = none →
      (∀ e', e'.name ≠ e.name → Rebuilt S w e' → Rebuilt S t e') → Q () t) :
    Eff.wp (do let found ← exists? e.name; Eff.whenever found (delete e.name)) Q (Ended S entries bytes A) w := by
  rw [Eff.wp_bind]
  refine h.readCall hcalm rfl fun t ht => ?_
  rw [Eff.wp_whenever]
  constructor
  · intro _
    have hstored := (ht.safe h).erased he
    refine (ht.safe h).writeCall ht.calm rfl hstored fun u hu => ?_
    have hnone : u.storage.get? e.name = none := by
      rw [hu.storage]
      exact Dict.get?_erase_self _ _
    refine hQ u (hu.safe hstored) hu.calm hnone fun e' hne hrebuilt => ?_
    exact ((hrebuilt.same ht).stored (by rw [Dict.get?_erase, if_neg hne.symm])).same hu
  · intro hfound
    have hnone : t.storage.get? e.name = none := by
      rw [ht.storage]
      exact Option.not_isSome_iff_eq_none.mp (by simpa [Dict.contains] using hfound)
    exact hQ t (ht.safe h) ht.calm hnone fun e' _ hrebuilt => hrebuilt.same ht

/-- A turn of the second loop. -/
theorem wp_recreate {e : ManifestEntry} (h : Safe S entries bytes w) (hnodup : (entries.map ManifestEntry.name).Nodup)
    (hcalm : Calm A w) (he : e ∈ entries) :
    Eff.wp (recreate S e) (fun _ t => Safe S entries bytes t ∧ Calm A t ∧ Rebuilt S t e ∧
      ∀ e', e'.name ≠ e.name → Rebuilt S w e' → Rebuilt S t e') (Ended S entries bytes A) w := by
  have hdelete := wp_whenever_delete (Q := fun _ t => Safe S entries bytes t ∧ Calm A t ∧ t.storage.get? e.name = none ∧
    ∀ e', e'.name ≠ e.name → Rebuilt S w e' → Rebuilt S t e') h hcalm he fun t h₁ h₂ h₃ h₄ => ⟨h₁, h₂, h₃, h₄⟩
  rw [Eff.wp_bind] at hdelete
  rw [recreate, Eff.wp_bind]
  refine Eff.wp_mono hdelete (fun found t hfound => ?_) fun _ _ ht => ht
  rw [Eff.wp_bind]
  refine Eff.wp_mono hfound (fun _ t ht => ?_) fun _ _ ht => ht
  obtain ⟨ht, hcalm, hnone, hothers⟩ := ht
  -- The collection is missing now, and is created.
  have hstored := ht.created hnodup he hnone
  have hmissing : t.storage.contains e.name = false := by rw [Dict.contains, hnone]; rfl
  rw [Eff.wp_bind]
  refine ht.writeCall hcalm (if_neg (by rw [hmissing]; exact Bool.false_ne_true)) hstored fun u hu => ?_
  have hcreated : u.storage.get? e.name = some (createdCollection S e.name e.collectionType) := by
    rw [hu.storage]
    exact Dict.get?_set_self _ _ _
  have hrebuilt : Rebuilt S u e :=
    ⟨hcreated, t.history.length - 1, t.storage, by rw [hu.history]; exact getElem?_concat_of_some ht.present, hnone⟩
  have hkept : ∀ e', e'.name ≠ e.name → Rebuilt S w e' → Rebuilt S u e' := fun e' hne hbefore =>
    ((hothers e' hne hbefore).stored (by rw [Dict.get?_set, if_neg hne.symm])).same hu
  rw [Eff.wp_bind]
  refine wp_validateCollection (hu.safe hstored) hu.calm he hcreated fun v hv => ?_
  rw [Eff.wp_bind]
  refine wp_totalCount (hv.safe (hu.safe hstored)) hv.calm (by rw [hv.storage]; exact hcreated) fun x hx => ?_
  have hux := hv.trans hx
  exact ⟨hux.safe (hu.safe hstored), hux.calm, hrebuilt.same hux, fun e' hne hbefore => (hkept e' hne hbefore).same hux⟩

/-- The second loop recreates all. -/
theorem wp_recreateAll (h : Safe S entries bytes w) (hnodup : (entries.map ManifestEntry.name).Nodup) (hcalm : Calm A w) :
    Eff.wp (Eff.forEach (recreate S) entries)
      (fun _ t => Safe S entries bytes t ∧ Calm A t ∧ ∀ e ∈ entries, Rebuilt S t e) (Ended S entries bytes A) w := by
  let I : List ManifestEntry → List ManifestEntry → Maintenance → Prop := fun done rest t =>
    done ++ rest = entries ∧ Safe S entries bytes t ∧ Calm A t ∧ ∀ e ∈ done, Rebuilt S t e
  have hloop : Eff.wp (Eff.forEach (recreate S) entries) (fun _ => I entries []) (Ended S entries bytes A) w := by
    apply Eff.wp_forEach
    · exact ⟨rfl, h, hcalm, fun e he => by cases he⟩
    · rintro done e rest t ⟨hall, ht, hcalm, hdone⟩
      have he : e ∈ entries := by simp [← hall]
      refine Eff.wp_mono (wp_recreate ht hnodup hcalm he) (fun _ u hu => ?_) fun _ _ hu => hu
      obtain ⟨hu, hcalm, hrebuilt, hothers⟩ := hu
      refine ⟨by simp [← hall], hu, hcalm, fun e' he' => ?_⟩
      obtain he' | hlast := List.mem_append.mp he'
      · refine hothers e' (fun hname => ?_) (hdone e' he')
        rw [← hall, List.map_append, List.map_cons] at hnodup
        exact (List.nodup_append.mp hnodup).2.2 e'.name (List.mem_map_of_mem he') e.name List.mem_cons_self hname
      · rw [List.mem_singleton.mp hlast]
        exact hrebuilt
  exact Eff.wp_mono hloop (fun _ t ht => ht.2) fun _ _ ht => ht

/-! ### Making ready -/

/-- The collections were recreated at some moment, and since then they were not all marked. -/
def SinceRecreated (S : Settings) (entries : List ManifestEntry) (history : List Storage) : Prop :=
  ∃ k < history.length, Recreated S entries history k ∧
    ∀ (i : ℕ) (s : Storage), k < i → history[i]? = some s → ¬ AllMarked S entries s

theorem sinceRecreated_of_rebuilt (h : Safe S entries bytes w) (hrebuilt : ∀ e ∈ entries, Rebuilt S w e) :
    SinceRecreated S entries w.history := by
  have hpresent := h.present
  obtain ⟨hlt, -⟩ := List.getElem?_eq_some_iff.mp hpresent
  refine ⟨w.history.length - 1, hlt, ⟨w.storage, hpresent, fun e he => ?_⟩, fun i s hi hs => ?_⟩
  · obtain ⟨hcreated, i, s, hs, hnone⟩ := hrebuilt e he
    obtain ⟨hi, -⟩ := List.getElem?_eq_some_iff.mp hs
    exact ⟨hcreated, i, by omega, s, hs, hnone⟩
  · obtain ⟨hi', -⟩ := List.getElem?_eq_some_iff.mp hs
    omega

theorem SinceRecreated.concat {history : List Storage} (h : SinceRecreated S entries history) {s : Storage}
    (hs : ¬ AllMarked S entries s) : SinceRecreated S entries (history ++ [s]) := by
  obtain ⟨k, hk, hrecreated, hsince⟩ := h
  refine ⟨k, by rw [List.length_append]; exact Nat.lt_add_right _ hk, hrecreated.concat s, fun i t hi ht => ?_⟩
  obtain ⟨-, ht⟩ | ⟨-, rfl⟩ := getElem?_concat_cases ht
  · exact hsince i t hi ht
  · exact hs

/-- The collection of an entry as a rebuild that completed leaves it. -/
def readyCollection (S : Settings) (e : ManifestEntry) : StoredCollection :=
  (createdCollection S e.name e.collectionType).described (collectionDescription S true)

/-- The collections are as a rebuild that completed leaves them. -/
def Completed (S : Settings) (entries : List ManifestEntry) (s : Storage) : Prop :=
  ∀ e ∈ entries, s.get? e.name = some (readyCollection S e)

/-- The last loop marks all as ready. -/
theorem wp_markReady (h : Safe S entries bytes w) (hnodup : (entries.map ManifestEntry.name).Nodup) (hcalm : Calm A w)
    (hrebuilt : ∀ e ∈ entries, Rebuilt S w e) :
    Eff.wp (Eff.forEach (markReady S) entries)
      (fun _ t => Safe S entries bytes t ∧ Calm A t ∧ Completed S entries t.storage) (Ended S entries bytes A) w := by
  let I : List ManifestEntry → List ManifestEntry → Maintenance → Prop := fun done rest t =>
    done ++ rest = entries ∧ Safe S entries bytes t ∧ Calm A t ∧ Completed S done t.storage ∧
      (∀ e ∈ rest, t.storage.get? e.name = some (createdCollection S e.name e.collectionType)) ∧
      SinceRecreated S entries t.history
  have hloop : Eff.wp (Eff.forEach (markReady S) entries) (fun _ => I entries []) (Ended S entries bytes A) w := by
    apply Eff.wp_forEach
    · exact ⟨rfl, h, hcalm, (fun e he => by cases he), fun e he => (hrebuilt e he).1, sinceRecreated_of_rebuilt h hrebuilt⟩
    · rintro done e rest t ⟨hall, ht, hcalm, hdone, hrest, hsince⟩
      have he : e ∈ entries := by simp [← hall]
      have hsofar : ∀ e' ∈ done ++ [e], e' ∈ entries := fun e' he' => by
        rw [← hall, List.append_cons]
        exact List.mem_append_left rest he'
      have hc := hrest e List.mem_cons_self
      have hother : ∀ e' ∈ done ++ rest, e.name ≠ e'.name := by
        intro e' he' hname
        have hperm : ((e :: (done ++ rest)).map ManifestEntry.name).Nodup :=
          ((List.perm_middle.map _).nodup_iff.mp (hall ▸ hnodup))
        exact (List.nodup_cons.mp hperm).1 (hname ▸ List.mem_map_of_mem he')
      have hstored := ht.described hnodup he hc (collectionDescription S true) fun _ i s hs hmarked => by
        obtain ⟨k, hk, hrecreated, hnot⟩ := hsince
        exact ⟨k, not_lt.mp fun hi => hnot i s hi hs hmarked, hk.le, hrecreated⟩
      refine ht.writeCall hcalm (by rw [collectionOf, hc]; rfl) hstored fun u hu => ?_
      refine ⟨by simp [← hall], hu.safe hstored, hu.calm, ?_, ?_, ?_⟩
      · rw [hu.storage]
        intro e' he'
        change (t.storage.set e.name _).get? e'.name = _
        rw [Dict.get?_set]
        split_ifs with hname
        · rw [eq_of_name hnodup he (hsofar e' he') hname]
          rfl
        · obtain he' | hlast := List.mem_append.mp he'
          · exact hdone e' he'
          · exact absurd (congrArg ManifestEntry.name (List.mem_singleton.mp hlast).symm) hname
      · rw [hu.storage]
        intro e' he'
        change (t.storage.set e.name _).get? e'.name = _
        rw [Dict.get?_set, if_neg (hother e' (List.mem_append_right done he'))]
        exact hrest e' (List.mem_cons_of_mem e he')
      · rw [hu.history]
        refine hsince.concat (IsReady.not_allMarked he ⟨_, Dict.get?_set_self _ _ _, rfl⟩)
  exact Eff.wp_mono hloop (fun _ t ht => ⟨ht.2.1, ht.2.2.1, ht.2.2.2.1⟩) fun _ _ ht => ht

/-! ### The commands -/

/-- An attempt to rebuild completes, or a storage call ends it. -/
theorem wp_rebuildCollections (hwritten : Written F S names entries bytes) (h : Safe S entries bytes w) (hcalm : Calm A w) :
    Eff.wp (rebuildCollections F S true) (fun _ t => Safe S entries bytes t ∧ Completed S entries t.storage)
      (Ended S entries bytes A) w := by
  have hnodup := hwritten.listed.nodup
  have hconfirmed : requireDisposableConfirmation true = .ok () := rfl
  rw [rebuildCollections, hconfirmed, Eff.wp_bind, Eff.wp_ofExcept_ok, Eff.wp_bind]
  refine Eff.wp_mono (wp_preflight hwritten h hcalm) (fun es t ht => ?_) fun _ _ ht => ht
  obtain ⟨rfl, ht⟩ := ht
  rw [Eff.wp_bind]
  refine Eff.wp_mono (wp_markRebuilding (ht.safe h) hnodup ht.calm) (fun _ u hu => ?_) fun _ _ hu => hu
  rw [Eff.wp_bind]
  refine Eff.wp_mono (wp_recreateAll hu.1 hnodup hu.2.1) (fun _ v hv => ?_) fun _ _ hv => hv
  exact Eff.wp_mono (wp_markReady hv.1 hnodup hv.2.1 hv.2.2) (fun _ x hx => ⟨hx.1, hx.2.2⟩) fun _ _ hx => hx

theorem wp_verifyCollection {e : ManifestEntry} (h : Safe S entries bytes w) (hcalm : Calm A w) (he : e ∈ entries)
    (hc : w.storage.get? e.name = some (readyCollection S e)) :
    Eff.wp (verifyCollection S e) (fun _ t => SameBut A w t) (Ended S entries bytes A) w := by
  rw [verifyCollection, Eff.wp_bind]
  refine wp_configGet h hcalm hc fun t ht => ?_
  have hct : t.storage.get? e.name = some (readyCollection S e) := by rw [ht.storage, hc]
  rw [Eff.wp_bind, Eff.wp_whenever]
  constructor
  · intro hdescription
    exact absurd rfl (of_decide_eq_true hdescription)
  · intro _
    rw [Eff.wp_bind]
    refine wp_validateCollection (ht.safe h) ht.calm he hct fun u hu => ?_
    rw [Eff.wp_bind]
    refine wp_totalCount (hu.safe (ht.safe h)) hu.calm (by rw [hu.storage]; exact hct) fun v hv => ?_
    exact (ht.trans hu).trans hv

/-- Where a rebuild completed, the verification passes. -/
theorem wp_verifyCollections (hwritten : Written F S names entries bytes) (h : Safe S entries bytes w) (hcalm : Calm A w)
    (hcompleted : Completed S entries w.storage) :
    Eff.wp (verifyCollections F S) (fun _ t => SameBut A w t) (Ended S entries bytes A) w := by
  obtain ⟨current, hcurrent, hiff⟩ := h.canonicalNames hwritten.listed.decoded
  rw [verifyCollections, Eff.wp_bind, Eff.wp_of_ok (loadManifest_eq hwritten.listed hwritten.encoded h.manifest), Eff.wp_bind]
  refine h.readCall hcalm rfl fun t ht => ?_
  rw [Eff.wp_bind, hcurrent, Eff.wp_ofExcept_ok]
  dsimp only
  rw [Eff.wp_bind, Eff.wp_whenever]
  constructor
  · intro hdiffer
    have hcurrentAll : current.all (· ∈ entries.map ManifestEntry.name) = true :=
      List.all_eq_true.mpr fun name hname => decide_eq_true ((hiff name).mp hname).2
    have hentriesAll : (entries.map ManifestEntry.name).all (· ∈ current) = true := by
      refine List.all_eq_true.mpr fun name hname => decide_eq_true ((hiff name).mpr ⟨?_, hname⟩)
      obtain ⟨e, he, rfl⟩ := List.mem_map.mp hname
      exact Dict.mem_keys_iff.mpr ⟨_, hcompleted e he⟩
    rw [hcurrentAll, hentriesAll] at hdiffer
    cases hdiffer
  · intro _
    refine Eff.wp_forEach_mem (I := SameBut A w) ht fun e he u hu => ?_
    have hc : u.storage.get? e.name = some (readyCollection S e) := by rw [hu.storage, hcompleted e he]
    exact Eff.wp_mono (wp_verifyCollection (hu.safe h) hu.calm he hc) (fun _ v hv => hu.trans hv) fun _ _ hv => hv

end Calls

/-! ### The export -/

variable {names : List Text}

/-- After an export, before any attempt. -/
theorem Safe.exported {t : Maintenance} (hlisted : Listed S names entries) (hstorage : t.storage.keys = names)
    (hmanifest : t.manifest = some bytes) (hhistory : t.history = [t.storage])
    (hempty : ∀ e ∈ entries, ∀ c, t.storage.get? e.name = some c →
      c.count = 0 ∧ validateSourceSchema c.config e.name e.collectionType = .ok ()) : Safe S entries bytes t := by
  refine ⟨hmanifest, ⟨[], hhistory⟩, ?_, hempty, fun i s u _ hu => ?_, fun i j s u hij hs hu hmarked hsome => ?_⟩
  · rw [hstorage]
    exact hlisted.others
  · rw [hhistory] at hu
    cases hu
  · rw [hhistory, List.getElem?_singleton] at hs hu
    split_ifs at hs with hi
    split_ifs at hu with hj
    rw [← Option.some.inj hs] at hmarked
    rw [← Option.some.inj hu] at hsome
    obtain ⟨e, he, hready⟩ := hsome
    exact absurd hmarked (hready.not_allMarked he)

/-- The collections that passed were empty, and had schemas that pass. -/
theorem wp_requireTargetEmpty_passed {e : ManifestEntry} :
    Eff.wp (requireTargetEmpty e)
      (fun _ t => SameBut True w t ∧ ∀ c, w.storage.get? e.name = some c →
        c.count = 0 ∧ validateSourceSchema c.config e.name e.collectionType = .ok ()) (fun _ _ => True) w := by
  rw [requireTargetEmpty, Eff.wp_bind]
  refine wp_readCall (fun _ _ _ => trivial) (fun found hfound t ht => ?_) (fun _ _ _ _ => trivial) fun _ _ _ => trivial
  cases hfound
  cases hc : w.storage.get? e.name with
  | none =>
    rw [Dict.contains, hc]
    exact ⟨ht, fun c hc => by cases hc⟩
  | some c =>
    rw [Dict.contains, hc, Option.isSome_some, if_pos rfl, Eff.wp_bind]
    refine wp_readCall ht.calm (fun count hcount u hu => ?_) (fun _ _ _ _ => trivial) fun _ _ _ => trivial
    rw [ht.storage, collectionOf, hc] at hcount
    cases hcount
    rw [Eff.wp_ite]
    refine ⟨fun _ => trivial, fun hzero => ?_⟩
    rw [validateCollection, Eff.wp_bind]
    refine wp_readCall hu.calm (fun config hconfig v hv => ?_) (fun _ _ _ _ => trivial) fun _ _ _ => trivial
    rw [hu.storage, ht.storage, collectionOf, hc] at hconfig
    cases hconfig
    rw [Eff.wp_ofExcept]
    refine ⟨fun _ hvalid => ⟨(ht.trans hu).trans hv, fun c' hc' => ?_⟩, fun _ _ => trivial⟩
    cases hc'
    exact ⟨not_not.mp hzero, hvalid⟩

theorem wp_requireExistingTargetsEmpty_passed (es : List ManifestEntry) :
    Eff.wp (requireExistingTargetsEmpty es)
      (fun _ t => SameBut True w t ∧ ∀ e ∈ es, ∀ c, w.storage.get? e.name = some c →
        c.count = 0 ∧ validateSourceSchema c.config e.name e.collectionType = .ok ()) (fun _ _ => True) w := by
  refine Eff.wp_forEach (I := fun (done : List ManifestEntry) _ t => SameBut True w t ∧ ∀ e ∈ done, ∀ c,
    w.storage.get? e.name = some c → c.count = 0 ∧ validateSourceSchema c.config e.name e.collectionType = .ok ()) ?_ ?_
  · exact ⟨.refl fun _ _ _ => trivial, fun e he => by cases he⟩
  · rintro done e rest t ⟨ht, hdone⟩
    refine Eff.wp_mono wp_requireTargetEmpty_passed (fun _ u hu => ?_) fun _ _ he => he
    refine ⟨ht.trans hu.1, fun e' he' c hc => ?_⟩
    obtain he' | hlast := List.mem_append.mp he'
    · exact hdone e' he' c hc
    · obtain rfl := List.mem_singleton.mp hlast
      exact hu.2 c (by rw [ht.storage, hc])

/-- An export that succeeds leaves a state to start from. -/
theorem wp_exportCollections (confirmed : Bool) (hhistory : w.history = [w.storage]) :
    Eff.wp (exportCollections F S confirmed)
      (fun _ t => ∃ entries bytes, canonicalEntries S w.storage.keys = .ok entries ∧
        Written F S w.storage.keys entries bytes ∧ Safe S entries bytes t) (fun _ _ => True) w := by
  rw [exportCollections, Eff.wp_bind, Eff.wp_ofExcept]
  refine ⟨fun _ _ => ?_, fun _ _ => trivial⟩
  rw [Eff.wp_bind, Eff.wp_read, Eff.wp_bind, Eff.wp_whenever]
  refine ⟨fun _ => trivial, fun _ => ?_⟩
  rw [Eff.wp_bind]
  refine wp_readCall (fun _ _ _ => trivial) (fun names hnames t ht => ?_) (fun _ _ _ _ => trivial) fun _ _ _ => trivial
  cases hnames
  rw [Eff.wp_bind, Eff.wp_ofExcept]
  refine ⟨fun entries hentries => ?_, fun _ _ => trivial⟩
  have hlisted := canonicalEntries_spec w.storage.nodupKeys hentries
  rw [Eff.wp_bind]
  refine Eff.wp_mono (wp_requireExistingTargetsEmpty_passed entries) (fun _ u hu => ?_) fun _ _ _ => trivial
  obtain ⟨hu, hempty⟩ := hu
  rw [Eff.wp_bind, Eff.wp_ofExcept]
  refine ⟨fun bytes hbytes => ?_, fun _ _ => trivial⟩
  have hstorage : u.storage = w.storage := hu.storage.trans ht.storage
  have hhistory' : u.history = [u.storage] := by rw [hstorage, hu.history, ht.history, hhistory]
  refine ⟨entries, bytes, hentries, ⟨hlisted, hbytes⟩, ?_⟩
  refine Safe.exported hlisted (congrArg Dict.keys hstorage) rfl hhistory' fun e he c hc => ?_
  exact hempty e he c (by rw [← hu.storage]; exact hc)

/-! ### Attempts -/

/-- An attempt to rebuild. -/
structure Attempt where
  /-- `confirm_disposable_process_state`. -/
  confirmed : Bool
  /-- What its storage calls meet. -/
  fates : List Fate
  deriving DecidableEq

variable (F S)

/-- What an attempt leaves, whether it completed or not. -/
def Maintenance.attempt (w : Maintenance) (a : Attempt) : Maintenance :=
  match rebuildCollections F S a.confirmed { w with fates := a.fates } with
  | .ok _ t => t
  | .error _ t => t

/-- What attempts leave. -/
def Maintenance.after (w : Maintenance) (attempts : List Attempt) : Maintenance := attempts.foldl (Maintenance.attempt F S) w

variable {F S}

theorem rebuildCollections_unconfirmed (w : Maintenance) : ∃ e, rebuildCollections F S false w = .error e w := ⟨_, rfl⟩

theorem Safe.attempt (hwritten : Written F S names entries bytes) (h : Safe S entries bytes w) (a : Attempt) :
    Safe S entries bytes (w.attempt F S a) := by
  obtain ⟨confirmed, fates⟩ := a
  cases confirmed with
  | false => exact h.withFates fates
  | true =>
    have hrun := wp_rebuildCollections (A := True) hwritten (h.withFates fates) fun _ _ _ => trivial
    rw [Maintenance.attempt]
    cases hresult : rebuildCollections F S true { w with fates := fates } with
    | ok _ t => exact (Eff.wp_ok hrun hresult).1
    | error e t => exact (Eff.wp_error hrun hresult).2.2

theorem Safe.after (hwritten : Written F S names entries bytes) (h : Safe S entries bytes w) (attempts : List Attempt) :
    Safe S entries bytes (w.after F S attempts) := by
  induction attempts generalizing w with
  | nil => exact h
  | cons a attempts ih => exact ih (h.attempt hwritten a)

/-- What a storage call met that ended the script. -/
def Interrupted (fates : List Fate) : Prop := ∃ fate ∈ fates, fate ≠ .answered

theorem calm_interrupted (w : Maintenance) : Calm (Interrupted w.fates) w := fun fate hfate hne => ⟨fate, hfate, hne⟩

/-- From any state for which an export succeeded, after any attempts, each of which may have been ended by any storage
call: a collection that has objects stayed as it was; the checks of the next attempt pass, unless a storage call ends it;
the next attempt fails at a storage call only; from a moment at which all collections of the manifest are marked, none is
ready before all were recreated; and where the next attempt completes, the verification succeeds. -/
theorem migration_restart_safe {storage : Storage} {confirmed : Bool} {fates : List Fate} {w₀ : Maintenance}
    (hexport : exportCollections F S confirmed ⟨storage, none, fates, [storage]⟩ = .ok () w₀) :
    ∃ entries, canonicalEntries S storage.keys = .ok entries ∧ ∀ attempts : List Attempt,
      let w := w₀.after F S attempts
      (∀ (i : ℕ) (s t : Storage), w.history[i]? = some s → w.history[i + 1]? = some t →
        ∀ name c, s.get? name = some c → c.count ≠ 0 → t.get? name = some c) ∧
      (∀ fates : List Fate, (∃ t, preflight F S { w with fates := fates } = .ok entries t) ∨
        Interrupted fates ∧ ∃ t, preflight F S { w with fates := fates } = .error stopped t) ∧
      (∀ fates e t, rebuildCollections F S true { w with fates := fates } = .error e t → e = stopped ∧ Interrupted fates) ∧
      (∀ (i j : ℕ) (s t : Storage), i ≤ j → w.history[i]? = some s → w.history[j]? = some t → AllMarked S entries s →
        (∃ e ∈ entries, IsReady S t e) → ∃ k, i ≤ k ∧ k ≤ j ∧ Recreated S entries w.history k) ∧
      ∀ (a : Attempt) (t : Maintenance), rebuildCollections F S a.confirmed { w with fates := a.fates } = .ok () t →
        ∃ u, verifyCollections F S { t with fates := [] } = .ok () u := by
  obtain ⟨entries, bytes, hentries, hwritten, h⟩ := Eff.wp_ok (wp_exportCollections (F := F) (S := S) confirmed rfl) hexport
  refine ⟨entries, hentries, fun attempts => ?_⟩
  have hw := h.after hwritten attempts
  refine ⟨hw.kept, fun fates => ?_, fun fates e t hrun => ?_, hw.ready, fun a t hrun => ?_⟩
  · have hpreflight := wp_preflight hwritten (hw.withFates fates) (calm_interrupted _)
    cases hresult : preflight F S { w₀.after F S attempts with fates := fates } with
    | ok es t =>
      rw [(Eff.wp_ok hpreflight hresult).1]
      exact .inl ⟨t, rfl⟩
    | error e t =>
      obtain ⟨rfl, hinterrupted, -⟩ := Eff.wp_error hpreflight hresult
      exact .inr ⟨hinterrupted, t, rfl⟩
  · obtain ⟨he, hinterrupted, -⟩ :=
      Eff.wp_error (wp_rebuildCollections hwritten (hw.withFates fates) (calm_interrupted _)) hrun
    exact ⟨he, hinterrupted⟩
  · obtain ⟨confirmed, fates⟩ := a
    cases confirmed with
    | false =>
      obtain ⟨e, hfailed⟩ := rebuildCollections_unconfirmed (F := F) (S := S) { w₀.after F S attempts with fates := fates }
      rw [hfailed] at hrun
      cases hrun
    | true =>
      obtain ⟨ht, hcompleted⟩ :=
        Eff.wp_ok (wp_rebuildCollections hwritten (hw.withFates fates) (calm_interrupted _)) hrun
      have hverify : Eff.wp (verifyCollections F S) (fun _ u => SameBut False { t with fates := [] } u)
          (Ended S entries bytes False) { t with fates := [] } :=
        wp_verifyCollections hwritten (ht.withFates []) (fun fate hfate => by cases hfate) hcompleted
      obtain ⟨_, u, hu, -⟩ := Eff.wp_returns (Eff.wp_mono hverify (fun _ _ hu => hu) fun _ _ he => he.2.1)
      exact ⟨u, hu⟩

/-! ### A migration -/

/-- The vectors as Weaviate may report them, not in the order they were asked for. -/
def sampleVectors : Dict Text NamedVector where
  entries := [(mmrDiversityVectorName, ⟨some (lit "none"), some [], none⟩),
    (lateInteractionVectorName, ⟨some (lit "none"), none, some (lit "maxSim")⟩)]
  nodupKeys := by decide

/-- The default vector profile. -/
def sampleProfile : Text :=
  lit "lateon-62911e1050-fp16-colbert-maxsim-q32-d300-128-v1+gte-modernbert-base-e7f32e3-fp16-cls-l2-768-v1"

/-- The default settings. -/
def sampleSettings : Settings where
  pattern := ⟨"'^[A-Za-z0-9_-]+$'", fun t => !t.isEmpty && t.all fun c => isNameChar c || c = 45, fun t => s!"'{shown t}'"⟩
  embeddingModel := lit "Alibaba-NLP/gte-modernbert-base"
  vectorProfile := sampleProfile
  created name collectionType :=
    ⟨name, some (profileDescription sampleProfile false), [], (contractOf collectionType).reverse, some sampleVectors⟩
  created_name _ _ := rfl
  created_description _ _ := rfl
  created_references _ _ := rfl
  created_properties _ _ := List.reverse_perm _
  created_vectors _ _ := ⟨sampleVectors, rfl, .swap _ _ _, by decide⟩

/-- A collection of before the vector profiles. -/
def legacyCollection (name collectionType : Text) : StoredCollection where
  config :=
    { name := name
      description := none
      references := []
      properties := (legacyProperties collectionType).map fun p =>
        (p.1, { dataType := p.2.1, indexFilterable := p.2.2.1, indexSearchable := p.2.2.2 })
      vectorConfig := some (Dict.empty.set (lit "default") ⟨some (lit "none"), none, none⟩) }
  count := 0

/-- The collections of the user `a`, one of which is as it was, one marked by a migration that did not complete and one
ready, and a collection with objects that is no user's. -/
def sampleStorage : Storage :=
  (((Dict.empty.set (lit "RagUser_ME_Policy") (legacyCollection (lit "RagUser_ME_Policy") (lit "policy"))).set
    (lit "RagUser_ME_Conversations")
      (createdCollection sampleSettings (lit "RagUser_ME_Conversations") (lit "conversations"))).set
    (lit "RagUser_ME_KnowledgeFacts")
      ((createdCollection sampleSettings (lit "RagUser_ME_KnowledgeFacts") (lit "knowledge_facts")).described
        (collectionDescription sampleSettings true))).set
    (lit "Notes") { legacyCollection (lit "Notes") (lit "policy") with count := 5 }

theorem migration_restart_safe_sample :
    ∃ w₀ : Maintenance,
      exportCollections WholeFloat sampleSettings true ⟨sampleStorage, none, [.answered], [sampleStorage]⟩ = .ok () w₀ ∧
      ∀ (attempts : List Attempt) (a : Attempt) (t : Maintenance),
        rebuildCollections WholeFloat sampleSettings a.confirmed
          { w₀.after WholeFloat sampleSettings attempts with fates := a.fates } = .ok () t →
        ∃ u, verifyCollections WholeFloat sampleSettings { t with fates := [] } = .ok () u := by
  have hexport : ∃ w₀, exportCollections WholeFloat sampleSettings true ⟨sampleStorage, none, [.answered], [sampleStorage]⟩ =
      .ok () w₀ := by
    have hok : (match exportCollections WholeFloat sampleSettings true ⟨sampleStorage, none, [.answered], [sampleStorage]⟩ with
      | .ok _ _ => true
      | .error _ _ => false) = true := by decide +kernel
    split at hok
    · exact ⟨_, by assumption⟩
    · cases hok
  obtain ⟨w₀, hw₀⟩ := hexport
  obtain ⟨_, _, hsafe⟩ := migration_restart_safe hw₀
  exact ⟨w₀, hw₀, fun attempts => (hsafe attempts).2.2.2.2⟩

end VectorMigration

end TenantRag

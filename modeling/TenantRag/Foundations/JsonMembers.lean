import TenantRag.Foundations.JsonReading

/-!
# The members of JSON objects

What `json.loads` makes of an object that states a name more than once: the last value is kept.

## What is proved

* `hookedMembers_ok_iff` — the values of the members are read one by one.
* `dictOf_same`, `dictOf_single` — members of one name become one item with the last value.
* `loads_single_iff` — the texts that are read as a dictionary of one item, a string.
-/

namespace TenantRag

namespace Json

section Members

variable {F ε : Type} {hook : List (Text × Json F) → Except ε (Json F)}

/-- The members keep their names, and each value is read by itself. -/
theorem hookedMembers_ok_iff {ms ms' : List (Text × Json F)} :
    hookedMembers hook ms = .ok ms' ↔ List.Forall₂ (fun m m' => m'.1 = m.1 ∧ hooked hook m.2 = .ok m'.2) ms ms' := by
  induction ms generalizing ms' with
  | nil =>
    rw [hookedMembers, List.forall₂_nil_left_iff]
    exact ⟨fun h => (Except.ok.inj h).symm, fun h => by rw [h]⟩
  | cons m ms ih =>
    obtain ⟨key, v⟩ := m
    rw [hookedMembers, List.forall₂_cons_left_iff]
    constructor
    · intro h
      cases hv : hooked hook v with
      | error e =>
        rw [hv] at h
        cases h
      | ok v' =>
        rw [hv] at h
        obtain ⟨rest, hrest, rfl⟩ := map_eq_ok_iff.mp h
        exact ⟨(key, v'), rest, ⟨rfl, rfl⟩, ih.mp hrest, rfl⟩
    · rintro ⟨⟨key', v'⟩, rest, ⟨hkey, hv⟩, hrest, rfl⟩
      simp only at hkey hv
      subst hkey
      rw [hv]
      dsimp only
      rw [ih.mpr hrest]
      rfl

theorem hookedItems_ok_iff {vs vs' : List (Json F)} :
    hookedItems hook vs = .ok vs' ↔ List.Forall₂ (fun v v' => hooked hook v = .ok v') vs vs' := by
  induction vs generalizing vs' with
  | nil =>
    rw [hookedItems, List.forall₂_nil_left_iff]
    exact ⟨fun h => (Except.ok.inj h).symm, fun h => by rw [h]⟩
  | cons v vs ih =>
    rw [hookedItems, List.forall₂_cons_left_iff]
    constructor
    · intro h
      cases hv : hooked hook v with
      | error e =>
        rw [hv] at h
        cases h
      | ok v' =>
        rw [hv] at h
        obtain ⟨rest, hrest, rfl⟩ := map_eq_ok_iff.mp h
        exact ⟨v', rest, rfl, ih.mp hrest, rfl⟩
    · rintro ⟨v', rest, hv, hrest, rfl⟩
      rw [hv]
      dsimp only
      rw [ih.mpr hrest]
      rfl

/-- A hook that never raises reads every value. -/
theorem hooked_total (hhook : ∀ ms, ∃ v, hook ms = .ok v) (v : Json F) : ∃ v', hooked hook v = .ok v' := by
  induction v using inductOn with
  | null => exact ⟨_, by rw [hooked]⟩
  | bool b => exact ⟨_, by rw [hooked]⟩
  | int n => exact ⟨_, by rw [hooked]⟩
  | num x => exact ⟨_, by rw [hooked]⟩
  | str t => exact ⟨_, by rw [hooked]⟩
  | arr items ih =>
    obtain ⟨vs, hvs⟩ := exists_forall₂ ih
    exact ⟨.arr vs, by rw [hooked, hookedItems_ok_iff.mpr hvs]; rfl⟩
  | obj fields ih =>
    have hfields : ∀ f ∈ fields, ∃ f' : Text × Json F, f'.1 = f.1 ∧ hooked hook f.2 = .ok f'.2 := by
      intro f hf
      obtain ⟨v, hv⟩ := ih f hf
      exact ⟨(f.1, v), rfl, hv⟩
    obtain ⟨ms, hms⟩ := exists_forall₂ hfields
    obtain ⟨v, hv⟩ := hhook ms
    exact ⟨v, by rw [hooked, hookedMembers_ok_iff.mpr hms]; exact hv⟩

/-- A value that is read as a string is one, where the hook makes no strings of objects. -/
theorem hooked_eq_str (hhook : ∀ ms t, hook ms ≠ .ok (.str t)) {v : Json F} {t : Text} (h : hooked hook v = .ok (.str t)) :
    v = .str t := by
  cases v with
  | str s =>
    rw [hooked] at h
    exact Except.ok.inj h
  | obj ms =>
    rw [hooked] at h
    cases hms : hookedMembers hook ms with
    | error e =>
      rw [hms] at h
      cases h
    | ok ms' =>
      rw [hms] at h
      exact absurd h (hhook ms' t)
  | arr items =>
    rw [hooked] at h
    obtain ⟨vs, -, hvs⟩ := map_eq_ok_iff.mp h
    cases hvs
  | _ =>
    rw [hooked] at h
    cases h

end Members

section Dictionaries

variable {F : Type}

/-- Where the names are different, each is looked up. -/
theorem get?_of_mem {ms : List (Text × Json F)} (h : (ms.map Prod.fst).Nodup) {m : Text × Json F} (hm : m ∈ ms) :
    get? ms m.1 = some m.2 := by
  rw [get?]
  induction ms with
  | nil => cases hm
  | cons m' ms ih =>
    obtain ⟨hnot, hnodup⟩ := List.nodup_cons.mp h
    rcases List.mem_cons.mp hm with rfl | hm
    · rw [List.lookup_cons_self]
    · have hne : m.1 ≠ m'.1 := fun heq => hnot (heq ▸ List.mem_map_of_mem hm)
      rw [List.lookup_cons, beq_false_of_ne hne]
      exact ih hnodup hm

theorem mem_setField (key : Text) (v : Json F) (d : List (Text × Json F)) : key ∈ (setField key v d).map Prod.fst := by
  induction d with
  | nil => simp [setField]
  | cons p d ih =>
    rw [setField]
    split_ifs with h
    · simp [h]
    · exact List.mem_cons_of_mem _ ih

theorem mem_setField_of_mem (key : Text) (v : Json F) {d : List (Text × Json F)} {k : Text} (h : k ∈ d.map Prod.fst) :
    k ∈ (setField key v d).map Prod.fst := by
  induction d with
  | nil => cases h
  | cons p d ih =>
    rw [setField]
    split_ifs
    · exact h
    · rcases List.mem_cons.mp h with rfl | h
      · exact List.mem_cons_self
      · exact List.mem_cons_of_mem _ (ih h)

theorem dictOf_concat (ms : List (Text × Json F)) (m : Text × Json F) : dictOf (ms ++ [m]) = setField m.1 m.2 (dictOf ms) := by
  rw [dictOf, dictOf, List.foldl_append]
  rfl

/-- Every name is a key. -/
theorem mem_dictOf {ms : List (Text × Json F)} {m : Text × Json F} (h : m ∈ ms) : m.1 ∈ (dictOf ms).map Prod.fst := by
  induction ms using List.reverseRecOn with
  | nil => cases h
  | append_singleton ms m' ih =>
    rw [dictOf_concat]
    rcases List.mem_append.mp h with h | h
    · exact mem_setField_of_mem m'.1 m'.2 (ih h)
    · obtain rfl := List.mem_singleton.mp h
      exact mem_setField m.1 m.2 (dictOf ms)

/-- Members of one name become one item, with the last value. -/
theorem dictOf_same {key : Text} {ms : List (Text × Json F)} (h : ∀ m ∈ ms, m.1 = key) (v : Json F) :
    dictOf (ms ++ [(key, v)]) = [(key, v)] := by
  induction ms using List.reverseRecOn generalizing v with
  | nil => rfl
  | append_singleton ms m ih =>
    obtain ⟨hms, hm⟩ := List.forall_mem_append.mp h
    have hkey : m = (key, m.2) := Prod.ext (hm m (List.mem_singleton_self m)) rfl
    rw [dictOf_concat, hkey, ih hms m.2]
    exact if_pos rfl

/-- A dictionary of one item is made of members of its name. -/
theorem dictOf_single {key : Text} {v : Json F} {ms : List (Text × Json F)} :
    dictOf ms = [(key, v)] ↔ ∃ front, ms = front ++ [(key, v)] ∧ ∀ m ∈ front, m.1 = key := by
  constructor
  · intro h
    have hkeys : ∀ m ∈ ms, m.1 = key := by
      intro m hm
      have hmem := mem_dictOf hm
      rw [h] at hmem
      simpa using hmem
    rcases List.eq_nil_or_concat ms with rfl | ⟨front, m, rfl⟩
    · cases h
    · rw [List.concat_eq_append] at h hkeys ⊢
      obtain ⟨hfront, hm⟩ := List.forall_mem_append.mp hkeys
      have hkey : m = (key, m.2) := Prod.ext (hm m (List.mem_singleton_self m)) rfl
      rw [hkey, dictOf_same hfront, List.cons.injEq, Prod.mk.injEq] at h
      exact ⟨front, by rw [hkey, h.1.2], hfront⟩
  · rintro ⟨front, rfl, h⟩
    exact dictOf_same h v

end Dictionaries

/-- The texts that are read as a dictionary of one item, a string: those of objects that state its name, once or
more often, and last with this value. -/
theorem loads_single_iff {F : Type} [PyFloat F] {t key q : Text} :
    loads t = some (.obj [(key, (.str q : Json F))]) ↔
      ∃ front, JsonText t (.obj (front ++ [(key, (.str q : Json F))])) ∧ ∀ m ∈ front, m.1 = key := by
  rw [loads_iff]
  constructor
  · rintro ⟨raw, htext, hraw⟩
    obtain ⟨ms, ms', rfl, hms, hdict⟩ := hooked_obj hraw
    obtain ⟨front', rfl, hfront'⟩ := dictOf_single.mp (Json.obj.inj (Except.ok.inj hdict))
    have hlist := hookedMembers_ok_iff.mp hms
    have hfront := List.forall₂_take_append ms front' _ hlist
    have hlast := List.forall₂_drop_append ms front' _ hlist
    rw [List.forall₂_cons_right_iff] at hlast
    obtain ⟨m, rest, ⟨hkey, hvalue⟩, hrest, hdrop⟩ := hlast
    obtain rfl := List.forall₂_nil_right_iff.mp hrest
    have hm : m = (key, .str q) := Prod.ext hkey.symm (hooked_eq_str (fun ms t h => by cases h) hvalue)
    refine ⟨ms.take front'.length, ?_, ?_⟩
    · rw [← hm, ← hdrop, List.take_append_drop]
      exact htext
    · intro m hm
      obtain ⟨m', hm', hsame, -⟩ := forall₂_left hfront hm
      rw [← hsame]
      exact hfront' m' hm'
  · rintro ⟨front, htext, hfront⟩
    refine ⟨_, htext, ?_⟩
    have hvalues : ∀ m ∈ front, ∃ m' : Text × Json F, m'.1 = m.1 ∧ hooked (dictHook (ε := Empty)) m.2 = .ok m'.2 := by
      intro m _
      obtain ⟨v, hv⟩ := hooked_total (fun ms => ⟨_, rfl⟩) m.2
      exact ⟨(m.1, v), rfl, hv⟩
    obtain ⟨front', hfront'⟩ := exists_forall₂ hvalues
    have hmembers : hookedMembers (dictHook (ε := Empty)) (front ++ [(key, .str q)]) = .ok (front' ++ [(key, .str q)]) :=
      hookedMembers_ok_iff.mpr (List.rel_append hfront' (.cons ⟨rfl, by rw [hooked]⟩ .nil))
    have hkeys : ∀ m ∈ front', m.1 = key := by
      intro m' hm'
      obtain ⟨m, hm, hsame, -⟩ := forall₂_right hfront' hm'
      rw [hsame]
      exact hfront m hm
    rw [hooked, hmembers]
    dsimp only
    rw [dictHook, dictOf_same hkeys]

end Json

end TenantRag

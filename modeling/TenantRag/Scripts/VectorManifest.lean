import Mathlib.Data.List.ReduceOption
import TenantRag.Foundations.Result
import TenantRag.Scripts.VectorMigration

/-!
# What the manifest of a migration says

An export that succeeded wrote down the collections of all users, and loading gives them
back.

## What is proved

* `canonicalEntries_spec` — the entries are the names that are decoded, each once.
* `manifestEntries_manifestFields`, `loadManifest_eq` — what was written is loaded as the entries.
* `validateSourceSchema_created` — a collection that is created passes the checks of its schema.
-/

namespace TenantRag

namespace VectorMigration

variable {F : Type} [PyFloat F] {S : Settings}

/-! ### The entries -/

/-- The entries of a manifest, and the names they were taken from. -/
structure Listed (S : Settings) (names : List Text) (entries : List ManifestEntry) : Prop where
  /-- There is one. -/
  ne_nil : entries ≠ []
  /-- No name occurs twice. -/
  nodup : (entries.map ManifestEntry.name).Nodup
  /-- A name is decoded to what the entry says. -/
  decoded : ∀ e ∈ entries, decodedCollection S.pattern e.name = .ok (some (e.userId, e.collectionType))
  /-- The name of an entry is one of the names. -/
  mem : ∀ e ∈ entries, e.name ∈ names
  /-- A name that has no entry is not decoded. -/
  others : ∀ name ∈ names, name ∉ entries.map ManifestEntry.name → decodedCollection S.pattern name = .ok none
  /-- Every user has the three types. -/
  complete : isComplete entries = true

theorem map_reduceOption_sublist {names : List Text} {found : List (Option ManifestEntry)}
    (h : List.Forall₂ (fun name f => ∀ e, f = some e → e.name = name) names found) :
    List.Sublist (found.reduceOption.map ManifestEntry.name) names := by
  induction h with
  | nil => exact .slnil
  | @cons name f names found hf h ih =>
    cases f with
    | none =>
      rw [List.reduceOption_cons_of_none]
      exact ih.cons name
    | some e =>
      rw [List.reduceOption_cons_of_some, List.map_cons, hf e rfl]
      exact ih.cons_cons name

/-- The entries are the names that are decoded, each once. -/
theorem canonicalEntries_spec {names : List Text} {entries : List ManifestEntry} (hnames : names.Nodup)
    (h : canonicalEntries S names = .ok entries) : Listed S names entries := by
  rw [canonicalEntries, bind_eq_ok_iff] at h
  obtain ⟨found, hfound, h⟩ := h
  rw [mapM_eq_ok_iff] at hfound
  dsimp only at h
  split_ifs at h with hbad
  cases h
  rw [not_or] at hbad
  have hperm := List.perm_insertionSort (· ≤ ·) names
  -- What is found under a name is its decoding.
  have hdecoded : ∀ name f, (decodedCollection S.pattern name).map (fun decoded => decoded.map fun d =>
      ManifestEntry.mk name d.1 d.2) = .ok f → ∀ e, f = some e →
      e.name = name ∧ decodedCollection S.pattern name = .ok (some (e.userId, e.collectionType)) := by
    rintro name f hf e rfl
    obtain ⟨decoded, hname, hsome⟩ := map_eq_ok_iff.mp hf
    obtain ⟨d, rfl, rfl⟩ := Option.map_eq_some_iff.mp hsome
    exact ⟨rfl, hname⟩
  have hsublist := map_reduceOption_sublist (hfound.imp fun name f hf e he => (hdecoded name f hf e he).1)
  refine ⟨hbad.1, (hperm.nodup_iff.mpr hnames).sublist hsublist, fun e he => ?_, fun e he => ?_, fun name hname hnot => ?_, ?_⟩
  · obtain ⟨name, -, hf⟩ := forall₂_right hfound (List.reduceOption_mem_iff.mp he)
    obtain ⟨rfl, hname⟩ := hdecoded name _ hf e rfl
    exact hname
  · exact hperm.mem_iff.mp (hsublist.subset (List.mem_map_of_mem he))
  · obtain ⟨f, hmem, hf⟩ := forall₂_left hfound (hperm.mem_iff.mpr hname)
    obtain ⟨decoded, hdecode, rfl⟩ := map_eq_ok_iff.mp hf
    cases decoded with
    | none => exact hdecode
    | some d =>
      have hin : name ∈ found.reduceOption.map ManifestEntry.name :=
        List.mem_map.mpr ⟨⟨name, d.1, d.2⟩, List.reduceOption_mem_iff.mpr hmem, rfl⟩
      exact absurd hin hnot
  · simpa using hbad.2

/-- What is decoded has the name it was decoded from. -/
theorem getCollectionName_of_decoded {name userId collectionType : Text}
    (h : decodedCollection S.pattern name = .ok (some (userId, collectionType))) :
    getCollectionName S.pattern userId collectionType = .ok name := by
  cases hmatch : matchCollection name with
  | none =>
    rw [decodedCollection, hmatch] at h
    cases h
  | some found =>
    obtain ⟨user, hname, hfound⟩ := decodedCollection_ok hmatch h
    cases hfound
    exact hname

/-! ### Loading what was written -/

omit [PyFloat F] in
theorem get?_sortKeys_obj {fields : List (Text × Json F)} (h : (fields.map Prod.fst).Nodup) {key : Text} {v : Json F}
    (hkey : Json.get? fields key = some v) :
    Json.get? (Json.sortFields (Json.sortMembers fields)) key = some (Json.sortKeys v) := by
  rw [Json.get?_sortFields h, hkey]
  rfl

omit [PyFloat F] in
theorem map_fst_fields (e : ManifestEntry) :
    (e.fields F).map Prod.fst = [lit "name", lit "user_id", lit "collection_type", lit "count"] := rfl

theorem manifestEntry_fields {entries : List ManifestEntry} {e : ManifestEntry} (hnew : e.name ∉ entries.map ManifestEntry.name)
    (hname : getCollectionName S.pattern e.userId e.collectionType = .ok e.name) :
    manifestEntry F S entries (Json.sortKeys (.obj (e.fields F))) = .ok (entries ++ [e]) := by
  have hnodup : ((e.fields F).map Prod.fst).Nodup := by
    rw [map_fst_fields]
    decide
  have hget : ∀ (key : Text) (v : Json F), Json.get? (e.fields F) key = some v →
      Json.get? (Json.sortFields (Json.sortMembers (e.fields F))) key = some (Json.sortKeys v) :=
    fun key v => get?_sortKeys_obj hnodup
  have hcount : isZeroCount F (some (Json.sortKeys (.int 0))) = true := by
    rw [Json.sortKeys]
    rfl
  have hkeys : Json.hasKeys (e.fields F) [lit "name", lit "user_id", lit "collection_type", lit "count"] = true := by
    rw [Json.hasKeys, map_fst_fields]
    decide
  rw [Json.sortKeys, manifestEntry]
  rw [hget (lit "name") (.str e.name) rfl, hget (lit "user_id") (.str e.userId) rfl,
    hget (lit "collection_type") (.str e.collectionType) rfl, hget (lit "count") (.int 0) rfl]
  rw [Json.sortKeys_str, Json.sortKeys_str, Json.sortKeys_str]
  dsimp only
  rw [Json.hasKeys_sortFields, hkeys, hcount, if_neg (by simp [hnew]), hname]
  exact if_neg (not_not.mpr rfl)

theorem foldlM_manifestEntry {entries before : List ManifestEntry}
    (hnodup : ((before ++ entries).map ManifestEntry.name).Nodup)
    (hnames : ∀ e ∈ entries, getCollectionName S.pattern e.userId e.collectionType = .ok e.name) :
    (entries.map fun e => Json.sortKeys (.obj (e.fields F))).foldlM (manifestEntry F S) before = .ok (before ++ entries) := by
  induction entries generalizing before with
  | nil => exact congrArg Except.ok (List.append_nil before).symm
  | cons e entries ih =>
    rw [List.forall_mem_cons] at hnames
    have hnew : e.name ∉ before.map ManifestEntry.name := by
      rw [List.map_append, List.map_cons] at hnodup
      exact fun hmem => (List.nodup_append.mp hnodup).2.2 e.name hmem e.name List.mem_cons_self rfl
    have hnodup' : ((before ++ [e] ++ entries).map ManifestEntry.name).Nodup := by rwa [List.append_assoc]
    rw [List.map_cons, List.foldlM_cons, manifestEntry_fields hnew hnames.1]
    exact (ih hnodup' hnames.2).trans (by rw [List.append_assoc]; rfl)

omit [PyFloat F] in
theorem nodup_manifestFields (entries : List ManifestEntry) : ((manifestFields F S entries).map Prod.fst).Nodup := by
  change [lit "schema_version", lit "migration_scope", lit "mapping_state_preserved", lit "embedding_model",
    lit "vector_profile", lit "collections"].Nodup
  decide

/-- The value that was written is loaded as the entries. -/
theorem manifestEntries_manifestFields {names : List Text} {entries : List ManifestEntry} (h : Listed S names entries) :
    manifestEntries F S (Json.sortKeys (.obj (manifestFields F S entries))) = .ok entries := by
  obtain ⟨e, rest, hentries⟩ := List.exists_cons_of_ne_nil h.ne_nil
  have hget : ∀ (key : Text) (v : Json F), Json.get? (manifestFields F S entries) key = some v →
      Json.get? (Json.sortFields (Json.sortMembers (manifestFields F S entries))) key = some (Json.sortKeys v) :=
    fun key v => get?_sortKeys_obj (nodup_manifestFields entries)
  have hstr : ∀ (t : Text), Json.isStr (some (.str t : Json F)) t = true := fun t => decide_eq_true rfl
  have hpreserved : isFalse F (some (Json.sortKeys (.bool false))) = true := by
    rw [Json.sortKeys]
    rfl
  have hcollections : Json.sortKeys (.arr (entries.map fun e => .obj (e.fields F))) =
      .arr (Json.sortKeys (.obj (e.fields F)) :: rest.map fun e => Json.sortKeys (.obj (e.fields F))) := by
    rw [Json.sortKeys, Json.sortItems_eq_map, List.map_map, hentries]
    rfl
  have hfold : (entries.map fun e => Json.sortKeys (.obj (e.fields F))).foldlM (manifestEntry F S) [] = .ok ([] ++ entries) :=
    foldlM_manifestEntry h.nodup fun e he => getCollectionName_of_decoded (h.decoded e he)
  rw [Json.sortKeys, manifestEntries]
  rw [hget (lit "schema_version") _ rfl, hget (lit "migration_scope") _ rfl, hget (lit "mapping_state_preserved") _ rfl,
    hget (lit "embedding_model") _ rfl, hget (lit "vector_profile") _ rfl, hget (lit "collections") _ rfl]
  rw [Json.sortKeys_str, Json.sortKeys_str, Json.sortKeys_str, Json.sortKeys_str, hstr, hstr, hstr, hstr, hpreserved,
    if_neg (by simp), hcollections]
  dsimp only
  rw [← List.map_cons (f := fun e => Json.sortKeys (.obj (ManifestEntry.fields F e))), ← hentries, hfold, List.nil_append]
  change (if (!isComplete entries) = true then _ else _) = _
  rw [h.complete]
  rfl

theorem legible_manifestFields (entries : List ManifestEntry) : Json.Legible (.obj (manifestFields F S entries)) := by
  have hentry : ∀ e : ManifestEntry, Json.Legible (.obj (e.fields F)) := by
    intro e
    refine .obj (by rw [map_fst_fields]; decide) ?_
    intro f hf
    simp only [ManifestEntry.fields, List.mem_cons, List.not_mem_nil, or_false] at hf
    obtain rfl | rfl | rfl | rfl := hf
    · exact .str _
    · exact .str _
    · exact .str _
    · exact .int (by decide)
  refine .obj (nodup_manifestFields entries) ?_
  intro f hf
  simp only [manifestFields, List.mem_cons, List.not_mem_nil, or_false] at hf
  obtain rfl | rfl | rfl | rfl | rfl | rfl := hf
  · exact .str _
  · exact .str _
  · exact .bool _
  · exact .str _
  · exact .str _
  · refine .arr fun v hv => ?_
    obtain ⟨e, -, rfl⟩ := List.mem_map.mp hv
    exact hentry e

/-- The manifest that was written is loaded as the entries. -/
theorem loadManifest_eq {names : List Text} {entries : List ManifestEntry} (h : Listed S names entries) {bytes : List ℕ}
    (hbytes : encodeUtf8 (Json.dumpsVerbatim (.obj (manifestFields F S entries) : Json F)) = .ok bytes) {w : Maintenance}
    (hw : w.manifest = some bytes) : loadManifest F S w = .ok entries w := by
  have hread : (w.manifest.bind fun bytes => (decodeUtf8 bytes).toOption.bind fun text => (Json.loads text : Option (Json F))) =
      some (Json.sortKeys (.obj (manifestFields F S entries))) := by
    rw [hw, Option.bind_some, decodeUtf8_encodeUtf8 hbytes]
    exact Json.loads_dumpsVerbatim (legible_manifestFields entries)
  simp only [loadManifest, bind, EStateM.bind, Eff.read, hread, manifestEntries_manifestFields h]
  rfl

/-! ### Schemas -/

theorem forM_ok {α : Type} {f : α → Except PyError Unit} {l : List α} (h : ∀ x ∈ l, f x = .ok ()) : l.forM f = .ok () := by
  induction l with
  | nil => rfl
  | cons x l ih =>
    rw [List.forall_mem_cons] at h
    change (f x >>= fun _ => l.forM f) = .ok ()
    rw [h.1]
    exact ih h.2

/-- The names of a contract are not empty, and none occurs twice. -/
theorem contractOf_valid (collectionType : Text) :
    ((contractOf collectionType).map Prod.fst).any List.isEmpty = false ∧ ((contractOf collectionType).map Prod.fst).Nodup := by
  unfold contractOf
  split_ifs <;> decide

/-- Properties are checked by their names, so that their order does not matter. -/
theorem validateProperties_of_perm {config : CollectionConfig} {expected : List (Text × PropertyContract)}
    (h : config.properties.Perm expected)
    (hvalid : (expected.map Prod.fst).any List.isEmpty = false ∧ (expected.map Prod.fst).Nodup) :
    validateProperties config expected = .ok () := by
  have hnames := h.map Prod.fst
  have hnodup : (config.properties.map Prod.fst).Nodup := hnames.nodup_iff.mpr hvalid.2
  have hsame : (config.properties.map Prod.fst).all (· ∈ expected.map Prod.fst) = true ∧
      (expected.map Prod.fst).all (· ∈ config.properties.map Prod.fst) = true := by
    simp only [List.all_eq_true, decide_eq_true_eq]
    exact ⟨fun name hname => hnames.mem_iff.mp hname, fun name hname => hnames.mem_iff.mpr hname⟩
  rw [validateProperties, hnames.any_eq, hvalid.1, if_neg (by simp [hnodup]), if_neg (not_not.mpr hsame)]
  refine forM_ok fun p hp => ?_
  rw [validateProperty, (Dict.lookup_eq_some_iff hnodup).mpr (h.mem_iff.mpr hp)]
  simp

theorem validateNamedVector_of_asked {vector : Text × NamedVector} (h : AskedVector vector) :
    validateNamedVector vector = .ok () := by
  obtain ⟨hvectorizer, hsource, hmulti⟩ := h
  rw [validateNamedVector, if_neg (not_not.mpr hvectorizer), if_neg (not_not.mpr hsource), hmulti]
  by_cases hlate : vector.1 = lateInteractionVectorName
  · rw [if_pos hlate, if_pos hlate]
    rfl
  · rw [if_neg hlate, if_neg hlate]
    exact if_neg (not_not.mpr rfl)

theorem validateVectorConfig_of_asked {config : CollectionConfig} {vectors : Dict Text NamedVector}
    (hvectors : config.vectorConfig = some vectors) (hkeys : vectors.keys.Perm [lateInteractionVectorName, mmrDiversityVectorName])
    (hasked : ∀ vector ∈ vectors.entries, AskedVector vector) : validateVectorConfig config = .ok () := by
  have hsame : vectors.keys.all (· ∈ [lateInteractionVectorName, mmrDiversityVectorName]) = true ∧
      [lateInteractionVectorName, mmrDiversityVectorName].all (· ∈ vectors.keys) = true := by
    simp only [List.all_eq_true, decide_eq_true_eq]
    exact ⟨fun name hname => hkeys.mem_iff.mp hname, fun name hname => hkeys.mem_iff.mpr hname⟩
  rw [validateVectorConfig, hvectors]
  dsimp only
  rw [if_neg (not_not.mpr hsame)]
  exact forM_ok fun vector hvector => validateNamedVector_of_asked (hasked vector hvector)


/-- A collection that is created passes the checks of its schema. -/
theorem validateSourceSchema_created (S : Settings) (name collectionType : Text) :
    validateSourceSchema (createdCollection S name collectionType).config name collectionType = .ok () := by
  have hproperties := validateProperties_of_perm (S.created_properties name collectionType) (contractOf_valid collectionType)
  obtain ⟨vectors, hvectors, hkeys, hasked⟩ := S.created_vectors name collectionType
  have hvector : validateVectorConfig (S.created name collectionType) = .ok () := validateVectorConfig_of_asked hvectors hkeys hasked
  rw [validateSourceSchema, createdCollection]
  dsimp only
  rw [if_neg (not_not.mpr (S.created_name name collectionType)), if_neg (not_not.mpr (S.created_references name collectionType)),
    hproperties]
  simp only [bind, Except.bind, hvector]

end VectorMigration

end TenantRag

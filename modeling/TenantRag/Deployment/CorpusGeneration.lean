import TenantRag.Deployment.CorpusDocument
import TenantRag.Foundations.Sha256
import TenantRag.Foundations.Timestamp

/-!
# Generations of the diagnostic corpus

`CorpusGeneration` of `deployment/wizard_diagnostic.py`: the documents of one upload
of the fixtures, with the inventory of the fixtures, the ingestion policy, and what
`__post_init__` checks as fields.

## The model

The registry of codecs, SHA-256 and the texts that `datetime.fromisoformat` reads
besides those of `isoformat` are parameters. An inventory and a policy are read from
JSON values; their dictionaries have fixed keys and are structures here.

## What is proved

* `validateFixtureInventory_json`, `validateIngestionPolicy_json` — what passes its check is
  read as itself.
* `make_values` — a generation is built again from its own values.
* `make_eq_ok` — what is built has the values it was built from.
-/

namespace TenantRag

/-- What the corpus state depends on besides its own values; `F` are the floats of its files. -/
structure CorpusEnv (F : Type) where
  /-- `codecs.lookup(encoding).name`; `none` is a `LookupError`. -/
  codecName : Text → Option Text
  /-- `hashlib.sha256`. -/
  sha : List ℕ → Sha256
  /-- What `datetime.fromisoformat` makes of a text that `isoformat` does not write. -/
  otherTimestamp : Text → Option Bool

variable {F : Type}

/-- The value of a computation that ended normally, which it is. -/
def attachOk {ε α : Type} (x : Except ε α) : Except ε { a : α // x = .ok a } :=
  match x with
  | .error e => .error e
  | .ok a => .ok ⟨a, rfl⟩

theorem attachOk_eq {ε α : Type} {x : Except ε α} {a : α} (h : x = .ok a) : attachOk x = .ok ⟨a, h⟩ := by
  subst h
  rfl

namespace Json

/-- The strings that the items of a list are, where all are strings. -/
def texts : List (Json F) → Option (List Text)
  | [] => some []
  | .str t :: items => (texts items).map (t :: ·)
  | _ :: _ => none

theorem texts_map_str (ts : List Text) : texts (ts.map fun t => (.str t : Json F)) = some ts := by
  induction ts with
  | nil => rfl
  | cons t ts ih => rw [List.map_cons, texts, ih, Option.map_some]

end Json

/-! ### Timestamps -/

/-- `_validated_timestamp(value, name)`. -/
def validatedTimestamp (env : CorpusEnv F) (value : Json F) (name : String) : Except PyError Text :=
  match value with
  | .str t =>
      if t = [] then .error (wizardDiagnosticError s!"{name} must be a timestamp string")
      else
        match fromIsoFormat env.otherTimestamp (textReplace [90] utcOffset t) with
        | none => .error (wizardDiagnosticError s!"{name} must be an ISO-8601 timestamp")
        | some false => .error (wizardDiagnosticError s!"{name} must include a timezone")
        | some true => .ok t
  | _ => .error (wizardDiagnosticError s!"{name} must be a timestamp string")

/-- A text that `_validated_timestamp` accepts. -/
def CorpusEnv.IsTimestamp (env : CorpusEnv F) (t : Text) : Prop :=
  t ≠ [] ∧ fromIsoFormat env.otherTimestamp (textReplace [90] utcOffset t) = some true

instance (env : CorpusEnv F) (t : Text) : Decidable (env.IsTimestamp t) := by
  unfold CorpusEnv.IsTimestamp
  infer_instance

theorem isTimestamp_timestamp (env : CorpusEnv F) (t : UtcTime) : env.IsTimestamp (timestamp t) := by
  refine ⟨?_, fromIsoFormat_timestamp env.otherTimestamp t⟩
  rw [timestamp_eq]
  simp

theorem isTimestamp_of_ok {env : CorpusEnv F} {t s : Text} {name : String}
    (h : validatedTimestamp env (.str t) name = .ok s) : env.IsTimestamp t := by
  rw [validatedTimestamp] at h
  split_ifs at h with hnil
  split at h
  · cases h
  · cases h
  · rename_i hread
    exact ⟨hnil, hread⟩

theorem validatedTimestamp_str {env : CorpusEnv F} {t : Text} (h : env.IsTimestamp t) (name : String) :
    validatedTimestamp env (.str t) name = .ok t := by
  rw [validatedTimestamp, if_neg h.1, h.2]

/-! ### The inventory of the fixtures -/

/-- An entry of the manifest. -/
structure FixtureEntry where
  /-- `path`. -/
  path : Text
  /-- `size_bytes`. -/
  sizeBytes : ℤ
  /-- `sha256`. -/
  sha256 : Text
  deriving DecidableEq

/-- The manifest. -/
structure FixtureInventory where
  /-- `knowledge`. -/
  knowledge : List FixtureEntry
  /-- `policy`. -/
  policy : List FixtureEntry
  deriving DecidableEq

/-- `Path(path).parts` of a relative path. -/
def pathParts (path : Text) : List Text := (path.splitOn 47).filter fun part => part ≠ [] ∧ part ≠ [46]

/-- The checks on `path`: it is normal, and names a file of the collection that is not hidden. -/
def isFixturePath (collection : FixtureCollection) (path : Text) : Bool :=
  (collection.name ++ [47]).isPrefixOf path && ((pathParts path).getLast?.getD []).head? ≠ some 46 &&
    join [47] (pathParts path) = path && (pathParts path).length = 2

/-- The entry passes the checks of the manifest. -/
def FixtureEntry.isValid (collection : FixtureCollection) (e : FixtureEntry) : Bool :=
  isFixturePath collection e.path && 0 ≤ e.sizeBytes && isSha256Text e.sha256

/-- `_FIXTURE_KEYS`. -/
def fixtureKeys : List Text := [lit "path", lit "size_bytes", lit "sha256"]

/-- The members of an entry. -/
def FixtureEntry.fields (e : FixtureEntry) : List (Text × Json F) :=
  [(lit "path", .str e.path), (lit "size_bytes", .int e.sizeBytes), (lit "sha256", .str e.sha256)]

/-- An entry as a JSON value. -/
def FixtureEntry.json (e : FixtureEntry) : Json F := .obj e.fields

/-- The entry that a JSON value is. -/
def fixtureEntryOf (collection : FixtureCollection) (value : Json F) : Option FixtureEntry :=
  match value with
  | .obj fields =>
      if Json.hasKeys fields fixtureKeys then do
        let path ← Json.textAt fields (lit "path")
        let sizeBytes ← Json.intAt fields (lit "size_bytes")
        let sha256 ← Json.textAt fields (lit "sha256")
        if FixtureEntry.isValid collection ⟨path, sizeBytes, sha256⟩ then some ⟨path, sizeBytes, sha256⟩ else none
      else none
  | _ => none

/-- `_validate_fixture_inventory` of one collection. -/
def validateFixtureFiles (collection : FixtureCollection) (value : Option (Json F)) :
    Except PyError (List FixtureEntry) :=
  match value with
  | some (.arr (raw :: raws)) => do
      let files ← (raw :: raws).mapM fun rawFile =>
        match fixtureEntryOf collection rawFile with
        | some file => .ok file
        | none => .error (wizardDiagnosticError "Corpus fixture entry is malformed")
      let _ ← require (SortedUnique (files.map FixtureEntry.path))
        "Corpus fixture manifest must be unique and lexically ordered"
      .ok files
  | _ => .error (wizardDiagnosticError "Corpus fixture manifest is malformed")

/-- The names of the collections. -/
def collectionNames : List Text := [lit "knowledge", lit "policy"]

/-- `_validate_fixture_inventory(value)`. -/
def validateFixtureInventory (value : Json F) : Except PyError FixtureInventory :=
  match value with
  | .obj fields =>
      if Json.hasKeys fields collectionNames then do
        let knowledge ← validateFixtureFiles .knowledge (Json.get? fields (lit "knowledge"))
        let policy ← validateFixtureFiles .policy (Json.get? fields (lit "policy"))
        .ok ⟨knowledge, policy⟩
      else .error (wizardDiagnosticError "Corpus fixture manifest is malformed")
  | _ => .error (wizardDiagnosticError "Corpus fixture manifest is malformed")

/-- The members of the manifest. -/
def FixtureInventory.fields (inventory : FixtureInventory) : List (Text × Json F) :=
  [(lit "knowledge", .arr (inventory.knowledge.map FixtureEntry.json)),
    (lit "policy", .arr (inventory.policy.map FixtureEntry.json))]

/-- The manifest as a JSON value. -/
def FixtureInventory.json (inventory : FixtureInventory) : Json F := .obj inventory.fields

/-- `_fixture_digest(value, text_encoding, separator)`. -/
def fixtureDigest [PyFloat F] (env : CorpusEnv F) (value : Json F) (textEncoding separator : Text) : Except PyError Text := do
  let inventory ← validateFixtureInventory value
  let identity : Json F := .obj [(lit "fixtures", inventory.json), (lit "text_encoding", .str textEncoding),
    (lit "text_join_separator", .str separator)]
  let encoded ← encodeUtf8 (Json.dumpsSorted identity)
  .ok (env.sha encoded).hexdigest

/-- The files of a collection pass the checks. -/
def ValidFiles (collection : FixtureCollection) (files : List FixtureEntry) : Prop :=
  files ≠ [] ∧ (∀ e ∈ files, e.isValid collection = true) ∧ SortedUnique (files.map FixtureEntry.path)

/-- The manifest passes the checks. -/
def FixtureInventory.Valid (inventory : FixtureInventory) : Prop :=
  ValidFiles .knowledge inventory.knowledge ∧ ValidFiles .policy inventory.policy

theorem FixtureEntry.nodup_fields (e : FixtureEntry) : ((e.fields : List (Text × Json F)).map Prod.fst).Nodup :=
  show fixtureKeys.Nodup by decide

theorem FixtureInventory.nodup_fields (inventory : FixtureInventory) :
    ((inventory.fields : List (Text × Json F)).map Prod.fst).Nodup :=
  show collectionNames.Nodup by decide

theorem fixtureEntryOf_json (collection : FixtureCollection) (e : FixtureEntry) :
    fixtureEntryOf collection (e.json : Json F) = if e.isValid collection then some e else none := rfl

theorem fixtureEntryOf_sortKeys (collection : FixtureCollection) (e : FixtureEntry) :
    fixtureEntryOf collection (Json.sortKeys (e.json : Json F)) = if e.isValid collection then some e else none := by
  rw [← fixtureEntryOf_json (F := F), FixtureEntry.json, Json.sortKeys, fixtureEntryOf, fixtureEntryOf,
    Json.hasKeys_sortFields, Json.textAt_sortFields e.nodup_fields, Json.textAt_sortFields e.nodup_fields,
    Json.intAt_sortFields e.nodup_fields]

/-- A reader that makes of each shown value the value itself does so with a list. -/
theorem mapM_map_eq_ok_iff {ε α β : Type} {g : α → Except ε β} {valid : β → Prop} {view : β → α}
    (h : ∀ b c, g (view b) = .ok c ↔ c = b ∧ valid b) (bs cs : List β) :
    (bs.map view).mapM g = .ok cs ↔ cs = bs ∧ ∀ b ∈ bs, valid b := by
  rw [mapM_eq_ok_iff, List.forall₂_map_left_iff]
  induction bs generalizing cs with
  | nil => simp
  | cons b bs ih =>
    rw [List.forall₂_cons_left_iff, List.forall_mem_cons]
    constructor
    · rintro ⟨c, cs', hc, hcs, rfl⟩
      obtain ⟨rfl, hb⟩ := (h b c).mp hc
      obtain ⟨rfl, hbs⟩ := (ih cs').mp hcs
      exact ⟨rfl, hb, hbs⟩
    · rintro ⟨rfl, hb, hbs⟩
      exact ⟨b, bs, (h b b).mpr ⟨rfl, hb⟩, (ih bs).mpr ⟨rfl, hbs⟩, rfl⟩

/-- Files are read as themselves, whatever shape their entries have. -/
theorem validateFixtureFiles_map {collection : FixtureCollection} {view : FixtureEntry → Json F}
    (hview : ∀ e, fixtureEntryOf collection (view e) = if e.isValid collection then some e else none)
    (files fs : List FixtureEntry) :
    validateFixtureFiles collection (some (.arr (files.map view))) = .ok fs ↔ fs = files ∧ ValidFiles collection files := by
  have hread : ∀ e f, (match fixtureEntryOf collection (view e) with
      | some file => .ok file
      | none => .error (wizardDiagnosticError "Corpus fixture entry is malformed") : Except PyError FixtureEntry) = .ok f ↔
        f = e ∧ e.isValid collection = true := by
    intro e f
    rw [hview]
    by_cases he : e.isValid collection = true
    · simp [he, eq_comm]
    · simp [he]
  cases files with
  | nil => simp [validateFixtureFiles, ValidFiles]
  | cons e es =>
    rw [List.map_cons, validateFixtureFiles, ← List.map_cons (f := view), bind_eq_ok_iff]
    constructor
    · rintro ⟨read, hmap, h⟩
      obtain ⟨rfl, hvalid⟩ := (mapM_map_eq_ok_iff hread _ _).mp hmap
      obtain ⟨hsorted, -, h⟩ := bind_eq_ok_iff.mp h
      exact ⟨(Except.ok.inj h).symm, List.cons_ne_nil e es, hvalid, hsorted.down⟩
    · rintro ⟨rfl, -, hvalid, hsorted⟩
      refine ⟨e :: es, (mapM_map_eq_ok_iff hread _ _).mpr ⟨rfl, hvalid⟩, ?_⟩
      rw [require_eq_ok hsorted]
      rfl

/-- A manifest is read as itself, whatever shape its entries have and in whatever order its members are. -/
theorem validateFixtureInventory_obj {view : FixtureEntry → Json F}
    (hview : ∀ c e, fixtureEntryOf c (view e) = if e.isValid c then some e else none)
    {fields : List (Text × Json F)} {inventory : FixtureInventory} (hkeys : Json.hasKeys fields collectionNames = true)
    (hknowledge : Json.get? fields (lit "knowledge") = some (.arr (inventory.knowledge.map view)))
    (hpolicy : Json.get? fields (lit "policy") = some (.arr (inventory.policy.map view))) (read : FixtureInventory) :
    validateFixtureInventory (.obj fields) = .ok read ↔ read = inventory ∧ inventory.Valid := by
  rw [validateFixtureInventory, if_pos hkeys, hknowledge, hpolicy, bind_eq_ok_iff]
  constructor
  · rintro ⟨knowledge, hk, h⟩
    obtain ⟨policy, hp, h⟩ := bind_eq_ok_iff.mp h
    obtain ⟨rfl, hvk⟩ := (validateFixtureFiles_map (hview .knowledge) _ _).mp hk
    obtain ⟨rfl, hvp⟩ := (validateFixtureFiles_map (hview .policy) _ _).mp hp
    exact ⟨(Except.ok.inj h).symm, hvk, hvp⟩
  · rintro ⟨rfl, hvk, hvp⟩
    refine ⟨read.knowledge, (validateFixtureFiles_map (hview .knowledge) _ _).mpr ⟨rfl, hvk⟩, bind_eq_ok_iff.mpr ?_⟩
    exact ⟨read.policy, (validateFixtureFiles_map (hview .policy) _ _).mpr ⟨rfl, hvp⟩, rfl⟩

theorem validateFixtureInventory_json (inventory read : FixtureInventory) :
    validateFixtureInventory (inventory.json : Json F) = .ok read ↔ read = inventory ∧ inventory.Valid :=
  validateFixtureInventory_obj fixtureEntryOf_json (show Json.hasKeys _ _ = true from rfl) rfl rfl read

/-- So it is with sorted members. -/
theorem validateFixtureInventory_sortKeys (inventory read : FixtureInventory) :
    validateFixtureInventory (Json.sortKeys (inventory.json : Json F)) = .ok read ↔ read = inventory ∧ inventory.Valid := by
  have hfiles : ∀ files : List FixtureEntry, Json.sortKeys (.arr (files.map FixtureEntry.json) : Json F) =
      .arr (files.map fun e => Json.sortKeys e.json) := by
    intro files
    rw [Json.sortKeys, Json.sortItems_eq_map, List.map_map]
    rfl
  rw [FixtureInventory.json, Json.sortKeys]
  refine validateFixtureInventory_obj fixtureEntryOf_sortKeys ?_ ?_ ?_ read
  · rw [Json.hasKeys_sortFields]
    rfl
  · rw [Json.get?_sortFields inventory.nodup_fields]
    exact congrArg some (hfiles inventory.knowledge)
  · rw [Json.get?_sortFields inventory.nodup_fields]
    exact congrArg some (hfiles inventory.policy)

/-! ### The ingestion policy -/

/-- The ingestion policy. -/
structure IngestionPolicy where
  /-- `supported_extensions`. -/
  supportedExtensions : List Text
  /-- `upload_max_file_bytes`. -/
  uploadMaxFileBytes : ℤ
  /-- `upload_max_total_bytes`. -/
  uploadMaxTotalBytes : ℤ
  /-- `upload_read_chunk_bytes`. -/
  uploadReadChunkBytes : ℤ
  deriving DecidableEq

/-- `_INGESTION_POLICY_KEYS`. -/
def ingestionPolicyKeys : List Text :=
  [lit "supported_extensions", lit "upload_max_file_bytes", lit "upload_max_total_bytes", lit "upload_read_chunk_bytes"]

/-- The members of the policy. -/
def IngestionPolicy.fields (policy : IngestionPolicy) : List (Text × Json F) :=
  [(lit "supported_extensions", .arr (policy.supportedExtensions.map .str)),
    (lit "upload_max_file_bytes", .int policy.uploadMaxFileBytes),
    (lit "upload_max_total_bytes", .int policy.uploadMaxTotalBytes),
    (lit "upload_read_chunk_bytes", .int policy.uploadReadChunkBytes)]

/-- The policy as a JSON value. -/
def IngestionPolicy.json (policy : IngestionPolicy) : Json F := .obj policy.fields

/-- The check on the extensions: there are some, each begins with a point, and they are sorted. -/
def areExtensions (extensions : List Text) : Bool :=
  !extensions.isEmpty && extensions.all (fun item => item.head? = some 46) &&
    extensions = extensions.dedup.insertionSort (fun a b => a ≤ b)

/-- The extensions that a JSON value lists. -/
def extensionsOf (value : Option (Json F)) : Option (List Text) :=
  match value with
  | some (.arr items) => (Json.texts items).filter areExtensions
  | _ => none

/-- The limit under a key, where it is a positive integer. -/
def limitAt (fields : List (Text × Json F)) (key : Text) : Option ℤ := (Json.intAt fields key).filter (0 < ·)

/-- The policy with the limits of a JSON value. -/
def limitsOf (extensions : List Text) (fields : List (Text × Json F)) : Option IngestionPolicy := do
  let maxFile ← limitAt fields (lit "upload_max_file_bytes")
  let maxTotal ← limitAt fields (lit "upload_max_total_bytes")
  let readChunk ← limitAt fields (lit "upload_read_chunk_bytes")
  some ⟨extensions, maxFile, maxTotal, readChunk⟩

/-- `_validate_ingestion_policy(value)`. -/
def validateIngestionPolicy (value : Json F) : Except PyError IngestionPolicy :=
  match value with
  | .obj fields =>
      if Json.hasKeys fields ingestionPolicyKeys then
        match extensionsOf (Json.get? fields (lit "supported_extensions")) with
        | none => .error (wizardDiagnosticError "Corpus ingestion policy extensions are malformed")
        | some extensions =>
            match limitsOf extensions fields with
            | none => .error (wizardDiagnosticError "Corpus ingestion policy limits are malformed")
            | some policy =>
                if policy.uploadMaxTotalBytes < policy.uploadMaxFileBytes then
                  .error (wizardDiagnosticError "Corpus ingestion policy limits are inconsistent")
                else if policy.uploadMaxFileBytes < policy.uploadReadChunkBytes then
                  .error (wizardDiagnosticError "Corpus ingestion policy read size is inconsistent")
                else .ok policy
      else .error (wizardDiagnosticError "Corpus ingestion policy is malformed")
  | _ => .error (wizardDiagnosticError "Corpus ingestion policy is malformed")

/-- The policy passes its check. -/
def IngestionPolicy.Valid (policy : IngestionPolicy) : Prop :=
  areExtensions policy.supportedExtensions = true ∧ 0 < policy.uploadMaxFileBytes ∧ 0 < policy.uploadMaxTotalBytes ∧
    0 < policy.uploadReadChunkBytes ∧ policy.uploadMaxFileBytes ≤ policy.uploadMaxTotalBytes ∧
    policy.uploadReadChunkBytes ≤ policy.uploadMaxFileBytes

theorem limitsOf_fields (policy : IngestionPolicy) :
    limitsOf policy.supportedExtensions (policy.fields : List (Text × Json F)) =
      if 0 < policy.uploadMaxFileBytes ∧ 0 < policy.uploadMaxTotalBytes ∧ 0 < policy.uploadReadChunkBytes then some policy
      else none := by
  have hfile : limitAt (policy.fields : List (Text × Json F)) (lit "upload_max_file_bytes") =
      (some policy.uploadMaxFileBytes).filter (0 < ·) := rfl
  have htotal : limitAt (policy.fields : List (Text × Json F)) (lit "upload_max_total_bytes") =
      (some policy.uploadMaxTotalBytes).filter (0 < ·) := rfl
  have hchunk : limitAt (policy.fields : List (Text × Json F)) (lit "upload_read_chunk_bytes") =
      (some policy.uploadReadChunkBytes).filter (0 < ·) := rfl
  rw [limitsOf, hfile, htotal, hchunk]
  by_cases hf : 0 < policy.uploadMaxFileBytes
  · by_cases ht : 0 < policy.uploadMaxTotalBytes
    · by_cases hc : 0 < policy.uploadReadChunkBytes
      · simp [hf, ht, hc, Option.filter]
      · simp [hf, ht, hc, Option.filter]
    · simp [hf, ht, Option.filter]
  · simp [hf, Option.filter]

/-- A policy is read as itself. -/
theorem validateIngestionPolicy_json (policy read : IngestionPolicy) :
    validateIngestionPolicy (policy.json : Json F) = .ok read ↔ read = policy ∧ policy.Valid := by
  have hkeys : Json.hasKeys (policy.fields : List (Text × Json F)) ingestionPolicyKeys = true := rfl
  have hget : Json.get? (policy.fields : List (Text × Json F)) (lit "supported_extensions") =
      some (.arr (policy.supportedExtensions.map .str)) := rfl
  have hextensions : extensionsOf (some (.arr (policy.supportedExtensions.map .str)) : Option (Json F)) =
      if areExtensions policy.supportedExtensions = true then some policy.supportedExtensions else none := by
    rw [extensionsOf, Json.texts_map_str]
    rfl
  rw [IngestionPolicy.json, validateIngestionPolicy, if_pos hkeys, hget, hextensions, IngestionPolicy.Valid]
  by_cases he : areExtensions policy.supportedExtensions = true
  case neg => simp [he]
  rw [if_pos he]
  dsimp only
  rw [limitsOf_fields]
  by_cases hl : 0 < policy.uploadMaxFileBytes ∧ 0 < policy.uploadMaxTotalBytes ∧ 0 < policy.uploadReadChunkBytes
  case neg =>
    rw [if_neg hl]
    simp only [reduceCtorEq, false_iff]
    exact fun h => hl ⟨h.2.2.1, h.2.2.2.1, h.2.2.2.2.1⟩
  rw [if_pos hl]
  dsimp only
  split_ifs with htotal hchunk
  · simp only [false_iff]
    exact fun h => absurd h.2.2.2.2.2.1 (Int.not_le.mpr htotal)
  · simp only [false_iff]
    exact fun h => absurd h.2.2.2.2.2.2 (Int.not_le.mpr hchunk)
  · rw [Except.ok.injEq, eq_comm]
    exact ⟨fun h => ⟨h, he, hl.1, hl.2.1, hl.2.2, Int.not_lt.mp htotal, Int.not_lt.mp hchunk⟩, fun h => h.1⟩

/-- So it is with sorted members. -/
theorem validateIngestionPolicy_sortKeys (policy read : IngestionPolicy) :
    validateIngestionPolicy (Json.sortKeys (policy.json : Json F)) = .ok read ↔ read = policy ∧ policy.Valid := by
  have hnodup : ((policy.fields : List (Text × Json F)).map Prod.fst).Nodup := show ingestionPolicyKeys.Nodup by decide
  have hget : Json.get? (Json.sortFields (Json.sortMembers (policy.fields : List (Text × Json F)))) (lit "supported_extensions") =
      Json.get? policy.fields (lit "supported_extensions") := by
    rw [Json.get?_sortFields hnodup]
    exact congrArg some (Json.sortKeys_strings policy.supportedExtensions)
  have hlimits : ∀ extensions, limitsOf extensions (Json.sortFields (Json.sortMembers (policy.fields : List (Text × Json F)))) =
      limitsOf extensions (policy.fields : List (Text × Json F)) := by
    intro extensions
    simp only [limitsOf, limitAt, Json.intAt_sortFields hnodup]
  rw [← validateIngestionPolicy_json (F := F) policy read, IngestionPolicy.json, Json.sortKeys, validateIngestionPolicy,
    validateIngestionPolicy, Json.hasKeys_sortFields, hget]
  simp only [hlimits]

/-! ### Generations -/

/-- `set(names) == set(WIZARD_FIXTURE_COLLECTIONS)`, and every document is saved. -/
def Complete (documents : List CorpusDocument) : Prop :=
  (.knowledge ∈ documents.map CorpusDocument.collection ∧ .policy ∈ documents.map CorpusDocument.collection) ∧
    ∀ d ∈ documents, d.status = .saved

instance (documents : List CorpusDocument) : Decidable (Complete documents) := by
  unfold Complete
  infer_instance

namespace CorpusGeneration

/-- The check on an identifier. -/
def identityOf (value : Json F) : Except PyError { t : Text // t ≠ [] } :=
  match value with
  | .str t => if h : t ≠ [] then .ok ⟨t, h⟩ else .error (wizardDiagnosticError "Corpus generation identity is invalid")
  | _ => .error (wizardDiagnosticError "Corpus generation identity is invalid")

/-- The checks on the encoding. -/
def encodingOf (env : CorpusEnv F) (value : Json F) : Except PyError { t : Text // env.codecName t = some t } :=
  match value with
  | .str t =>
      match env.codecName t with
      | none => .error (wizardDiagnosticError "Corpus generation encoding is invalid")
      | some _ =>
          if h : env.codecName t = some t then .ok ⟨t, h⟩
          else .error (wizardDiagnosticError "Corpus generation encoding is not canonical")
  | _ => .error (wizardDiagnosticError "Corpus generation encoding is invalid")

/-- The check on the separator. -/
def separatorOf (value : Json F) : Except PyError Text :=
  match value with
  | .str t => .ok t
  | _ => .error (wizardDiagnosticError "Corpus generation separator is invalid")

/-- The check on the policy. -/
def checkPolicy (F : Type) (policy : IngestionPolicy) : Except PyError (PLift policy.Valid) := do
  let read ← attachOk (validateIngestionPolicy (policy.json : Json F))
  .ok ⟨((validateIngestionPolicy_json policy read.val).mp read.property).2⟩

/-- The checks on `verified_at`. -/
def checkVerified (env : CorpusEnv F) (documents : List CorpusDocument) (verifiedAt : Option Text) :
    Except PyError (PLift (∀ t, verifiedAt = some t → env.IsTimestamp t ∧ Complete documents)) :=
  match verifiedAt with
  | none => .ok ⟨nofun⟩
  | some t => do
      let read ← attachOk (validatedTimestamp env (.str t) "verified_at")
      let complete ← require (Complete documents) "Verified corpus generation is incomplete"
      .ok ⟨fun _ heq => Option.some.inj heq ▸ ⟨isTimestamp_of_ok read.property, complete.down⟩⟩

/-- The checks on `completed_at`. -/
def checkCompleted (env : CorpusEnv F) (verifiedAt completedAt : Option Text) :
    Except PyError (PLift (∀ t, completedAt = some t → env.IsTimestamp t ∧ verifiedAt ≠ none)) :=
  match completedAt with
  | none => .ok ⟨nofun⟩
  | some t => do
      let read ← attachOk (validatedTimestamp env (.str t) "completed_at")
      let verified ← require (verifiedAt ≠ none) "Completed corpus generation was not verified"
      .ok ⟨fun _ heq => Option.some.inj heq ▸ ⟨isTimestamp_of_ok read.property, verified.down⟩⟩

theorem identityOf_str {t : Text} (h : t ≠ []) : identityOf (.str t : Json F) = .ok ⟨t, h⟩ := dif_pos h

theorem encodingOf_str {env : CorpusEnv F} {t : Text} (h : env.codecName t = some t) :
    encodingOf env (.str t) = .ok ⟨t, h⟩ := by
  rw [encodingOf]
  split
  · rename_i hnone
    rw [h] at hnone
    cases hnone
  · exact dif_pos h

theorem identityOf_eq_ok {value : Json F} {t : { t : Text // t ≠ [] }} (h : identityOf value = .ok t) :
    value = .str t.val := by
  cases value with
  | str s =>
    rw [identityOf] at h
    split_ifs at h
    rw [← Except.ok.inj h]
  | _ => cases h

theorem encodingOf_eq_ok {env : CorpusEnv F} {value : Json F} {t : { t : Text // env.codecName t = some t }}
    (h : encodingOf env value = .ok t) : value = .str t.val := by
  cases value with
  | str s =>
    rw [encodingOf] at h
    split at h
    · cases h
    · split_ifs at h
      rw [← Except.ok.inj h]
  | _ => cases h

theorem separatorOf_eq_ok {value : Json F} {t : Text} (h : separatorOf value = .ok t) : value = .str t := by
  cases value with
  | str s => rw [Except.ok.inj h]
  | _ => cases h

theorem checkPolicy_eq {policy : IngestionPolicy} (h : policy.Valid) : checkPolicy F policy = .ok ⟨h⟩ := by
  rw [checkPolicy, attachOk_eq ((validateIngestionPolicy_json (F := F) policy policy).mpr ⟨rfl, h⟩)]
  rfl

theorem checkVerified_eq {env : CorpusEnv F} {documents : List CorpusDocument} {verifiedAt : Option Text}
    (h : ∀ t, verifiedAt = some t → env.IsTimestamp t ∧ Complete documents) :
    checkVerified env documents verifiedAt = .ok ⟨h⟩ := by
  cases verifiedAt with
  | none => rfl
  | some t =>
    obtain ⟨htime, hcomplete⟩ := h t rfl
    rw [checkVerified, attachOk_eq (validatedTimestamp_str htime "verified_at"), require_eq_ok hcomplete]
    rfl

theorem checkCompleted_eq {env : CorpusEnv F} {verifiedAt completedAt : Option Text}
    (h : ∀ t, completedAt = some t → env.IsTimestamp t ∧ verifiedAt ≠ none) :
    checkCompleted env verifiedAt completedAt = .ok ⟨h⟩ := by
  cases completedAt with
  | none => rfl
  | some t =>
    obtain ⟨htime, hverified⟩ := h t rfl
    rw [checkCompleted, attachOk_eq (validatedTimestamp_str htime "completed_at"), require_eq_ok hverified]
    rfl

end CorpusGeneration

variable [PyFloat F]

/-- `CorpusGeneration`. -/
structure CorpusGeneration (env : CorpusEnv F) where
  /-- `generation_id`. -/
  generationId : Text
  /-- `fixture_digest`. -/
  fixtureDigest : Text
  /-- `fixtures`. -/
  fixtures : FixtureInventory
  /-- `text_encoding`. -/
  textEncoding : Text
  /-- `text_join_separator`. -/
  textJoinSeparator : Text
  /-- `ingestion_policy`. -/
  ingestionPolicy : IngestionPolicy
  /-- `documents`. -/
  documents : List CorpusDocument
  /-- `created_at`. -/
  createdAt : Text
  /-- `verified_at`. -/
  verifiedAt : Option Text
  /-- `completed_at`. -/
  completedAt : Option Text
  /-- Neither the identifier nor the digest is empty. -/
  identity : generationId ≠ [] ∧ fixtureDigest ≠ []
  /-- The encoding is the canonical name of a codec. -/
  encoding : env.codecName textEncoding = some textEncoding
  /-- The digest is that of the fixtures. -/
  digest : TenantRag.fixtureDigest env fixtures.json textEncoding textJoinSeparator = .ok fixtureDigest
  /-- The policy passes its check. -/
  policy : ingestionPolicy.Valid
  /-- No collection has two documents. -/
  collections : (documents.map CorpusDocument.collection).Nodup
  /-- A verified generation is complete. -/
  verified : ∀ t, verifiedAt = some t → env.IsTimestamp t ∧ Complete documents
  /-- A completed generation was verified. -/
  completed : ∀ t, completedAt = some t → env.IsTimestamp t ∧ verifiedAt ≠ none

/-- The arguments of the constructor. -/
structure GenerationValues (F : Type) where
  /-- `generation_id`. -/
  generationId : Json F
  /-- `fixture_digest`. -/
  fixtureDigest : Json F
  /-- `fixtures`. -/
  fixtures : FixtureInventory
  /-- `text_encoding`. -/
  textEncoding : Json F
  /-- `text_join_separator`. -/
  textJoinSeparator : Json F
  /-- `ingestion_policy`. -/
  ingestionPolicy : IngestionPolicy
  /-- `documents`. -/
  documents : List CorpusDocument
  /-- `created_at`. -/
  createdAt : Text
  /-- `verified_at`. -/
  verifiedAt : Option Text
  /-- `completed_at`. -/
  completedAt : Option Text

namespace CorpusGeneration

variable {env : CorpusEnv F}

/-- The check on the digest. -/
def checkDigest (env : CorpusEnv F) (fixtures : FixtureInventory) (textEncoding separator digest : Text) :
    Except PyError (PLift (TenantRag.fixtureDigest env fixtures.json textEncoding separator = .ok digest)) := do
  let d ← attachOk (TenantRag.fixtureDigest env fixtures.json textEncoding separator)
  if hd : d.val = digest then .ok ⟨hd ▸ d.property⟩
  else .error (wizardDiagnosticError "Corpus generation fixture digest is invalid")

theorem checkDigest_eq {fixtures : FixtureInventory} {textEncoding separator digest : Text}
    (h : TenantRag.fixtureDigest env fixtures.json textEncoding separator = .ok digest) :
    checkDigest env fixtures textEncoding separator digest = .ok ⟨h⟩ := by
  rw [checkDigest, attachOk_eq h]
  exact dif_pos rfl

/-- `CorpusGeneration(...)`: `__post_init__` checks the values in this order. -/
def make (env : CorpusEnv F) (v : GenerationValues F) : Except PyError (CorpusGeneration env) := do
  let generationId ← identityOf v.generationId
  let fixtureDigest ← identityOf v.fixtureDigest
  let textEncoding ← encodingOf env v.textEncoding
  let separator ← separatorOf v.textJoinSeparator
  let digest ← checkDigest env v.fixtures textEncoding.val separator fixtureDigest.val
  let policy ← checkPolicy F v.ingestionPolicy
  let collections ← require (v.documents.map CorpusDocument.collection).Nodup "Corpus generation duplicates a collection"
  let verified ← checkVerified env v.documents v.verifiedAt
  let completed ← checkCompleted env v.verifiedAt v.completedAt
  .ok ⟨generationId.val, fixtureDigest.val, v.fixtures, textEncoding.val, separator, v.ingestionPolicy, v.documents,
    v.createdAt, v.verifiedAt, v.completedAt, ⟨generationId.property, fixtureDigest.property⟩, textEncoding.property,
    digest.down, policy.down, collections.down, verified.down, completed.down⟩

/-- The generation's own values. -/
def values (g : CorpusGeneration env) : GenerationValues F where
  generationId := .str g.generationId
  fixtureDigest := .str g.fixtureDigest
  fixtures := g.fixtures
  textEncoding := .str g.textEncoding
  textJoinSeparator := .str g.textJoinSeparator
  ingestionPolicy := g.ingestionPolicy
  documents := g.documents
  createdAt := g.createdAt
  verifiedAt := g.verifiedAt
  completedAt := g.completedAt

/-- A generation is built again from its own values. -/
theorem make_values (g : CorpusGeneration env) : make env g.values = .ok g := by
  rw [values]
  simp only [make, identityOf_str g.identity.1, identityOf_str g.identity.2, encodingOf_str g.encoding,
    separatorOf, checkDigest_eq g.digest, checkPolicy_eq g.policy, require_eq_ok g.collections,
    checkVerified_eq g.verified, checkCompleted_eq g.completed, bind, Except.bind]

/-- What is built has the values it was built from. -/
theorem make_eq_ok {v : GenerationValues F} {g : CorpusGeneration env} (h : make env v = .ok g) : g.values = v := by
  obtain ⟨generationId, hid, h⟩ := bind_eq_ok_iff.mp h
  obtain ⟨fixtureDigest, hdigest, h⟩ := bind_eq_ok_iff.mp h
  obtain ⟨textEncoding, hencoding, h⟩ := bind_eq_ok_iff.mp h
  obtain ⟨separator, hseparator, h⟩ := bind_eq_ok_iff.mp h
  obtain ⟨digest, -, h⟩ := bind_eq_ok_iff.mp h
  obtain ⟨policy, -, h⟩ := bind_eq_ok_iff.mp h
  obtain ⟨collections, -, h⟩ := bind_eq_ok_iff.mp h
  obtain ⟨verified, -, h⟩ := bind_eq_ok_iff.mp h
  obtain ⟨completed, -, h⟩ := bind_eq_ok_iff.mp h
  rw [← Except.ok.inj h]
  show GenerationValues.mk _ _ _ _ _ _ _ _ _ _ = v
  rw [← identityOf_eq_ok hid, ← identityOf_eq_ok hdigest, ← encodingOf_eq_ok hencoding, ← separatorOf_eq_ok hseparator]

end CorpusGeneration

end TenantRag

import TenantRag.Foundations.Dict
import TenantRag.Foundations.Effect
import TenantRag.Foundations.JsonVerbatim
import TenantRag.Foundations.Utf8
import TenantRag.Scripts.DecodedCollection

/-!
# The migration of vector profiles

`scripts/migrate_onnx_vectors.py`: the collections of every user, all of them empty, are
recorded in a manifest; then they are marked as being rebuilt, deleted, created under the
current vector profile, and marked as ready when all of them are there. What the script
checks of a schema is `backend/weaviate_client/client.py`'s.

## The model

* `StoredCollection` — what Weaviate gives back of a collection: its schema and how many
  objects it has. Of a collection that is created it reports the schema asked for
  (`Settings.created`), in whatever order, and no objects.
* `Maintenance` — the storage, the manifest, what the storage calls to come will meet, and
  every storage there has been. A call is answered, or it ends the script, before or after
  what it was to do: an exception of the client or a crash.
* `rebuildCollections`, `verifyCollections`, `exportCollections` — the commands.

The directory of the manifest, the command line and the malformed answers a client of
another version might give are left out.
-/

namespace TenantRag

namespace VectorMigration

/-! ### Schemas -/

/-- `DataType`. -/
inductive DataType where
  /-- `TEXT`. -/
  | text
  /-- `UUID`. -/
  | uuid
  /-- `INT`. -/
  | int
  /-- Another one. -/
  | other (name : Text)
  deriving DecidableEq

/-- A property of a schema, but for its name; `_PropertyContract`. -/
structure PropertyContract where
  /-- `data_type`. -/
  dataType : DataType
  /-- `index_filterable`. -/
  indexFilterable : Bool
  /-- `index_searchable`. -/
  indexSearchable : Bool
  /-- `index_range_filters`. -/
  indexRangeFilters : Bool := false
  deriving DecidableEq

/-- A named vector of a schema. -/
structure NamedVector where
  /-- `vectorizer.vectorizer`, where it is a string. -/
  vectorizer : Option Text
  /-- `vectorizer.source_properties`. -/
  sourceProperties : Option (List Text)
  /-- `vector_index_config.multi_vector.aggregation`, where there is a `multi_vector`. -/
  multiVector : Option Text
  deriving DecidableEq

/-- What `config.get()` gives. -/
structure CollectionConfig where
  /-- `name`. -/
  name : Text
  /-- `description`. -/
  description : Option Text
  /-- `references`. -/
  references : List Text
  /-- `properties`, by their names. -/
  properties : List (Text × PropertyContract)
  /-- `vector_config`. -/
  vectorConfig : Option (Dict Text NamedVector)
  deriving DecidableEq

/-- A collection of Weaviate. -/
structure StoredCollection where
  /-- Its schema. -/
  config : CollectionConfig
  /-- `aggregate.over_all(total_count=True).total_count`. -/
  count : ℕ
  deriving DecidableEq

/-- The collections of Weaviate. -/
abbrev Storage := Dict Text StoredCollection

/-- `LATE_INTERACTION_VECTOR_NAME`. -/
def lateInteractionVectorName : Text := lit "late_interaction"

/-- `MMR_DIVERSITY_VECTOR_NAME`. -/
def mmrDiversityVectorName : Text := lit "mmr_diversity"

/-- `_CONVERSATION_CONTRACT`. -/
def conversationContract : List (Text × PropertyContract) :=
  [(lit "user_id", { dataType := .text, indexFilterable := true, indexSearchable := false }),
    (lit "conversation_id", { dataType := .uuid, indexFilterable := true, indexSearchable := false }),
    (lit "segment_id", { dataType := .uuid, indexFilterable := true, indexSearchable := false }),
    (lit "segment_index", { dataType := .int, indexFilterable := true, indexSearchable := false }),
    (lit "raw_text", { dataType := .text, indexFilterable := false, indexSearchable := false }),
    (lit "segment_text", { dataType := .text, indexFilterable := false, indexSearchable := true })]

/-- `_CHUNK_CONTRACT`. -/
def chunkContract : List (Text × PropertyContract) :=
  [(lit "user_id", { dataType := .text, indexFilterable := true, indexSearchable := false }),
    (lit "document_id", { dataType := .uuid, indexFilterable := true, indexSearchable := false }),
    (lit "paragraph_id", { dataType := .int, indexFilterable := true, indexSearchable := false }),
    (lit "chunk_id", { dataType := .uuid, indexFilterable := true, indexSearchable := false }),
    (lit "raw_text", { dataType := .text, indexFilterable := false, indexSearchable := true })]

/-- `_collection_description(state)` under a vector profile, for the state `"ready"` or `"rebuilding"`. -/
def profileDescription (vectorProfile : Text) (ready : Bool) : Text :=
  lit "rag-vector-profile=" ++ (vectorProfile ++ (lit ";state=" ++ if ready then lit "ready" else lit "rebuilding"))

/-- The properties `_collection_properties(collection_type)` asks for. -/
def contractOf (collectionType : Text) : List (Text × PropertyContract) :=
  if collectionType = lit "conversations" then conversationContract else chunkContract

/-- A vector is reported as it was asked for: self-provided, and a multi-vector with MaxSim where it is late interaction. -/
def AskedVector (vector : Text × NamedVector) : Prop :=
  vector.2.vectorizer.map lower = some (lit "none") ∧ vector.2.sourceProperties.getD [] = [] ∧
    vector.2.multiVector = if vector.1 = lateInteractionVectorName then some (lit "maxSim") else none

instance (vector : Text × NamedVector) : Decidable (AskedVector vector) := inferInstanceAs (Decidable (_ ∧ _ ∧ _))

/-- What the script takes from the configuration, and what Weaviate reports of the collections the script creates:
the schema that was asked for. -/
structure Settings where
  /-- `USER_ID_PATTERN`. -/
  pattern : UserIdPattern
  /-- `EMBEDDING_MODEL`. -/
  embeddingModel : Text
  /-- `RETRIEVAL_VECTOR_PROFILE`. -/
  vectorProfile : Text
  /-- What `config.get()` gives of a collection created under a name for a type. -/
  created : Text → Text → CollectionConfig
  /-- It has the name. -/
  created_name : ∀ name collectionType, (created name collectionType).name = name
  /-- It is marked as being rebuilt. -/
  created_description : ∀ name collectionType,
    (created name collectionType).description = some (profileDescription vectorProfile false)
  /-- It has no references. -/
  created_references : ∀ name collectionType, (created name collectionType).references = []
  /-- It has the properties asked for, in any order. -/
  created_properties : ∀ name collectionType, (created name collectionType).properties.Perm (contractOf collectionType)
  /-- It has the two vectors asked for, in any order. -/
  created_vectors : ∀ name collectionType, ∃ vectors, (created name collectionType).vectorConfig = some vectors ∧
    vectors.keys.Perm [lateInteractionVectorName, mmrDiversityVectorName] ∧ ∀ vector ∈ vectors.entries, AskedVector vector

/-- `_collection_description(state)`. -/
def collectionDescription (S : Settings) (ready : Bool) : Text := profileDescription S.vectorProfile ready

/-- `IncompatibleCollectionSchemaError`, a `RuntimeError`. -/
def schemaError (reason : String) : PyError := ⟨.runtimeError, "collection is incompatible: " ++ reason⟩

/-- The checks of one property in `_validate_properties`. -/
def validateProperty (properties : List (Text × PropertyContract)) (expected : Text × PropertyContract) : Except PyError Unit :=
  match Dict.lookup expected.1 properties with
  | none => .error (schemaError "a property is missing")
  | some item =>
      if item.dataType ≠ expected.2.dataType then .error (schemaError "property has the wrong data type")
      else if item.indexFilterable ≠ expected.2.indexFilterable then
        .error (schemaError "property has incompatible index_filterable")
      else if item.indexSearchable ≠ expected.2.indexSearchable then
        .error (schemaError "property has incompatible index_searchable")
      else if item.indexRangeFilters ≠ expected.2.indexRangeFilters then
        .error (schemaError "property has incompatible index_range_filters")
      else .ok ()

/-- `_validate_properties(collection_name, config, expected)`. -/
def validateProperties (config : CollectionConfig) (expected : List (Text × PropertyContract)) : Except PyError Unit :=
  let names := config.properties.map Prod.fst
  if names.any List.isEmpty ∨ ¬ names.Nodup then .error (schemaError "property names are malformed or duplicated")
  else if ¬ (names.all (· ∈ expected.map Prod.fst) ∧ (expected.map Prod.fst).all (· ∈ names)) then
    .error (schemaError "expected properties")
  else expected.forM (validateProperty config.properties)

/-- The checks of one named vector in `_validate_vector_config`. -/
def validateNamedVector (vector : Text × NamedVector) : Except PyError Unit :=
  if vector.2.vectorizer.map lower ≠ some (lit "none") then .error (schemaError "the vectorizer must be self-provided/none")
  else if vector.2.sourceProperties.getD [] ≠ [] then
    .error (schemaError "self-provided vectors must not declare source properties")
  else if vector.1 = lateInteractionVectorName then
    match vector.2.multiVector with
    | none => .error (schemaError "late_interaction must be a multi-vector")
    | some aggregation =>
        if aggregation ≠ lit "maxSim" then .error (schemaError "late_interaction must use MaxSim") else .ok ()
  else if vector.2.multiVector ≠ none then .error (schemaError "mmr_diversity must be a dense vector")
  else .ok ()

/-- `_validate_vector_config(collection_name, config)`. -/
def validateVectorConfig (config : CollectionConfig) : Except PyError Unit :=
  match config.vectorConfig with
  | none => .error (schemaError "the late-interaction and MMR-diversity named vectors are required")
  | some vectors =>
      if ¬ (vectors.keys.all (· ∈ [lateInteractionVectorName, mmrDiversityVectorName]) ∧
          [lateInteractionVectorName, mmrDiversityVectorName].all (· ∈ vectors.keys)) then
        .error (schemaError "the late-interaction and MMR-diversity named vectors are required")
      else vectors.entries.forM validateNamedVector

/-- What `_is_supported_legacy_empty_schema` expects: the data type, `index_filterable` and `index_searchable`. -/
def legacyProperties (collectionType : Text) : List (Text × DataType × Bool × Bool) :=
  if collectionType = lit "conversations" then
    [(lit "user_id", .text, true, false), (lit "conversation_id", .uuid, true, false), (lit "raw_text", .text, false, true)]
  else
    [(lit "user_id", .text, true, false), (lit "document_id", .uuid, true, false), (lit "paragraph_id", .int, true, false),
      (lit "chunk_id", .uuid, true, false), (lit "raw_text", .text, false, true)]

/-- `_is_supported_legacy_empty_schema(config, collection_type)`. -/
def isSupportedLegacyEmptySchema (config : CollectionConfig) (collectionType : Text) : Bool :=
  let expected := legacyProperties collectionType
  let actual : Dict Text (DataType × Bool × Bool) := config.properties.foldl
    (fun d p => d.set p.1 (p.2.dataType, p.2.indexFilterable, p.2.indexSearchable)) .empty
  if ¬ (actual.keys.all (· ∈ expected.map Prod.fst) ∧ expected.all fun e => actual.get? e.1 = some e.2) then false
  else
    match config.vectorConfig.map Dict.values with
    | some [vector] => vector.vectorizer.map lower = some (lit "none") && vector.sourceProperties.getD [] = []
    | _ => false

/-- `_validate_source_schema(collection, name, collection_type)`, of the schema of the collection. -/
def validateSourceSchema (config : CollectionConfig) (name collectionType : Text) : Except PyError Unit :=
  if config.name ≠ name then .error (vectorMigrationError "collection returned the wrong schema")
  else if config.references ≠ [] then .error (vectorMigrationError "collection contains references")
  else
    match (do
      validateProperties config (contractOf collectionType)
      validateVectorConfig config : Except PyError Unit) with
    | .ok _ => .ok ()
    | .error _ =>
        if isSupportedLegacyEmptySchema config collectionType then .ok ()
        else .error (vectorMigrationError "collection has an incompatible schema")

/-- The collection that `rebuild_collections` creates. -/
def createdCollection (S : Settings) (name collectionType : Text) : StoredCollection where
  config := S.created name collectionType
  count := 0

/-! ### Storage calls -/

/-- What a storage call meets. -/
inductive Fate where
  /-- It is answered. -/
  | answered
  /-- The script ends before the call did anything. -/
  | refused
  /-- The script ends after the call did what it was to do. -/
  | lost
  deriving DecidableEq

/-- The state of the maintenance. -/
structure Maintenance where
  /-- The collections there are. -/
  storage : Storage
  /-- The bytes of the manifest, if there is one. -/
  manifest : Option (List ℕ)
  /-- What the next storage calls meet; those behind the last one are answered. -/
  fates : List Fate
  /-- The collections there have been, one state after another, the present one last. -/
  history : List Storage

/-- What the script ends with where a storage call is not answered. -/
def stopped : PyError := ⟨.otherException, "storage call"⟩

/-- What the next storage call meets. -/
def nextFate : Eff Maintenance PyError Fate := do
  let fates ← .read Maintenance.fates
  match fates with
  | [] => pure .answered
  | fate :: rest =>
      .update fun w => { w with fates := rest }
      pure fate

/-- A storage call that reads. -/
def readCall {α : Type} (f : Storage → Except PyError α) : Eff Maintenance PyError α := do
  match ← nextFate with
  | .answered =>
      let storage ← .read Maintenance.storage
      .ofExcept (f storage)
  | _ => .raise stopped

/-- The storage becomes another one. -/
def Maintenance.stored (w : Maintenance) (storage : Storage) : Maintenance :=
  { w with storage := storage, history := w.history ++ [storage] }

/-- A storage call that writes. -/
def writeCall (f : Storage → Except PyError Storage) : Eff Maintenance PyError Unit := do
  match ← nextFate with
  | .refused => .raise stopped
  | fate =>
      let storage ← .read Maintenance.storage
      let storage' ← .ofExcept (f storage)
      .update fun w => w.stored storage'
      .whenever (fate = .lost) (.raise stopped)

/-- An error of the client. -/
def clientError (message : String) : PyError := ⟨.otherException, message⟩

/-- The collection of a name. -/
def collectionOf (storage : Storage) (name : Text) : Except PyError StoredCollection :=
  match storage.get? name with
  | none => .error (clientError "collection does not exist")
  | some c => .ok c

/-- `collections.list_all(simple=True)`. -/
def listAll : Eff Maintenance PyError (List Text) := readCall fun s => .ok s.keys

/-- `collections.exists(name)`. -/
def exists? (name : Text) : Eff Maintenance PyError Bool := readCall fun s => .ok (s.contains name)

/-- `_total_count(collection, name)`. -/
def totalCount (name : Text) : Eff Maintenance PyError ℕ := readCall fun s => (collectionOf s name).map StoredCollection.count

/-- `collection.config.get()`. -/
def configGet (name : Text) : Eff Maintenance PyError CollectionConfig :=
  readCall fun s => (collectionOf s name).map StoredCollection.config

/-- A collection with another description. -/
def StoredCollection.described (c : StoredCollection) (description : Text) : StoredCollection :=
  { c with config := { c.config with description := some description } }

/-- `collection.config.update(description=description)`. -/
def configUpdate (name description : Text) : Eff Maintenance PyError Unit :=
  writeCall fun s => (collectionOf s name).map fun c => s.set name (c.described description)

/-- `collections.delete(name)`. -/
def delete (name : Text) : Eff Maintenance PyError Unit := writeCall fun s => .ok (s.erase name)

/-- `collections.create(...)`. -/
def create (S : Settings) (name collectionType : Text) : Eff Maintenance PyError Unit :=
  writeCall fun s =>
    if s.contains name then .error (clientError "collection already exists")
    else .ok (s.set name (createdCollection S name collectionType))

/-! ### The manifest -/

variable (F : Type) [PyFloat F]

/-- An entry of the manifest; its count is zero. -/
structure ManifestEntry where
  /-- `name`. -/
  name : Text
  /-- `user_id`. -/
  userId : Text
  /-- `collection_type`. -/
  collectionType : Text
  deriving DecidableEq

/-- `_REQUIRED_TYPES`. -/
def requiredTypes : List Text := [CollectionType.conversations.name, CollectionType.knowledgeFacts.name, CollectionType.policy.name]

/-- Every user has the three types, and no other. -/
def isComplete (entries : List ManifestEntry) : Bool :=
  entries.all fun e =>
    let types := (entries.filter fun e' => e'.userId = e.userId).map ManifestEntry.collectionType
    types.all (· ∈ requiredTypes) && requiredTypes.all (· ∈ types)

/-- `_canonical_entries(collections)`, of the names of the collections. -/
def canonicalEntries (S : Settings) (names : List Text) : Except PyError (List ManifestEntry) := do
  let found ← (names.insertionSort (· ≤ ·)).mapM fun name =>
    (decodedCollection S.pattern name).map fun decoded => decoded.map fun d => ManifestEntry.mk name d.1 d.2
  let entries := found.reduceOption
  if entries = [] ∨ !isComplete entries then
    .error (vectorMigrationError "every user must have exactly the three canonical collections")
  else .ok entries

/-- An entry as it stands in the manifest. -/
def ManifestEntry.fields (e : ManifestEntry) : List (Text × Json F) :=
  [(lit "name", .str e.name), (lit "user_id", .str e.userId), (lit "collection_type", .str e.collectionType),
    (lit "count", .int 0)]

/-- The manifest. -/
def manifestFields (S : Settings) (entries : List ManifestEntry) : List (Text × Json F) :=
  [(lit "schema_version", .str (lit "3.0")), (lit "migration_scope", .str (lit "empty-lateon-vector-profile-cutover")),
    (lit "mapping_state_preserved", .bool false), (lit "embedding_model", .str S.embeddingModel),
    (lit "vector_profile", .str S.vectorProfile), (lit "collections", .arr (entries.map fun e => .obj (e.fields F)))]

/-- `not isinstance(count, bool) and count == 0`. -/
def isZeroCount : Option (Json F) → Bool
  | some (.int n) => n = 0
  | some (.num x) => PyFloat.repr x = lit "0.0" ∨ PyFloat.repr x = lit "-0.0"
  | _ => false

/-- `value is False`. -/
def isFalse : Option (Json F) → Bool
  | some (.bool b) => !b
  | _ => false

/-- A turn of the loop of `_load_manifest` over the entries. -/
def manifestEntry (S : Settings) (entries : List ManifestEntry) (raw : Json F) : Except PyError (List ManifestEntry) :=
  match raw with
  | .obj fields =>
      match Json.get? fields (lit "name"), Json.get? fields (lit "user_id"), Json.get? fields (lit "collection_type") with
      | some (.str name), some (.str userId), some (.str collectionType) =>
          if ¬ Json.hasKeys fields [lit "name", lit "user_id", lit "collection_type", lit "count"] ∨
              name ∈ entries.map ManifestEntry.name ∨ ¬ isZeroCount F (Json.get? fields (lit "count")) then
            .error (vectorMigrationError "migration manifest collection entry is invalid")
          else
            match getCollectionName S.pattern userId collectionType with
            | .error _ => .error (vectorMigrationError "migration manifest collection entry is invalid")
            | .ok canonicalName =>
                if canonicalName ≠ name then .error (vectorMigrationError "migration manifest collection entry is invalid")
                else .ok (entries ++ [⟨name, userId, collectionType⟩])
      | _, _, _ => .error (vectorMigrationError "migration manifest collection entry is invalid")
  | _ => .error (vectorMigrationError "migration manifest collection entry is invalid")

/-- `_load_manifest`, from the value that `json.loads` gives. -/
def manifestEntries (S : Settings) : Json F → Except PyError (List ManifestEntry)
  | .obj manifest =>
      if ¬ (Json.isStr (Json.get? manifest (lit "schema_version")) (lit "3.0") ∧
          Json.isStr (Json.get? manifest (lit "migration_scope")) (lit "empty-lateon-vector-profile-cutover") ∧
          isFalse F (Json.get? manifest (lit "mapping_state_preserved")) ∧
          Json.isStr (Json.get? manifest (lit "embedding_model")) S.embeddingModel ∧
          Json.isStr (Json.get? manifest (lit "vector_profile")) S.vectorProfile) then
        .error (vectorMigrationError "migration manifest is not an empty-state manifest")
      else
        match Json.get? manifest (lit "collections") with
        | some (.arr (raw :: rawEntries)) => do
            let entries ← (raw :: rawEntries).foldlM (manifestEntry F S) []
            if !isComplete entries then .error (vectorMigrationError "migration manifest has incomplete user collections")
            else .ok entries
        | _ => .error (vectorMigrationError "migration manifest collections are malformed")
  | _ => .error (vectorMigrationError "migration manifest is not an empty-state manifest")

/-- `_load_manifest(export_directory)`. -/
def loadManifest (S : Settings) : Eff Maintenance PyError (List ManifestEntry) := do
  let manifest ← .read Maintenance.manifest
  match manifest.bind fun bytes => (decodeUtf8 bytes).toOption.bind fun text => (Json.loads text : Option (Json F)) with
  | none => .raise (vectorMigrationError "migration manifest is missing or malformed")
  | some manifest => .ofExcept (manifestEntries F S manifest)

/-! ### The commands -/

/-- `_require_disposable_confirmation(confirmed)`. -/
def requireDisposableConfirmation (confirmed : Bool) : Except PyError Unit :=
  if confirmed then .ok ()
  else .error (vectorMigrationError "migration requires explicit confirmation that process-local state is disposable")

/-- `_validate_source_schema(collection, name, collection_type)`. -/
def validateCollection (name collectionType : Text) : Eff Maintenance PyError Unit := do
  let config ← configGet name
  .ofExcept (validateSourceSchema config name collectionType)

/-- A turn of the loop of `_require_existing_targets_empty`. -/
def requireTargetEmpty (e : ManifestEntry) : Eff Maintenance PyError Unit := do
  let found ← exists? e.name
  if found then
    let count ← totalCount e.name
    if count ≠ 0 then .raise (vectorMigrationError "collection contains objects")
    else validateCollection e.name e.collectionType
  else pure ()

/-- `_require_existing_targets_empty(collections, entries)`. -/
def requireExistingTargetsEmpty (entries : List ManifestEntry) : Eff Maintenance PyError Unit :=
  .forEach requireTargetEmpty entries

/-- `export_collections(manager, export_directory, confirm_disposable_process_state=confirmed)`. -/
def exportCollections (S : Settings) (confirmed : Bool) : Eff Maintenance PyError Unit := do
  .ofExcept (requireDisposableConfirmation confirmed)
  let manifest ← .read Maintenance.manifest
  .whenever manifest.isSome (.raise (vectorMigrationError "migration export already exists"))
  let names ← listAll
  let entries ← .ofExcept (canonicalEntries S names)
  requireExistingTargetsEmpty entries
  let bytes ← .ofExcept (encodeUtf8 (Json.dumpsVerbatim (.obj (manifestFields F S entries) : Json F)))
  .update fun w => { w with manifest := some bytes }

/-- The names that `_decoded_collection` decodes. -/
def canonicalNames (S : Settings) (names : List Text) : Except PyError (List Text) := do
  let found ← names.mapM fun name => (decodedCollection S.pattern name).map fun decoded => (name, decoded.isSome)
  .ok ((found.filter Prod.snd).map Prod.fst)

/-- `_require_no_new_canonical_collections(collections, entries)`. -/
def requireNoNewCanonicalCollections (S : Settings) (entries : List ManifestEntry) : Eff Maintenance PyError Unit := do
  let names ← listAll
  let current ← .ofExcept (canonicalNames S names)
  .whenever (current.any fun name => name ∉ entries.map ManifestEntry.name)
    (.raise (vectorMigrationError "canonical collection set changed after export"))

/-- The checks of `rebuild_collections` before it writes. -/
def preflight (S : Settings) : Eff Maintenance PyError (List ManifestEntry) := do
  let entries ← loadManifest F S
  requireNoNewCanonicalCollections S entries
  requireExistingTargetsEmpty entries
  pure entries

/-- A turn of the first loop of `rebuild_collections`. -/
def markRebuilding (S : Settings) (e : ManifestEntry) : Eff Maintenance PyError Unit := do
  let found ← exists? e.name
  .whenever found (configUpdate e.name (collectionDescription S false))

/-- A turn of the second loop of `rebuild_collections`. -/
def recreate (S : Settings) (e : ManifestEntry) : Eff Maintenance PyError Unit := do
  let found ← exists? e.name
  .whenever found (delete e.name)
  create S e.name e.collectionType
  validateCollection e.name e.collectionType
  let count ← totalCount e.name
  .whenever (count ≠ 0) (.raise (vectorMigrationError "a rebuilt empty collection unexpectedly contains objects"))

/-- A turn of the last loop of `rebuild_collections`, for a collection that was rebuilt. -/
def markReady (S : Settings) (e : ManifestEntry) : Eff Maintenance PyError Unit :=
  configUpdate e.name (collectionDescription S true)

/-- `rebuild_collections(manager, export_directory, confirm_disposable_process_state=confirmed)`. -/
def rebuildCollections (S : Settings) (confirmed : Bool) : Eff Maintenance PyError Unit := do
  .ofExcept (requireDisposableConfirmation confirmed)
  let entries ← preflight F S
  .forEach (markRebuilding S) entries
  .forEach (recreate S) entries
  -- What was rebuilt is what the manifest names, in its order.
  .forEach (markReady S) entries

/-- A turn of the loop of `verify_collections`. -/
def verifyCollection (S : Settings) (e : ManifestEntry) : Eff Maintenance PyError Unit := do
  let config ← configGet e.name
  .whenever (config.description ≠ some (collectionDescription S true)) (.raise (vectorMigrationError "collection is not ready"))
  validateCollection e.name e.collectionType
  let count ← totalCount e.name
  .whenever (count ≠ 0) (.raise (vectorMigrationError "collection is no longer empty"))

/-- `verify_collections(manager, export_directory)`. -/
def verifyCollections (S : Settings) : Eff Maintenance PyError Unit := do
  let entries ← loadManifest F S
  let names ← listAll
  let current ← .ofExcept (canonicalNames S names)
  let expected := entries.map ManifestEntry.name
  .whenever (!(current.all (· ∈ expected) && expected.all (· ∈ current)))
    (.raise (vectorMigrationError "canonical collection set does not match the manifest"))
  .forEach (verifyCollection S) entries

end VectorMigration

end TenantRag

import TenantRag.Config.CollectionNames
import TenantRag.Deployment.EvaluationEvidence
import TenantRag.Weaviate.Values

/-!
# Hydration of exact contexts

`_fetch_contexts` and `resolve_exact_contexts` of `deployment/evaluation_bridge.py`: the texts of the contexts
that a request used, read from the store again.

## The model

The store answers what it likes, and its calls may raise. The connection is left out.

## What is proved

* `hydrateObjects_iff` — what the loop over the objects of an answer accepts.
* `hydratedParts_iff` — the texts that have the fingerprints of a context.
* `fetchContexts_iff`, `resolveExactContexts_iff` — the answers that are accepted are those that have the items of
  the context, in any order.
-/

namespace TenantRag

namespace EvaluationBridge

variable {K : Type}

/-! ### The store -/

/-- An object of an answer. -/
structure ContextObject where
  /-- `uuid`. -/
  uuid : PyValue
  /-- `properties`, where they are a mapping. -/
  properties : Option Properties

/-- `properties.get(name)`. -/
def property (ps : Properties) (name : String) : PyValue := (ps.lookup (lit name)).getD .none

/-- The calls of the store. -/
structure ContextStore where
  /-- `collections.exists(name)`. -/
  exists? : Text → Except PyError Bool
  /-- `query.fetch_objects_by_ids(ids, …)` in the collection: its `objects`, where they are a list. -/
  fetchObjectsByIds : Text → List Text → Except PyError (Option (List ContextObject))

/-! ### One collection -/

/-- One turn of the loop of `_fetch_contexts` over the objects. -/
def hydrateObject (userId : Text) (ids : List Text) (allowed : Option (List Text)) (hydrated : Dict Text Text)
    (item : ContextObject) : Except BridgeError (Dict Text Text) :=
  match item.properties with
  | none => .error (.bridge "context properties are malformed")
  | some ps => do
      let objectId ← canonicalUuid item.uuid.toStr "object ID"
      let chunkId ← canonicalUuid (property ps "chunk_id").toStr "chunk ID"
      let documentId ← canonicalUuid (property ps "document_id").toStr "document ID"
      match property ps "paragraph_id", property ps "raw_text" with
      | .int n, .str rawText =>
          if objectId = chunkId ∧ chunkId ∈ ids ∧ chunkId ∉ hydrated.keys ∧ property ps "user_id" = .str userId ∧ 0 < n ∧
              isBlank rawText = false then
            if allowed.all fun documents => documents.contains documentId then .ok (hydrated.set chunkId rawText)
            else .error (.bridge "hydrated context is outside the active corpus")
          else .error (.bridge "hydrated context violates storage identity")
      | _, _ => .error (.bridge "hydrated context violates storage identity")

/-- The loop of `_fetch_contexts` over the texts in the order of their identifiers: `digest_parts`. -/
def hydratedParts (sha : List ℕ → Sha256) : List Text → List Text → List Text → Except BridgeError (List (List ℕ))
  | [], [], [] => .ok []
  | identifier :: ids, rawText :: texts, expected :: fingerprints => do
      let identifierBytes ← (encodeUtf8 identifier).mapError BridgeError.raised
      let textBytes ← (encodeUtf8 rawText).mapError BridgeError.raised
      let fingerprint ← (contentDigest sha (lit "chat-kp-item-v1") [identifierBytes, textBytes]).mapError BridgeError.raised
      if expected = identifier ++ lit ":" ++ fingerprint then do
        let parts ← hydratedParts sha ids texts fingerprints
        .ok ([identifierBytes, textBytes] ++ parts)
      else .error (.bridge "hydrated context fingerprint does not match")
  | _, _, _ => .error (.raised (valueError "zip() arguments have different lengths"))

/-- The number of bytes of the rendered texts, for the encoded identifiers and texts. -/
def partsBytes : List (List ℕ) → ℕ
  | _ :: textBytes :: parts => textBytes.length + partsBytes parts
  | _ => 0

/-- `f"chat-qwen-{identity.collection}-context-v1"`. -/
def contextDomain (collection : Text) : Text := lit "chat-qwen-" ++ collection ++ lit "-context-v1"

/-- The check of `_fetch_contexts` on a context without items. -/
def emptyContext (sha : List ℕ → Sha256) (identity : ContextIdentity) : Except BridgeError (List Text) := do
  let expected ← (contentDigest sha (contextDomain identity.collection) []).mapError BridgeError.raised
  if identity.digest = expected ∧ identity.renderedUtf8Bytes = 0 then .ok []
  else .error (.bridge s!"empty {shown identity.collection} evidence does not match")

/-- The checks of `_fetch_contexts` on the objects of an answer. -/
def orderedContexts (sha : List ℕ → Sha256) (userId : Text) (identity : ContextIdentity) (allowed : Option (List Text))
    (objects : List ContextObject) : Except BridgeError (List Text) := do
  let hydrated ← objects.foldlM (hydrateObject userId identity.ids allowed) .empty
  match identity.ids.mapM hydrated.get? with
  | some ordered =>
      if hydrated.keys ⊆ identity.ids ∧ objects.length = identity.ids.length then do
        let digestParts ← hydratedParts sha identity.ids ordered identity.fingerprints
        let aggregate ← (contentDigest sha (contextDomain identity.collection) digestParts).mapError BridgeError.raised
        if aggregate = identity.digest ∧ ((ordered.length - 1) * 2 + partsBytes digestParts : ℕ) = identity.renderedUtf8Bytes then
          .ok ordered
        else .error (.bridge "hydrated ordered context digest does not match")
      else .error (.bridge "not every exact context ID was hydrated once")
  | none => .error (.bridge "not every exact context ID was hydrated once")

/-- `"knowledge_facts" if collection == "knowledge" else "policy"`. -/
def collectionType (collection : Text) : Text := if collection = lit "knowledge" then lit "knowledge_facts" else lit "policy"

/-- `_fetch_contexts(storage, user_id=…, identity=…, allowed_document_ids=…)`. -/
def fetchContexts (sha : List ℕ → Sha256) (pattern : UserIdPattern) (store : ContextStore) (userId : Text)
    (identity : ContextIdentity) (allowed : Option (List Text)) : Except BridgeError (List Text) :=
  if identity.ids.isEmpty then emptyContext sha identity
  else do
    let name ← (getCollectionName pattern userId (collectionType identity.collection)).mapError BridgeError.raised
    let found ← (store.exists? name).mapError BridgeError.raised
    if found then do
      let response ← (store.fetchObjectsByIds name identity.ids).mapError BridgeError.raised
      match response with
      | none => .error (.bridge "context hydration response is malformed")
      | some objects => orderedContexts sha userId identity allowed objects
    else .error (.bridge s!"{shown identity.collection} collection does not exist")

/-! ### Both collections -/

/-- `ResolvedContexts`. -/
structure ResolvedContexts where
  /-- `knowledge`. -/
  knowledge : List Text
  /-- `policy`. -/
  policy : List Text
  deriving DecidableEq

/-- `resolve_exact_contexts(config, user_id=…, evidence=…, allowed_document_ids=…)`. -/
def resolveExactContexts (sha : List ℕ → Sha256) (pattern : UserIdPattern) (store : ContextStore) (userId : Text)
    (evidence : RequestEvidence) (allowed : Option (Dict Text (List Text))) : Except BridgeError ResolvedContexts := do
  let knowledge ← fetchContexts sha pattern store userId evidence.knowledge
    (allowed.map fun documents => (documents.get? (lit "knowledge")).getD [])
  let policy ← fetchContexts sha pattern store userId evidence.policy
    (allowed.map fun documents => (documents.get? (lit "policy")).getD [])
  .ok ⟨knowledge, policy⟩

/-! ### What an object is accepted for -/

/-- The text of a UUID in its canonical form. -/
def Canonical (t : Text) : Prop := ∃ u : Uuid, t = u.str

theorem canonicalUuid_ok_iff {t s : Text} {name : String} : canonicalUuid t name = .ok s ↔ s = t ∧ Canonical t := by
  rw [canonicalUuid]
  constructor
  · intro h
    split at h
    · cases h
    · split_ifs at h with hstr
      cases h
      exact ⟨hstr, _, hstr.symm⟩
  · rintro ⟨rfl, u, rfl⟩
    exact canonicalUuid_str u name

/-- The object is that of a chunk of the user, with this identifier and this text, of an allowed document. -/
structure HoldsChunk (userId : Text) (allowed : Option (List Text)) (ps : Properties) (uuid : PyValue) (id text : Text) :
    Prop where
  canonical : Canonical id
  objectId : uuid.toStr = id
  chunkId : (property ps "chunk_id").toStr = id
  documentId : Canonical (property ps "document_id").toStr
  allowed : ∀ documents ∈ allowed, (property ps "document_id").toStr ∈ documents
  paragraphId : ∃ n : ℤ, property ps "paragraph_id" = .int n ∧ 0 < n
  userId : property ps "user_id" = .str userId
  rawText : property ps "raw_text" = .str text
  notBlank : isBlank text = false

/-- The object is that of the chunk. -/
def IsChunk (userId : Text) (allowed : Option (List Text)) (item : ContextObject) (e : Text × Text) : Prop :=
  ∃ ps, item.properties = some ps ∧ HoldsChunk userId allowed ps item.uuid e.1 e.2

section Hydrated

variable {userId : Text} {ids : List Text} {allowed : Option (List Text)}

theorem hydrateObject_iff {hydrated hydrated' : Dict Text Text} {item : ContextObject} :
    hydrateObject userId ids allowed hydrated item = .ok hydrated' ↔
      ∃ e, IsChunk userId allowed item e ∧ e.1 ∈ ids ∧ e.1 ∉ hydrated.keys ∧ hydrated' = hydrated.set e.1 e.2 := by
  rw [hydrateObject]
  constructor
  · intro h
    split at h
    · cases h
    case h_2 ps hps =>
      obtain ⟨objectId, hobject, h⟩ := bind_eq_ok_iff.mp h
      obtain ⟨chunkId, hchunk, h⟩ := bind_eq_ok_iff.mp h
      obtain ⟨documentId, hdocument, h⟩ := bind_eq_ok_iff.mp h
      obtain ⟨rfl, hcanonical⟩ := canonicalUuid_ok_iff.mp hobject
      obtain ⟨rfl, -⟩ := canonicalUuid_ok_iff.mp hchunk
      obtain ⟨rfl, hcanonicalDocument⟩ := canonicalUuid_ok_iff.mp hdocument
      split at h
      case h_2 => cases h
      case h_1 n rawText hparagraph htext =>
        split_ifs at h with hchecks hallowed
        obtain ⟨hsame, hmem, hnew, huser, hpos, hblank⟩ := hchecks
        cases h
        refine ⟨((property ps "chunk_id").toStr, rawText), ⟨ps, hps, hsame ▸ hcanonical, hsame, rfl, hcanonicalDocument, ?_,
          ⟨n, hparagraph, hpos⟩, huser, htext, hblank⟩, hmem, hnew, rfl⟩
        intro documents hdocuments
        rw [Option.mem_def.mp hdocuments] at hallowed
        exact List.contains_iff_mem.mp hallowed
  · rintro ⟨⟨chunkId, rawText⟩, ⟨ps, hps, hholds⟩, hmem, hnew, rfl⟩
    obtain ⟨n, hparagraph, hpos⟩ := hholds.paragraphId
    rw [hps]
    refine bind_eq_ok_iff.mpr ⟨chunkId, canonicalUuid_ok_iff.mpr ⟨hholds.objectId.symm, hholds.objectId ▸ hholds.canonical⟩,
      bind_eq_ok_iff.mpr ⟨chunkId, canonicalUuid_ok_iff.mpr ⟨hholds.chunkId.symm, hholds.chunkId ▸ hholds.canonical⟩,
        bind_eq_ok_iff.mpr ⟨_, canonicalUuid_ok_iff.mpr ⟨rfl, hholds.documentId⟩, ?_⟩⟩⟩
    rw [hparagraph, hholds.rawText]
    dsimp only
    rw [if_pos ⟨rfl, hmem, hnew, hholds.userId, hpos, hholds.notBlank⟩, if_pos]
    cases hallowed : allowed with
    | none => rfl
    | some documents => exact List.contains_iff_mem.mpr (hholds.allowed documents (Option.mem_def.mpr hallowed))

/-- The loop accepts the objects of chunks that it is to find, each once, and keeps their texts in their order. -/
theorem hydrateObjects_iff {objects : List ContextObject} {d hydrated : Dict Text Text} :
    objects.foldlM (hydrateObject userId ids allowed) d = .ok hydrated ↔
      ∃ es, List.Forall₂ (IsChunk userId allowed) objects es ∧ (∀ e ∈ es, e.1 ∈ ids) ∧
        ((d.entries ++ es).map Prod.fst).Nodup ∧ hydrated.entries = d.entries ++ es := by
  induction objects generalizing d with
  | nil =>
    constructor
    · intro h
      cases h
      exact ⟨[], .nil, by simp, by simpa using Dict.nodupKeys _, by simp⟩
    · rintro ⟨es, hes, -, -, heq⟩
      cases hes
      rw [List.append_nil] at heq
      rw [Dict.ext_entries heq]
      rfl
  | cons item objects ih =>
    rw [List.foldlM_cons, bind_eq_ok_iff]
    have hset : ∀ e : Text × Text, e.1 ∉ d.keys → (d.set e.1 e.2).entries = d.entries ++ [e] := fun e he =>
      Dict.setEntries_of_not_mem he
    constructor
    · rintro ⟨d', hitem, hrest⟩
      obtain ⟨e, hchunk, hmem, hnew, rfl⟩ := hydrateObject_iff.mp hitem
      obtain ⟨es, hes, hids, hnodup, heq⟩ := ih.mp hrest
      rw [hset e hnew, List.append_assoc, List.singleton_append] at hnodup heq
      exact ⟨e :: es, .cons hchunk hes, List.forall_mem_cons.mpr ⟨hmem, hids⟩, hnodup, heq⟩
    · rintro ⟨_, hes, hids, hnodup, heq⟩
      cases hes with
      | @cons _ e _ es hchunk hes =>
        obtain ⟨hmem, hids⟩ := List.forall_mem_cons.mp hids
        have hnew : e.1 ∉ d.keys := by
          rw [List.map_append, List.map_cons] at hnodup
          exact fun hmem => (List.nodup_append.mp hnodup).2.2 _ hmem _ List.mem_cons_self rfl
        refine ⟨_, hydrateObject_iff.mpr ⟨e, hchunk, hmem, hnew, rfl⟩, ih.mpr ⟨es, hes, hids, ?_, ?_⟩⟩
        · rwa [hset e hnew, List.append_assoc, List.singleton_append]
        · rwa [hset e hnew, List.append_assoc, List.singleton_append]

end Hydrated

/-! ### The answers that are accepted -/

/-- What is hashed for the identifier of an item and a text. -/
def itemInput (item : ContextItem K) (text : Text) : List ℕ :=
  framed ((lit "chat-kp-item-v1").map Fin.val) [item.objectId.str.flatMap utf8Bytes, text.flatMap utf8Bytes]

/-- The text has the digest of the item. -/
def SameDigest (sha : List ℕ → Sha256) (item : ContextItem K) (text : Text) : Prop :=
  encodable text = true ∧ sha (itemInput item text) = itemDigest sha item

/-- No text of the answer has the digest of an item whose text it is not. -/
def NoCollision (sha : List ℕ → Sha256) (items : List (ContextItem K)) (objects : List ContextObject) : Prop :=
  ∀ item ∈ items, ∀ object ∈ objects, ∀ ps text, object.properties = some ps → property ps "raw_text" = .str text →
    SameDigest sha item text → text = item.rawText

/-- The objects of an answer are those of the items, in any order. -/
def HasItems (userId : Text) (allowed : Option (List Text)) (objects : List ContextObject) (items : List (ContextItem K)) : Prop :=
  ∃ order, List.Forall₂ (fun object item => IsChunk userId allowed object (item.objectId.str, item.rawText)) objects order ∧
    order.Perm items

section Answers

variable {sha : List ℕ → Sha256} {items : List (ContextItem K)} {p : TracePrefix} {userId : Text} {allowed : Option (List Text)}

theorem encodable_str (u : Uuid) : encodable u.str = true := by
  have hdigit : ∀ d : Digit, isSurrogate (hexChar d) = false := by decide
  rw [encodable, List.all_eq_true]
  intro c hc
  obtain rfl | ⟨d, rfl⟩ := Uuid.mem_str hc
  · decide
  · rw [hdigit]
    rfl

theorem encoded_ok_iff {t : Text} {bytes : List ℕ} :
    (encodeUtf8 t).mapError BridgeError.raised = .ok bytes ↔ encodable t = true ∧ bytes = t.flatMap utf8Bytes := by
  rw [encodeUtf8]
  split_ifs with h
  · exact ⟨fun heq => ⟨h, (Except.ok.inj heq).symm⟩, fun heq => by rw [heq.2]; rfl⟩
  · exact ⟨(fun heq => by cases heq), fun heq => absurd heq.1 h⟩

theorem itemFingerprint_ok_iff {item : ContextItem K} {text fingerprint : Text} :
    (contentDigest sha (lit "chat-kp-item-v1") [item.objectId.str.flatMap utf8Bytes, text.flatMap utf8Bytes]).mapError
      BridgeError.raised = .ok fingerprint ↔ fingerprint = (sha (itemInput item text)).hexdigest := by
  rw [contentDigest_ok (by decide +kernel)]
  exact ⟨fun h => (Except.ok.inj h).symm, fun h => by rw [h]; rfl⟩

theorem fingerprintText_eq_iff {item : ContextItem K} {d : Sha256} :
    fingerprintText sha item = item.objectId.str ++ lit ":" ++ d.hexdigest ↔ d = itemDigest sha item := by
  rw [fingerprintText, List.append_cancel_left_eq]
  exact ⟨fun h => (Sha256.hexdigest_injective h).symm, fun h => by rw [h]⟩

/-- The texts that have the digests of the items, one each. -/
theorem hydratedParts_iff {texts : List Text} {parts : List (List ℕ)} :
    hydratedParts sha (items.map fun item => item.objectId.str) texts (items.map (fingerprintText sha)) = .ok parts ↔
      List.Forall₂ (SameDigest sha) items texts ∧
        parts = (items.zip texts).flatMap fun e => [e.1.objectId.str.flatMap utf8Bytes, e.2.flatMap utf8Bytes] := by
  induction items generalizing texts parts with
  | nil =>
    cases texts with
    | nil => simp [hydratedParts, eq_comm]
    | cons text texts => simp [hydratedParts]
  | cons item items ih =>
    cases texts with
    | nil => simp [hydratedParts]
    | cons text texts =>
      rw [List.forall₂_cons, List.map_cons, List.map_cons, hydratedParts]
      constructor
      · intro h
        obtain ⟨identifierBytes, hidentifier, h⟩ := bind_eq_ok_iff.mp h
        obtain ⟨textBytes, htext, h⟩ := bind_eq_ok_iff.mp h
        obtain ⟨fingerprint, hfingerprint, h⟩ := bind_eq_ok_iff.mp h
        obtain ⟨-, rfl⟩ := encoded_ok_iff.mp hidentifier
        obtain ⟨hencodable, rfl⟩ := encoded_ok_iff.mp htext
        obtain rfl := itemFingerprint_ok_iff.mp hfingerprint
        split_ifs at h with hsame
        obtain ⟨rest, hrest, h⟩ := bind_eq_ok_iff.mp h
        obtain ⟨htexts, rfl⟩ := ih.mp hrest
        cases h
        exact ⟨⟨⟨hencodable, fingerprintText_eq_iff.mp hsame⟩, htexts⟩, rfl⟩
      · rintro ⟨⟨⟨hencodable, hsame⟩, htexts⟩, rfl⟩
        refine bind_eq_ok_iff.mpr ⟨_, encoded_ok_iff.mpr ⟨encodable_str _, rfl⟩,
          bind_eq_ok_iff.mpr ⟨_, encoded_ok_iff.mpr ⟨hencodable, rfl⟩,
            bind_eq_ok_iff.mpr ⟨_, itemFingerprint_ok_iff.mpr rfl, ?_⟩⟩⟩
        rw [if_pos (fingerprintText_eq_iff.mpr hsame)]
        exact bind_eq_ok_iff.mpr ⟨_, ih.mpr ⟨htexts, rfl⟩, rfl⟩

theorem partsBytes_items (items : List (ContextItem K)) :
    partsBytes (itemParts items) = (items.map fun item => (item.rawText.flatMap utf8Bytes).length).sum := by
  induction items with
  | nil => rfl
  | cons item items ih => exact congrArg ((item.rawText.flatMap utf8Bytes).length + ·) ih

theorem zip_parts (items : List (ContextItem K)) : ((items.zip (items.map ContextItem.rawText)).flatMap fun e =>
    [e.1.objectId.str.flatMap utf8Bytes, e.2.flatMap utf8Bytes]) = itemParts items := by
  rw [← List.map_prod_left_eq_zip, List.flatMap_map]
  rfl

/-- The texts of an answer that have the digests of the items are their texts. -/
theorem texts_of_digests {objects : List ContextObject} {es : List (Text × Text)} {ordered : List Text}
    (hes : List.Forall₂ (IsChunk userId allowed) objects es)
    (hordered : List.Forall₂ (fun item text => (item.objectId.str, text) ∈ es) items ordered)
    (hsame : List.Forall₂ (SameDigest sha) items ordered) (hsafe : NoCollision sha items objects) :
    ordered = items.map ContextItem.rawText := by
  have hmem : List.Forall₂ (fun item text => item ∈ items ∧ (item.objectId.str, text) ∈ es) items ordered :=
    (List.forall₂_and_left _ _).mpr ⟨fun _ hitem => hitem, hordered⟩
  have heq : List.Forall₂ (fun item text => item.rawText = text) items ordered := by
    refine List.Forall₂.mp (fun item text hpair hdigest => ?_) hmem hsame
    obtain ⟨object, hobject, ps, hps, hholds⟩ := forall₂_right hes hpair.2
    exact (hsafe item hpair.1 object hobject ps text hps hholds.rawText hdigest).symm
  rwa [← List.forall₂_map_left_iff, List.forall₂_eq_eq_eq, eq_comm] at heq

/-- A hydration that found every identifier once holds the items. -/
theorem perm_of_hydrated {es : List (Text × Text)} (hids : (items.map ContextItem.objectId).Nodup)
    (hmem : ∀ item ∈ items, (item.objectId.str, item.rawText) ∈ es) (hlength : es.length = items.length) :
    es.Perm (items.map fun item => (item.objectId.str, item.rawText)) := by
  have hpairs : (items.map fun item => (item.objectId.str, item.rawText)).Nodup := by
    refine List.Nodup.of_map Prod.fst ?_
    have hstrs := hids.map Uuid.str_injective
    rw [List.map_map] at hstrs ⊢
    exact hstrs
  have hsub : (items.map fun item => (item.objectId.str, item.rawText)) ⊆ es := by
    intro e he
    obtain ⟨item, hitem, rfl⟩ := List.mem_map.mp he
    exact hmem item hitem
  exact ((hpairs.subperm hsub).perm_of_length_le (by rw [List.length_map, hlength])).symm

/-- **Exact contexts**: where no text collides with one that was used, the answers that are accepted are those that have
the items of the context in any order, each under its identifier, for the user, in an allowed document; and the texts are
those that were used, in their order. -/
theorem orderedContexts_iff (h : EncodableItems items) (hids : (items.map ContextItem.objectId).Nodup)
    {objects : List ContextObject} (hsafe : NoCollision sha items objects) {texts : List Text} :
    orderedContexts sha userId (identityOf sha p items) allowed objects = .ok texts ↔
      texts = items.map ContextItem.rawText ∧ HasItems userId allowed objects items := by
  have hstrs : (items.map fun item => item.objectId.str).Nodup := by
    have hmap := hids.map Uuid.str_injective
    rwa [List.map_map] at hmap
  constructor
  · intro hok
    obtain ⟨hydrated, hhydrated, hok⟩ := bind_eq_ok_iff.mp hok
    obtain ⟨es, hes, hmem, hnodup, hentries⟩ := hydrateObjects_iff.mp hhydrated
    rw [show (Dict.empty : Dict Text Text).entries = [] from rfl, List.nil_append] at hnodup hentries
    split at hok
    case h_2 => cases hok
    case h_1 ordered hordered =>
      split_ifs at hok with hsize
      obtain ⟨parts, hparts, hok⟩ := bind_eq_ok_iff.mp hok
      obtain ⟨aggregate, -, hok⟩ := bind_eq_ok_iff.mp hok
      split_ifs at hok
      cases hok
      have hfound : List.Forall₂ (fun item text => (item.objectId.str, text) ∈ es) items texts := by
        have hget := mapM_eq_some_iff.mp hordered
        rw [identityOf, List.forall₂_map_left_iff] at hget
        exact hget.imp fun item text hitem => hentries ▸ Dict.mem_entries_iff.mpr hitem
      have htexts := texts_of_digests hes hfound (hydratedParts_iff.mp hparts).1 hsafe
      refine ⟨htexts, ?_⟩
      have hlength : es.length = items.length := by
        rw [← hes.length_eq, hsize.2, identityOf, List.length_map]
      have hperm := perm_of_hydrated hids (fun item hitem => ?_) hlength
      · have hcomp : Relation.Comp (fun l l' => l = l'.map fun item => (item.objectId.str, item.rawText)) List.Perm es items := by
          rw [List.eq_map_comp_perm]
          exact hperm
        obtain ⟨order, rfl, horder⟩ := hcomp
        exact ⟨order, List.forall₂_map_right_iff.mp hes, horder⟩
      · rw [htexts, List.forall₂_map_right_iff, List.forall₂_same] at hfound
        exact hfound item hitem
  · rintro ⟨rfl, order, hobjects, hperm⟩
    set es := order.map fun item => (item.objectId.str, item.rawText) with hes
    have hfst : es.map Prod.fst = order.map fun item => item.objectId.str := by
      rw [hes, List.map_map]
      rfl
    have hnodup : (es.map Prod.fst).Nodup := by
      rw [hfst]
      exact (hperm.map _).nodup_iff.mpr hstrs
    have hhydrated : objects.foldlM (hydrateObject userId (identityOf sha p items).ids allowed) .empty = .ok ⟨es, hnodup⟩ := by
      refine hydrateObjects_iff.mpr ⟨es, List.forall₂_map_right_iff.mpr hobjects, fun e he => ?_, hnodup, rfl⟩
      obtain ⟨item, hitem, rfl⟩ := List.mem_map.mp he
      exact List.mem_map_of_mem (hperm.mem_iff.mp hitem)
    have hordered : (identityOf sha p items).ids.mapM (Dict.get? ⟨es, hnodup⟩) = some (items.map ContextItem.rawText) := by
      rw [mapM_eq_some_iff, identityOf, List.forall₂_map_left_iff, List.forall₂_map_right_iff, List.forall₂_same]
      exact fun item hitem => Dict.mem_entries_iff.mp (List.mem_map_of_mem (hperm.mem_iff.mpr hitem))
    have hlength : objects.length = (identityOf sha p items).ids.length := by
      rw [identityOf, List.length_map, hobjects.length_eq, hperm.length_eq]
    have hkeys : (⟨es, hnodup⟩ : Dict Text Text).keys ⊆ (identityOf sha p items).ids := by
      intro key hkey
      rw [Dict.keys, hfst] at hkey
      obtain ⟨item, hitem, rfl⟩ := List.mem_map.mp hkey
      exact List.mem_map_of_mem (hperm.mem_iff.mp hitem)
    have hparts : hydratedParts sha (identityOf sha p items).ids (items.map ContextItem.rawText)
        (identityOf sha p items).fingerprints = .ok (itemParts items) := by
      refine hydratedParts_iff.mpr ⟨?_, (zip_parts items).symm⟩
      rw [List.forall₂_map_right_iff, List.forall₂_same]
      exact fun item hitem => ⟨h.encodable item hitem, rfl⟩
    refine bind_eq_ok_iff.mpr ⟨_, hhydrated, ?_⟩
    rw [hordered]
    dsimp only
    rw [if_pos ⟨hkeys, hlength⟩]
    refine bind_eq_ok_iff.mpr ⟨_, hparts, bind_eq_ok_iff.mpr ⟨(sha (framed (p.qwenDomain.map Fin.val) (itemParts items))).hexdigest,
      ?_, ?_⟩⟩
    · rw [show contextDomain (identityOf sha p items).collection = p.qwenDomain from rfl, contentDigest_ok p.isDigestDomain_qwenDomain]
      rfl
    · rw [partsBytes_items, List.length_map, Nat.add_comm]
      exact if_pos ⟨rfl, rfl⟩

/-! ### A context, read again -/

/-- The store answers the request for these identifiers with these objects. -/
def Answers (pattern : UserIdPattern) (store : ContextStore) (userId collection : Text) (ids : List Text)
    (objects : List ContextObject) : Prop :=
  ∃ name, getCollectionName pattern userId (collectionType collection) = .ok name ∧ store.exists? name = .ok true ∧
    store.fetchObjectsByIds name ids = .ok (some objects)

/-- The store has the items of a context, and answers them in any order. -/
def Stored (pattern : UserIdPattern) (store : ContextStore) (userId : Text) (allowed : Option (List Text)) (p : TracePrefix)
    (items : List (ContextItem K)) : Prop :=
  ∃ objects, Answers pattern store userId p.text (items.map fun item => item.objectId.str) objects ∧
    HasItems userId allowed objects items

/-- No text that the store answers for a context has the digest of another text of it. -/
def Separated (sha : List ℕ → Sha256) (pattern : UserIdPattern) (store : ContextStore) (userId : Text) (p : TracePrefix)
    (items : List (ContextItem K)) : Prop :=
  ∀ objects, Answers pattern store userId p.text (items.map fun item => item.objectId.str) objects → NoCollision sha items objects

variable {pattern : UserIdPattern} {store : ContextStore}

theorem fetchContexts_ok_iff {identity : ContextIdentity} (hids : identity.ids ≠ []) {texts : List Text} :
    fetchContexts sha pattern store userId identity allowed = .ok texts ↔
      ∃ objects, Answers pattern store userId identity.collection identity.ids objects ∧
        orderedContexts sha userId identity allowed objects = .ok texts := by
  have hsome : identity.ids.isEmpty = false := by simpa using hids
  rw [fetchContexts, hsome, if_neg (by simp)]
  constructor
  · intro h
    obtain ⟨name, hname, h⟩ := bind_eq_ok_iff.mp h
    obtain ⟨found, hfound, h⟩ := bind_eq_ok_iff.mp h
    split_ifs at h with htrue
    obtain ⟨response, hresponse, h⟩ := bind_eq_ok_iff.mp h
    rw [mapError_eq_ok_iff] at hname hfound hresponse
    cases response with
    | none => cases h
    | some objects => exact ⟨objects, ⟨name, hname, htrue ▸ hfound, hresponse⟩, h⟩
  · rintro ⟨objects, ⟨name, hname, hexists, hanswer⟩, h⟩
    refine bind_eq_ok_iff.mpr ⟨name, mapError_eq_ok_iff.mpr hname, bind_eq_ok_iff.mpr ⟨true, mapError_eq_ok_iff.mpr hexists, ?_⟩⟩
    exact bind_eq_ok_iff.mpr ⟨some objects, mapError_eq_ok_iff.mpr hanswer, h⟩

/-- A recorded context is hydrated where it is empty or the store has its items; and its texts are those that were used. -/
theorem fetchContexts_iff (h : EncodableItems items) (hids : (items.map ContextItem.objectId).Nodup)
    (hsafe : Separated sha pattern store userId p items) {texts : List Text} :
    fetchContexts sha pattern store userId (identityOf sha p items) allowed = .ok texts ↔
      texts = items.map ContextItem.rawText ∧ (items = [] ∨ Stored pattern store userId allowed p items) := by
  cases items with
  | nil =>
    have hempty : (contentDigest sha p.qwenDomain []).mapError BridgeError.raised = .ok (identityOf (K := K) sha p []).digest := by
      rw [contentDigest_ok p.isDigestDomain_qwenDomain]
      rfl
    have hok : fetchContexts sha pattern store userId (identityOf (K := K) sha p []) allowed = .ok [] :=
      bind_eq_ok_iff.mpr ⟨_, hempty, if_pos ⟨rfl, rfl⟩⟩
    rw [hok]
    exact ⟨fun heq => ⟨(Except.ok.inj heq).symm, .inl rfl⟩, fun heq => congrArg _ heq.1.symm⟩
  | cons item rest =>
    have hne : (identityOf sha p (item :: rest)).ids ≠ [] := List.cons_ne_nil _ _
    rw [fetchContexts_ok_iff hne]
    constructor
    · rintro ⟨objects, hanswers, hok⟩
      obtain ⟨htexts, hitems⟩ := (orderedContexts_iff h hids (hsafe objects hanswers)).mp hok
      exact ⟨htexts, .inr ⟨objects, hanswers, hitems⟩⟩
    · rintro ⟨htexts, hempty | ⟨objects, hanswers, hitems⟩⟩
      · cases hempty
      · exact ⟨objects, hanswers, (orderedContexts_iff h hids (hsafe objects hanswers)).mpr ⟨htexts, hitems⟩⟩

/-- The documents that a collection may have, of all that are allowed. -/
def allowedOf (allowed : Option (Dict Text (List Text))) (p : TracePrefix) : Option (List Text) :=
  allowed.map fun documents => (documents.get? p.text).getD []

/-- Both contexts of a request are hydrated where each of them is. -/
theorem resolveExactContexts_ok_iff {evidence : RequestEvidence} {allowed : Option (Dict Text (List Text))}
    {contexts : ResolvedContexts} :
    resolveExactContexts sha pattern store userId evidence allowed = .ok contexts ↔
      fetchContexts sha pattern store userId evidence.knowledge (allowedOf allowed .knowledge) = .ok contexts.knowledge ∧
        fetchContexts sha pattern store userId evidence.policy (allowedOf allowed .policy) = .ok contexts.policy := by
  constructor
  · intro hok
    obtain ⟨knowledge, hknowledge, hok⟩ := bind_eq_ok_iff.mp hok
    obtain ⟨policy, hpolicy, hok⟩ := bind_eq_ok_iff.mp hok
    cases hok
    exact ⟨hknowledge, hpolicy⟩
  · rintro ⟨hknowledge, hpolicy⟩
    exact bind_eq_ok_iff.mpr ⟨_, hknowledge, bind_eq_ok_iff.mpr ⟨_, hpolicy, rfl⟩⟩

/-- **Exact contexts are read again**: where no text of an answer has the digest of another that was used, both contexts
of a request are hydrated where each is empty or the store answers its items, in any order, each under its identifier,
for the user and in an allowed document; and the texts are those that were used, in their order. -/
theorem resolveExactContexts_iff {knowledge policy : List (ContextItem K)} {evidence : RequestEvidence}
    {allowed : Option (Dict Text (List Text))} (hknowledge : evidence.knowledge = identityOf sha .knowledge knowledge)
    (hpolicy : evidence.policy = identityOf sha .policy policy) (hk : EncodableItems knowledge) (hp : EncodableItems policy)
    (hkids : (knowledge.map ContextItem.objectId).Nodup) (hpids : (policy.map ContextItem.objectId).Nodup)
    (hksafe : Separated sha pattern store userId .knowledge knowledge) (hpsafe : Separated sha pattern store userId .policy policy)
    {contexts : ResolvedContexts} :
    resolveExactContexts sha pattern store userId evidence allowed = .ok contexts ↔
      contexts = ⟨knowledge.map ContextItem.rawText, policy.map ContextItem.rawText⟩ ∧
        (knowledge = [] ∨ Stored pattern store userId (allowedOf allowed .knowledge) .knowledge knowledge) ∧
        (policy = [] ∨ Stored pattern store userId (allowedOf allowed .policy) .policy policy) := by
  rw [resolveExactContexts_ok_iff, hknowledge, hpolicy, fetchContexts_iff hk hkids hksafe, fetchContexts_iff hp hpids hpsafe]
  constructor
  · rintro ⟨⟨hktexts, hkstored⟩, hptexts, hpstored⟩
    exact ⟨congrArg₂ ResolvedContexts.mk hktexts hptexts, hkstored, hpstored⟩
  · rintro ⟨rfl, hkstored, hpstored⟩
    exact ⟨⟨rfl, hkstored⟩, rfl, hpstored⟩

end Answers

/-! ### Two chunks, answered the other way round -/

/-- Another chunk of the facts. -/
def otherFactSample : ContextItem Unit := ⟨Uuid.ofNat 7, lit "closed on Sundays", none⟩

/-- The object of a chunk of the user. -/
def objectSample (item : ContextItem Unit) : ContextObject where
  uuid := .uuid item.objectId
  properties := some [(lit "user_id", .str (lit "user")), (lit "document_id", .uuid (Uuid.ofNat 8)), (lit "paragraph_id", .int 1),
    (lit "chunk_id", .uuid item.objectId), (lit "raw_text", .str item.rawText)]

/-- A store that answers two chunks, the later first. -/
def storeSample : ContextStore where
  exists? _ := .ok true
  fetchObjectsByIds _ _ := .ok (some [objectSample otherFactSample, objectSample factSample])

/-- All names are accepted. -/
def patternSample : UserIdPattern := .any

theorem isChunk_objectSample {item : ContextItem Unit} (h : isBlank item.rawText = false) :
    IsChunk (lit "user") none (objectSample item) (item.objectId.str, item.rawText) :=
  ⟨_, rfl, ⟨_, rfl⟩, rfl, rfl, ⟨_, rfl⟩, by simp, ⟨1, rfl, by decide⟩, rfl, rfl, h⟩

theorem resolveExactContexts_iff_sample :
    ∃ evidence : RequestEvidence, resolveExactContexts shaSample patternSample storeSample (lit "user") evidence none =
      .ok ⟨[lit "open from nine", lit "closed on Sundays"], []⟩ := by
  refine ⟨⟨lit "user", [], [], [], [], [], identityOf shaSample .knowledge [factSample, otherFactSample],
    identityOf (K := Unit) shaSample .policy []⟩, ?_⟩
  have hk : EncodableItems [factSample, otherFactSample] := by decide +kernel
  have hsafe : Separated shaSample patternSample storeSample (lit "user") .knowledge [factSample, otherFactSample] := by
    have hpairs : ∀ item ∈ [factSample, otherFactSample], ∀ other ∈ [otherFactSample, factSample],
        shaSample (itemInput item other.rawText) = itemDigest shaSample item → other.rawText = item.rawText := by decide +kernel
    rintro objects ⟨name, -, -, hanswer⟩ item hitem object hobject ps text hps htext ⟨-, hdigest⟩
    cases hanswer
    obtain ⟨other, hother, rfl⟩ : ∃ other ∈ [otherFactSample, factSample], objectSample other = object := by
      simpa [eq_comm] using hobject
    cases hps
    cases htext
    exact hpairs item hitem other hother hdigest
  refine (resolveExactContexts_iff rfl rfl hk (by decide) (by decide) (by decide) hsafe ?_).mpr ⟨rfl, .inr ?_, .inl rfl⟩
  · intro objects _ item hitem
    cases hitem
  · have hname : (getCollectionName patternSample (lit "user") (collectionType TracePrefix.knowledge.text)).toOption.isSome = true := by
      decide +kernel
    obtain ⟨name, hname⟩ := Option.isSome_iff_exists.mp hname
    exact ⟨_, ⟨name, toOption_eq_some_iff.mp hname, rfl, rfl⟩, [otherFactSample, factSample],
      .cons (isChunk_objectSample (by decide +kernel)) (.cons (isChunk_objectSample (by decide +kernel)) .nil), .swap _ _ _⟩

end EvaluationBridge

end TenantRag

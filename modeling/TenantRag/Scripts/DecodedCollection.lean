import TenantRag.Config.CollectionNames

/-!
# Decoding the names of collections

The migration of vector profiles reads back, from the name of a collection, whose
collection it is and of which type. What it reads it encodes again, and it rejects a
name that is not the one it would have given.

## The model

* `matchCollection` — the match of `_COLLECTION_PATTERN`.
* `decodedCollection` — the user identifier and the type.

## What is proved

* `matchCollection_eq_some_iff` — which names match, and which token and type they carry.
* `decodedCollection_getCollectionName` — a name is decoded to what it was made of.
* `collectionName_exact` — names are injective and decode exactly, and no other name is decoded.
-/

namespace TenantRag

/-- `VectorMigrationError`, a `RuntimeError`. -/
def vectorMigrationError (message : String) : PyError := ⟨.runtimeError, message⟩

/-- `_COLLECTION_PATTERN.fullmatch(name)`: the token and the type of the suffix. -/
def matchCollection (name : Text) : Option (Text × CollectionType) :=
  if (lit "RagUser_").isPrefixOf name then
    let rest := name.drop 8
    let token := rest.takeWhile isBase32Char
    match [CollectionType.conversations, .knowledgeFacts, .policy].find? fun t =>
        rest.dropWhile isBase32Char = lit "_" ++ t.suffix with
    | none => none
    | some type => if token = [] then none else some (token, type)
  else none

/-- The user identifier of the token of a name. -/
def tokenUserId (name token : Text) : Except PyError Text :=
  match b32decode (token ++ List.replicate ((8 - token.length % 8) % 8) 61) >>= decodeUtf8 with
  | .ok userId => .ok userId
  | .error _ => .error (vectorMigrationError s!"collection '{shown name}' has an invalid user token")

/-- `_decoded_collection`. A name that matches is its own representation, between quotes. -/
def decodedCollection (pattern : UserIdPattern) (name : Text) : Except PyError (Option (Text × Text)) :=
  match matchCollection name with
  | none => .ok none
  | some (token, type) => do
      let userId ← tokenUserId name token
      let canonical ← getCollectionName pattern userId type.name
      if canonical ≠ name then throw (vectorMigrationError s!"collection '{shown name}' is not canonically encoded")
      return some (userId, type.name)

theorem takeWhile_append_stop {p : PyChar → Bool} {xs : Text} {c : PyChar} (ys : Text) (hxs : ∀ x ∈ xs, p x = true)
    (hc : p c = false) : (xs ++ c :: ys).takeWhile p = xs ∧ (xs ++ c :: ys).dropWhile p = c :: ys := by
  induction xs with
  | nil => simp [hc]
  | cons x xs ih =>
    rw [List.forall_mem_cons] at hxs
    obtain ⟨htake, hdrop⟩ := ih hxs.2
    simp [hxs.1, htake, hdrop]

/-- The names that match, and the token and the type they carry. -/
theorem matchCollection_eq_some_iff {name token : Text} {type : CollectionType} :
    matchCollection name = some (token, type) ↔
      name = lit "RagUser_" ++ (token ++ (lit "_" ++ type.suffix)) ∧ token ≠ [] ∧ ∀ c ∈ token, isBase32Char c = true := by
  rw [matchCollection]
  constructor
  · intro h
    split at h
    · rename_i hhead
      obtain ⟨rest, rfl⟩ := List.isPrefixOf_iff_prefix.mp hhead
      have hdrop : (lit "RagUser_" ++ rest).drop 8 = rest := List.drop_left' (by decide)
      simp only [hdrop] at h
      split at h
      · cases h
      · rename_i found hfind
        split_ifs at h with hnil
        cases h
        have hbehind : rest.dropWhile isBase32Char = lit "_" ++ type.suffix := by
          simpa only [decide_eq_true_eq] using List.find?_some hfind
        refine ⟨?_, hnil, fun c => List.mem_takeWhile_imp⟩
        rw [← hbehind, List.takeWhile_append_dropWhile]
    · cases h
  · rintro ⟨rfl, hnil, htoken⟩
    have hstop : lit "_" ++ type.suffix = 95 :: type.suffix := rfl
    rw [hstop]
    have hhead : (lit "RagUser_").isPrefixOf (lit "RagUser_" ++ (token ++ 95 :: type.suffix)) = true :=
      List.isPrefixOf_iff_prefix.mpr (List.prefix_append _ _)
    have hdrop : (lit "RagUser_" ++ (token ++ 95 :: type.suffix)).drop 8 = token ++ 95 :: type.suffix :=
      List.drop_left' (by decide)
    obtain ⟨htake, hbehind⟩ := takeWhile_append_stop type.suffix htoken (c := 95) (by decide)
    have hfind : ([CollectionType.conversations, .knowledgeFacts, .policy].find? fun t =>
        95 :: type.suffix = lit "_" ++ t.suffix) = some type := by
      cases type <;> decide
    rw [if_pos hhead]
    simp only [hdrop, htake, hbehind, hfind, if_neg hnil]

/-- The token of an accepted identifier is read back. -/
theorem tokenUserId_token {pattern : UserIdPattern} {userId : Text} {bytes : List ℕ} (h : Accepted pattern userId bytes)
    (name : Text) : tokenUserId name ((base32Digits bytes).map base32Char) = .ok userId := by
  rw [tokenUserId, ← b32encode_eq, b32decode_b32encode (bytes_lt h.encoded)]
  simp only [bind, Except.bind, decodeUtf8_encodeUtf8 h.encoded]

/-- A name is decoded to what it was made of. -/
theorem decodedCollection_getCollectionName {pattern : UserIdPattern} {userId name : Text} {type : CollectionType}
    (h : getCollectionName pattern userId type.name = .ok name) :
    decodedCollection pattern name = .ok (some (userId, type.name)) := by
  obtain ⟨bytes, type', haccepted, htype, hname⟩ := getCollectionName_eq_ok_iff.mp h
  rw [ofName_name] at htype
  cases htype
  have hmatch : matchCollection name = some ((base32Digits bytes).map base32Char, type) :=
    matchCollection_eq_some_iff.mpr ⟨hname, haccepted.token_ne_nil, fun _ => isBase32Char_of_mem⟩
  simp only [decodedCollection, hmatch, tokenUserId_token haccepted, h, bind, Except.bind, pure, Except.pure, ne_eq,
    not_true_eq_false, if_false]

/-- What a name that matches is decoded to has the name. -/
theorem decodedCollection_ok {pattern : UserIdPattern} {name token : Text} {type : CollectionType}
    {found : Option (Text × Text)} (hmatch : matchCollection name = some (token, type))
    (h : decodedCollection pattern name = .ok found) :
    ∃ userId, getCollectionName pattern userId type.name = .ok name ∧ found = some (userId, type.name) := by
  rw [decodedCollection, hmatch] at h
  dsimp only at h
  rw [bind_eq_ok_iff] at h
  obtain ⟨userId, -, h⟩ := h
  rw [bind_eq_ok_iff] at h
  obtain ⟨canonical, hcanonical, h⟩ := h
  by_cases hname : canonical = name
  · rw [if_neg (not_not.mpr hname)] at h
    cases h
    rw [hname] at hcanonical
    exact ⟨userId, hcanonical, rfl⟩
  · rw [if_pos hname] at h
    cases h

/-- Names are injective in the user and the type, have letters, digits and underscores only, and are decoded to the
user and the type. What is decoded is the name of what it is decoded to, and a name that matches the pattern and is no
user's name is rejected. -/
theorem collectionName_exact (pattern : UserIdPattern) :
    (∀ userId userId' type type' name, getCollectionName pattern userId (CollectionType.name type) = .ok name →
      getCollectionName pattern userId' (CollectionType.name type') = .ok name → userId = userId' ∧ type = type') ∧
    (∀ userId collectionType name, getCollectionName pattern userId collectionType = .ok name →
      ∀ c ∈ name, isNameChar c = true) ∧
    (∀ userId type name, getCollectionName pattern userId (CollectionType.name type) = .ok name →
      decodedCollection pattern name = .ok (some (userId, type.name))) ∧
    (∀ name userId collectionType, decodedCollection pattern name = .ok (some (userId, collectionType)) →
      getCollectionName pattern userId collectionType = .ok name) ∧
    ∀ name, (matchCollection name).isSome →
      (¬ ∃ userId type, getCollectionName pattern userId (CollectionType.name type) = .ok name) →
      ∃ e, decodedCollection pattern name = .error e := by
  refine ⟨fun u u' t t' name h h' => ?_, fun _ _ _ => getCollectionName_chars, fun _ _ _ => decodedCollection_getCollectionName,
    fun name u t h => ?_, fun name hmatch h => ?_⟩
  · have hsame := (decodedCollection_getCollectionName h).symm.trans (decodedCollection_getCollectionName h')
    simp only [Except.ok.injEq, Option.some.injEq, Prod.mk.injEq] at hsame
    refine ⟨hsame.1, ?_⟩
    have htype := ofName_name t
    rw [hsame.2, ofName_name] at htype
    exact (Option.some.inj htype).symm
  · cases hmatch : matchCollection name with
    | none =>
      rw [decodedCollection, hmatch] at h
      cases h
    | some found =>
      obtain ⟨userId, hname, hfound⟩ := decodedCollection_ok hmatch h
      cases hfound
      exact hname
  · obtain ⟨⟨token, type⟩, hmatch⟩ := Option.isSome_iff_exists.mp hmatch
    cases hdecoded : decodedCollection pattern name with
    | error e => exact ⟨e, rfl⟩
    | ok found =>
      obtain ⟨userId, hname, -⟩ := decodedCollection_ok hmatch hdecoded
      exact absurd ⟨userId, type, hname⟩ h

end TenantRag

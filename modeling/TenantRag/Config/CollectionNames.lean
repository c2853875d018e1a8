import TenantRag.Foundations.Base32
import TenantRag.Foundations.Sha256
import TenantRag.Foundations.Utf8

/-!
# Names of collections

Each user has a collection of each type, under a name that carries the user's
identifier in Base32 and the type.

## The model

* `CollectionType` — the types of collections, with their names and suffixes.
* `getCollectionName` — the name of a user's collection.

## What is proved

* `getCollectionName_eq_ok_iff` — which user identifiers and types have a name, and which it is.
* `getCollectionName_chars` — a name has letters, digits and underscores only.
-/

namespace TenantRag

/-- A type of collection. -/
inductive CollectionType where
  /-- `"conversations"`. -/
  | conversations
  /-- `"knowledge_facts"`. -/
  | knowledgeFacts
  /-- `"policy"`. -/
  | policy
  deriving DecidableEq

/-- The type as it is written in `COLLECTION_TYPES`. -/
def CollectionType.name : CollectionType → Text
  | .conversations => lit "conversations"
  | .knowledgeFacts => lit "knowledge_facts"
  | .policy => lit "policy"

/-- `_COLLECTION_TYPE_SUFFIXES`. -/
def CollectionType.suffix : CollectionType → Text
  | .conversations => lit "Conversations"
  | .knowledgeFacts => lit "KnowledgeFacts"
  | .policy => lit "Policy"

/-- The type of a name in `COLLECTION_TYPES`. -/
def CollectionType.ofName (name : Text) : Option CollectionType :=
  [.conversations, .knowledgeFacts, .policy].find? fun t => t.name = name

/-- `c.lower()`, as far as a comparison with ASCII text can tell: the Kelvin sign is the one other code point whose
lower case is ASCII. -/
def lowerTypeChar (c : PyChar) : PyChar := if c.val = 0x212A then 107 else lowerAscii c

/-- `USER_ID_PATTERN`: its representation, what it matches as a whole, and `repr` of the texts in the messages. -/
structure UserIdPattern where
  repr : String
  fullmatch : Text → Bool
  reprText : Text → String

/-- The pattern of all texts. -/
def UserIdPattern.any : UserIdPattern := ⟨"'(?s:.*)'", fun _ => true, fun t => s!"'{shown t}'"⟩

/-- `get_collection_name`. -/
def getCollectionName (pattern : UserIdPattern) (userId collectionType : Text) : Except PyError Text :=
  if userId = [] then .error (valueError "user_id must not be empty")
  else if userId ≠ strip userId then
    .error (valueError "user_id must not contain leading or trailing whitespace")
  else if ¬ pattern.fullmatch userId then
    .error (valueError ("user_id does not match configured USER_ID_PATTERN " ++ pattern.repr))
  else
    match CollectionType.ofName ((strip collectionType).map lowerTypeChar) with
    | none =>
        .error (valueError (s!"Unsupported collection_type {pattern.reprText collectionType}; " ++
          "expected one of: conversations, knowledge_facts, policy"))
    | some type => do
        let bytes ← encodeUtf8 userId
        let userToken := (b32encode bytes).rdropWhile isPad
        return lit "RagUser_" ++ (userToken ++ (lit "_" ++ type.suffix))

/-- A user identifier that has a name, and its bytes. -/
structure Accepted (pattern : UserIdPattern) (userId : Text) (bytes : List ℕ) : Prop where
  ne_nil : userId ≠ []
  stripped : userId = strip userId
  matched : pattern.fullmatch userId = true
  encoded : encodeUtf8 userId = .ok bytes

/-- The name of a collection, by the bytes of the user identifier. -/
def collectionName (bytes : List ℕ) (type : CollectionType) : Text :=
  lit "RagUser_" ++ ((base32Digits bytes).map base32Char ++ (lit "_" ++ type.suffix))

theorem getCollectionName_eq_ok_iff {pattern : UserIdPattern} {userId collectionType name : Text} :
    getCollectionName pattern userId collectionType = .ok name ↔
      ∃ bytes type, Accepted pattern userId bytes ∧
        CollectionType.ofName ((strip collectionType).map lowerTypeChar) = some type ∧ name = collectionName bytes type := by
  rw [getCollectionName]
  constructor
  · intro h
    split_ifs at h with hne hstrip hmatch
    split at h
    · cases h
    · rename_i type htype
      rw [bind_eq_ok_iff] at h
      obtain ⟨bytes, hbytes, h⟩ := h
      cases h
      refine ⟨bytes, type, ⟨hne, not_not.mp hstrip, hmatch, hbytes⟩, htype, ?_⟩
      rw [rstrip_b32encode, collectionName]
  · rintro ⟨bytes, type, ⟨hne, hstrip, hmatch, hbytes⟩, htype, rfl⟩
    rw [if_neg hne, if_neg (not_not.mpr hstrip), if_neg (not_not.mpr hmatch), htype]
    simp only [hbytes, bind, Except.bind, pure, Except.pure, rstrip_b32encode, collectionName]

/-- The names of the types are their own normal form. -/
@[simp] theorem ofName_name (type : CollectionType) :
    CollectionType.ofName ((strip type.name).map lowerTypeChar) = some type := by
  cases type <;> decide

/-- What `[A-Za-z0-9_]` matches. -/
def isNameChar (c : PyChar) : Bool :=
  (65 ≤ c.val && c.val ≤ 90) || (97 ≤ c.val && c.val ≤ 122) || (48 ≤ c.val && c.val ≤ 57) || c.val == 95

theorem isNameChar_of_isBase32Char {c : PyChar} (h : isBase32Char c = true) : isNameChar c = true := by
  simp only [isBase32Char, isNameChar, Bool.or_eq_true, Bool.and_eq_true, decide_eq_true_eq, beq_iff_eq] at h ⊢
  omega

theorem isBase32Char_of_mem {bytes : List ℕ} {c : PyChar} (hc : c ∈ (base32Digits bytes).map base32Char) :
    isBase32Char c = true := by
  obtain ⟨d, hd, rfl⟩ := List.mem_map.mp hc
  exact isBase32Char_base32Char (base32Digits_lt bytes d hd)

/-- A name has letters, digits and underscores only. -/
theorem getCollectionName_chars {pattern : UserIdPattern} {userId collectionType name : Text}
    (h : getCollectionName pattern userId collectionType = .ok name) : ∀ c ∈ name, isNameChar c = true := by
  obtain ⟨bytes, type, -, -, rfl⟩ := getCollectionName_eq_ok_iff.mp h
  have hhead : (lit "RagUser_").all isNameChar = true := by decide
  have hsuffix : (lit "_" ++ type.suffix).all isNameChar = true := by cases type <;> decide
  intro c hc
  rw [collectionName, List.mem_append, List.mem_append] at hc
  rcases hc with hc | hc | hc
  · exact List.all_eq_true.mp hhead c hc
  · exact isNameChar_of_isBase32Char (isBase32Char_of_mem hc)
  · exact List.all_eq_true.mp hsuffix c hc

/-- An accepted identifier has bytes, and its token has digits. -/
theorem Accepted.token_ne_nil {pattern : UserIdPattern} {userId : Text} {bytes : List ℕ} (h : Accepted pattern userId bytes) :
    (base32Digits bytes).map base32Char ≠ [] := by
  intro hnil
  have hbytes : bytes = [] := by
    rw [List.map_eq_nil_iff] at hnil
    have hread := base32Bytes_base32Digits (bytes_lt h.encoded)
    rw [hnil] at hread
    exact hread.symm
  have hdecode := decodeUtf8_encodeUtf8 h.encoded
  rw [hbytes, decodeUtf8] at hdecode
  exact h.ne_nil (Except.ok.inj hdecode).symm

end TenantRag

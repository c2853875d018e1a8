import TenantRag.Foundations.Dict
import TenantRag.Mappings.Common

/-!
# Documents and their paragraphs

`backend/mappings/document_map.py`: the texts of the paragraphs of each document of one
user and collection type, in memory. A document always has paragraphs numbered from
one on, an empty one having a single empty paragraph.

## The model

A document is a dictionary from paragraph numbers to texts; `validatedReplacement`
decides which dictionaries may become one.

## What is proved

* `validatedReplacement_ok` — paragraphs numbered from one on, in order, are accepted as they are.
-/

namespace TenantRag

/-- `DocumentMap`, for a validated user and collection type. -/
structure DocumentMap where
  /-- `_documents`. -/
  documents : Dict Uuid (Dict ℕ Text)

namespace DocumentMap

/-- `{1: ""}`. -/
def emptyDocument : Dict ℕ Text := ⟨[(1, [])], by decide⟩

/-- `create_document(document_id)`. -/
def createDocument (m : DocumentMap) (documentId : Text) : Except PyError DocumentMap := do
  let key ← requiredUuid documentId "document_id"
  if m.documents.contains key then .error (valueError "document already exists")
  else .ok ⟨m.documents.set key emptyDocument⟩

/-- `get_paragraph_data(document_id)`. -/
def getParagraphData (m : DocumentMap) (documentId : Text) : Except PyError (Dict ℕ Text) := do
  let key ← requiredUuid documentId "document_id"
  match m.documents.get? key with
  | none => .error (keyError "document_id")
  | some paragraphs => .ok paragraphs

/-- `_validated_replacement(new_paragraph_data)`. -/
def validatedReplacement (newParagraphData : Dict ℕ Text) : Except PyError (Dict ℕ Text) :=
  if 0 ∈ newParagraphData.keys then .error (valueError "paragraph_id must be greater than zero")
  else if newParagraphData.keys = [] then .ok emptyDocument
  else if !isSequential newParagraphData.keys then
    .error (valueError "paragraph IDs must be sequential from 1 through N")
  else .ok newParagraphData.sorted

/-- `update_paragraphs(document_id, new_paragraph_data)`. -/
def updateParagraphs (m : DocumentMap) (documentId : Text) (newParagraphData : Dict ℕ Text) :
    Except PyError DocumentMap := do
  let key ← requiredUuid documentId "document_id"
  if !m.documents.contains key then .error (keyError "document_id")
  else do
    let validated ← validatedReplacement newParagraphData
    .ok ⟨m.documents.set key validated⟩

/-- `validate_update(document_id, new_paragraph_data)`. -/
def validateUpdate (m : DocumentMap) (documentId : Text) (newParagraphData : Dict ℕ Text) : Except PyError Unit :=
  (m.updateParagraphs documentId newParagraphData).map fun _ => ()

/-- `restore_document(document_id, paragraph_data)`. -/
def restoreDocument (m : DocumentMap) (documentId : Text) (paragraphData : Dict ℕ Text) : Except PyError DocumentMap := do
  let key ← requiredUuid documentId "document_id"
  let validated ← validatedReplacement paragraphData
  .ok ⟨m.documents.set key validated⟩

/-- `delete_document(document_id)`. -/
def deleteDocument (m : DocumentMap) (documentId : Text) : Except PyError DocumentMap := do
  let key ← requiredUuid documentId "document_id"
  if !m.documents.contains key then .error (keyError "document_id")
  else .ok ⟨m.documents.erase key⟩

/-- Paragraphs numbered from one on, in order, are accepted as they are. -/
theorem validatedReplacement_ok {data : Dict ℕ Text} (h : data.keys = List.range' 1 data.keys.length)
    (hne : data.keys ≠ []) : validatedReplacement data = .ok data := by
  have hzero : 0 ∉ data.keys := by
    rw [h, List.mem_range'_1]
    omega
  have hsequential : isSequential data.keys = true := by
    rw [h]
    exact isSequential_range' _
  have hascending : data.keys.Pairwise (· < ·) := by
    rw [h]
    exact List.pairwise_lt_range'
  rw [validatedReplacement, if_neg hzero, if_neg hne, hsequential, Dict.sorted_eq_self hascending]
  rfl

end DocumentMap

end TenantRag

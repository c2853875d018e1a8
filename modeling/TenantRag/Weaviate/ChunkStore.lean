import TenantRag.Foundations.Dict
import TenantRag.Foundations.Effect
import TenantRag.Weaviate.Deletion
import TenantRag.Weaviate.Values
import TenantRag.Wizard.TraceEvidence

/-!
# The store of chunks

`backend/weaviate_client/_chunk_collection.py`: what a save or a deletion does to the
collection of one user and type.

## The model

The collection is a finite map from chunk identifiers to records. Each call to the
server, and to the other providers of a save, is numbered; a list of faults says which
of them raise, and how much of its own change a call has made when it does. A call that
does not raise makes all of its change and answers truly. What is written to the active
trace is kept in order.

## What is proved

* `keeps_deleteByParagraphs`, `keeps_insertChunk` and the others — no operation records other
  names than the ones a deletion does.
-/

namespace TenantRag

/-- `ChunkRecord`, of the one user; its object identifier is its chunk identifier. -/
structure ChunkRecord (K : Type) where
  /-- `document_id`. -/
  documentId : Uuid
  /-- `paragraph_id`. -/
  paragraphId : ℕ
  /-- `chunk_id`. -/
  chunkId : Uuid
  /-- `raw_text`. -/
  rawText : Text
  /-- `late_interaction`. -/
  lateInteraction : List (List K)
  /-- `mmr_diversity`. -/
  mmrDiversity : List K
  deriving DecidableEq

/-- How a call to the outside fails. -/
structure Fault where
  /-- What it raises. -/
  error : Failure
  /-- Under which identifiers its change is made. -/
  applied : Uuid → Bool
  /-- For which paragraphs its change is made. -/
  appliedTo : Uuid × ℕ → Bool

/-- The collection, the number of calls made so far, and what was written to the trace. -/
structure Outside (K : Type) where
  /-- The records. -/
  chunks : Dict Uuid (ChunkRecord K)
  /-- The number of calls. -/
  calls : ℕ
  /-- The calls of the recording functions, oldest first. -/
  trace : List Call

/-- What an operation of the collection raises. -/
inductive ChunkError where
  /-- An exception. -/
  | raised (error : PyError)
  /-- `PartialParagraphUpdateError`. -/
  | partialUpdate (completedChunkIds : List Uuid) (failedChunkId : Uuid)

namespace ChunkStore

variable {K α : Type} (faults : ℕ → Option Fault)

/-- A recording function is called. -/
def note (c : Call) : Eff (Outside K) ChunkError Unit := .update fun o => { o with trace := o.trace ++ [c] }

/-- A call that changes nothing, and its answer. -/
def answer (f : Outside K → α) : Eff (Outside K) ChunkError α := fun o =>
  match faults o.calls with
  | none => .ok (f o) { o with calls := o.calls + 1 }
  | some fault => .error (.raised fault.error.val) { o with calls := o.calls + 1 }

/-- A call that changes the records. -/
def external (change : Dict Uuid (ChunkRecord K) → Dict Uuid (ChunkRecord K)) : Eff (Outside K) ChunkError Unit := fun o =>
  match faults o.calls with
  | none => .ok () { o with calls := o.calls + 1, chunks := change o.chunks }
  | some fault =>
      .error (.raised fault.error.val)
        { o with calls := o.calls + 1, chunks := Dict.mix fault.applied o.chunks (change o.chunks) }

/-- The exceptions of a check. -/
def check (x : Except PyError α) : Eff (Outside K) ChunkError α := .mapError .raised (.ofExcept x)

/-- `_positive_paragraph_id(value)`. -/
def positive (paragraphId : ℕ) : Except PyError Unit :=
  if paragraphId = 0 then .error (valueError "paragraph_id must be greater than zero") else .ok ()

/-- The checks of a record: `_positive_paragraph_id`, `_required_text`, `_multi_vector_values`, `_vector_values`. -/
def checkRecord (r : ChunkRecord K) : Except PyError Unit := do
  positive r.paragraphId
  let _ ← requiredText (.str r.rawText) "raw_text"
  let _ ← multiVectorValues "chunk multi-vector" (.sequence (r.lateInteraction.map .ofNumbers))
  let _ ← vectorValues "diversity_vector" (.ofNumbers r.mmrDiversity)
  .ok ()

/-- The insertion of a record that was checked; the server refuses an identifier it has. -/
def insertRecord (r : ChunkRecord K) : Eff (Outside K) ChunkError Unit := do
  let o ← .read id
  if o.chunks.contains r.chunkId then
    let _ ← answer faults fun _ => ()
    .raise (.raised ⟨.otherException, "id already exists"⟩)
  else external faults fun chunks => chunks.set r.chunkId r

/-- `insert_chunk(document_id, paragraph_id, chunk_id, raw_text, multi_vector, diversity_vector)`. -/
def insertChunk (documentId : Text) (paragraphId : ℕ) (chunkId : Uuid) (rawText : Text) (multiVector : List (List K))
    (diversityVector : List K) : Eff (Outside K) ChunkError Unit := do
  let document ← check (Weaviate.uuidText documentId "document_id")
  let r : ChunkRecord K := ⟨document, paragraphId, chunkId, rawText, multiVector, diversityVector⟩
  check (checkRecord r)
  insertRecord faults r

/-- `_discover_ids`: a dry run. -/
def discoverIds (filter : ChunkRecord K → Bool) : Eff (Outside K) ChunkError (List Uuid) :=
  answer faults fun o => (o.chunks.filter fun _ r => filter r).keys

/-- `IncompleteDeletionError`. -/
def incompleteDeletion : PyError := ⟨.incompleteDeletionError, "incomplete deletion"⟩

/-- `_verified_delete`. -/
def verifiedDelete (filter : ChunkRecord K → Bool) : Eff (Outside K) ChunkError DeletionReport := do
  note (.setFlag (lit "weaviate_mutation_executed") true)
  let o ← .read id
  let deletedIds := (o.chunks.filter fun _ r => filter r).keys
  external faults fun chunks => chunks.filter fun _ r => !filter r
  note (.addCount (lit "weaviate_delete_matched_count") deletedIds.length)
  note (.addCount (lit "weaviate_delete_successful_count") deletedIds.length)
  note (.addCount (lit "weaviate_delete_failed_count") 0)
  note (.setSample (lit "weaviate_deleted_ids") (.ok (deletedIds.map Uuid.str)) (some deletedIds.length))
  let remainingIds ← discoverIds faults filter
  note (.addCount (lit "weaviate_delete_remaining_count") remainingIds.length)
  note (.setSample (lit "weaviate_delete_remaining_ids") (.ok (remainingIds.map Uuid.str)) (some remainingIds.length))
  let report : DeletionReport := ⟨deletedIds.length, deletedIds.length, 0, deletedIds, remainingIds⟩
  .whenever (!report.confirmed) (.raise (.raised incompleteDeletion))
  pure report

/-- The records of some paragraphs of a document. -/
def inParagraphs (document : Uuid) (paragraphIds : List ℕ) (r : ChunkRecord K) : Bool :=
  r.documentId = document && r.paragraphId ∈ paragraphIds

/-- `delete_by_paragraphs(document_id, paragraph_ids)`. -/
def deleteByParagraphs (documentId : Text) (paragraphIds : List ℕ) : Eff (Outside K) ChunkError DeletionReport := do
  let document ← check (Weaviate.uuidText documentId "document_id")
  let _ ← check (paragraphIds.mapM positive)
  if paragraphIds = [] then pure ⟨0, 0, 0, [], []⟩
  else verifiedDelete faults (inParagraphs document paragraphIds)

/-- `delete_by_document(document_id)`. -/
def deleteByDocument (documentId : Text) : Eff (Outside K) ChunkError DeletionReport := do
  let document ← check (Weaviate.uuidText documentId "document_id")
  verifiedDelete faults fun r => r.documentId = document

/-- `delete_chunks(chunk_ids)`. -/
def deleteChunks (chunkIds : List Uuid) : Eff (Outside K) ChunkError DeletionReport :=
  if chunkIds = [] then pure ⟨0, 0, 0, [], []⟩
  else verifiedDelete faults fun r => r.chunkId ∈ chunkIds

/-- What `_fetch_records_by_ids` checks of an object and the record in it. -/
def snapshotRecord (object : Uuid × ChunkRecord K) : Except PyError (ChunkRecord K) :=
  if (checkRecord object.2).toOption.isNone then
    .error (weaviateResponseError "chunk snapshot properties violate the storage contract")
  else if object.1 ≠ object.2.chunkId then .error (weaviateResponseError "snapshot object UUID does not match chunk_id")
  else .ok object.2

/-- `_fetch_records_by_ids(chunk_ids)`: the records there are, in the order asked for. -/
def fetchRecordsByIds (chunkIds : List Uuid) : Eff (Outside K) ChunkError (List (ChunkRecord K)) :=
  if chunkIds = [] then pure []
  else do
    let objects ← answer faults fun o => chunkIds.filterMap fun id => (o.chunks.get? id).map (id, ·)
    check (objects.mapM snapshotRecord)

/-- `_snapshot`. -/
def snapshot (filter : ChunkRecord K → Bool) : Eff (Outside K) ChunkError (List (ChunkRecord K)) := do
  let objectIds ← discoverIds faults filter
  let records ← fetchRecordsByIds faults objectIds
  if objectIds.any fun id => id ∉ records.map ChunkRecord.chunkId then
    .raise (.raised (weaviateResponseError "chunk snapshot is incomplete"))
  else pure records

/-- `snapshot_by_paragraphs(document_id, paragraph_ids)`. -/
def snapshotByParagraphs (documentId : Text) (paragraphIds : List ℕ) : Eff (Outside K) ChunkError (List (ChunkRecord K)) := do
  let document ← check (Weaviate.uuidText documentId "document_id")
  let _ ← check (paragraphIds.mapM positive)
  if paragraphIds = [] then pure []
  else do
    let records ← snapshot faults (inParagraphs document paragraphIds)
    if records.any fun r => !inParagraphs document paragraphIds r then
      .raise (.raised (weaviateResponseError "paragraph snapshot escaped its requested scope"))
    else pure records

/-- `snapshot_by_document(document_id)`. -/
def snapshotByDocument (documentId : Text) : Eff (Outside K) ChunkError (List (ChunkRecord K)) := do
  let document ← check (Weaviate.uuidText documentId "document_id")
  let records ← snapshot faults fun r => r.documentId = document
  if records.any fun r => r.documentId ≠ document then
    .raise (.raised (weaviateResponseError "document snapshot escaped its requested scope"))
  else pure records

/-- `restore_chunks(records)`. -/
def restoreChunks [DecidableEq K] (records : List (ChunkRecord K)) : Eff (Outside K) ChunkError Unit := do
  let _ ← check (records.mapM checkRecord)
  let ids := records.map ChunkRecord.chunkId
  if ¬ ids.Nodup then .raise (.raised (valueError "records must not contain duplicate chunk IDs"))
  else do
    let existing ← fetchRecordsByIds faults ids
    if existing.any fun r => r ∉ records then
      .raise (.raised (weaviateResponseError "existing chunk conflicts with recovery snapshot"))
    else do
      .forEach (fun r =>
        insertChunk faults r.documentId.str r.paragraphId r.chunkId r.rawText r.lateInteraction r.mmrDiversity)
        (records.filter fun r => r.chunkId ∉ existing.map ChunkRecord.chunkId)
      let verified ← fetchRecordsByIds faults ids
      if verified ≠ records then
        .raise (.raised (weaviateResponseError "restored chunk snapshot verification failed"))
      else pure ()

/-- `verify_paragraph_ids(expected)`. -/
def verifyParagraphIds (expected : List (Uuid × ℕ)) : Eff (Outside K) ChunkError Unit := do
  let _ ← check (expected.mapM fun e => positive e.2)
  let records ← fetchRecordsByIds faults (expected.map Prod.fst)
  if expected.any fun e => e.1 ∉ records.map ChunkRecord.chunkId then
    .raise (.raised (weaviateResponseError "paragraph-ID verification is incomplete"))
  else if records.any fun r => (r.chunkId, r.paragraphId) ∉ expected then
    .raise (.raised (weaviateResponseError "paragraph-ID verification failed"))
  else pure ()

/-- `self._collection.data.update(uuid=..., properties={"paragraph_id": ...})`; the server refuses an identifier it does
not have. -/
def updateParagraphId (update : Uuid × ℕ) : Eff (Outside K) ChunkError Unit := do
  let o ← .read id
  match o.chunks.get? update.1 with
  | none => do
      let _ ← answer faults fun _ => ()
      .raise (.raised ⟨.otherException, "no object with this id"⟩)
  | some r => external faults fun chunks => chunks.set update.1 { r with paragraphId := update.2 }

/-- The loop of `update_paragraph_ids`, with the identifiers that are done. -/
def updateLoop : List Uuid → List (Uuid × ℕ) → Eff (Outside K) ChunkError Unit
  | _, [] => pure ()
  | completed, update :: updates => do
      .tryExcept (updateParagraphId faults update) fun _ => .raise (.partialUpdate completed update.1)
      updateLoop (completed ++ [update.1]) updates

/-- `update_paragraph_ids(chunk_id_to_new_paragraph_id)`. -/
def updateParagraphIds (updates : List (Uuid × ℕ)) : Eff (Outside K) ChunkError Unit := do
  let _ ← check (updates.mapM fun u => positive u.2)
  updateLoop faults [] updates

/-! ### What the operations record -/

/-- What is recorded since does not touch the names. -/
def Quiet (names : List EvidenceKey) (o o' : Outside K) : Prop :=
  ∃ behind, o'.trace = o.trace ++ behind ∧ ∀ c ∈ behind, ∀ k ∈ c.keys, k ∉ names

instance (names : List EvidenceKey) : Std.Refl (Quiet (K := K) names) := ⟨fun o => ⟨[], by simp⟩⟩

instance (names : List EvidenceKey) : IsTrans (Outside K) (Quiet names) where
  trans := by
    rintro o o' o'' ⟨first, hfirst, hnot⟩ ⟨second, hsecond, hnot'⟩
    refine ⟨first ++ second, by rw [hsecond, hfirst, List.append_assoc], fun c hc => ?_⟩
    rcases List.mem_append.mp hc with hc | hc
    · exact hnot c hc
    · exact hnot' c hc

/-- The names a deletion records. -/
def deletionNames : List EvidenceKey :=
  [.flag (lit "weaviate_mutation_executed"), .count (lit "weaviate_delete_matched_count"),
    .count (lit "weaviate_delete_successful_count"), .count (lit "weaviate_delete_failed_count"),
    .sample (lit "weaviate_deleted_ids"), .count (lit "weaviate_delete_remaining_count"),
    .sample (lit "weaviate_delete_remaining_ids")]

section Keeps

variable {faults} {names : List EvidenceKey}

theorem keeps_note {c : Call} (h : ∀ k ∈ c.keys, k ∉ names) : Eff.Keeps (Quiet (K := K) names) (note c) := by
  refine Eff.Keeps.update fun o => ⟨[c], rfl, fun d hd => ?_⟩
  rw [List.mem_singleton.mp hd]
  exact h

theorem keeps_answer (f : Outside K → α) : Eff.Keeps (Quiet names) (answer faults f) := by
  intro o
  rw [Eff.wp, answer]
  cases faults o.calls <;> exact ⟨[], by simp⟩

theorem keeps_external (change : Dict Uuid (ChunkRecord K) → Dict Uuid (ChunkRecord K)) :
    Eff.Keeps (Quiet names) (external faults change) := by
  intro o
  rw [Eff.wp, external]
  cases faults o.calls <;> exact ⟨[], by simp⟩

theorem keeps_check (x : Except PyError α) : Eff.Keeps (Quiet (K := K) names) (check x) :=
  (Eff.Keeps.ofExcept x).mapError _

theorem keeps_insertRecord (r : ChunkRecord K) : Eff.Keeps (Quiet names) (insertRecord faults r) := by
  refine (Eff.Keeps.read id).bind fun o => ?_
  split_ifs
  · exact (keeps_answer _).bind fun _ => Eff.Keeps.raise _
  · exact keeps_external _

theorem keeps_insertChunk (documentId : Text) (paragraphId : ℕ) (chunkId : Uuid) (rawText : Text)
    (multiVector : List (List K)) (diversityVector : List K) :
    Eff.Keeps (Quiet names) (insertChunk faults documentId paragraphId chunkId rawText multiVector diversityVector) :=
  (keeps_check _).bind fun _ => (keeps_check _).bind fun _ => keeps_insertRecord _

theorem keeps_verifiedDelete (h : ∀ k ∈ deletionNames, k ∉ names) (filter : ChunkRecord K → Bool) :
    Eff.Keeps (Quiet names) (verifiedDelete faults filter) := by
  have hnote : ∀ {c : Call} {k : EvidenceKey}, c.keys = [k] → k ∈ deletionNames →
      Eff.Keeps (Quiet (K := K) names) (note c) := by
    intro c k hkeys hk
    refine keeps_note fun j hj => ?_
    rw [hkeys, List.mem_singleton] at hj
    exact hj ▸ h k hk
  refine (hnote rfl (by decide)).bind fun _ => (Eff.Keeps.read id).bind fun o => (keeps_external _).bind fun _ => ?_
  refine (hnote rfl (by decide)).bind fun _ => (hnote rfl (by decide)).bind fun _ => (hnote rfl (by decide)).bind fun _ => ?_
  refine (hnote rfl (by decide)).bind fun _ => (keeps_answer _).bind fun remaining => ?_
  refine (hnote rfl (by decide)).bind fun _ => (hnote rfl (by decide)).bind fun _ => ?_
  exact (Eff.Keeps.raise _).whenever.bind fun _ => Eff.Keeps.pure _

theorem keeps_deleteByParagraphs (h : ∀ k ∈ deletionNames, k ∉ names) (documentId : Text) (paragraphIds : List ℕ) :
    Eff.Keeps (Quiet (K := K) names) (deleteByParagraphs faults documentId paragraphIds) := by
  refine (keeps_check _).bind fun document => (keeps_check _).bind fun _ => ?_
  split_ifs
  · exact Eff.Keeps.pure _
  · exact keeps_verifiedDelete h _

theorem keeps_fetchRecordsByIds (chunkIds : List Uuid) :
    Eff.Keeps (Quiet (K := K) names) (fetchRecordsByIds faults chunkIds) := by
  rw [fetchRecordsByIds]
  split_ifs
  · exact Eff.Keeps.pure _
  · exact (keeps_answer _).bind fun objects => keeps_check _

theorem keeps_snapshotByParagraphs (documentId : Text) (paragraphIds : List ℕ) :
    Eff.Keeps (Quiet (K := K) names) (snapshotByParagraphs faults documentId paragraphIds) := by
  refine (keeps_check _).bind fun document => (keeps_check _).bind fun _ => ?_
  split_ifs
  · exact Eff.Keeps.pure _
  · refine Eff.Keeps.bind ?_ fun records => Eff.Keeps.ite (Eff.Keeps.raise _) (Eff.Keeps.pure _)
    refine (keeps_answer _).bind fun objectIds => (keeps_fetchRecordsByIds _).bind fun records => ?_
    exact Eff.Keeps.ite (Eff.Keeps.raise _) (Eff.Keeps.pure _)

theorem keeps_verifyParagraphIds (expected : List (Uuid × ℕ)) :
    Eff.Keeps (Quiet (K := K) names) (verifyParagraphIds faults expected) := by
  refine (keeps_check _).bind fun _ => (keeps_fetchRecordsByIds _).bind fun records => ?_
  exact Eff.Keeps.ite (Eff.Keeps.raise _) (Eff.Keeps.ite (Eff.Keeps.raise _) (Eff.Keeps.pure _))

theorem keeps_updateParagraphId (update : Uuid × ℕ) :
    Eff.Keeps (Quiet (K := K) names) (updateParagraphId faults update) := by
  refine (Eff.Keeps.read id).bind fun o => ?_
  cases o.chunks.get? update.1 with
  | none => exact (keeps_answer _).bind fun _ => Eff.Keeps.raise _
  | some r => exact keeps_external _

theorem keeps_updateParagraphIds (updates : List (Uuid × ℕ)) :
    Eff.Keeps (Quiet (K := K) names) (updateParagraphIds faults updates) := by
  have hloop : ∀ (updates : List (Uuid × ℕ)) (completed : List Uuid),
      Eff.Keeps (Quiet (K := K) names) (updateLoop faults completed updates) := by
    intro updates
    induction updates with
    | nil => exact fun _ => Eff.Keeps.pure ()
    | cons u us ih =>
      intro completed
      exact ((keeps_updateParagraphId u).tryExcept fun _ => Eff.Keeps.raise _).bind fun _ => ih _
  exact (keeps_check _).bind fun _ => hloop updates []

end Keeps

end ChunkStore

end TenantRag

import TenantRag.Foundations.Dict
import TenantRag.Foundations.Effect
import TenantRag.Weaviate.Values

/-!
# Verified deletion

What the collection wrappers do to delete objects and to prove that they are gone:
`_actual_delete_response` and `_dry_run_delete_response` of
`backend/weaviate_client/_chunk_collection.py`, `DeletionReport`, and
`_verified_delete` of `backend/weaviate_client/conversation.py`.

## The model

A collection is a finite map from identifiers to records. `delete_many` removes
what its filter matches and answers with any response, or raises after it removed
any part of that; a dry run removes nothing.

## What is proved

* `wp_verifiedDelete` — it returns exactly where the responses confirm it, and then exactly
  what the filter matches is gone.
-/

namespace TenantRag

/-- What a call to storage raises: an `Exception`. -/
abbrev Failure := { e : PyError // e.kind.isException = true }

/-- An object of a verbose delete response. -/
structure DeletedObject where
  /-- `uuid`. -/
  uuid : PyValue
  /-- `successful`. -/
  successful : PyValue

/-- A verbose delete response. -/
structure DeleteResponse where
  /-- `matches`. -/
  matched : PyValue
  /-- `successful`. -/
  successful : PyValue
  /-- `failed`. -/
  failed : PyValue
  /-- `objects`; `none` where it is no list. -/
  objects : Option (List DeletedObject)

/-- `_count(value, name)`. -/
def count (value : PyValue) (name : String) : Except PyError ℕ :=
  match value with
  | .int (.ofNat n) => .ok n
  | _ => .error (weaviateResponseError s!"delete response has invalid {name}")

/-- `str(UUID(str(value)))` of an object of a response. -/
def deletedUuid (message : String) (value : PyValue) : Except PyError Uuid :=
  match Uuid.ofText value.toStr with
  | none => .error (weaviateResponseError message)
  | some u => .ok u

/-- The loop of `_actual_delete_response`: each object's id and whether it was deleted. -/
def deletedObject (o : DeletedObject) : Except PyError (Uuid × Bool) := do
  let id ← deletedUuid "delete response contains an invalid UUID" o.uuid
  match o.successful with
  | .bool b => .ok (id, b)
  | _ => .error (weaviateResponseError "delete response has invalid object status")

/-- `DeletionReport`. -/
structure DeletionReport where
  /-- `matched`. -/
  matched : ℕ
  /-- `successful`. -/
  successful : ℕ
  /-- `failed`. -/
  failed : ℕ
  /-- `deleted_ids`. -/
  deletedIds : List Uuid
  /-- `remaining_ids`. -/
  remainingIds : List Uuid
  deriving DecidableEq

/-- `confirmed`. -/
def DeletionReport.confirmed (r : DeletionReport) : Bool := r.failed = 0 && r.remainingIds.isEmpty

/-- `_actual_delete_response(value)`: the counts and the ids deleted. -/
def actualDeleteResponse (value : DeleteResponse) : Except PyError (ℕ × ℕ × ℕ × List Uuid) := do
  let matched ← count value.matched "matches"
  let successful ← count value.successful "successful"
  let failed ← count value.failed "failed"
  match value.objects with
  | none => .error (weaviateResponseError "verbose delete response must contain one object per match")
  | some objects =>
      if objects.length ≠ matched then
        .error (weaviateResponseError "verbose delete response must contain one object per match")
      else do
        let items ← objects.mapM deletedObject
        let deleted := (items.filter Prod.snd).map Prod.fst
        if successful + failed ≠ matched then
          .error (weaviateResponseError "delete response counts are inconsistent")
        else if ¬(items.map Prod.fst).Nodup then
          .error (weaviateResponseError "delete response contains duplicate object UUIDs")
        else if deleted.length ≠ successful then
          .error (weaviateResponseError "delete response object statuses are inconsistent")
        else .ok (matched, successful, failed, deleted)

/-- `_dry_run_delete_response(value)`: the count and the ids that match. -/
def dryRunDeleteResponse (value : DeleteResponse) : Except PyError (ℕ × List Uuid) := do
  let matched ← count value.matched "matches"
  let _ ← count value.successful "successful"
  let failed ← count value.failed "failed"
  if failed ≠ 0 then .error (weaviateResponseError "dry-run delete response reports failures")
  else
    match value.objects with
    | none => .error (weaviateResponseError "verbose dry-run response must contain one object per match")
    | some objects =>
        if objects.length ≠ matched then
          .error (weaviateResponseError "verbose dry-run response must contain one object per match")
        else do
          let ids ← objects.mapM fun o =>
            deletedUuid "dry-run delete response contains an invalid UUID" o.uuid
          if ¬ids.Nodup then
            .error (weaviateResponseError "dry-run delete response contains duplicate object UUIDs")
          else .ok (matched, ids)

/-! ### The storage -/

/-- How a call of `delete_many` ends. -/
inductive DeleteBehaviour where
  /-- It removes what the filter matches, and answers. -/
  | answers (response : DeleteResponse)
  /-- It raises, after it removed a part of that. -/
  | fails (error : Failure) (removed : Uuid → Bool)

/-- How a dry run ends. -/
inductive DryRunBehaviour where
  /-- It answers. -/
  | answers (response : DeleteResponse)
  /-- It raises. -/
  | fails (error : Failure)

variable {R : Type}

/-- `collection.data.delete_many(where=..., verbose=True)`. -/
def deleteMany (filter : Uuid → R → Bool) : DeleteBehaviour → Eff (Dict Uuid R) PyError DeleteResponse
  | .answers response => do
      .update fun store => store.filter fun id r => !filter id r
      pure response
  | .fails e removed => do
      .update fun store => store.filter fun id r => !(filter id r && removed id)
      .raise e.val

/-- `collection.data.delete_many(where=..., verbose=True, dry_run=True)`. -/
def dryRun : DryRunBehaviour → Eff (Dict Uuid R) PyError DeleteResponse
  | .answers response => pure response
  | .fails e => .raise e.val

/-- The report `_verified_delete` makes of the two responses. -/
def deletionReport (deleted remaining : DeleteResponse) : Except PyError DeletionReport := do
  let (matched, successful, failed, deletedIds) ← actualDeleteResponse deleted
  let (remainingCount, remainingIds) ← dryRunDeleteResponse remaining
  if remainingIds.length ≠ remainingCount then
    .error (weaviateResponseError "conversation deletion verification is incomplete")
  else .ok ⟨matched, successful, failed, deletedIds, remainingIds⟩

/-- `IncompleteDeletionError(scope, report)`. -/
def incompleteDeletionError (scope : String) (report : DeletionReport) : PyError :=
  ⟨.incompleteDeletionError,
    s!"incomplete deletion for {scope}: {report.failed} failed, {report.remainingIds.length} remaining"⟩

/-- `_verified_delete(where, scope)`: the first response is read before the dry run is made. -/
def verifiedDelete (filter : Uuid → R → Bool) (scope : String) (delete : DeleteBehaviour) (dry : DryRunBehaviour) :
    Eff (Dict Uuid R) PyError DeletionReport := do
  let deleted ← deleteMany filter delete
  let _ ← .ofExcept (actualDeleteResponse deleted)
  let remaining ← dryRun dry
  let report ← .ofExcept (deletionReport deleted remaining)
  .whenever (!report.confirmed) (.raise (incompleteDeletionError scope report))
  pure report

/-- The two calls answer, and their responses prove that nothing is left. -/
def confirms : DeleteBehaviour → DryRunBehaviour → Bool
  | .answers deleted, .answers remaining => (deletionReport deleted remaining).toOption.any DeletionReport.confirmed
  | _, _ => false

theorem deletionReport_error {deleted remaining : DeleteResponse} {e : PyError}
    (h : actualDeleteResponse deleted = .error e) : deletionReport deleted remaining = .error e := by
  rw [deletionReport, h]
  rfl

/-- A verified deletion returns exactly where the responses confirm it, and then exactly what
the filter matches is gone. -/
theorem wp_verifiedDelete (filter : Uuid → R → Bool) (scope : String) (delete : DeleteBehaviour)
    (dry : DryRunBehaviour) (store : Dict Uuid R) :
    Eff.wp (verifiedDelete filter scope delete dry)
      (fun _ store' => confirms delete dry = true ∧ store' = store.filter fun id r => !filter id r)
      (fun _ _ => confirms delete dry = false) store := by
  cases delete with
  | fails e removed =>
    simp only [verifiedDelete, deleteMany, Eff.wp_bind, Eff.wp_update, Eff.wp_raise]
    rfl
  | answers deleted =>
    simp only [verifiedDelete, deleteMany, Eff.wp_bind, Eff.wp_update, Eff.wp_pure, Eff.wp_ofExcept]
    refine ⟨fun _ _ => ?_, fun e he => ?_⟩
    · cases dry with
      | fails e => exact rfl
      | answers remaining =>
        simp only [dryRun, Eff.wp_bind, Eff.wp_pure, Eff.wp_ofExcept]
        refine ⟨fun report hreport => ?_, fun e he => ?_⟩
        · have hconfirms : confirms (.answers deleted) (.answers remaining) = report.confirmed := by
            rw [confirms, hreport]
            rfl
          rw [Eff.wp_whenever]
          refine ⟨fun hno => ?_, fun hyes => ?_⟩
          · rw [Eff.wp_raise, hconfirms]
            simpa using hno
          · exact ⟨by rw [hconfirms]; simpa using hyes, rfl⟩
        · rw [confirms, he]
          rfl
    · cases dry with
      | fails e' => rfl
      | answers remaining =>
        rw [confirms, deletionReport_error he]
        rfl

end TenantRag

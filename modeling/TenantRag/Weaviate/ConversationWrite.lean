import TenantRag.Foundations.Decimal
import TenantRag.Weaviate.Deletion
import Mathlib.Data.List.Dedup

/-!
# Writing a conversation

`ConversationCollection.insert` in `backend/weaviate_client/conversation.py`: the
segments of a conversation are inserted one by one under ids derived from the
conversation's, and a failure deletes every id that was attempted.

## The model

The collection is a map from segment ids to records. Storage refuses to insert an
id that exists; otherwise an insert may fail before or after it stored its record,
or answer with any text. `uuid5` is a parameter. Arguments are of the types the
signature gives; log records and diagnostics are left out.

## What is proved

* `writeSegments_spec` — the loop stores the records in front of the first one that
  cannot be written, and knows which ids it attempted.
* `insert_atomic_iff` — a failed insert leaves the collection as it was, and a
  successful one adds exactly its segments, if and only if no id that was stored
  before is attempted, or the deletion is not confirmed.
-/

namespace TenantRag

/-- The properties and the vectors of a stored segment. -/
structure SegmentRecord (K : Type) where
  /-- `user_id`. -/
  userId : Text
  /-- `conversation_id`. -/
  conversationId : Uuid
  /-- `segment_id`. -/
  segmentId : Uuid
  /-- `segment_index`. -/
  segmentIndex : ℕ
  /-- `raw_text`. -/
  rawText : Text
  /-- `segment_text`. -/
  segmentText : Text
  /-- The vector `late_interaction`. -/
  lateInteraction : List (List K)
  /-- The vector `mmr_diversity`. -/
  mmrDiversity : List K
  deriving DecidableEq

/-- The collection of one user. -/
abbrev ConversationStore (K : Type) := Dict Uuid (SegmentRecord K)

/-- The arguments of `insert`. -/
structure ConversationInsert (K : Type) where
  /-- `conversation_id`. -/
  conversationId : Text
  /-- `raw_text`. -/
  rawText : Text
  /-- `segment_texts`. -/
  segmentTexts : List Text
  /-- `segment_vectors`. -/
  segmentVectors : List (RawMatrix K)
  /-- `diversity_vector`. -/
  diversityVector : RawVector K

/-- `f"retrieval-segment:{index}"`. -/
def segmentName (index : ℕ) : Text := lit "retrieval-segment:" ++ decimal index

variable {K : Type} (uuid5 : Uuid → Text → Uuid)

/-- The records of a conversation's segments, from a given index on. -/
def segmentRecords (userId : Text) (canonicalId : Uuid) (rawText : Text) (diversity : List K) :
    ℕ → List (Text × List (List K)) → List (SegmentRecord K)
  | _, [] => []
  | index, (segment, vector) :: rest =>
      ⟨userId, canonicalId, uuid5 canonicalId (segmentName index), index, rawText, segment, vector, diversity⟩ ::
        segmentRecords userId canonicalId rawText diversity (index + 1) rest

/-- `insert` up to its loop: the arguments are checked, and give the records to write. -/
def prepareInsert (userId : Text) (args : ConversationInsert K) : Except PyError (Uuid × List (SegmentRecord K)) := do
  let canonicalId ← Weaviate.uuidText args.conversationId "conversation_id"
  let rawText ← requiredText (.str args.rawText) "raw_text"
  let segments ← args.segmentTexts.mapM fun t => requiredText (.str t) "segment_text"
  if segments.isEmpty || segments.flatten ≠ rawText then
    .error (valueError "Conversation segments must reconstruct raw_text exactly")
  else do
    let vectors ← args.segmentVectors.mapM (multiVectorValues "segment multi-vector")
    if vectors.length ≠ segments.length then
      .error (valueError "Conversation segments and multi-vectors must align")
    else if (vectors.flatten.map List.length).dedup.length ≠ 1 then
      .error (valueError "Conversation multi-vectors must share one dimension")
    else do
      let diversity ← vectorValues "diversity_vector" args.diversityVector
      .ok (canonicalId, segmentRecords uuid5 userId canonicalId rawText diversity 0 (segments.zip vectors))

/-- How a call of `data.insert` ends where its id is new. -/
inductive InsertBehaviour where
  /-- It stores the record and answers with an id. -/
  | answers (inserted : Text)
  /-- It raises before it stored the record. -/
  | failsBefore (error : Failure)
  /-- It raises after it stored the record. -/
  | failsAfter (error : Failure)

/-- What `data.insert` raises for an id that exists. -/
def alreadyExists : PyError := ⟨.otherException, "id already exists"⟩

/-- `collection.data.insert(properties=..., uuid=segment_id, vector=...)`. -/
def insertObject (record : SegmentRecord K) (b : InsertBehaviour) : Eff (ConversationStore K) PyError Text :=
  fun store =>
    match b with
    | .failsBefore e => .error e.val store
    | .failsAfter e =>
        if store.contains record.segmentId then .error alreadyExists store
        else .error e.val (store.set record.segmentId record)
    | .answers inserted =>
        if store.contains record.segmentId then .error alreadyExists store
        else .ok inserted (store.set record.segmentId record)

/-- The body of the loop, once the id is counted as attempted. -/
def writeSegment (record : SegmentRecord K) (b : InsertBehaviour) : Eff (ConversationStore K) PyError Unit := do
  let inserted ← insertObject record b
  let insertedId ← .ofExcept (Weaviate.uuidText inserted "inserted object UUID")
  .whenever (insertedId ≠ record.segmentId)
    (.raise (weaviateResponseError "inserted object UUID does not match segment_id"))

/-- What `insert` raises. -/
inductive ConversationWriteError where
  /-- An exception of the call itself. -/
  | raised (error : PyError)
  /-- `ConversationWriteRecoveryError`. -/
  | recovery (attempted : List Uuid) (writeError cleanupError : PyError)

/-- The collection and the list `attempted`. -/
structure ConversationWrite (K : Type) where
  /-- The collection. -/
  store : ConversationStore K
  /-- `attempted`. -/
  attempted : List Uuid

/-- The loop of `insert`. -/
def writeSegments (records : List (SegmentRecord K × InsertBehaviour)) : Eff (ConversationWrite K) PyError Unit :=
  .forEach (fun p => do
    .update fun w => { w with attempted := w.attempted ++ [p.1.segmentId] }
    .zoom ConversationWrite.store (fun store w => { w with store := store }) (writeSegment p.1 p.2)) records

/-- How storage behaves in a call of `insert`. -/
structure ConversationStorage where
  /-- The insert of each segment. -/
  inserts : ℕ → InsertBehaviour
  /-- The deletion that compensates. -/
  delete : DeleteBehaviour
  /-- The dry run behind it. -/
  dryRun : DryRunBehaviour

/-- The scope that `insert` names to `_verified_delete`. -/
def attemptedScope (attempted : List Uuid) : String :=
  s!"{attempted.length} attempted conversation segment ID(s)"

/-- The records with the behaviour of their inserts. -/
def planned (b : ConversationStorage) (records : List (SegmentRecord K)) : List (SegmentRecord K × InsertBehaviour) :=
  records.zipIdx.map fun p => (p.1, b.inserts p.2)

/-- `insert` from its loop on: a failure deletes what was attempted. -/
def writeConversation (canonicalId : Uuid) (records : List (SegmentRecord K)) (b : ConversationStorage)
    (store : ConversationStore K) : EStateM.Result ConversationWriteError (ConversationStore K) Uuid :=
  match writeSegments (planned b records) ⟨store, []⟩ with
  | .ok _ w => .ok canonicalId w.store
  | .error writeError w =>
      match verifiedDelete (fun id _ => w.attempted.contains id) (attemptedScope w.attempted) b.delete b.dryRun
          w.store with
      | .ok _ store' => .error (.raised writeError) store'
      | .error cleanupError store' => .error (.recovery w.attempted writeError cleanupError) store'

/-- `insert(conversation_id, raw_text, segment_texts, segment_vectors, diversity_vector)`. -/
def insertConversation (userId : Text) (args : ConversationInsert K) (b : ConversationStorage)
    (store : ConversationStore K) : EStateM.Result ConversationWriteError (ConversationStore K) Uuid :=
  match prepareInsert uuid5 userId args with
  | .error e => .error (.raised e) store
  | .ok (canonicalId, records) => writeConversation canonicalId records b store

/-! ### The loop -/

section Loop

omit uuid5

/-- The insert answers with the id of its record. -/
def accepts (record : SegmentRecord K) : InsertBehaviour → Bool
  | .answers inserted => Weaviate.uuidText inserted "inserted object UUID" = .ok record.segmentId
  | _ => false

/-- The ids attempted where none of them is stored before: those up to the first insert that
fails by itself or repeats an id. -/
def attempts (seen : List Uuid) : List (SegmentRecord K × InsertBehaviour) → List Uuid
  | [] => []
  | (record, b) :: rest =>
      record.segmentId ::
        if accepts record b && !seen.contains record.segmentId then attempts (seen ++ [record.segmentId]) rest else []

/-- An insert is refused for an id that is stored; otherwise it stores its record and is
accepted, or fails and may have stored it. -/
theorem wp_writeSegment (record : SegmentRecord K) (b : InsertBehaviour) (store : ConversationStore K) :
    Eff.wp (writeSegment record b)
      (fun _ store' => store.contains record.segmentId = false ∧ accepts record b = true ∧
        store' = store.set record.segmentId record)
      (fun _ store' => store.contains record.segmentId = true ∧ store' = store ∨
        store.contains record.segmentId = false ∧ accepts record b = false ∧
          (store' = store ∨ store' = store.set record.segmentId record)) store := by
  rw [writeSegment, Eff.wp_bind]
  cases hc : store.contains record.segmentId with
  | true =>
    cases b with
    | failsBefore e => exact .inl ⟨rfl, rfl⟩
    | failsAfter e =>
      rw [Eff.wp_of_error (show insertObject record (.failsAfter e) store = .error alreadyExists store by
        simp [insertObject, hc])]
      exact .inl ⟨rfl, rfl⟩
    | answers inserted =>
      rw [Eff.wp_of_error (show insertObject record (.answers inserted) store = .error alreadyExists store by
        simp [insertObject, hc])]
      exact .inl ⟨rfl, rfl⟩
  | false =>
    cases b with
    | failsBefore e => exact .inr ⟨rfl, rfl, .inl rfl⟩
    | failsAfter e =>
      rw [Eff.wp_of_error (show insertObject record (.failsAfter e) store =
        .error e.val (store.set record.segmentId record) by simp [insertObject, hc])]
      exact .inr ⟨rfl, rfl, .inr rfl⟩
    | answers inserted =>
      rw [Eff.wp_of_ok (show insertObject record (.answers inserted) store =
        .ok inserted (store.set record.segmentId record) by simp [insertObject, hc]), Eff.wp_bind, Eff.wp_ofExcept]
      refine ⟨fun id hid => ?_, fun e he => .inr ⟨rfl, by simp [accepts, he], .inr rfl⟩⟩
      rw [Eff.wp_whenever]
      refine ⟨fun hne => .inr ⟨rfl, ?_, .inr rfl⟩, fun heq => ⟨rfl, ?_, rfl⟩⟩
      · simpa [accepts, hid] using hne
      · simpa [accepts, hid] using heq

/-- The collection agrees with the one before the call outside of the attempted ids, none of
which was stored before and all of which are stored now. -/
structure Ahead (before : ConversationStore K) (w : ConversationWrite K) : Prop where
  /-- The other ids. -/
  others : ∀ id, id ∉ w.attempted → w.store.get? id = before.get? id
  /-- The attempted ids were not stored. -/
  new : ∀ id ∈ w.attempted, before.get? id = none
  /-- They are now. -/
  stored : ∀ id ∈ w.attempted, w.store.contains id = true

theorem contains_eq_false_iff {store : ConversationStore K} {id : Uuid} :
    store.contains id = false ↔ store.get? id = none := by
  rw [Dict.contains, Option.isSome_eq_false_iff, Option.isNone_iff_eq_none]

/-- The loop from any point of it. -/
theorem writeSegments_spec {before : ConversationStore K} (ps : List (SegmentRecord K × InsertBehaviour)) :
    ∀ w : ConversationWrite K, Ahead before w → Eff.wp (writeSegments ps)
      (fun _ w' => w'.store = ps.foldl (fun store p => store.set p.1.segmentId p.1) w.store ∧
        (ps.map fun p => p.1.segmentId).Nodup ∧
          (∀ id ∈ ps.map fun p => p.1.segmentId, id ∉ w.attempted ∧ before.get? id = none) ∧
          ∀ id ∈ attempts w.attempted ps, before.get? id = none)
      (fun _ w' => ∃ tried, w'.attempted = w.attempted ++ tried ∧ (∀ id ∈ tried, id ∈ attempts w.attempted ps) ∧
        (∀ id, id ∉ w'.attempted → w'.store.get? id = before.get? id) ∧
          ((∀ id ∈ attempts w.attempted ps, before.get? id = none) ∨ ∃ id ∈ tried, before.get? id ≠ none)) w := by
  induction ps with
  | nil => exact fun w _ => ⟨rfl, List.nodup_nil, by simp, by simp [attempts]⟩
  | cons p ps ih =>
    intro w hw
    obtain ⟨record, b⟩ := p
    have hothers : ∀ store', store' = w.store ∨ store' = w.store.set record.segmentId record →
        ∀ id, id ∉ w.attempted ++ [record.segmentId] → store'.get? id = before.get? id := by
      rintro store' hs id hid
      simp only [List.mem_append, List.mem_singleton, not_or] at hid
      rcases hs with rfl | rfl
      · exact hw.others id hid.1
      · rw [Dict.get?_set_ne _ _ (Ne.symm hid.2), hw.others id hid.1]
    rw [writeSegments, Eff.forEach, Eff.wp_bind]
    simp only [Eff.wp_bind, Eff.wp_update, Eff.wp_zoom]
    refine Eff.wp_mono (wp_writeSegment record b w.store) ?_ ?_
    · rintro - store' ⟨hfree, hacc, rfl⟩
      have hnot : record.segmentId ∉ w.attempted := fun hmem => by
        rw [hw.stored _ hmem] at hfree
        cases hfree
      have hnew : before.get? record.segmentId = none := by
        rw [← hw.others _ hnot]
        exact contains_eq_false_iff.mp hfree
      have hattempts : attempts w.attempted ((record, b) :: ps) =
          record.segmentId :: attempts (w.attempted ++ [record.segmentId]) ps := by
        simp [attempts, hacc, hnot]
      have hnext : Ahead before ⟨w.store.set record.segmentId record, w.attempted ++ [record.segmentId]⟩ := by
        refine ⟨hothers _ (.inr rfl), fun id hid => ?_, fun id hid => ?_⟩
        · rcases List.mem_append.mp hid with hid | hid
          · exact hw.new id hid
          · exact List.mem_singleton.mp hid ▸ hnew
        · rw [Dict.contains_iff, Dict.mem_keys_set, ← Dict.contains_iff]
          rcases List.mem_append.mp hid with hid | hid
          · exact .inr (hw.stored id hid)
          · exact .inl (List.mem_singleton.mp hid)
      rw [hattempts]
      refine Eff.wp_mono (ih _ hnext) ?_ ?_
      · rintro - w' ⟨hstore, hnodup, hfresh, hall⟩
        refine ⟨hstore, ?_, ?_, ?_⟩
        · rw [List.map_cons, List.nodup_cons]
          exact ⟨fun hmem => (hfresh _ hmem).1 (List.mem_append_right _ (List.mem_singleton_self _)), hnodup⟩
        · intro id hid
          rcases List.mem_cons.mp hid with rfl | hid
          · exact ⟨hnot, hnew⟩
          · exact ⟨fun hmem => (hfresh id hid).1 (List.mem_append_left _ hmem), (hfresh id hid).2⟩
        · intro id hid
          rcases List.mem_cons.mp hid with rfl | hid
          · exact hnew
          · exact hall id hid
      · rintro e w' ⟨tried, htried, hsub, hout, hor⟩
        refine ⟨record.segmentId :: tried, by rw [htried, List.append_assoc, List.singleton_append], ?_, hout, ?_⟩
        · intro id hid
          rcases List.mem_cons.mp hid with rfl | hid
          · exact List.mem_cons_self
          · exact List.mem_cons_of_mem _ (hsub id hid)
        · rcases hor with hall | ⟨id, hid, hold⟩
          · refine .inl fun id hid => ?_
            rcases List.mem_cons.mp hid with rfl | hid
            · exact hnew
            · exact hall id hid
          · exact .inr ⟨id, List.mem_cons_of_mem _ hid, hold⟩
    · intro e store' herr
      have hhead : record.segmentId ∈ attempts w.attempted ((record, b) :: ps) := List.mem_cons_self
      have hin : ∀ id ∈ [record.segmentId], id ∈ attempts w.attempted ((record, b) :: ps) := fun id hid =>
        List.mem_singleton.mp hid ▸ hhead
      rcases herr with ⟨hstored, rfl⟩ | ⟨hfree, hacc, hs⟩
      · refine ⟨[record.segmentId], rfl, hin, hothers _ (.inl rfl), ?_⟩
        by_cases hmem : record.segmentId ∈ w.attempted
        · -- the id repeats one of this call
          refine .inl fun id hid => ?_
          have hone : attempts w.attempted ((record, b) :: ps) = [record.segmentId] := by
            simp [attempts, hmem]
          rw [hone, List.mem_singleton] at hid
          exact hid ▸ hw.new _ hmem
        · refine .inr ⟨record.segmentId, List.mem_singleton_self _, ?_⟩
          rw [← hw.others _ hmem, ← Option.isSome_iff_ne_none]
          exact hstored
      · refine ⟨[record.segmentId], rfl, hin, hothers _ hs, .inl fun id hid => ?_⟩
        have hone : attempts w.attempted ((record, b) :: ps) = [record.segmentId] := by
          simp [attempts, hacc]
        rw [hone, List.mem_singleton] at hid
        subst hid
        have hnot : record.segmentId ∉ w.attempted := fun hmem => by
          rw [hw.stored _ hmem] at hfree
          cases hfree
        rw [← hw.others _ hnot]
        exact contains_eq_false_iff.mp hfree

end Loop

/-! ### All or nothing -/

/-- The records are new in the collection, and the only difference. -/
structure Added (store : ConversationStore K) (records : List (SegmentRecord K)) (store' : ConversationStore K) :
    Prop where
  /-- They were not stored. -/
  new : ∀ r ∈ records, store.get? r.segmentId = none
  /-- They are now. -/
  stored : ∀ r ∈ records, store'.get? r.segmentId = some r
  /-- The rest is as before. -/
  others : ∀ id, id ∉ records.map SegmentRecord.segmentId → store'.get? id = store.get? id

/-- A call is all-or-nothing. -/
structure AllOrNothing (userId : Text) (args : ConversationInsert K) (b : ConversationStorage)
    (store : ConversationStore K) : Prop where
  /-- A call that raises anything but a recovery error leaves the collection as it was. -/
  raised : ∀ e store', insertConversation uuid5 userId args b store = .error (.raised e) store' →
    ∀ id, store'.get? id = store.get? id
  /-- A call that returns added exactly its segments. -/
  returned : ∀ id store', insertConversation uuid5 userId args b store = .ok id store' →
    ∃ canonicalId records, prepareInsert uuid5 userId args = .ok (canonicalId, records) ∧ Added store records store'

omit uuid5 in
theorem map_fst_planned (b : ConversationStorage) (records : List (SegmentRecord K)) :
    (planned b records).map Prod.fst = records := by
  rw [planned, List.map_map]
  exact List.zipIdx_map_fst 0 records

omit uuid5 in
theorem get?_foldl_set (records : List (SegmentRecord K)) (store : ConversationStore K) (id : Uuid)
    (h : id ∉ records.map SegmentRecord.segmentId) :
    (records.foldl (fun store r => store.set r.segmentId r) store).get? id = store.get? id := by
  induction records generalizing store with
  | nil => rfl
  | cons r rs ih =>
    rw [List.map_cons, List.mem_cons, not_or] at h
    rw [List.foldl_cons, ih _ h.2, Dict.get?_set_ne _ _ (Ne.symm h.1)]

omit uuid5 in
theorem added_foldl_set {records : List (SegmentRecord K)} {store : ConversationStore K}
    (hnodup : (records.map SegmentRecord.segmentId).Nodup) (hnew : ∀ r ∈ records, store.get? r.segmentId = none) :
    Added store records (records.foldl (fun store r => store.set r.segmentId r) store) := by
  refine ⟨hnew, ?_, fun id hid => get?_foldl_set records store id hid⟩
  clear hnew
  induction records generalizing store with
  | nil => exact fun r hr => by cases hr
  | cons r rs ih =>
    rw [List.map_cons, List.nodup_cons] at hnodup
    intro r' hr'
    rw [List.foldl_cons]
    rcases List.mem_cons.mp hr' with rfl | hr'
    · rw [get?_foldl_set _ _ _ hnodup.1, Dict.get?_set_self]
    · exact ih hnodup.2 r' hr'

omit uuid5 in
/-- The records of a plan, with new ids that differ, are added by storing them one by one. -/
theorem added_planned {b : ConversationStorage} {records : List (SegmentRecord K)} {store : ConversationStore K}
    (hnodup : ((planned b records).map fun p => p.1.segmentId).Nodup)
    (hnew : ∀ id ∈ (planned b records).map fun p => p.1.segmentId, store.get? id = none) :
    Added store records ((planned b records).foldl (fun store p => store.set p.1.segmentId p.1) store) := by
  have hids : (planned b records).map (fun p => p.1.segmentId) = records.map SegmentRecord.segmentId := by
    conv_rhs => rw [← map_fst_planned b records, List.map_map]
    rfl
  have hfold : (planned b records).foldl (fun store p => store.set p.1.segmentId p.1) store =
      records.foldl (fun store r => store.set r.segmentId r) store := by
    conv_rhs => rw [← map_fst_planned b records, List.foldl_map]
  rw [hids] at hnodup hnew
  rw [hfold]
  exact added_foldl_set hnodup fun r hr => hnew _ (List.mem_map_of_mem hr)

/-- **All or nothing**: for valid arguments, a call of `insert` is all-or-nothing if and only if
no id it would attempt was stored before, or storage does not confirm the deletion. -/
theorem insert_atomic_iff {userId : Text} {args : ConversationInsert K} {b : ConversationStorage}
    {store : ConversationStore K} {canonicalId : Uuid} {records : List (SegmentRecord K)}
    (hvalid : prepareInsert uuid5 userId args = .ok (canonicalId, records)) :
    AllOrNothing uuid5 userId args b store ↔
      (∀ id ∈ attempts [] (planned b records), store.get? id = none) ∨ confirms b.delete b.dryRun = false := by
  have hahead : Ahead store ⟨store, []⟩ := ⟨fun _ _ => rfl, by simp, by simp⟩
  have hspec := writeSegments_spec (planned b records) ⟨store, []⟩ hahead
  have hcall : insertConversation uuid5 userId args b store = writeConversation canonicalId records b store := by
    rw [insertConversation, hvalid]
  cases hrun : writeSegments (planned b records) ⟨store, []⟩ with
  | ok a w =>
    obtain ⟨hstore, hnodup, hnew, hall⟩ := Eff.wp_ok hspec hrun
    rw [writeConversation, hrun] at hcall
    refine ⟨fun _ => .inl hall, fun _ => ⟨fun e store' h => ?_, fun id store' h => ?_⟩⟩
    · rw [hcall] at h
      cases h
    · rw [hcall] at h
      cases h
      refine ⟨canonicalId, records, hvalid, ?_⟩
      change w.store = _ at hstore
      rw [hstore]
      exact added_planned hnodup fun id hid => (hnew id hid).2
  | error e w =>
    obtain ⟨tried, htried, hsub, hout, hor⟩ := Eff.wp_error hspec hrun
    rw [List.nil_append] at htried
    subst htried
    have hdelete := wp_verifiedDelete (fun id (_ : SegmentRecord K) => w.attempted.contains id)
      (attemptedScope w.attempted) b.delete b.dryRun w.store
    rw [writeConversation, hrun] at hcall
    dsimp only at hcall
    cases hv : verifiedDelete (fun id (_ : SegmentRecord K) => w.attempted.contains id) (attemptedScope w.attempted)
        b.delete b.dryRun w.store with
    | error e' store' =>
      rw [hv] at hcall
      refine ⟨fun _ => .inr (Eff.wp_error hdelete hv), fun _ => ⟨fun e store' h => ?_, fun id store' h => ?_⟩⟩
      · rw [hcall] at h
        cases h
      · rw [hcall] at h
        cases h
    | ok report store' =>
      obtain ⟨hconf, rfl⟩ := Eff.wp_ok hdelete hv
      rw [hv] at hcall
      have hgone : ∀ id ∈ w.attempted, (w.store.filter fun id _ => !w.attempted.contains id).get? id = none := by
        intro id hid
        rw [Dict.get?_filter]
        cases w.store.get? id <;> simp [hid]
      constructor
      · intro hsame
        rcases hor with hall | ⟨id, hid, hold⟩
        · exact .inl hall
        · exact absurd ((hsame.raised _ _ hcall id).symm.trans (hgone id hid)) hold
      · rintro (hall | hno)
        · refine ⟨fun e store' h => ?_, fun id store' h => ?_⟩
          · rw [hcall] at h
            cases h
            intro id
            by_cases hid : id ∈ w.attempted
            · rw [hgone id hid, hall id (hsub id hid)]
            · rw [Dict.get?_filter, hout id hid]
              cases store.get? id <;> simp [hid]
          · rw [hcall] at h
            cases h
        · rw [hconf] at hno
          cases hno

/-- The ids that `uuid5` gives the first segments of the conversation whose digits end in a two. -/
def segmentIdSample (conversation : Uuid) (name : Text) : Uuid :=
  let id := if name = segmentName 0 then "16f02b02-4959-5baa-9971-eda116031e99" else "eeb08aae-56bc-50b9-a958-c3364e87f0ab"
  if conversation = Uuid.ofNat 2 then (Uuid.ofText (lit id)).getD conversation else conversation

/-- One conversation of two segments. -/
def conversationSample : ConversationInsert ℕ where
  conversationId := (Uuid.ofNat 2).str
  rawText := lit "Question:\nq\n\nAnswer:\na"
  segmentTexts := [lit "Question:\nq\n\n", lit "Answer:\na"]
  segmentVectors := List.replicate 2 (.sequence [.ofNumbers (List.replicate 128 1)])
  diversityVector := .ofNumbers (List.replicate 768 1)

/-- Every insert answers, and what is left to delete afterwards is reported truly. -/
def storageSample (deleted : List Uuid) : ConversationStorage where
  inserts i := .answers (segmentIdSample (Uuid.ofNat 2) (segmentName i)).str
  delete := .answers ⟨.int deleted.length, .int deleted.length, .int 0, some (deleted.map fun u => ⟨.uuid u, .bool true⟩)⟩
  dryRun := .answers ⟨.int 0, .int 0, .int 0, some []⟩

/-- The insert into an empty collection. -/
theorem insert_atomic_iff_empty :
    AllOrNothing segmentIdSample (lit "u1") conversationSample (storageSample []) .empty := by
  have hvalid : (prepareInsert segmentIdSample (lit "u1") conversationSample).toOption.isSome = true := by
    decide +kernel
  cases h : prepareInsert segmentIdSample (lit "u1") conversationSample with
  | error e => rw [h] at hvalid; cases hvalid
  | ok p => exact (insert_atomic_iff segmentIdSample h).mpr (.inl fun id _ => Dict.get?_empty id)

/-- The collection after a call. -/
def storeAfter (result : EStateM.Result ConversationWriteError (ConversationStore K) Uuid) : ConversationStore K :=
  match result with
  | .ok _ store => store
  | .error _ store => store

/-- The collection after the insert into an empty one. -/
def storedSample : ConversationStore ℕ :=
  storeAfter (insertConversation segmentIdSample (lit "u1") conversationSample (storageSample []) .empty)

/-- Whether a call raised its own exception and left another number of records behind. -/
def raisedWithChange (store : ConversationStore K)
    (result : EStateM.Result ConversationWriteError (ConversationStore K) Uuid) (id : Uuid) : Bool :=
  match result with
  | .error (.raised _) store' => store.contains id && !store'.contains id
  | _ => false

/-- A second insert of a stored conversation is refused for its first segment, and the
compensation deletes that segment of the first insert. -/
theorem stored_segment_deleted : ¬ ∀ (userId : Text) (args : ConversationInsert ℕ) (b : ConversationStorage)
    (store : ConversationStore ℕ) (valid : Uuid × List (SegmentRecord ℕ)),
    prepareInsert segmentIdSample userId args = .ok valid → AllOrNothing segmentIdSample userId args b store := by
  intro hall
  have hvalid : (prepareInsert segmentIdSample (lit "u1") conversationSample).toOption.isSome = true := by
    decide +kernel
  have hlost : raisedWithChange storedSample (insertConversation segmentIdSample (lit "u1") conversationSample
      (storageSample [segmentIdSample (Uuid.ofNat 2) (segmentName 0)]) storedSample)
        (segmentIdSample (Uuid.ofNat 2) (segmentName 0)) = true := by
    decide +kernel
  have hnone := hall (lit "u1") conversationSample (storageSample [segmentIdSample (Uuid.ofNat 2) (segmentName 0)])
    storedSample
  generalize storedSample = store at hlost hnone
  cases hp : prepareInsert segmentIdSample (lit "u1") conversationSample with
  | error e => rw [hp] at hvalid; cases hvalid
  | ok valid =>
    have hatomic := hnone valid hp
    cases hrun : insertConversation segmentIdSample (lit "u1") conversationSample
        (storageSample [segmentIdSample (Uuid.ofNat 2) (segmentName 0)]) store with
    | ok id store' => rw [hrun] at hlost; cases hlost
    | error e store' =>
      rw [hrun] at hlost
      cases e with
      | recovery attempted e₁ e₂ => cases hlost
      | raised e =>
        simp only [raisedWithChange, Dict.contains, hatomic.raised e store' hrun, Bool.and_not_self] at hlost
        cases hlost

end TenantRag

import TenantRag.Rag.Retrieval

/-!
# What normalization keeps

`_normalized_candidates` scans the results of the search once and remembers what it has
seen; what it keeps nevertheless depends on the results alone, not on their order. An
item is kept when its fields are valid, its identity is, no other item has its object
id, and, for a segment, nothing is wrong with any other item of its conversation.

## What is proved

* `NormalizeScan.next_spec` — one turn keeps the description of what the scan has seen.
* `normalizedCandidates_eq` — the candidates are the results that `Kept` accepts.
* `normalizedCandidates_nodup` — no two candidates have one object id.
* `normalizedCandidates_perm` — results in another order give candidates in another order.
-/

namespace TenantRag

variable {uuid5 : Uuid → Text → Uuid} {T : CollectionType}

/-! ### What the results say -/

/-- The fields of an item, where they are valid. -/
def validFields (T : CollectionType) (r : RawResult) : Option SearchResult :=
  match parseResult T r with
  | .malformed _ => none
  | .fields c => some c

/-- The conversation that a malformed item names. -/
def namedConversation (T : CollectionType) (r : RawResult) : Option Uuid :=
  match parseResult T r with
  | .malformed k => k
  | .fields _ => none

/-- The items of the results whose fields are valid. -/
def fieldsOf (T : CollectionType) (results : List RawResult) : List SearchResult := results.filterMap (validFields T)

/-- How many items have an object id. -/
def countOf (items : List SearchResult) (o : Uuid) : ℕ := (items.map SearchResult.objectId).count o

/-- The identity of an item is valid: a segment's id is derived from its conversation and index,
and a chunk is its own canonical object. -/
def ValidIdentity (uuid5 : Uuid → Text → Uuid) (T : CollectionType) (c : SearchResult) : Prop :=
  if T = .conversations then segmentIdentity uuid5 c ≠ none else c.canonicalId = c.objectId

instance : DecidablePred (ValidIdentity uuid5 T) := fun c => by
  unfold ValidIdentity
  infer_instance

/-- An object id is quarantined: two items have it, or a chunk of it is another's. -/
def ObjectQuarantined (uuid5 : Uuid → Text → Uuid) (T : CollectionType) (results : List RawResult) (o : Uuid) : Prop :=
  2 ≤ countOf (fieldsOf T results) o ∨
    T ≠ .conversations ∧ ∃ c ∈ fieldsOf T results, c.objectId = o ∧ ¬ ValidIdentity uuid5 T c

/-- A conversation is quarantined: something is wrong with an item of it. -/
def ConversationQuarantined (uuid5 : Uuid → Text → Uuid) (T : CollectionType) (results : List RawResult) (k : Uuid) :
    Prop :=
  k ∈ results.filterMap (namedConversation T) ∨
    T = .conversations ∧ ∃ c ∈ fieldsOf T results, c.canonicalId = k ∧
      (2 ≤ countOf (fieldsOf T results) c.objectId ∨ ¬ ValidIdentity uuid5 T c)

/-- An item is kept. -/
def Kept (uuid5 : Uuid → Text → Uuid) (T : CollectionType) (results : List RawResult) (c : SearchResult) : Prop :=
  ¬ ObjectQuarantined uuid5 T results c.objectId ∧ ¬ ConversationQuarantined uuid5 T results c.canonicalId

instance (results : List RawResult) : DecidablePred (Kept uuid5 T results) := fun c => by
  unfold Kept ObjectQuarantined ConversationQuarantined
  infer_instance

theorem countOf_append (items : List SearchResult) (c : SearchResult) (o : Uuid) :
    countOf (items ++ [c]) o = countOf items o + if c.objectId = o then 1 else 0 := by
  rw [countOf, countOf, List.map_append, List.count_append, List.map_singleton, List.count_singleton]
  simp only [beq_iff_eq]

theorem countOf_pos {items : List SearchResult} {c : SearchResult} (h : c ∈ items) : 0 < countOf items c.objectId :=
  List.count_pos_iff.mpr (List.mem_map_of_mem h)

/-! ### The scan -/

/-- What the scan knows of the results it has seen. -/
structure NormalizeScan.Describes (uuid5 : Uuid → Text → Uuid) (T : CollectionType) (results : List RawResult)
    (s : NormalizeScan) : Prop where
  /-- The object ids it has seen. -/
  seen : ∀ o, o ∈ s.seenObjectIds ↔ o ∈ (fieldsOf T results).map SearchResult.objectId
  /-- The object ids it has quarantined. -/
  objects : ∀ o, o ∈ s.quarantinedObjectIds ↔ ObjectQuarantined uuid5 T results o
  /-- The conversations it has quarantined. -/
  conversations : ∀ k, k ∈ s.quarantinedConversations ↔ ConversationQuarantined uuid5 T results k
  /-- What it keeps is among the results. -/
  subset : s.normalized ⊆ fieldsOf T results
  /-- What has a valid identity that no other item shares it keeps, in the order of the results. -/
  kept : ∀ p : SearchResult → Bool,
    (∀ c ∈ fieldsOf T results, p c = true → ValidIdentity uuid5 T c ∧ countOf (fieldsOf T results) c.objectId = 1) →
      s.normalized.filter p = (fieldsOf T results).filter p
  /-- The indices of a conversation are those its segments' ids are derived from. -/
  indices : ∀ k i o, s.conversationIndices.get? (k, i) = some o →
    o ∈ s.seenObjectIds ∧ o = uuid5 k (retrievalSegmentName i)

section Fields

variable {results : List RawResult} {r : RawResult} {c : SearchResult}

theorem fieldsOf_append (h : parseResult T r = .fields c) : fieldsOf T (results ++ [r]) = fieldsOf T results ++ [c] := by
  simp [fieldsOf, validFields, h]

theorem namedConversations_append (h : parseResult T r = .fields c) :
    (results ++ [r]).filterMap (namedConversation T) = results.filterMap (namedConversation T) := by
  simp [namedConversation, h]

theorem objectQuarantined_append (h : parseResult T r = .fields c) (o : Uuid) :
    ObjectQuarantined uuid5 T (results ++ [r]) o ↔ ObjectQuarantined uuid5 T results o ∨
      o = c.objectId ∧ (c.objectId ∈ (fieldsOf T results).map SearchResult.objectId ∨
        T ≠ .conversations ∧ ¬ ValidIdentity uuid5 T c) := by
  have hpos := List.count_pos_iff (a := c.objectId) (l := (fieldsOf T results).map SearchResult.objectId)
  simp only [ObjectQuarantined, fieldsOf_append h, countOf_append, List.mem_append, List.mem_singleton]
  by_cases ho : c.objectId = o
  · subst ho
    rw [if_pos rfl]
    constructor
    · rintro (hcount | ⟨hT, x, hx | rfl, hid, hinvalid⟩)
      · exact .inr ⟨rfl, .inl (hpos.mp (by rw [countOf] at hcount; omega))⟩
      · exact .inl (.inr ⟨hT, x, hx, hid, hinvalid⟩)
      · exact .inr ⟨rfl, .inr ⟨hT, hinvalid⟩⟩
    · rintro ((hcount | ⟨hT, x, hx, hid, hinvalid⟩) | ⟨-, hmem | ⟨hT, hinvalid⟩⟩)
      · exact .inl (by omega)
      · exact .inr ⟨hT, x, .inl hx, hid, hinvalid⟩
      · have := hpos.mpr hmem
        exact .inl (by rw [countOf]; omega)
      · exact .inr ⟨hT, c, .inr rfl, rfl, hinvalid⟩
  · rw [if_neg ho]
    constructor
    · rintro (hcount | ⟨hT, x, hx | rfl, hid, hinvalid⟩)
      · exact .inl (.inl hcount)
      · exact .inl (.inr ⟨hT, x, hx, hid, hinvalid⟩)
      · exact absurd hid ho
    · rintro ((hcount | ⟨hT, x, hx, hid, hinvalid⟩) | ⟨heq, -⟩)
      · exact .inl hcount
      · exact .inr ⟨hT, x, .inl hx, hid, hinvalid⟩
      · exact absurd heq.symm ho

theorem conversationQuarantined_append (h : parseResult T r = .fields c) (k : Uuid) :
    ConversationQuarantined uuid5 T (results ++ [r]) k ↔ ConversationQuarantined uuid5 T results k ∨
      T = .conversations ∧
        (c.canonicalId = k ∧ (c.objectId ∈ (fieldsOf T results).map SearchResult.objectId ∨ ¬ ValidIdentity uuid5 T c) ∨
          ∃ x ∈ fieldsOf T results, x.canonicalId = k ∧ x.objectId = c.objectId) := by
  have hpos : ∀ x ∈ fieldsOf T results, 0 < countOf (fieldsOf T results) x.objectId := fun x hx => countOf_pos hx
  have hmem := List.count_pos_iff (a := c.objectId) (l := (fieldsOf T results).map SearchResult.objectId)
  simp only [ConversationQuarantined, namedConversations_append h, fieldsOf_append h, countOf_append, List.mem_append,
    List.mem_singleton]
  constructor
  · rintro (hnamed | ⟨hT, x, hx | rfl, hk, hbad⟩)
    · exact .inl (.inl hnamed)
    · by_cases hid : c.objectId = x.objectId
      · exact .inr ⟨hT, .inr ⟨x, hx, hk, hid.symm⟩⟩
      · rw [if_neg hid] at hbad
        exact .inl (.inr ⟨hT, x, hx, hk, hbad⟩)
    · refine .inr ⟨hT, .inl ⟨hk, ?_⟩⟩
      rcases hbad with hcount | hinvalid
      · rw [if_pos rfl] at hcount
        exact .inl (hmem.mp (by rw [countOf] at hcount; omega))
      · exact .inr hinvalid
  · rintro ((hnamed | ⟨hT, x, hx, hk, hbad⟩) | ⟨hT, ⟨hk, hbad⟩ | ⟨x, hx, hk, hid⟩⟩)
    · exact .inl hnamed
    · refine .inr ⟨hT, x, .inl hx, hk, ?_⟩
      rcases hbad with hcount | hinvalid
      · exact .inl (by omega)
      · exact .inr hinvalid
    · refine .inr ⟨hT, c, .inr rfl, hk, ?_⟩
      rcases hbad with hin | hinvalid
      · have := hmem.mpr hin
        exact .inl (by rw [if_pos rfl, countOf]; omega)
      · exact .inr hinvalid
    · have := hpos x hx
      exact .inr ⟨hT, x, .inl hx, hk, .inl (by rw [if_pos hid.symm]; omega)⟩

theorem segmentIdentity_eq_some {n : ℕ} (h : segmentIdentity uuid5 c = some n) :
    c.objectId = uuid5 c.canonicalId (retrievalSegmentName n) ∧ c.segmentIndex.natural? = some n := by
  rw [segmentIdentity] at h
  cases hn : c.segmentIndex.natural? with
  | none =>
    rw [hn] at h
    cases h
  | some m =>
    rw [hn] at h
    simp only at h
    split_ifs at h with hid
    cases h
    exact ⟨hid, rfl⟩

/-! ### One turn -/

/-- An item that is not kept leaves what the scan keeps. -/
theorem NormalizeScan.Describes.kept_skip {s : NormalizeScan} (hs : s.Describes uuid5 T results)
    (h : parseResult T r = .fields c)
    (hc : c.objectId ∈ (fieldsOf T results).map SearchResult.objectId ∨ ¬ ValidIdentity uuid5 T c)
    (p : SearchResult → Bool)
    (hp : ∀ x ∈ fieldsOf T (results ++ [r]), p x = true →
      ValidIdentity uuid5 T x ∧ countOf (fieldsOf T (results ++ [r])) x.objectId = 1) :
    s.normalized.filter p = (fieldsOf T (results ++ [r])).filter p := by
  rw [fieldsOf_append h] at hp ⊢
  have hpc : p c = false := by
    by_contra htrue
    obtain ⟨hvalid, hcount⟩ := hp c (by simp) (by simpa using htrue)
    rw [countOf_append, if_pos rfl] at hcount
    rcases hc with hin | hinvalid
    · have := List.count_pos_iff.mpr hin
      rw [countOf] at hcount
      omega
    · exact hinvalid hvalid
  rw [List.filter_append, List.filter_cons_of_neg (by simp [hpc]), List.filter_nil, List.append_nil]
  refine hs.kept p fun x hx hpx => ?_
  obtain ⟨hvalid, hcount⟩ := hp x (List.mem_append_left _ hx) hpx
  rw [countOf_append] at hcount
  have := countOf_pos hx
  exact ⟨hvalid, by omega⟩

/-- An item that is kept is added at the end. -/
theorem NormalizeScan.Describes.kept_add {s : NormalizeScan} (hs : s.Describes uuid5 T results)
    (h : parseResult T r = .fields c) (p : SearchResult → Bool)
    (hp : ∀ x ∈ fieldsOf T (results ++ [r]), p x = true →
      ValidIdentity uuid5 T x ∧ countOf (fieldsOf T (results ++ [r])) x.objectId = 1) :
    (s.normalized ++ [c]).filter p = (fieldsOf T (results ++ [r])).filter p := by
  rw [fieldsOf_append h] at hp ⊢
  rw [List.filter_append, List.filter_append]
  congr 1
  refine hs.kept p fun x hx hpx => ?_
  obtain ⟨hvalid, hcount⟩ := hp x (List.mem_append_left _ hx) hpx
  rw [countOf_append] at hcount
  have := countOf_pos hx
  exact ⟨hvalid, by omega⟩

/-- An item with a new object id and a valid identity is kept. -/
theorem NormalizeScan.Describes.add_valid {s t : NormalizeScan} (hs : s.Describes uuid5 T results)
    (h : parseResult T r = .fields c) (hnew : c.objectId ∉ s.seenObjectIds) (hvalid : ValidIdentity uuid5 T c)
    (hseen : t.seenObjectIds = insert c.objectId s.seenObjectIds)
    (hobjects : t.quarantinedObjectIds = s.quarantinedObjectIds)
    (hconversations : t.quarantinedConversations = s.quarantinedConversations)
    (hnormalized : t.normalized = s.normalized ++ [c])
    (hindices : ∀ k i o, t.conversationIndices.get? (k, i) = some o →
      s.conversationIndices.get? (k, i) = some o ∨ o = c.objectId ∧ o = uuid5 k (retrievalSegmentName i)) :
    t.Describes uuid5 T (results ++ [r]) := by
  have hfresh : c.objectId ∉ (fieldsOf T results).map SearchResult.objectId := fun hin => hnew ((hs.seen _).mpr hin)
  refine ⟨fun o => ?_, fun o => ?_, fun k => ?_, ?_, ?_, fun k i o hget => ?_⟩
  · rw [hseen, fieldsOf_append h, List.map_append, List.mem_append, Finset.mem_insert, hs.seen]
    simp [or_comm]
  · rw [hobjects, hs.objects, objectQuarantined_append h]
    refine ⟨.inl, ?_⟩
    rintro (hold | ⟨-, hin | ⟨-, hinvalid⟩⟩)
    · exact hold
    · exact absurd hin hfresh
    · exact absurd hvalid hinvalid
  · rw [hconversations, hs.conversations, conversationQuarantined_append h]
    refine ⟨.inl, ?_⟩
    rintro (hold | ⟨-, ⟨-, hin | hinvalid⟩ | ⟨x, hx, -, hid⟩⟩)
    · exact hold
    · exact absurd hin hfresh
    · exact absurd hvalid hinvalid
    · exact absurd (List.mem_map.mpr ⟨x, hx, hid⟩) hfresh
  · rw [hnormalized, fieldsOf_append h]
    exact List.append_subset.mpr ⟨List.subset_append_of_subset_left _ hs.subset, List.subset_append_right _ _⟩
  · intro p hp
    rw [hnormalized]
    exact hs.kept_add h p hp
  · rw [hseen]
    rcases hindices k i o hget with hold | ⟨rfl, hderived⟩
    · exact ⟨Finset.mem_insert_of_mem (hs.indices k i o hold).1, (hs.indices k i o hold).2⟩
    · exact ⟨Finset.mem_insert_self _ _, hderived⟩

/-- An item whose object id was seen, or whose identity is not valid, is quarantined. -/
theorem NormalizeScan.Describes.add_bad {s t : NormalizeScan} (hs : s.Describes uuid5 T results)
    (h : parseResult T r = .fields c)
    (hbad : c.objectId ∈ s.seenObjectIds ∨ ¬ ValidIdentity uuid5 T c)
    (hseen : t.seenObjectIds = insert c.objectId s.seenObjectIds)
    (hobjects : ∀ o, o ∈ t.quarantinedObjectIds ↔ o ∈ s.quarantinedObjectIds ∨
      o = c.objectId ∧ (c.objectId ∈ s.seenObjectIds ∨ T ≠ .conversations))
    (hconversations : ∀ k, k ∈ t.quarantinedConversations ↔ k ∈ s.quarantinedConversations ∨
      T = .conversations ∧ (k = c.canonicalId ∨
        ∃ x ∈ s.normalized, x.objectId = c.objectId ∧ x.canonicalId = k ∧ c.objectId ∈ s.seenObjectIds))
    (hnormalized : t.normalized = s.normalized) (hindices : t.conversationIndices = s.conversationIndices) :
    t.Describes uuid5 T (results ++ [r]) := by
  have hbad' : c.objectId ∈ (fieldsOf T results).map SearchResult.objectId ∨ ¬ ValidIdentity uuid5 T c := by
    rw [← hs.seen]
    exact hbad
  refine ⟨fun o => ?_, fun o => ?_, fun k => ?_, ?_, ?_, fun k i o hget => ?_⟩
  · rw [hseen, fieldsOf_append h, List.map_append, List.mem_append, Finset.mem_insert, hs.seen]
    simp [or_comm]
  · rw [hobjects, hs.objects, objectQuarantined_append h, hs.seen]
    tauto
  · rw [hconversations, hs.conversations, conversationQuarantined_append h]
    constructor
    · rintro (hold | ⟨hT, rfl | ⟨x, hx, hid, hk, -⟩⟩)
      · exact .inl hold
      · exact .inr ⟨hT, .inl ⟨rfl, hbad'⟩⟩
      · exact .inr ⟨hT, .inr ⟨x, hs.subset hx, hk, hid⟩⟩
    · rintro (hold | ⟨hT, ⟨hk, -⟩ | ⟨x, hx, hk, hid⟩⟩)
      · exact .inl hold
      · exact .inr ⟨hT, .inl hk.symm⟩
      · -- another item with the object id was kept, or its conversation is quarantined
        by_cases hgood : ValidIdentity uuid5 T x ∧ countOf (fieldsOf T results) x.objectId = 1
        · have hkept : x ∈ s.normalized := by
            have hfilter := hs.kept
              (fun y => decide (ValidIdentity uuid5 T y ∧ countOf (fieldsOf T results) y.objectId = 1))
              (fun y _ hy => by simpa using hy)
            have hmem : x ∈ (fieldsOf T results).filter
                fun y => decide (ValidIdentity uuid5 T y ∧ countOf (fieldsOf T results) y.objectId = 1) :=
              List.mem_filter.mpr ⟨hx, by simpa using hgood⟩
            rw [← hfilter] at hmem
            exact (List.mem_filter.mp hmem).1
          have hin : c.objectId ∈ s.seenObjectIds := (hs.seen _).mpr (List.mem_map.mpr ⟨x, hx, hid⟩)
          exact .inr ⟨hT, .inr ⟨x, hkept, hid, hk, hin⟩⟩
        · refine .inl (.inr ⟨hT, x, hx, hk, ?_⟩)
          by_cases hvalid : ValidIdentity uuid5 T x
          · have := countOf_pos hx
            have hne : countOf (fieldsOf T results) x.objectId ≠ 1 := fun heq => hgood ⟨hvalid, heq⟩
            exact .inl (by omega)
          · exact .inr hvalid
  · rw [hnormalized, fieldsOf_append h]
    exact List.subset_append_of_subset_left _ hs.subset
  · intro p hp
    rw [hnormalized]
    exact hs.kept_skip h hbad' p hp
  · rw [hindices] at hget
    rw [hseen]
    exact ⟨Finset.mem_insert_of_mem (hs.indices k i o hget).1, (hs.indices k i o hget).2⟩

/-- A turn on an item with valid fields keeps the description. -/
theorem NormalizeScan.Describes.add {s : NormalizeScan} (hs : s.Describes uuid5 T results)
    (h : parseResult T r = .fields c) : (s.add uuid5 T c).Describes uuid5 T (results ++ [r]) := by
  rw [NormalizeScan.add]
  by_cases hseen : c.objectId ∈ s.seenObjectIds
  · rw [if_pos hseen]
    refine hs.add_bad h (.inl hseen) (Finset.insert_eq_of_mem hseen).symm (fun o => ?_) (fun k => ?_) rfl rfl
    · rw [Finset.mem_insert]
      tauto
    · dsimp only
      by_cases hT : T = .conversations
      · rw [if_pos hT, Finset.mem_insert, Finset.mem_union, List.mem_toFinset, List.mem_map]
        simp only [List.mem_filter, decide_eq_true_eq]
        constructor
        · rintro (rfl | hold | ⟨x, ⟨hx, hid⟩, hk⟩)
          · exact .inr ⟨hT, .inl rfl⟩
          · exact .inl hold
          · exact .inr ⟨hT, .inr ⟨x, hx, hid, hk, hseen⟩⟩
        · rintro (hold | ⟨-, rfl | ⟨x, hx, hid, hk, -⟩⟩)
          · exact .inr (.inl hold)
          · exact .inl rfl
          · exact .inr (.inr ⟨x, ⟨hx, hid⟩, hk⟩)
      · rw [if_neg hT]
        tauto
  · rw [if_neg hseen]
    simp only
    by_cases hT : T = .conversations
    · rw [if_pos hT]
      have hvalid_iff : ValidIdentity uuid5 T c ↔ segmentIdentity uuid5 c ≠ none := by rw [ValidIdentity, if_pos hT]
      cases hidentity : segmentIdentity uuid5 c with
      | none =>
        refine hs.add_bad h (.inr (by rw [hvalid_iff, hidentity]; simp)) rfl (fun o => ?_) (fun k => ?_) rfl rfl
        · simp [hseen, hT]
        · rw [Finset.mem_insert]
          simp [hseen, hT, or_comm]
      | some n =>
        have hvalid : ValidIdentity uuid5 T c := by
          rw [hvalid_iff, hidentity]
          simp
        obtain ⟨hderived, -⟩ := segmentIdentity_eq_some hidentity
        dsimp only
        cases hexisting : s.conversationIndices.get? (c.canonicalId, n) with
        | some existing =>
          -- the index would have an id that is derived as this one is, and was seen
          obtain ⟨hmem, heq⟩ := hs.indices _ _ _ hexisting
          rw [heq, ← hderived] at hmem
          exact absurd hmem hseen
        | none =>
          refine hs.add_valid h hseen hvalid rfl rfl rfl rfl fun k i o hget => ?_
          rw [Dict.get?_set] at hget
          split_ifs at hget with hkey
          · cases hkey
            cases hget
            exact .inr ⟨rfl, hderived⟩
          · exact .inl hget
    · rw [if_neg hT]
      have hvalid_iff : ValidIdentity uuid5 T c ↔ c.canonicalId = c.objectId := by rw [ValidIdentity, if_neg hT]
      by_cases hsame : c.canonicalId = c.objectId
      · rw [if_neg (not_not.mpr hsame)]
        exact hs.add_valid h hseen (hvalid_iff.mpr hsame) rfl rfl rfl rfl fun k i o hget => .inl hget
      · rw [if_pos hsame]
        refine hs.add_bad h (.inr (mt hvalid_iff.mp hsame)) rfl (fun o => ?_) (fun k => ?_) rfl rfl
        · rw [Finset.mem_insert]
          simp [hT, or_comm]
        · simp [hT]

/-- One turn keeps the description of what the scan has seen. -/
theorem NormalizeScan.next_spec {s : NormalizeScan} (hs : s.Describes uuid5 T results) :
    (s.next uuid5 T r).Describes uuid5 T (results ++ [r]) := by
  rw [NormalizeScan.next]
  cases hparse : parseResult T r with
  | fields c => exact hs.add hparse
  | malformed k =>
    have hfields : fieldsOf T (results ++ [r]) = fieldsOf T results := by simp [fieldsOf, validFields, hparse]
    have hnamed : (results ++ [r]).filterMap (namedConversation T) =
        results.filterMap (namedConversation T) ++ k.toList := by
      cases k <;> simp [namedConversation, hparse]
    have hobjects : ∀ o, ObjectQuarantined uuid5 T (results ++ [r]) o ↔ ObjectQuarantined uuid5 T results o := by
      intro o
      rw [ObjectQuarantined, ObjectQuarantined, hfields]
    cases k with
    | none =>
      refine ⟨?_, fun o => (hs.objects o).trans (hobjects o).symm, fun k => ?_, ?_, ?_, hs.indices⟩
      · rw [hfields]
        exact hs.seen
      · rw [hs.conversations, ConversationQuarantined, ConversationQuarantined, hfields, hnamed, Option.toList_none,
          List.append_nil]
      · rw [hfields]
        exact hs.subset
      · rw [hfields]
        exact hs.kept
    | some k₀ =>
      refine ⟨?_, fun o => (hs.objects o).trans (hobjects o).symm, fun k => ?_, ?_, ?_, hs.indices⟩
      · rw [hfields]
        exact hs.seen
      · rw [Finset.mem_insert, hs.conversations, ConversationQuarantined, ConversationQuarantined, hfields, hnamed,
          Option.toList_some, List.mem_append, List.mem_singleton]
        exact or_left_comm.trans or_assoc.symm
      · rw [hfields]
        exact hs.subset
      · rw [hfields]
        exact hs.kept

end Fields

/-! ### All turns -/

theorem NormalizeScan.foldl_spec {done rest : List RawResult} {s : NormalizeScan} (hs : s.Describes uuid5 T done) :
    (rest.foldl (NormalizeScan.next uuid5 T) s).Describes uuid5 T (done ++ rest) := by
  induction rest generalizing done s with
  | nil => rwa [List.append_nil]
  | cons r rest ih =>
    have hnext := ih (NormalizeScan.next_spec (r := r) hs)
    rwa [List.append_assoc, List.singleton_append] at hnext

theorem NormalizeScan.describes_nil : NormalizeScan.Describes uuid5 T [] ⟨[], ∅, ∅, ∅, .empty⟩ := by
  refine ⟨by simp [fieldsOf], fun o => ?_, fun k => ?_, by simp [fieldsOf], fun p _ => by simp [fieldsOf], by simp⟩
  · simp [ObjectQuarantined, fieldsOf, countOf]
  · simp [ConversationQuarantined, fieldsOf]

/-- What is kept has a valid identity, and no other item has its object id. -/
theorem Kept.valid {results : List RawResult} {c : SearchResult} (hc : c ∈ fieldsOf T results)
    (h : Kept uuid5 T results c) : ValidIdentity uuid5 T c ∧ countOf (fieldsOf T results) c.objectId = 1 := by
  obtain ⟨hobject, hconversation⟩ := h
  rw [ObjectQuarantined, not_or] at hobject
  have hpos := countOf_pos hc
  refine ⟨?_, by omega⟩
  by_contra hinvalid
  by_cases hT : T = .conversations
  · exact hconversation (.inr ⟨hT, c, hc, rfl, .inr hinvalid⟩)
  · exact hobject.2 ⟨hT, c, hc, rfl, hinvalid⟩

/-- The candidates are the results that are kept, in their order. -/
theorem normalizedCandidates_eq (results : List RawResult) :
    normalizedCandidates uuid5 T results = (fieldsOf T results).filter fun c => Kept uuid5 T results c := by
  have hscan : (results.foldl (NormalizeScan.next uuid5 T) ⟨[], ∅, ∅, ∅, .empty⟩).Describes uuid5 T results := by
    rw [← List.nil_append results]
    exact NormalizeScan.foldl_spec NormalizeScan.describes_nil
  rw [← hscan.kept (fun c => decide (Kept uuid5 T results c)) fun c hc hkept => (of_decide_eq_true hkept).valid hc]
  refine List.filter_congr fun c _ => decide_eq_decide.mpr ?_
  rw [Kept, hscan.objects, hscan.conversations]

/-- A candidate is one of the results, with a valid identity. -/
theorem mem_normalizedCandidates {results : List RawResult} {c : SearchResult} :
    c ∈ normalizedCandidates uuid5 T results ↔ c ∈ fieldsOf T results ∧ Kept uuid5 T results c := by
  rw [normalizedCandidates_eq, List.mem_filter, decide_eq_true_eq]

/-- No two candidates have one object id. -/
theorem normalizedCandidates_nodup (results : List RawResult) :
    ((normalizedCandidates uuid5 T results).map SearchResult.objectId).Nodup := by
  rw [List.nodup_iff_count_le_one]
  intro o
  by_cases ho : o ∈ (normalizedCandidates uuid5 T results).map SearchResult.objectId
  · obtain ⟨c, hc, rfl⟩ := List.mem_map.mp ho
    obtain ⟨hfields, hkept⟩ := mem_normalizedCandidates.mp hc
    obtain ⟨-, hcount⟩ := hkept.valid hfields
    have hsub : ((normalizedCandidates uuid5 T results).map SearchResult.objectId).Sublist
        ((fieldsOf T results).map SearchResult.objectId) := by
      rw [normalizedCandidates_eq]
      exact List.filter_sublist.map _
    calc List.count c.objectId ((normalizedCandidates uuid5 T results).map SearchResult.objectId)
        ≤ countOf (fieldsOf T results) c.objectId := hsub.count_le _
      _ = 1 := hcount
      _ ≤ 1 := le_rfl
  · rw [List.count_eq_zero.mpr ho]
    exact Nat.zero_le 1

/-! ### Results in another order -/

theorem kept_perm {results results' : List RawResult} (h : results.Perm results') (c : SearchResult) :
    Kept uuid5 T results c ↔ Kept uuid5 T results' c := by
  have hfields : (fieldsOf T results).Perm (fieldsOf T results') := h.filterMap _
  have hcount : ∀ o, countOf (fieldsOf T results) o = countOf (fieldsOf T results') o := fun o =>
    (hfields.map _).count_eq o
  have hnamed := h.filterMap (namedConversation T)
  simp only [Kept, ObjectQuarantined, ConversationQuarantined, hcount, hfields.mem_iff, hnamed.mem_iff]

/-- Results in another order give the candidates in another order. -/
theorem normalizedCandidates_perm {results results' : List RawResult} (h : results.Perm results') :
    (normalizedCandidates uuid5 T results).Perm (normalizedCandidates uuid5 T results') := by
  rw [normalizedCandidates_eq, normalizedCandidates_eq]
  simp only [kept_perm h]
  exact (h.filterMap _).filter _

end TenantRag

import TenantRag.Foundations.Decimal
import TenantRag.Foundations.Result
import TenantRag.Wizard.TraceEvidence

/-!
# What the digests are of

`backend/wizard/diagnostics.py`: the bytes that `_framed_hash` and `_content_digest` feed
to SHA-256, for the mapping of paragraphs to chunks, for their membership, and for parts
under a domain.

## The model

The input of a digest is what all updates give together. `to_bytes(8, "big")` raises from
`2 ** 64` on, so that a call may have no input.

## What is proved

* `mappingParts_injective` — the parts of a mapping determine it, the order of its chunks
  included.
* `membershipParts_eq_iff` — those of a membership are the same where the same pairs are in
  the mappings, as often.
* `digest_inputs_injective` — so it is with the bytes; and those of a content digest
  determine the domain and the parts.
* `mappingDigest_collision` — equal digests of different mappings are a collision.
-/

namespace TenantRag

/-! ### The model -/

/-- `t.encode("ascii")`, for a text that is ASCII. -/
def asciiBytes (t : Text) : List ℕ := t.map Fin.val

/-- The updates for some parts: `len(part).to_bytes(8, "big")` and the part. -/
def framedParts : List (List ℕ) → Except PyError (List ℕ)
  | [] => .ok []
  | part :: parts =>
      if 2 ^ 64 ≤ part.length then .error ⟨.otherException, "int too big to convert"⟩
      else (framedParts parts).map fun rest => lengthBytes part.length ++ part ++ rest

/-- What `_framed_hash(parts)` feeds. -/
def framedHashInput (parts : List (List ℕ)) : Except PyError (List ℕ) :=
  (framedParts parts).map fun frames => asciiBytes (lit "wizard-diagnostic-mapping-v1") ++ frames

/-- What `_content_digest(domain, parts)` feeds. -/
def contentDigestInput (domain : Text) (parts : List (List ℕ)) : Except PyError (List ℕ) :=
  match traceRequiredText domain "digest domain" 96 with
  | .error e => .error e
  | .ok d =>
      if d.all fun c => c.val < 128 then (framedParts parts).map fun frames => asciiBytes d ++ frames
      else .error (valueError "ordinal not in range(128)")

/-- The parts of `_mapping_digest(mapping)`. -/
def mappingParts (mapping : Dict ℕ (List Uuid)) : List (List ℕ) :=
  mapping.sorted.entries.flatMap fun e =>
    asciiBytes (decimal e.1) :: (e.2.map fun c => asciiBytes c.str) ++ [asciiBytes (lit ";")]

/-- What `_mapping_digest(mapping)` feeds. -/
def mappingDigestInput (mapping : Dict ℕ (List Uuid)) : Except PyError (List ℕ) := framedHashInput (mappingParts mapping)

/-- `_mapping_digest(mapping)`. -/
def mappingDigest (sha : List ℕ → Sha256) (mapping : Dict ℕ (List Uuid)) : Except PyError Text :=
  (mappingDigestInput mapping).map fun b => (sha b).hexdigest

/-- The parts of `_mapping_membership_digest(mapping)`. -/
def membershipParts (mapping : Dict ℕ (List Uuid)) : List (List ℕ) :=
  mapping.sorted.entries.flatMap fun e =>
    ((e.2.map Uuid.str).insertionSort (· ≤ ·)).flatMap fun c => [asciiBytes (decimal e.1), asciiBytes c]

/-- What `_mapping_membership_digest(mapping)` feeds. -/
def mappingMembershipDigestInput (mapping : Dict ℕ (List Uuid)) : Except PyError (List ℕ) :=
  framedHashInput (membershipParts mapping)

/-- `_mapping_membership_digest(mapping)`. -/
def mappingMembershipDigest (sha : List ℕ → Sha256) (mapping : Dict ℕ (List Uuid)) : Except PyError Text :=
  (mappingMembershipDigestInput mapping).map fun b => (sha b).hexdigest

/-! ### Frames -/

theorem framedParts_eq_ok_iff {parts : List (List ℕ)} {b : List ℕ} :
    framedParts parts = .ok b ↔ eightBytes.Fits parts ∧ b = eightBytes.frames parts := by
  induction parts generalizing b with
  | nil =>
    constructor
    · rintro ⟨⟩
      exact ⟨List.forall_mem_nil _, rfl⟩
    · rintro ⟨-, rfl⟩
      rfl
  | cons part parts ih =>
    rw [framedParts, LengthCode.Fits, List.forall_mem_cons]
    change _ ↔ (part.length < 2 ^ 64 ∧ eightBytes.Fits parts) ∧ b = lengthBytes part.length ++ part ++ eightBytes.frames parts
    split_ifs with hlen
    · exact iff_of_false not_false fun h => absurd h.1.1 (not_lt.mpr hlen)
    · rw [map_eq_ok_iff]
      constructor
      · rintro ⟨rest, hrest, rfl⟩
        obtain ⟨hfits, rfl⟩ := ih.mp hrest
        exact ⟨⟨not_le.mp hlen, hfits⟩, rfl⟩
      · rintro ⟨⟨-, hfits⟩, rfl⟩
        exact ⟨_, ih.mpr ⟨hfits, rfl⟩, rfl⟩

theorem framedHashInput_eq_ok_iff {parts : List (List ℕ)} {b : List ℕ} :
    framedHashInput parts = .ok b ↔
      eightBytes.Fits parts ∧ b = asciiBytes (lit "wizard-diagnostic-mapping-v1") ++ eightBytes.frames parts := by
  rw [framedHashInput, map_eq_ok_iff]
  constructor
  · rintro ⟨frames, hframes, rfl⟩
    obtain ⟨hfits, rfl⟩ := framedParts_eq_ok_iff.mp hframes
    exact ⟨hfits, rfl⟩
  · rintro ⟨hfits, rfl⟩
    exact ⟨_, framedParts_eq_ok_iff.mpr ⟨hfits, rfl⟩, rfl⟩

/-- Behind the one domain of the mappings, the bytes determine the parts. -/
theorem framedHashInput_injective {ps qs : List (List ℕ)} {b : List ℕ} (hps : framedHashInput ps = .ok b)
    (hqs : framedHashInput qs = .ok b) : ps = qs := by
  obtain ⟨hfits, rfl⟩ := framedHashInput_eq_ok_iff.mp hps
  obtain ⟨hfits', heq⟩ := framedHashInput_eq_ok_iff.mp hqs
  exact LengthCode.frames_injective hfits hfits' (List.append_cancel_left heq)

theorem contentDigestInput_eq_ok {domain : Text} {parts : List (List ℕ)} {b : List ℕ}
    (h : contentDigestInput domain parts = .ok b) :
    eightBytes.Fits parts ∧ b = asciiBytes domain ++ eightBytes.frames parts := by
  unfold contentDigestInput traceRequiredText at h
  split_ifs at h
  dsimp only at h
  split_ifs at h
  rw [map_eq_ok_iff] at h
  obtain ⟨frames, hframes, rfl⟩ := h
  obtain ⟨hfits, rfl⟩ := framedParts_eq_ok_iff.mp hframes
  exact ⟨hfits, rfl⟩

/-- The digest is that of the input, which there is for parts that fit. -/
theorem contentDigest_eq_input (sha : List ℕ → Sha256) (domain : Text) {parts : List (List ℕ)} (h : eightBytes.Fits parts) :
    contentDigest sha domain parts = (contentDigestInput domain parts).map fun b => (sha b).hexdigest := by
  rw [contentDigest, contentDigestInput, framedParts_eq_ok_iff.mpr ⟨h, rfl⟩]
  cases traceRequiredText domain "digest domain" 96 with
  | error e => rfl
  | ok d =>
    dsimp only
    split_ifs
    · rfl
    · rfl

/-! ### The parts of a mapping -/

theorem asciiBytes_injective : Function.Injective asciiBytes := Fin.val_injective.list_map

theorem decimal_injective : Function.Injective decimal := Function.LeftInverse.injective ofDecimal_decimal

/-- The number of a paragraph and its chunks, as they stand between the separators. -/
def paragraphParts (e : ℕ × List Uuid) : List (List ℕ) :=
  asciiBytes (decimal e.1) :: e.2.map fun c => asciiBytes c.str

theorem paragraphParts_injective : Function.Injective paragraphParts := by
  rintro ⟨j, cs⟩ ⟨k, ds⟩ h
  obtain ⟨hnumber, hchunks⟩ := List.cons.inj h
  have hjk : j = k := decimal_injective (asciiBytes_injective hnumber)
  have hcs : cs = ds := (asciiBytes_injective.comp Uuid.str_injective).list_map hchunks
  rw [hjk, hcs]

/-- No number and no chunk is a semicolon. -/
theorem semicolon_notMem (e : ℕ × List Uuid) : asciiBytes (lit ";") ∉ paragraphParts e := by
  intro hmem
  obtain hnumber | hchunk := List.mem_cons.mp hmem
  · have hdigits := asciiBytes_injective hnumber
    have hdigit : isDigit 59 = true := isDigit_of_mem_decimal (n := e.1) (by rw [← hdigits]; decide)
    exact absurd hdigit (by decide)
  · obtain ⟨c, -, hc⟩ := List.mem_map.mp hchunk
    have hlen := congrArg List.length (asciiBytes_injective hc)
    rw [Uuid.length_str] at hlen
    exact absurd hlen (by decide)

theorem mappingParts_eq (mapping : Dict ℕ (List Uuid)) :
    mappingParts mapping = terminated (asciiBytes (lit ";")) (mapping.sorted.entries.map paragraphParts) := by
  rw [mappingParts, terminated, List.flatMap_map]
  rfl

/-- The parts determine the mapping, the order of its chunks included. -/
theorem mappingParts_injective {d e : Dict ℕ (List Uuid)} (h : mappingParts d = mappingParts e) : d.sorted = e.sorted := by
  rw [mappingParts_eq, mappingParts_eq] at h
  have hfree : ∀ d : Dict ℕ (List Uuid), ∀ g ∈ d.sorted.entries.map paragraphParts, asciiBytes (lit ";") ∉ g := by
    intro d g hg
    obtain ⟨entry, -, rfl⟩ := List.mem_map.mp hg
    exact semicolon_notMem entry
  apply Dict.ext_entries
  apply paragraphParts_injective.list_map
  exact terminated_injective (hfree d) (hfree e) h

/-! ### The parts of a membership -/

/-- The pairs of a paragraph and a chunk of it, as often as they stand in the mapping. -/
def memberships (mapping : Dict ℕ (List Uuid)) : List (ℕ × Uuid) :=
  mapping.entries.flatMap fun e => e.2.map fun c => (e.1, c)

/-- The pairs in the order they are fed in. -/
def sortedMemberships (mapping : Dict ℕ (List Uuid)) : List (ℕ × Text) :=
  mapping.sorted.entries.flatMap fun e => ((e.2.map Uuid.str).insertionSort (· ≤ ·)).map fun c => (e.1, c)

/-- The order of the pairs: by number, then by text. -/
def MembershipLe (a b : ℕ × Text) : Prop := a.1 < b.1 ∨ a.1 = b.1 ∧ a.2 ≤ b.2

theorem sortedMemberships_pairwise (mapping : Dict ℕ (List Uuid)) : (sortedMemberships mapping).Pairwise MembershipLe := by
  rw [sortedMemberships, List.pairwise_flatMap]
  constructor
  · intro e _
    rw [List.pairwise_map]
    exact (List.pairwise_insertionSort (· ≤ ·) (e.2.map Uuid.str)).imp fun hle => .inr ⟨rfl, hle⟩
  · refine (List.pairwise_map.mp mapping.keys_sorted_pairwise).imp ?_
    intro e f hlt a ha b hb
    obtain ⟨c, -, rfl⟩ := List.mem_map.mp ha
    obtain ⟨c', -, rfl⟩ := List.mem_map.mp hb
    exact .inl hlt

theorem sortedMemberships_perm (mapping : Dict ℕ (List Uuid)) :
    (sortedMemberships mapping).Perm ((memberships mapping).map (Prod.map id Uuid.str)) := by
  have hsorted : (sortedMemberships mapping).Perm
      (mapping.sorted.entries.flatMap fun e => (e.2.map Uuid.str).map fun c => (e.1, c)) :=
    List.Perm.flatMap_left _ fun e _ => (List.perm_insertionSort _ _).map _
  refine hsorted.trans (((List.perm_insertionSort _ _).flatMap_right _).trans (List.Perm.of_eq ?_))
  rw [memberships, List.map_flatMap]
  simp [Function.comp_def]

/-- Sorted, the pairs are the same exactly where the mappings have the same pairs, as often. -/
theorem sortedMemberships_eq_iff {d e : Dict ℕ (List Uuid)} :
    sortedMemberships d = sortedMemberships e ↔ (memberships d).Perm (memberships e) := by
  have hinjective : Function.Injective (Prod.map id Uuid.str : ℕ × Uuid → ℕ × Text) :=
    Function.injective_id.prodMap Uuid.str_injective
  rw [← List.map_perm_map_iff hinjective]
  constructor
  · intro h
    exact (sortedMemberships_perm d).symm.trans (h ▸ sortedMemberships_perm e)
  · intro h
    refine List.Perm.eq_of_pairwise ?_ (sortedMemberships_pairwise d) (sortedMemberships_pairwise e)
      ((sortedMemberships_perm d).trans (h.trans (sortedMemberships_perm e).symm))
    rintro ⟨j, s⟩ ⟨k, t⟩ - - (hlt | ⟨hjk, hst⟩) (hlt' | ⟨hkj, hts⟩)
    · exact absurd hlt (lt_asymm hlt')
    · exact absurd hkj hlt.ne'
    · exact absurd hjk hlt'.ne'
    · exact Prod.ext hjk (le_antisymm hst hts)

theorem membershipParts_eq (mapping : Dict ℕ (List Uuid)) :
    membershipParts mapping = (sortedMemberships mapping).flatMap fun p => [asciiBytes (decimal p.1), asciiBytes p.2] := by
  rw [membershipParts, sortedMemberships, List.flatMap_assoc]
  simp only [List.flatMap_map]

theorem pairParts_injective {ps qs : List (ℕ × Text)}
    (h : (ps.flatMap fun p => [asciiBytes (decimal p.1), asciiBytes p.2]) =
      qs.flatMap fun p => [asciiBytes (decimal p.1), asciiBytes p.2]) : ps = qs := by
  induction ps generalizing qs with
  | nil =>
    cases qs with
    | nil => rfl
    | cons q qs => cases h
  | cons p ps ih =>
    cases qs with
    | nil => cases h
    | cons q qs =>
      simp only [List.flatMap_cons, List.cons_append, List.nil_append, List.cons.injEq] at h
      obtain ⟨hnumber, htext, hrest⟩ := h
      rw [ih hrest, Prod.ext (decimal_injective (asciiBytes_injective hnumber)) (asciiBytes_injective htext)]

/-- The parts of a membership are the same exactly where the mappings have the same pairs, as often. -/
theorem membershipParts_eq_iff {d e : Dict ℕ (List Uuid)} :
    membershipParts d = membershipParts e ↔ (memberships d).Perm (memberships e) := by
  rw [← sortedMemberships_eq_iff, membershipParts_eq, membershipParts_eq]
  constructor
  · exact pairParts_injective
  · intro h
    rw [h]

/-! ### The bytes -/

/-- Printable ASCII. -/
def IsPrintable (t : Text) : Prop := ∀ c ∈ t, 32 ≤ c.val ∧ c.val ≤ 126

theorem contentDigestInput_injective {domain domain' : Text} {parts parts' : List (List ℕ)} {b : List ℕ}
    (hdomain : IsPrintable domain) (hdomain' : IsPrintable domain') (hparts : ∀ p ∈ parts, p.length < 2 ^ 56)
    (hparts' : ∀ p ∈ parts', p.length < 2 ^ 56) (h : contentDigestInput domain parts = .ok b)
    (h' : contentDigestInput domain' parts' = .ok b) : domain = domain' ∧ parts = parts' := by
  obtain ⟨hfits, rfl⟩ := contentDigestInput_eq_ok h
  obtain ⟨hfits', heq⟩ := contentDigestInput_eq_ok h'
  have hzero : ∀ t : Text, IsPrintable t → 0 ∉ asciiBytes t := by
    intro t ht hmem
    obtain ⟨c, hc, hval⟩ := List.mem_map.mp hmem
    have hlow := (ht c hc).1
    omega
  -- The first byte of a frame is zero, which no domain has: the domain ends where a zero stands, or with the stream.
  have hmark : ∀ p ∈ parts ++ parts', (eightBytes.word p.length).head? = some 0 := by
    intro p hp
    obtain hp | hp := List.mem_append.mp hp
    · exact head_lengthBytes (hparts p hp)
    · exact head_lengthBytes (hparts' p hp)
  obtain ⟨hheads, hparts⟩ :=
    LengthCode.headed_injective (hzero domain hdomain) (hzero domain' hdomain') hfits hfits' hmark heq
  exact ⟨asciiBytes_injective hheads, hparts⟩

/-- The bytes of a mapping determine it. Those of a membership are the same exactly where the same pairs are in the
mappings, as often. Those of a content digest determine the domain, where it is printable, and the parts, where they are
shorter than `2 ** 56` bytes. -/
theorem digest_inputs_injective :
    (∀ (d e : Dict ℕ (List Uuid)) (b : List ℕ), mappingDigestInput d = .ok b → mappingDigestInput e = .ok b →
      ∀ k, d.get? k = e.get? k) ∧
    (∀ (d e : Dict ℕ (List Uuid)) (b : List ℕ), mappingMembershipDigestInput d = .ok b →
      (mappingMembershipDigestInput e = .ok b ↔ (memberships d).Perm (memberships e))) ∧
    ∀ (domain domain' : Text) (parts parts' : List (List ℕ)) (b : List ℕ), IsPrintable domain → IsPrintable domain' →
      (∀ p ∈ parts, p.length < 2 ^ 56) → (∀ p ∈ parts', p.length < 2 ^ 56) →
      contentDigestInput domain parts = .ok b → contentDigestInput domain' parts' = .ok b →
      domain = domain' ∧ parts = parts' := by
  refine ⟨fun d e b hd he k => ?_, fun d e b hd => ⟨fun he => ?_, fun hperm => ?_⟩, ?_⟩
  · rw [← Dict.get?_sorted, mappingParts_injective (framedHashInput_injective hd he), Dict.get?_sorted]
  · exact membershipParts_eq_iff.mp (framedHashInput_injective hd he)
  · rw [mappingMembershipDigestInput, ← membershipParts_eq_iff.mpr hperm]
    exact hd
  · exact fun _ _ _ _ _ hdomain hdomain' hparts hparts' h h' =>
      contentDigestInput_injective hdomain hdomain' hparts hparts' h h'

/-- A mapping with an empty paragraph. -/
def sampleMapping : Dict ℕ (List Uuid) := ⟨[(1, [Uuid.ofNat 7, Uuid.ofNat 3]), (2, [])], by decide⟩

/-- The same mapping, entered in another order. -/
def sampleReordered : Dict ℕ (List Uuid) := ⟨[(2, []), (1, [Uuid.ofNat 7, Uuid.ofNat 3])], by decide⟩

theorem digest_inputs_injective_sample :
    (∃ b, mappingDigestInput sampleMapping = .ok b ∧ mappingDigestInput sampleReordered = .ok b ∧
      ∀ k, sampleMapping.get? k = sampleReordered.get? k) ∧
    (∃ b, mappingMembershipDigestInput sampleMapping = .ok b ∧
      (mappingMembershipDigestInput sampleReordered = .ok b ↔ (memberships sampleMapping).Perm (memberships sampleReordered))) ∧
    ∃ b, contentDigestInput (lit "chat-v1") [[0, 255]] = .ok b ∧ lit "chat-v1" = lit "chat-v1" ∧ [[0, 255]] = [[0, 255]] := by
  have hparts : mappingParts sampleReordered = mappingParts sampleMapping := by decide +kernel
  have hfits : ∀ p ∈ mappingParts sampleMapping, p.length < 2 ^ 64 := by decide +kernel
  have hfits' : ∀ p ∈ membershipParts sampleMapping, p.length < 2 ^ 64 := by decide +kernel
  have hd := framedHashInput_eq_ok_iff.mpr ⟨hfits, rfl⟩
  have he := framedHashInput_eq_ok_iff.mpr ⟨hfits, rfl⟩
  rw [← hparts] at he
  have hm := framedHashInput_eq_ok_iff.mpr ⟨hfits', rfl⟩
  have hprintable : IsPrintable (lit "chat-v1") := by
    have hall : (lit "chat-v1").all (fun c => 32 ≤ c.val && c.val ≤ 126) = true := by decide
    simpa [IsPrintable] using hall
  have hshort : ∀ p ∈ ([[0, 255]] : List (List ℕ)), p.length < 2 ^ 56 := by decide
  obtain ⟨b, hb⟩ : ∃ b, contentDigestInput (lit "chat-v1") [[0, 255]] = .ok b := ⟨_, rfl⟩
  exact ⟨⟨_, hd, he, digest_inputs_injective.1 _ _ _ hd he⟩, ⟨_, hm, digest_inputs_injective.2.1 _ _ _ hm⟩,
    ⟨b, hb, digest_inputs_injective.2.2 _ _ _ _ b hprintable hprintable hshort hshort hb hb⟩⟩

/-- Where the digests of different mappings are the same, two inputs have the same hash. -/
theorem mappingDigest_collision {sha : List ℕ → Sha256} {d e : Dict ℕ (List Uuid)} {digest : Text}
    (hd : mappingDigest sha d = .ok digest) (he : mappingDigest sha e = .ok digest) (hne : d.sorted ≠ e.sorted) :
    ∃ b c, b ≠ c ∧ sha b = sha c := by
  rw [mappingDigest, map_eq_ok_iff] at hd he
  obtain ⟨b, hb, rfl⟩ := hd
  obtain ⟨c, hc, hdigest⟩ := he
  refine ⟨b, c, ?_, (Sha256.hexdigest_injective hdigest).symm⟩
  rintro rfl
  exact hne (mappingParts_injective (framedHashInput_injective hb hc))

end TenantRag

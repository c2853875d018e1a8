import TenantRag.Foundations.Dict
import TenantRag.Foundations.Json
import TenantRag.Foundations.Sha256
import TenantRag.Foundations.WriteOnce
import Mathlib.Data.List.Sort

/-!
# Trace evidence

`backend/wizard/diagnostics.py`: what an operation of a trace session holds besides its
stages, namely counts, flags, digests, samples and texts, and the functions that
record them.

## The model

The evidence of the one operation that is active. Production code calls the recording
functions; a call checks its arguments, which alone decide whether it raises, and then
changes the evidence. Most calls run under a `try` of their own, so that one that raises
only marks the session faulted; where several calls share a `try`, the first that raises
is the last that is made. The hash is a parameter, and so is nothing else: names, limits
and domains are those of the source.

## What is proved

* `read_of_once` — a name that one call of a log records holds what that call records.
* `recording_addCount`, `recording_setSample`, … — when a call does not raise.
* `get?_sortedFields` — the payload of an operation holds what the operation does.
-/

namespace TenantRag

/-- `TRACE_SAMPLE_LIMIT`. -/
def traceSampleLimit : ℕ := 32

/-- `TRACE_TEXT_MAX_UTF8_BYTES`. -/
def traceTextMaxUtf8Bytes : ℕ := 8192

/-- `_Sample`. -/
structure TraceSample where
  /-- `exact_count`. -/
  exactCount : ℕ
  /-- `items`. -/
  items : List Text
  /-- `truncated`. -/
  truncated : Bool
  deriving DecidableEq

/-- The evidence in an `_Operation`, and `trace_faulted` of its session. -/
structure Trace where
  /-- `counts`. -/
  counts : Dict Text ℕ
  /-- `flags`. -/
  flags : Dict Text Bool
  /-- `digests`. -/
  digests : Dict Text Text
  /-- `samples`. -/
  samples : Dict Text TraceSample
  /-- `texts`. -/
  texts : Dict Text Text
  /-- `trace_faulted`. -/
  traceFaulted : Bool

/-- The evidence of an operation that was just begun. -/
def Trace.fresh : Trace := ⟨.empty, .empty, .empty, .empty, .empty, false⟩

/-- A call of a recording function; what it iterates over may raise. -/
inductive Call where
  /-- `add_count(name, value)`. -/
  | addCount (name : Text) (value : ℕ)
  /-- `set_flag(name, value)`. -/
  | setFlag (name : Text) (value : Bool)
  /-- `set_sample(name, items, exact_count=exact_count)`. -/
  | setSample (name : Text) (items : Except PyError (List Text)) (exactCount : Option ℕ)
  /-- `set_framed_digest(name, domain, parts)`. -/
  | setFramedDigest (name domain : Text) (parts : Except PyError (List (List ℕ)))
  /-- `set_text(name, value)`. -/
  | setText (name value : Text)
  /-- No call: the code between two calls raises. -/
  | raise (e : PyError)

/-- What a call changes once its arguments are checked. -/
inductive Recording where
  /-- A count grows. -/
  | count (key : Text) (value : ℕ)
  /-- A flag is set. -/
  | flag (key : Text) (value : Bool)
  /-- A digest is set. -/
  | digest (key value : Text)
  /-- Items are added to a sample. -/
  | sample (key : Text) (items : List Text) (count : ℕ)
  /-- A text is set, unless it has too many bytes. -/
  | text (key value : Text) (utf8Bytes : ℕ)

/-! ### The checks -/

/-- The name has a character, no white space around it, and no more than `maximum` characters. -/
def isRequiredText (value : Text) (maximum : ℕ) : Bool := !value.isEmpty && strip value = value && value.length ≤ maximum

/-- `_required_text(value, name, maximum=maximum)`. -/
def traceRequiredText (value : Text) (name : String) (maximum : ℕ) : Except PyError Text :=
  if value.isEmpty ∨ strip value ≠ value then
    .error (valueError s!"{name} must be non-empty without surrounding whitespace")
  else if maximum < value.length then .error (valueError s!"{name} is too long")
  else .ok value

theorem traceRequiredText_ok {value : Text} {maximum : ℕ} (h : isRequiredText value maximum = true) (name : String) :
    traceRequiredText value name maximum = .ok value := by
  simp only [isRequiredText, Bool.and_eq_true, Bool.not_eq_true', decide_eq_true_eq] at h
  obtain ⟨⟨hne, hstrip⟩, hlen⟩ := h
  rw [traceRequiredText, if_neg (by simp [hne, hstrip]), if_neg (by omega)]

/-- `_content_digest(domain, parts)`. -/
def contentDigest (sha : List ℕ → Sha256) (domain : Text) (parts : List (List ℕ)) : Except PyError Text :=
  match traceRequiredText domain "digest domain" 96 with
  | .error e => .error e
  | .ok d =>
      if d.all fun c => c.val < 128 then .ok (sha (framed (d.map Fin.val) parts)).hexdigest
      else .error (valueError "ordinal not in range(128)")

/-- A domain that `_content_digest` accepts. -/
def isDigestDomain (domain : Text) : Bool := isRequiredText domain 96 && domain.all fun c => c.val < 128

theorem contentDigest_ok {domain : Text} (h : isDigestDomain domain = true) (sha : List ℕ → Sha256) (parts : List (List ℕ)) :
    contentDigest sha domain parts = .ok (sha (framed (domain.map Fin.val) parts)).hexdigest := by
  rw [isDigestDomain, Bool.and_eq_true] at h
  rw [contentDigest, traceRequiredText_ok h.1]
  exact if_pos h.2

/-- A short token without white space. -/
def isSampleToken (t : Text) : Bool := !t.isEmpty && t.length ≤ 128 && !t.any isSpace

/-- What the registry makes of a call. -/
def Call.recording (sha : List ℕ → Sha256) : Call → Except PyError Recording
  | .addCount name value =>
      match traceRequiredText name "count name" 96 with
      | .error e => .error e
      | .ok key => .ok (.count key value)
  | .setFlag name value =>
      match traceRequiredText name "flag name" 96 with
      | .error e => .error e
      | .ok key => .ok (.flag key value)
  | .setSample name items exactCount =>
      match traceRequiredText name "sample name" 96 with
      | .error e => .error e
      | .ok key =>
          match items with
          | .error e => .error e
          | .ok items =>
              if !(items.take traceSampleLimit).all isSampleToken then
                .error (valueError "diagnostic sample items must be short sanitized tokens")
              else if exactCount.getD items.length < items.length then
                .error (valueError "sample exact_count is invalid")
              else .ok (.sample key (items.take traceSampleLimit) (exactCount.getD items.length))
  | .setFramedDigest name domain parts =>
      match parts with
      | .error e => .error e
      | .ok parts =>
          match contentDigest sha domain parts with
          | .error e => .error e
          | .ok value =>
              match traceRequiredText name "digest name" 96 with
              | .error e => .error e
              | .ok key => .ok (.digest key (lower value))
  | .setText name value =>
      match traceRequiredText name "text name" 96 with
      | .error e => .error e
      | .ok key =>
          if value.isEmpty then .error (valueError "diagnostic text must be a non-empty string")
          else (encodeUtf8 value).map fun encoded => .text key value encoded.length
  | .raise e => .error e

section Accepted

variable {sha : List ℕ → Sha256} {name : Text}

theorem recording_addCount (h : isRequiredText name 96 = true) (value : ℕ) :
    (Call.addCount name value).recording sha = .ok (.count name value) := by
  rw [Call.recording, traceRequiredText_ok h]

theorem recording_setFlag (h : isRequiredText name 96 = true) (value : Bool) :
    (Call.setFlag name value).recording sha = .ok (.flag name value) := by
  rw [Call.recording, traceRequiredText_ok h]

/-- A sample of tokens with their own number is accepted. -/
theorem recording_setSample (h : isRequiredText name 96 = true) {items : List Text}
    (hitems : ∀ t ∈ items, isSampleToken t = true) :
    (Call.setSample name (.ok items) (some items.length)).recording sha =
      .ok (.sample name (items.take traceSampleLimit) items.length) := by
  have htokens : (items.take traceSampleLimit).all isSampleToken = true := by
    rw [List.all_eq_true]
    exact fun t ht => hitems t (List.mem_of_mem_take ht)
  simp only [Call.recording, traceRequiredText_ok h, htokens, Option.getD_some]
  rw [if_neg (by simp), if_neg (by omega)]

theorem recording_setFramedDigest (h : isRequiredText name 96 = true) {domain : Text}
    (hdomain : isDigestDomain domain = true) (parts : List (List ℕ)) :
    (Call.setFramedDigest name domain (.ok parts)).recording sha =
      .ok (.digest name (sha (framed (domain.map Fin.val) parts)).hexdigest) := by
  simp only [Call.recording, contentDigest_ok hdomain, traceRequiredText_ok h, lower_hexdigest]

theorem recording_setText (h : isRequiredText name 96 = true) {value : Text} (hne : value ≠ [])
    (hvalue : encodable value = true) :
    (Call.setText name value).recording sha = .ok (.text name value (value.flatMap utf8Bytes).length) := by
  have hempty : value.isEmpty = false := by simpa using hne
  rw [Call.recording, traceRequiredText_ok h]
  simp only [hempty, Bool.false_eq_true, if_false, encodeUtf8_of_encodable hvalue]
  rfl

end Accepted

/-! ### The evidence -/

namespace Trace

/-- `f"{key}_utf8_bytes"`. -/
def utf8BytesKey (key : Text) : Text := key ++ lit "_utf8_bytes"

/-- `f"{key}_truncated"`. -/
def truncatedKey (key : Text) : Text := key ++ lit "_truncated"

/-- The sample with more items. -/
def combined (previous : Option TraceSample) (items : List Text) (count : ℕ) : TraceSample :=
  let combinedItems := ((previous.elim [] TraceSample.items) ++ items).take traceSampleLimit
  let combinedCount := previous.elim 0 TraceSample.exactCount + count
  ⟨combinedCount, combinedItems, combinedItems.length < combinedCount⟩

/-- A recording changes the evidence. -/
def record (t : Trace) : Recording → Trace
  | .count key value => { t with counts := t.counts.set key ((t.counts.get? key).getD 0 + value) }
  | .flag key value => { t with flags := t.flags.set key value }
  | .digest key value => { t with digests := t.digests.set key value }
  | .sample key items count => { t with samples := t.samples.set key (combined (t.samples.get? key) items count) }
  | .text key value utf8Bytes =>
      let counts := t.counts.set (utf8BytesKey key) utf8Bytes
      if traceTextMaxUtf8Bytes < utf8Bytes then { t with counts, flags := t.flags.set (truncatedKey key) true }
      else { t with counts, texts := t.texts.set key value, flags := t.flags.set (truncatedKey key) false }

/-- `_safe_observe`: a call that raises marks the session faulted, and changes nothing else. -/
def observe (sha : List ℕ → Sha256) (t : Trace) (c : Call) : Trace :=
  match c.recording sha with
  | .ok r => t.record r
  | .error _ => { t with traceFaulted := true }

/-- A log of calls. -/
def observeAll (sha : List ℕ → Sha256) (t : Trace) (log : List Call) : Trace := log.foldl (observe sha) t

end Trace

/-- The calls up to the first that ends the block they stand in. -/
def upTo (ends : Call → Bool) : List Call → List Call
  | [] => []
  | c :: cs => if ends c then [c] else c :: upTo ends cs

/-- The call ends a block that only code between calls can end. -/
def Call.isRaise : Call → Bool
  | .raise _ => true
  | _ => false

/-- The call ends a block of calls under one `try`. -/
def Call.fails (sha : List ℕ → Sha256) (c : Call) : Bool :=
  match c.recording sha with
  | .ok _ => false
  | .error _ => true

theorem upTo_eq_self {ends : Call → Bool} {cs : List Call} (h : ∀ c ∈ cs, ends c = false) : upTo ends cs = cs := by
  induction cs with
  | nil => rfl
  | cons c cs ih =>
    rw [upTo, h c List.mem_cons_self, if_neg (by simp), ih fun d hd => h d (List.mem_cons_of_mem c hd)]

theorem upTo_append {ends : Call → Bool} {cs : List Call} (h : ∀ c ∈ cs, ends c = false) (rest : List Call) :
    upTo ends (cs ++ rest) = cs ++ upTo ends rest := by
  induction cs with
  | nil => rfl
  | cons c cs ih =>
    rw [List.cons_append, upTo, h c List.mem_cons_self, if_neg (by simp), ih fun d hd => h d (List.mem_cons_of_mem c hd)]
    rfl

theorem upTo_sublist (ends : Call → Bool) (cs : List Call) : (upTo ends cs).Sublist cs := by
  induction cs with
  | nil => exact .slnil
  | cons c cs ih =>
    rw [upTo]
    split_ifs
    · exact (List.nil_sublist cs).cons_cons c
    · exact ih.cons_cons c

/-! ### Names that are recorded once -/

/-- A name, and the dictionary it stands in. -/
inductive EvidenceKey where
  /-- In `counts`. -/
  | count (name : Text)
  /-- In `flags`. -/
  | flag (name : Text)
  /-- In `digests`. -/
  | digest (name : Text)
  /-- In `samples`. -/
  | sample (name : Text)
  /-- In `texts`. -/
  | text (name : Text)
  deriving DecidableEq

/-- What a name holds. -/
inductive EvidenceValue where
  /-- A count. -/
  | count (value : ℕ)
  /-- A flag. -/
  | flag (value : Bool)
  /-- A digest. -/
  | digest (value : Text)
  /-- A sample. -/
  | sample (value : TraceSample)
  /-- A text. -/
  | text (value : Text)

/-- What the evidence holds under a name. -/
def Trace.read (t : Trace) : EvidenceKey → Option EvidenceValue
  | .count name => (t.counts.get? name).map .count
  | .flag name => (t.flags.get? name).map .flag
  | .digest name => (t.digests.get? name).map .digest
  | .sample name => (t.samples.get? name).map .sample
  | .text name => (t.texts.get? name).map .text

/-- The names a call records. -/
def Call.keys : Call → List EvidenceKey
  | .addCount name _ => [.count name]
  | .setFlag name _ => [.flag name]
  | .setSample name _ _ => [.sample name]
  | .setFramedDigest name _ _ => [.digest name]
  | .setText name _ => [.count (Trace.utf8BytesKey name), .flag (Trace.truncatedKey name), .text name]
  | .raise _ => []

/-- The names a recording changes. -/
def Recording.keys : Recording → List EvidenceKey
  | .count key _ => [.count key]
  | .flag key _ => [.flag key]
  | .digest key _ => [.digest key]
  | .sample key _ _ => [.sample key]
  | .text key _ _ => [.count (Trace.utf8BytesKey key), .flag (Trace.truncatedKey key), .text key]

theorem traceRequiredText_eq_ok {value key : Text} {name : String} {maximum : ℕ}
    (h : traceRequiredText value name maximum = .ok key) : key = value := by
  rw [traceRequiredText] at h
  split_ifs at h
  exact (Except.ok.inj h).symm

/-- A call records under its own names. -/
theorem Call.keys_recording {sha : List ℕ → Sha256} {c : Call} {r : Recording} (h : c.recording sha = .ok r) :
    r.keys = c.keys := by
  cases c with
  | addCount name value =>
    rw [recording] at h
    split at h
    · cases h
    · rename_i key hkey
      cases h
      rw [Recording.keys, keys, traceRequiredText_eq_ok hkey]
  | setFlag name value =>
    rw [recording] at h
    split at h
    · cases h
    · rename_i key hkey
      cases h
      rw [Recording.keys, keys, traceRequiredText_eq_ok hkey]
  | setSample name items exactCount =>
    rw [recording] at h
    split at h
    · cases h
    · rename_i key hkey
      cases items with
      | error e => cases h
      | ok items =>
        dsimp only at h
        split_ifs at h
        cases h
        rw [Recording.keys, keys, traceRequiredText_eq_ok hkey]
  | setFramedDigest name domain parts =>
    cases parts with
    | error e => cases h
    | ok parts =>
      rw [recording] at h
      split at h
      · cases h
      · split at h
        · cases h
        · rename_i value hvalue key hkey
          cases h
          rw [Recording.keys, keys, traceRequiredText_eq_ok hkey]
  | setText name value =>
    rw [recording] at h
    split at h
    · cases h
    · rename_i key hkey
      split_ifs at h
      cases hencoded : encodeUtf8 value with
      | error e =>
        rw [hencoded] at h
        cases h
      | ok encoded =>
        rw [hencoded] at h
        cases h
        rw [Recording.keys, keys, traceRequiredText_eq_ok hkey]
  | raise e => cases h

/-- A recording leaves what stands under other names. -/
theorem Trace.read_record {t : Trace} {r : Recording} {k : EvidenceKey} (h : k ∉ r.keys) :
    (t.record r).read k = t.read k := by
  cases r with
  | count key value =>
    cases k with
    | count name =>
      have hne : key ≠ name := fun heq => h (by simp [Recording.keys, heq])
      simp only [record, read, Dict.get?_set_ne _ _ hne]
    | _ => rfl
  | flag key value =>
    cases k with
    | flag name =>
      have hne : key ≠ name := fun heq => h (by simp [Recording.keys, heq])
      simp only [record, read, Dict.get?_set_ne _ _ hne]
    | _ => rfl
  | digest key value =>
    cases k with
    | digest name =>
      have hne : key ≠ name := fun heq => h (by simp [Recording.keys, heq])
      simp only [record, read, Dict.get?_set_ne _ _ hne]
    | _ => rfl
  | sample key items count =>
    cases k with
    | sample name =>
      have hne : key ≠ name := fun heq => h (by simp [Recording.keys, heq])
      simp only [record, read, Dict.get?_set_ne _ _ hne]
    | _ => rfl
  | text key value utf8Bytes =>
    rw [record]
    simp only [Recording.keys, List.mem_cons, List.not_mem_nil, or_false, not_or] at h
    obtain ⟨hcount, hflag, htext⟩ := h
    cases k with
    | count name =>
      have hne : utf8BytesKey key ≠ name := fun heq => hcount (by rw [heq])
      split_ifs <;> simp only [read, Dict.get?_set_ne _ _ hne]
    | flag name =>
      have hne : truncatedKey key ≠ name := fun heq => hflag (by rw [heq])
      split_ifs <;> simp only [read, Dict.get?_set_ne _ _ hne]
    | text name =>
      have hne : key ≠ name := fun heq => htext (by rw [heq])
      split_ifs <;> simp only [read, Dict.get?_set_ne _ _ hne]
    | digest name => split_ifs <;> rfl
    | sample name => split_ifs <;> rfl

namespace Trace

/-- The evidence, written by calls. -/
def registers (sha : List ℕ → Sha256) : Registers Trace Call EvidenceKey EvidenceValue where
  apply := observe sha
  read := read
  writes := Call.keys
  frame := by
    intro t c k hk
    rw [observe]
    cases hc : c.recording sha with
    | error e => cases k <;> rfl
    | ok r =>
      rw [← Call.keys_recording hc] at hk
      exact read_record hk

variable {sha : List ℕ → Sha256} {log : List Call}

/-- A name that one call of a log records holds what that call makes of its first value. -/
theorem read_of_once {t : Trace} (honce : (log.flatMap Call.keys).Nodup) {c : Call} (hc : c ∈ log) {k : EvidenceKey}
    (hk : k ∈ c.keys) {v : Option EvidenceValue} (hv : ∀ u : Trace, u.read k = t.read k → (u.observe sha c).read k = v) :
    (t.observeAll sha log).read k = v :=
  (registers sha).read_once honce hc hk hv

/-- A name that no call of a log records keeps what it holds. -/
theorem read_of_not_mem {t : Trace} {k : EvidenceKey} (h : k ∉ log.flatMap Call.keys) :
    (t.observeAll sha log).read k = t.read k :=
  (registers sha).read_frame h

/-- So does a name that one call of a log records among calls that record what they like. -/
theorem read_of_filter {t : Trace} {c : Call} {k : EvidenceKey} (hone : log.filter (fun d => k ∈ d.keys) = [c])
    {v : Option EvidenceValue} (hv : ∀ u : Trace, u.read k = t.read k → (u.observe sha c).read k = v) :
    (t.observeAll sha log).read k = v := by
  obtain ⟨before, behind, rfl, hbefore, -, hbehind⟩ := List.filter_eq_cons_iff.mp hone
  have hnot : k ∉ before.flatMap Call.keys := by
    intro hk
    obtain ⟨d, hd, hkd⟩ := List.mem_flatMap.mp hk
    exact hbefore d hd (decide_eq_true hkd)
  have hnot' : k ∉ behind.flatMap Call.keys := by
    intro hk
    obtain ⟨d, hd, hkd⟩ := List.mem_flatMap.mp hk
    exact List.filter_eq_nil_iff.mp hbehind d hd (decide_eq_true hkd)
  rw [observeAll, List.foldl_append, List.foldl_cons]
  change (observeAll sha ((observeAll sha t before).observe sha c) behind).read k = v
  rw [read_of_not_mem hnot']
  exact hv _ (read_of_not_mem hnot)

variable {name : Text}

theorem counts_of_read {t : Trace} {value : ℕ} (h : t.read (.count name) = some (.count value)) :
    t.counts.get? name = some value := by
  cases hget : t.counts.get? name with
  | none => simp [read, hget] at h
  | some v => simpa [read, hget] using h

theorem flags_of_read {t : Trace} {value : Bool} (h : t.read (.flag name) = some (.flag value)) :
    t.flags.get? name = some value := by
  cases hget : t.flags.get? name with
  | none => simp [read, hget] at h
  | some v => simpa [read, hget] using h

theorem counts_of_filter (sha : List ℕ → Sha256) {value : ℕ}
    (hone : log.filter (fun d => EvidenceKey.count name ∈ d.keys) = [.addCount name value])
    (hname : isRequiredText name 96 = true) : (fresh.observeAll sha log).counts.get? name = some value := by
  refine counts_of_read (read_of_filter hone fun u hu => ?_)
  have hnone : u.counts.get? name = none := by
    cases h : u.counts.get? name with
    | none => rfl
    | some v => simp [read, fresh, h] at hu
  rw [observe, recording_addCount hname]
  simp only [record, read, Dict.get?_set_self, hnone, Option.getD_none, Nat.zero_add, Option.map_some]

theorem flags_of_filter (sha : List ℕ → Sha256) {value : Bool}
    (hone : log.filter (fun d => EvidenceKey.flag name ∈ d.keys) = [.setFlag name value])
    (hname : isRequiredText name 96 = true) : (fresh.observeAll sha log).flags.get? name = some value := by
  refine flags_of_read (read_of_filter hone fun u _ => ?_)
  rw [observe, recording_setFlag hname]
  simp only [record, read, Dict.get?_set_self, Option.map_some]

theorem counts_of_once (sha : List ℕ → Sha256) (honce : (log.flatMap Call.keys).Nodup) {value : ℕ} (hc : Call.addCount name value ∈ log)
    (hname : isRequiredText name 96 = true) : (fresh.observeAll sha log).counts.get? name = some value := by
  have hread : (fresh.observeAll sha log).read (.count name) = some (.count value) := by
    refine read_of_once honce hc (List.mem_singleton_self _) fun u hu => ?_
    have hnone : u.counts.get? name = none := by
      cases h : u.counts.get? name with
      | none => rfl
      | some v => simp [read, fresh, h] at hu
    rw [observe, recording_addCount hname]
    simp only [record, read, Dict.get?_set_self, hnone, Option.getD_none, Nat.zero_add, Option.map_some]
  exact counts_of_read hread

theorem flags_of_once (sha : List ℕ → Sha256) (honce : (log.flatMap Call.keys).Nodup) {value : Bool} (hc : Call.setFlag name value ∈ log)
    (hname : isRequiredText name 96 = true) : (fresh.observeAll sha log).flags.get? name = some value := by
  have hread : (fresh.observeAll sha log).read (.flag name) = some (.flag value) := by
    refine read_of_once honce hc (List.mem_singleton_self _) fun u _ => ?_
    rw [observe, recording_setFlag hname]
    simp only [record, read, Dict.get?_set_self, Option.map_some]
  exact flags_of_read hread

theorem digests_of_once (sha : List ℕ → Sha256) (honce : (log.flatMap Call.keys).Nodup) {domain : Text} {parts : List (List ℕ)}
    (hc : Call.setFramedDigest name domain (.ok parts) ∈ log) (hname : isRequiredText name 96 = true)
    (hdomain : isDigestDomain domain = true) :
    (fresh.observeAll sha log).digests.get? name = some (sha (framed (domain.map Fin.val) parts)).hexdigest := by
  have hread : (fresh.observeAll sha log).read (.digest name) =
      some (.digest (sha (framed (domain.map Fin.val) parts)).hexdigest) := by
    refine read_of_once honce hc (List.mem_singleton_self _) fun u _ => ?_
    rw [observe, recording_setFramedDigest hname hdomain]
    simp only [record, read, Dict.get?_set_self, Option.map_some]
  cases h : (fresh.observeAll sha log).digests.get? name with
  | none => simp [read, h] at hread
  | some v => simpa [read, h] using hread

/-- A sample of no more tokens than the limit is complete. -/
theorem samples_of_once (sha : List ℕ → Sha256) (honce : (log.flatMap Call.keys).Nodup) {items : List Text}
    (hc : Call.setSample name (.ok items) (some items.length) ∈ log) (hname : isRequiredText name 96 = true)
    (hitems : ∀ t ∈ items, isSampleToken t = true) (hlen : items.length ≤ traceSampleLimit) :
    (fresh.observeAll sha log).samples.get? name = some ⟨items.length, items, false⟩ := by
  have hread : (fresh.observeAll sha log).read (.sample name) = some (.sample ⟨items.length, items, false⟩) := by
    refine read_of_once honce hc (List.mem_singleton_self _) fun u hu => ?_
    have hnone : u.samples.get? name = none := by
      cases h : u.samples.get? name with
      | none => rfl
      | some v => simp [read, fresh, h] at hu
    rw [observe, recording_setSample hname hitems, List.take_of_length_le hlen]
    simp [record, read, combined, hnone, List.take_of_length_le hlen]
  cases h : (fresh.observeAll sha log).samples.get? name with
  | none => simp [read, h] at hread
  | some v => simpa [read, h] using hread

end Trace

/-! ### The payload -/

section Payload

variable {F ν : Type}

/-- `dict(sorted(d.items()))`, with what becomes of each value. -/
def sortedFields (d : Dict Text ν) (f : ν → Json F) : List (Text × Json F) :=
  (d.entries.insertionSort fun a b => a.1 ≤ b.1).map fun e => (e.1, f e.2)

/-- The payload holds what the dictionary does. -/
theorem get?_sortedFields (d : Dict Text ν) (f : ν → Json F) (k : Text) :
    Json.get? (sortedFields d f) k = (d.get? k).map f := by
  have hperm := List.perm_insertionSort (fun a b : Text × ν => a.1 ≤ b.1) d.entries
  have hkeys : ((d.entries.insertionSort fun a b => a.1 ≤ b.1).map Prod.fst).Nodup :=
    (hperm.map Prod.fst).nodup_iff.mpr d.nodupKeys
  have hfind : Dict.lookup k (d.entries.insertionSort fun a b => a.1 ≤ b.1) = d.get? k := by
    ext v
    rw [Dict.lookup_eq_some_iff hkeys, hperm.mem_iff, Dict.mem_entries_iff]
  rw [← hfind, Json.get?, sortedFields]
  generalize d.entries.insertionSort (fun a b => a.1 ≤ b.1) = es
  induction es with
  | nil => rfl
  | cons e es ih =>
    rw [List.map_cons, List.lookup_cons, Dict.lookup]
    by_cases h : e.1 = k
    · simp [h]
    · have hbeq : (k == e.1) = false := beq_false_of_ne fun heq => h heq.symm
      rw [hbeq, if_neg h]
      exact ih

/-- `_Sample.payload()`. -/
def TraceSample.payload (s : TraceSample) : Json F :=
  .obj [(lit "exact_count", .int s.exactCount), (lit "items", .arr (s.items.map .str)), (lit "truncated", .bool s.truncated)]

/-- `"counts"` of `_Operation.payload()`. -/
def Trace.countsPayload (t : Trace) : List (Text × Json F) := sortedFields t.counts fun n => .int n

/-- `"flags"` of `_Operation.payload()`. -/
def Trace.flagsPayload (t : Trace) : List (Text × Json F) := sortedFields t.flags .bool

/-- `"digests"` of `_Operation.payload()`. -/
def Trace.digestsPayload (t : Trace) : List (Text × Json F) := sortedFields t.digests .str

/-- `"samples"` of `_Operation.payload()`. -/
def Trace.samplesPayload (t : Trace) : List (Text × Json F) := sortedFields t.samples TraceSample.payload

/-- `"texts"` of `_Operation.payload()`. -/
def Trace.textsPayload (t : Trace) : List (Text × Json F) := sortedFields t.texts .str

end Payload

end TenantRag

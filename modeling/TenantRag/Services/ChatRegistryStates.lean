import TenantRag.Services.ChatRegistry

/-!
# The reachable states of the chat registry

The five tables of `ChatRegistry` agree with one another after any calls of any
clients, each call running under the lock.

## What is proved

* `Consistent` — the agreement of the tables, and a lemma for each method: it keeps
  the agreement where it returns, and changes nothing that matters where it raises.
* `Keeps` — between a reservation and its commit or abort no method changes the
  conversations of a session under deletion.
* `chat_registry_state_machine` — both, for whole runs.
-/

namespace TenantRag

namespace ChatRegistry

/-! ### Sessions and their conversations -/

/-- The user's session map, which is empty before the first call. -/
def mapOf (r : ChatRegistry) (user : Text) : SessionMap := (r.sessionMaps.get? user).getD (.new user)

/-- The registry with another session map for a user. -/
def setMap (r : ChatRegistry) (user : Text) (m : SessionMap) : ChatRegistry :=
  { r with sessionMaps := r.sessionMaps.set user m }

/-- The conversation ids of a session, if it exists. -/
def conversations (r : ChatRegistry) (key : SessionKey) : Option (List Uuid) := (r.mapOf key.1).sessions.get? key.2

/-- The session exists. -/
def Exists (r : ChatRegistry) (key : SessionKey) : Prop := ∃ cs, r.conversations key = some cs

/-- The same tables, except that the session map of a user without one may have been created. -/
def Unchanged (r t : ChatRegistry) : Prop :=
  t = r ∨ ∃ user, r.sessionMaps.get? user = none ∧ t = r.setMap user (.new user)

/-- The agreement of the tables. -/
structure Consistent (r : ChatRegistry) : Prop where
  /-- A user's session map is the user's. -/
  userMap : ∀ u m, r.sessionMaps.get? u = some m → m.userId = u
  /-- The owner index of every session map is the inverse of its lists. -/
  owned : ∀ u m, r.sessionMaps.get? u = some m → m.Owned
  /-- The id of a session is the canonical form of a UUID. -/
  canonical : ∀ k, r.Exists k → ∃ id : Uuid, k.2 = id.str
  /-- The sessions with a title are the existing ones. -/
  titled : ∀ k, (∃ t, r.titles.get? k = some t) ↔ r.Exists k
  /-- The sessions with a transcript are the existing ones, and its keys are their conversations. -/
  transcribed : ∀ k, (r.transcripts.get? k).map Dict.keys = r.conversations k
  /-- A session with an entry for streams has a stream, exists and is not under deletion. -/
  streaming : ∀ k a, r.activeStreams.get? k = some a → a ≠ ∅ ∧ r.Exists k ∧ k ∉ r.deletingSessions
  /-- A session under deletion exists. -/
  deleting : ∀ k ∈ r.deletingSessions, r.Exists k

/-- A session under deletion stays under deletion and keeps its conversations. -/
def Keeps (r t : ChatRegistry) (key : SessionKey) : Prop :=
  ∀ cs, key ∈ r.deletingSessions → r.conversations key = some cs →
    key ∈ t.deletingSessions ∧ t.conversations key = some cs

theorem Consistent.empty : Consistent ChatRegistry.empty := by
  constructor <;> simp [ChatRegistry.empty, Exists, conversations, mapOf, SessionMap.new]

theorem Unchanged.refl (r : ChatRegistry) : r.Unchanged r := .inl rfl

theorem Keeps.refl (r : ChatRegistry) (key : SessionKey) : r.Keeps r key := fun _ hd hc => ⟨hd, hc⟩

@[simp] theorem mapOf_setMap (r : ChatRegistry) (u v : Text) (m : SessionMap) :
    (r.setMap u m).mapOf v = if u = v then m else r.mapOf v := by
  simp only [mapOf, setMap, Dict.get?_set]
  split_ifs <;> rfl

theorem conversations_setMap (r : ChatRegistry) (u : Text) (m : SessionMap) (k : SessionKey) :
    (r.setMap u m).conversations k = if u = k.1 then m.sessions.get? k.2 else r.conversations k := by
  simp only [conversations, mapOf_setMap]
  split_ifs <;> rfl

theorem get?_of_exists {r : ChatRegistry} {key : SessionKey} (h : r.Exists key) :
    r.sessionMaps.get? key.1 = some (r.mapOf key.1) := by
  obtain ⟨cs, hcs⟩ := h
  unfold conversations mapOf at hcs
  unfold mapOf
  cases hm : r.sessionMaps.get? key.1 with
  | none => simp [hm, SessionMap.new] at hcs
  | some m => rfl

/-- Storing the session map of an existing session back changes nothing. -/
theorem setMap_self {r : ChatRegistry} {key : SessionKey} (h : r.Exists key) :
    r.setMap key.1 (r.mapOf key.1) = r := by
  unfold setMap
  rw [Dict.set_get?_self (get?_of_exists h)]

theorem Unchanged.setMap (r : ChatRegistry) (u : Text) : r.Unchanged (r.setMap u (r.mapOf u)) := by
  cases hm : r.sessionMaps.get? u with
  | none => exact .inr ⟨u, hm, by simp [mapOf, hm]⟩
  | some m =>
    refine .inl ?_
    unfold ChatRegistry.setMap
    rw [Dict.set_get?_self]
    simp [mapOf, hm]

theorem Unchanged.conversations_eq {r t : ChatRegistry} (h : r.Unchanged t) (k : SessionKey) :
    t.conversations k = r.conversations k := by
  obtain rfl | ⟨u, hu, rfl⟩ := h
  · rfl
  · rw [conversations_setMap]
    split_ifs with huk
    · subst huk
      simp [conversations, mapOf, hu]
    · rfl

theorem Unchanged.tables {r t : ChatRegistry} (h : r.Unchanged t) :
    t.titles = r.titles ∧ t.transcripts = r.transcripts ∧ t.activeStreams = r.activeStreams ∧
      t.deletingSessions = r.deletingSessions := by
  obtain rfl | ⟨u, hu, rfl⟩ := h <;> exact ⟨rfl, rfl, rfl, rfl⟩

theorem Unchanged.consistent {r t : ChatRegistry} (h : r.Unchanged t) (hc : Consistent r) : Consistent t := by
  have hconv := h.conversations_eq
  have hex : ∀ k, t.Exists k ↔ r.Exists k := fun k => by simp only [Exists, hconv]
  obtain ⟨ht, htr, ha, hd⟩ := h.tables
  have hmap : ∀ u m, t.sessionMaps.get? u = some m → m.userId = u ∧ m.Owned := by
    intro u m hm
    obtain rfl | ⟨v, hv, rfl⟩ := h
    · exact ⟨hc.userMap u m hm, hc.owned u m hm⟩
    · simp only [ChatRegistry.setMap, Dict.get?_set] at hm
      split_ifs at hm with huv
      · cases hm
        exact ⟨huv, SessionMap.Owned.empty v⟩
      · exact ⟨hc.userMap u m hm, hc.owned u m hm⟩
  constructor
  case userMap => exact fun u m hm => (hmap u m hm).1
  case owned => exact fun u m hm => (hmap u m hm).2
  case canonical => exact fun k hk => hc.canonical k ((hex k).mp hk)
  case titled => exact fun k => by rw [ht, hex, hc.titled]
  case transcribed => exact fun k => by rw [htr, hconv, hc.transcribed]
  case streaming => exact fun k a hk => by rw [hd, hex]; exact hc.streaming k a (ha ▸ hk)
  case deleting => exact fun k hk => by rw [hex]; exact hc.deleting k (hd ▸ hk)

theorem Unchanged.keeps {r t : ChatRegistry} (h : r.Unchanged t) (key : SessionKey) : r.Keeps t key := by
  intro cs hd hcs
  exact ⟨h.tables.2.2.2 ▸ hd, h.conversations_eq key ▸ hcs⟩

theorem Consistent.mapOf_owned {r : ChatRegistry} (hc : Consistent r) (u : Text) : (r.mapOf u).Owned := by
  unfold mapOf
  cases hm : r.sessionMaps.get? u with
  | none => exact SessionMap.Owned.empty u
  | some m => exact hc.owned u m hm

theorem Consistent.mapOf_userId {r : ChatRegistry} (hc : Consistent r) (u : Text) : (r.mapOf u).userId = u := by
  unfold mapOf
  cases hm : r.sessionMaps.get? u with
  | none => rfl
  | some m => exact hc.userMap u m hm

/-! ### Validated keys -/

variable {S : RegistrySettings}

/-- A key that `sessionKey` returns: a valid user and the canonical form of a UUID. -/
def ValidKey (S : RegistrySettings) (key : SessionKey) : Prop :=
  validatedUserId S.userIdPattern key.1 = .ok key.1 ∧ ∃ id : Uuid, key.2 = id.str

theorem sessionKey_valid {u s : Text} {key : SessionKey} (h : sessionKey S u s = .ok key) : ValidKey S key := by
  unfold sessionKey at h
  cases hu : validatedUserId S.userIdPattern u with
  | error e => simp [hu] at h
  | ok user =>
    cases hs : requiredUuid s "session_id" with
    | error e => simp [hu, hs] at h
    | ok session =>
      simp only [hu, hs, Except.ok.injEq] at h
      subst h
      obtain rfl := validatedUserId_eq hu
      exact ⟨hu, session, rfl⟩

theorem ValidKey.identifier {key : SessionKey} (h : ValidKey S key) (name : String) :
    requiredIdentifier key.2 name = .ok key.2 := by
  obtain ⟨id, hid⟩ := h.2
  rw [hid, requiredIdentifier_str]

section Methods

variable {r : ChatRegistry} {key : SessionKey} {E : PyError → ChatRegistry → Prop}

open Eff

theorem wp_onMap {α : Type} {Q : α → ChatRegistry → Prop} {u : Text}
    (hu : validatedUserId S.userIdPattern u = .ok u) (m : Eff SessionMap PyError α) :
    wp (onMap S u m) Q E r ↔
      wp m (fun a m' => Q a (r.setMap u m')) (fun e m' => E e (r.setMap u m')) (r.mapOf u) := by
  simp only [onMap, hu, wp_bind, wp_ofExcept_ok, wp_zoom]
  rfl

theorem wp_getConversations {Q : List Uuid → ChatRegistry → Prop} (hv : ValidKey S key)
    (hok : ∀ cs, r.conversations key = some cs → Q cs r)
    (herr : ¬ r.Exists key → ∀ e t, r.Unchanged t → E e t) :
    wp (onMap S key.1 (SessionMap.getConversations key.2)) Q E r := by
  rw [wp_onMap hv.1]
  simp only [SessionMap.getConversations, hv.identifier, wp_bind, wp_ofExcept_ok, wp_read, id]
  cases hcs : (r.mapOf key.1).sessions.get? key.2 with
  | none =>
    refine herr ?_ _ _ (Unchanged.setMap r key.1)
    rintro ⟨cs, h⟩
    rw [conversations, hcs] at h
    cases h
  | some cs =>
    have hex : r.Exists key := ⟨cs, hcs⟩
    rw [wp_pure, setMap_self hex]
    exact hok cs hcs

/-- `_snapshot_locked` finds everything of an existing session, and raises for others. -/
theorem wp_snapshotLocked {Q : SessionSnapshot → ChatRegistry → Prop} (hc : Consistent r) (hv : ValidKey S key)
    (hok : r.Exists key → ∀ snapshot, Q snapshot r)
    (herr : ¬ r.Exists key → ∀ e t, r.Unchanged t → E e t) : wp (snapshotLocked S key) Q E r := by
  rw [snapshotLocked, wp_bind]
  refine wp_getConversations hv (fun cs hcs => ?_) herr
  have hex : r.Exists key := ⟨cs, hcs⟩
  obtain ⟨title, htitle⟩ := (hc.titled key).mpr hex
  have htr := hc.transcribed key
  rw [hcs, Option.map_eq_some_iff] at htr
  obtain ⟨ts, hts, hkeys⟩ := htr
  have hall : ∀ ds : List Uuid, (∀ c ∈ ds, c ∈ ts.keys) → ∃ convs, ds.mapM ts.get? = some convs := by
    intro ds
    induction ds with
    | nil => exact fun _ => ⟨[], rfl⟩
    | cons c ds ih =>
      intro hmem
      obtain ⟨v, hv⟩ := Dict.mem_keys_iff.mp (hmem c (List.mem_cons_self ..))
      obtain ⟨vs, hvs⟩ := ih fun d hd => hmem d (List.mem_cons_of_mem _ hd)
      exact ⟨v :: vs, by simp [hv, hvs]⟩
  obtain ⟨convs, hconvs⟩ := hall cs (fun c hmem => hkeys ▸ hmem)
  simp only [wp_bind, wp_read, id, hts, htitle, hconvs, wp_pure]
  exact hok hex _

/-- What a method owes where it returns: the tables agree and sessions under deletion stay as they are. -/
def Good (r : ChatRegistry) (except : SessionKey → Prop) (t : ChatRegistry) : Prop :=
  Consistent t ∧ ∀ k, ¬ except k → r.Keeps t k

theorem Good.refl (hc : Consistent r) (except : SessionKey → Prop) : Good r except r :=
  ⟨hc, fun k _ => Keeps.refl r k⟩

theorem Unchanged.good {t : ChatRegistry} (h : r.Unchanged t) (hc : Consistent r) (except : SessionKey → Prop) :
    Good r except t :=
  ⟨h.consistent hc, fun k _ => h.keeps k⟩

/-- The exceptions to `Keeps` of methods that leave reservations alone. -/
def nowhere : SessionKey → Prop := fun _ => False

theorem wp_sessionKey {α : Type} {Q : α → ChatRegistry → Prop} {u s : Text}
    {f : SessionKey → Eff ChatRegistry PyError α} (herr : ∀ e, E e r)
    (hok : ∀ key, sessionKey S u s = .ok key → wp (f key) Q E r) :
    wp (Eff.ofExcept (sessionKey S u s) >>= f) Q E r := by
  rw [wp_bind, wp_ofExcept]
  exact ⟨hok, fun e _ => herr e⟩

theorem wp_requiredUuid {α : Type} {Q : α → ChatRegistry → Prop} {c : Text} {name : String}
    {f : Uuid → Eff ChatRegistry PyError α} (herr : ∀ e, E e r) (hok : ∀ id, wp (f id) Q E r) :
    wp (Eff.ofExcept (requiredUuid c name) >>= f) Q E r := by
  rw [wp_bind, wp_ofExcept]
  exact ⟨fun id _ => hok id, fun e _ => herr e⟩

/-- The tables agree after a change to one session, if they agree about that session. -/
theorem Consistent.change {t : ChatRegistry} (hc : Consistent r) (key : SessionKey) {m : SessionMap}
    (hmaps : t.sessionMaps = r.sessionMaps.set key.1 m) (howned : m.Owned) (huser : m.userId = key.1)
    (hkey : ∃ id : Uuid, key.2 = id.str)
    (hconv : ∀ k, key ≠ k → t.conversations k = r.conversations k)
    (htitles : ∀ k, key ≠ k → t.titles.get? k = r.titles.get? k)
    (hscripts : ∀ k, key ≠ k → t.transcripts.get? k = r.transcripts.get? k)
    (htitled : (∃ x, t.titles.get? key = some x) ↔ t.Exists key)
    (hscript : (t.transcripts.get? key).map Dict.keys = t.conversations key)
    (hstream : ∀ k a, t.activeStreams.get? k = some a → a ≠ ∅ ∧ t.Exists k ∧ k ∉ t.deletingSessions)
    (hdel : ∀ k ∈ t.deletingSessions, t.Exists k) : Consistent t := by
  have hmap : ∀ u n, t.sessionMaps.get? u = some n → n.userId = u ∧ n.Owned := by
    intro u n hn
    rw [hmaps, Dict.get?_set] at hn
    split_ifs at hn with hu
    · cases hn
      exact ⟨huser.trans hu, howned⟩
    · exact ⟨hc.userMap u n hn, hc.owned u n hn⟩
  constructor
  case userMap => exact fun u n hn => (hmap u n hn).1
  case owned => exact fun u n hn => (hmap u n hn).2
  case canonical =>
    rintro k ⟨cs, hcs⟩
    by_cases hk : key = k
    · exact hk ▸ hkey
    · exact hc.canonical k ⟨cs, by rw [← hconv k hk, hcs]⟩
  case titled =>
    intro k
    by_cases hk : key = k
    · exact hk ▸ htitled
    · rw [htitles k hk, Exists, hconv k hk]
      exact hc.titled k
  case transcribed =>
    intro k
    by_cases hk : key = k
    · exact hk ▸ hscript
    · rw [hscripts k hk, hconv k hk]
      exact hc.transcribed k
  case streaming => exact hstream
  case deleting => exact hdel

/-- The conversations after a session's list was set. -/
theorem conversations_setMap_set {m : SessionMap} {cs : List Uuid}
    (hm : m.sessions = (r.mapOf key.1).sessions.set key.2 cs) (k : SessionKey) :
    (r.setMap key.1 m).conversations k = if key = k then some cs else r.conversations k := by
  rw [conversations_setMap, hm, Dict.get?_set]
  by_cases hk : key = k
  · subst hk
    simp
  · rw [if_neg hk]
    split_ifs with h₁ h₂
    · exact absurd (Prod.ext h₁ h₂) hk
    · rw [conversations, h₁]
    · rfl

/-- The conversations after a session was deleted. -/
theorem conversations_setMap_erase {m : SessionMap} (hm : m.sessions = (r.mapOf key.1).sessions.erase key.2)
    (k : SessionKey) : (r.setMap key.1 m).conversations k = if key = k then none else r.conversations k := by
  rw [conversations_setMap, hm, Dict.get?_erase]
  by_cases hk : key = k
  · subst hk
    simp
  · rw [if_neg hk]
    split_ifs with h₁ h₂
    · exact absurd (Prod.ext h₁ h₂) hk
    · rw [conversations, h₁]
    · rfl

/-! ### The methods -/

theorem createSession_spec (hc : Consistent r) (u s : Text) :
    wp (createSession S u s) (fun _ t => Good r nowhere t) (fun _ t => r.Unchanged t) r := by
  refine wp_sessionKey (fun _ => .refl r) fun key hkey => ?_
  have hv := sessionKey_valid hkey
  rw [wp_bind, wp_onMap hv.1]
  simp only [SessionMap.createSession, hv.identifier, wp_bind, wp_ofExcept_ok, wp_read, id, wp_ite, wp_raise, wp_update]
  refine ⟨fun _ => Unchanged.setMap r key.1, fun hnot => ?_⟩
  rw [Dict.contains_iff, ← Dict.get?_eq_none_iff] at hnot
  have hnone : r.conversations key = none := hnot
  set m : SessionMap := { r.mapOf key.1 with sessions := (r.mapOf key.1).sessions.set key.2 [] }
  set t : ChatRegistry := { r.setMap key.1 m with
    titles := (r.setMap key.1 m).titles.set key newChat
    transcripts := (r.setMap key.1 m).transcripts.set key .empty } with ht
  have hconv : ∀ k, t.conversations k = if key = k then some [] else r.conversations k :=
    conversations_setMap_set (m := m) rfl
  have hold : ∀ k, r.Exists k → t.Exists k ∧ key ≠ k := by
    rintro k ⟨cs, hcs⟩
    have hk : key ≠ k := by
      rintro rfl
      rw [hnone] at hcs
      cases hcs
    exact ⟨⟨cs, by rw [hconv, if_neg hk, hcs]⟩, hk⟩
  have hct : Consistent t := by
    refine hc.change key (m := m) rfl ((hc.mapOf_owned key.1).create hnot) (hc.mapOf_userId key.1) hv.2
      (fun k hk => by rw [hconv, if_neg hk]) (fun k hk => Dict.get?_set_ne _ _ hk)
      (fun k hk => Dict.get?_set_ne _ _ hk) ?_ ?_ ?_ ?_
    · exact iff_of_true ⟨_, Dict.get?_set_self ..⟩ ⟨[], by rw [hconv, if_pos rfl]⟩
    · rw [hconv, if_pos rfl, ht]
      simp
    · intro k a ha
      obtain ⟨hne, hex, hdel⟩ := hc.streaming k a ha
      exact ⟨hne, (hold k hex).1, hdel⟩
    · exact fun k hk => (hold k (hc.deleting k hk)).1
  have hgood : Good r nowhere t := by
    refine ⟨hct, fun k _ cs hd hcs => ⟨hd, ?_⟩⟩
    rw [hconv, if_neg (hold k ⟨cs, hcs⟩).2, hcs]
  refine wp_snapshotLocked hct hv (fun _ _ => hgood) fun hno => ?_
  exact absurd ⟨[], by rw [hconv, if_pos rfl]⟩ hno

theorem getSession_spec (hc : Consistent r) (u s : Text) :
    wp (getSession S u s) (fun _ t => Good r nowhere t) (fun _ t => r.Unchanged t) r := by
  refine wp_sessionKey (fun _ => .refl r) fun key hkey => ?_
  exact wp_snapshotLocked hc (sessionKey_valid hkey) (fun _ _ => Good.refl hc _) fun _ _ t ht => ht

theorem conversationIds_spec (hc : Consistent r) (u s : Text) :
    wp (conversationIds S u s) (fun _ t => Good r nowhere t) (fun _ t => r.Unchanged t) r := by
  refine wp_sessionKey (fun _ => .refl r) fun key hkey => ?_
  exact wp_getConversations (sessionKey_valid hkey) (fun _ _ => Good.refl hc _) fun _ _ t ht => ht

theorem updateTitle_spec (hc : Consistent r) (u s title : Text) :
    wp (updateTitle S u s title) (fun _ t => Good r nowhere t) (fun _ t => r.Unchanged t) r := by
  refine wp_sessionKey (fun _ => .refl r) fun key hkey => ?_
  rw [wp_bind, wp_ofExcept]
  refine ⟨fun validated _ => ?_, fun _ _ => .refl r⟩
  rw [wp_bind]
  refine wp_snapshotLocked hc (sessionKey_valid hkey) (fun hex _ => ?_) fun _ _ t ht => ht
  simp only [wp_bind, wp_update, wp_pure]
  refine ⟨⟨hc.userMap, hc.owned, hc.canonical, fun k => ?_, hc.transcribed, hc.streaming, hc.deleting⟩,
    fun k _ => Keeps.refl r k⟩
  rw [Dict.get?_set]
  split_ifs with hk
  · exact iff_of_true ⟨_, rfl⟩ (hk ▸ hex)
  · exact hc.titled k

theorem beginChatStream_spec (hc : Consistent r) (u s c : Text) :
    wp (beginChatStream S u s c) (fun _ t => Good r nowhere t) (fun _ t => r.Unchanged t) r := by
  refine wp_sessionKey (fun _ => .refl r) fun key hkey => ?_
  refine wp_requiredUuid (fun _ => .refl r) fun conversation => ?_
  rw [wp_bind]
  refine wp_snapshotLocked hc (sessionKey_valid hkey) (fun hex _ => ?_) fun _ _ t ht => ht
  simp only [wp_bind, wp_read, id, wp_ite, wp_raise, wp_update]
  refine ⟨fun _ => .refl r, fun hdel => ⟨fun hmem => .inl ?_, fun _ => ⟨?_, fun k _ => Keeps.refl r k⟩⟩⟩
  · -- a stream that is active already has an entry, so that the entry is stored back
    cases ha : r.activeStreams.get? key with
    | none => simp [ha] at hmem
    | some a => rw [Option.getD_some, Dict.set_get?_self ha]
  · refine ⟨hc.userMap, hc.owned, hc.canonical, hc.titled, hc.transcribed, fun k a ha => ?_, hc.deleting⟩
    rw [Dict.set_set, Dict.get?_set] at ha
    split_ifs at ha with hk
    · cases ha
      exact ⟨Finset.insert_ne_empty _ _, hk ▸ hex, hk ▸ hdel⟩
    · exact hc.streaming k a ha

theorem endChatStream_spec (hc : Consistent r) (u s c : Text) :
    wp (endChatStream S u s c) (fun _ t => Good r nowhere t) (fun _ t => r.Unchanged t) r := by
  refine wp_sessionKey (fun _ => .refl r) fun key hkey => ?_
  refine wp_requiredUuid (fun _ => .refl r) fun conversation => ?_
  simp only [wp_bind, wp_read, id]
  cases ha : r.activeStreams.get? key with
  | none => exact Good.refl hc _
  | some active =>
    simp only [wp_ite, wp_update]
    refine ⟨fun _ => ⟨?_, fun k _ => Keeps.refl r k⟩, fun hne => ⟨?_, fun k _ => Keeps.refl r k⟩⟩
    · refine ⟨hc.userMap, hc.owned, hc.canonical, hc.titled, hc.transcribed, fun k a hk => ?_, hc.deleting⟩
      rw [Dict.get?_erase] at hk
      split_ifs at hk
      exact hc.streaming k a hk
    · refine ⟨hc.userMap, hc.owned, hc.canonical, hc.titled, hc.transcribed, fun k a hk => ?_, hc.deleting⟩
      rw [Dict.get?_set] at hk
      split_ifs at hk with hkey'
      · cases hk
        exact ⟨hne, hkey' ▸ (hc.streaming key active ha).2⟩
      · exact hc.streaming k a hk

theorem abortSessionDeletion_spec (hc : Consistent r) (u s : Text) :
    wp (abortSessionDeletion S u s) (fun _ t => Good r (fun k => sessionKey S u s = .ok k) t)
      (fun _ t => r.Unchanged t) r := by
  refine wp_sessionKey (fun _ => .refl r) fun key hkey => ?_
  simp only [wp_update]
  refine ⟨⟨hc.userMap, hc.owned, hc.canonical, hc.titled, hc.transcribed, fun k a ha => ?_, fun k hk => ?_⟩, ?_⟩
  · obtain ⟨hne, hex, hdel⟩ := hc.streaming k a ha
    exact ⟨hne, hex, fun hk => hdel (Finset.mem_of_mem_erase hk)⟩
  · exact hc.deleting k (Finset.mem_of_mem_erase hk)
  · intro k hk cs hd hcs
    refine ⟨Finset.mem_erase.mpr ⟨?_, hd⟩, hcs⟩
    rintro rfl
    exact hk hkey

theorem hasActiveStream_iff (hc : Consistent r) (key : SessionKey) :
    r.hasActiveStream key = true ↔ ∃ a, r.activeStreams.get? key = some a := by
  unfold hasActiveStream
  cases ha : r.activeStreams.get? key with
  | none => simp
  | some a => simpa using (hc.streaming key a ha).1

/-- A reservation returns the conversations of the session, which is then under deletion. -/
theorem reserveSessionDeletion_spec (hc : Consistent r) (u s : Text) :
    wp (reserveSessionDeletion S u s)
      (fun cs t => Good r nowhere t ∧ ∀ key, sessionKey S u s = .ok key →
        key ∈ t.deletingSessions ∧ t.conversations key = some cs ∧ r.conversations key = some cs ∧
          key ∉ r.deletingSessions ∧ t = { r with deletingSessions := insert key r.deletingSessions })
      (fun _ t => r.Unchanged t) r := by
  refine wp_sessionKey (fun _ => .refl r) fun key hkey => ?_
  have hv := sessionKey_valid hkey
  rw [wp_bind]
  refine wp_snapshotLocked hc hv (fun hex _ => ?_) fun _ _ t ht => ht
  simp only [wp_bind, wp_read, id, wp_ite, wp_raise, wp_update]
  refine ⟨fun _ => .refl r, fun hact => ⟨fun _ => .refl r, fun hdel => ?_⟩⟩
  refine wp_getConversations hv (fun cs hcs => ⟨⟨⟨hc.userMap, hc.owned, hc.canonical, hc.titled, hc.transcribed, ?_, ?_⟩, ?_⟩, ?_⟩) ?_
  · intro k a ha
    obtain ⟨hne, hex', hk⟩ := hc.streaming k a ha
    refine ⟨hne, hex', fun hmem => ?_⟩
    rcases Finset.mem_insert.mp hmem with rfl | hmem
    · exact hact ((hasActiveStream_iff hc k).mpr ⟨a, ha⟩)
    · exact hk hmem
  · intro k hk
    rcases Finset.mem_insert.mp hk with rfl | hk
    · exact hex
    · exact hc.deleting k hk
  · exact fun k _ cs' hd hcs' => ⟨Finset.mem_insert_of_mem hd, hcs'⟩
  · intro key' hkey'
    rw [hkey, Except.ok.injEq] at hkey'
    subst hkey'
    exact ⟨Finset.mem_insert_self .., hcs, hcs, hdel, rfl⟩
  · exact fun hno => absurd hex hno

/-- A commit returns the conversations of the session, and removes it. -/
theorem commitSessionDeletion_spec (hc : Consistent r) (u s : Text) :
    wp (commitSessionDeletion S u s)
      (fun cs t => Good r (fun k => sessionKey S u s = .ok k) t ∧ ∀ key, sessionKey S u s = .ok key →
        key ∈ r.deletingSessions ∧ r.conversations key = some cs ∧ ¬ t.Exists key)
      (fun _ t => r.Unchanged t ∧ ∀ key, sessionKey S u s = .ok key → key ∉ r.deletingSessions) r := by
  unfold commitSessionDeletion
  rw [wp_bind, wp_ofExcept]
  refine ⟨fun key hkey => ?_, fun e he => ⟨.refl r, fun key hkey => by rw [he] at hkey; cases hkey⟩⟩
  have hv := sessionKey_valid hkey
  simp only [wp_bind, wp_read, id, wp_ite, wp_raise, wp_tryFinally]
  refine ⟨fun hdel => ⟨.refl r, fun key' hkey' => ?_⟩, fun hdel => ⟨fun hact => ?_, fun _ => ?_⟩⟩
  · rw [hkey, Except.ok.injEq] at hkey'
    exact hkey' ▸ hdel
  · obtain ⟨a, ha⟩ := (hasActiveStream_iff hc key).mp hact
    exact absurd (hc.streaming key a ha).2.2 hdel
  · rw [not_not] at hdel
    obtain ⟨cs, hcs⟩ := hc.deleting key hdel
    rw [wp_onMap hv.1]
    have hdelete := (hc.mapOf_owned key.1).deleteSession_eq (hv.identifier "session_id") hcs
    unfold wp
    rw [hdelete]
    dsimp only
    set m := (r.mapOf key.1).without key.2 cs
    set t : ChatRegistry := { r.setMap key.1 m with
      titles := (r.setMap key.1 m).titles.erase key
      transcripts := (r.setMap key.1 m).transcripts.erase key
      activeStreams := (r.setMap key.1 m).activeStreams.erase key
      deletingSessions := (r.setMap key.1 m).deletingSessions.erase key }
    have hconv : ∀ k, t.conversations k = if key = k then none else r.conversations k :=
      conversations_setMap_erase (m := m) rfl
    have hgone : ¬ t.Exists key := by
      rintro ⟨cs, h⟩
      rw [hconv, if_pos rfl] at h
      cases h
    have hothers : ∀ k, r.Exists k → key ≠ k → t.Exists k := by
      rintro k ⟨ds, hds⟩ hk
      exact ⟨ds, by rw [hconv, if_neg hk, hds]⟩
    refine ⟨⟨?_, ?_⟩, ?_⟩
    · refine hc.change key (m := m) rfl ((hc.mapOf_owned key.1).delete hcs) (hc.mapOf_userId key.1) hv.2
        (fun k hk => by rw [hconv, if_neg hk]) (fun k hk => Dict.get?_erase_ne _ hk)
        (fun k hk => Dict.get?_erase_ne _ hk) ?_ ?_ ?_ ?_
      · refine iff_of_false ?_ hgone
        rintro ⟨x, hx⟩
        simp at hx
      · rw [hconv, if_pos rfl]
        simp
      · intro k a ha
        simp only [Dict.get?_erase] at ha
        split_ifs at ha with hk
        obtain ⟨hne, hex, hkdel⟩ := hc.streaming k a ha
        exact ⟨hne, hothers k hex hk, fun hmem => hkdel (Finset.mem_of_mem_erase hmem)⟩
      · intro k hk
        obtain ⟨hne, hmem⟩ := Finset.mem_erase.mp hk
        exact hothers k (hc.deleting k hmem) hne.symm
    · intro k hk ds hd hds
      have hne : key ≠ k := fun h => hk (h ▸ hkey)
      exact ⟨Finset.mem_erase.mpr ⟨hne.symm, hd⟩, by rw [hconv, if_neg hne, hds]⟩
    · intro key' hkey'
      rw [hkey, Except.ok.injEq] at hkey'
      subst hkey'
      exact ⟨hdel, hcs, hgone⟩

/-- Recording a conversation adds it to the session's list and to its transcript, or replaces
the transcript of one that is in both. -/
theorem recordConversation_spec (hc : Consistent r) (u s c question answer : Text) :
    wp (recordConversation S u s c question answer) (fun _ t => Good r nowhere t) (fun _ t => r.Unchanged t) r := by
  refine wp_sessionKey (fun _ => .refl r) fun key hkey => ?_
  have hv := sessionKey_valid hkey
  refine wp_requiredUuid (fun _ => .refl r) fun conversation => ?_
  simp only [wp_ite, wp_raise, wp_bind, wp_read, id]
  refine ⟨fun _ => .refl r, fun _ => ⟨fun _ => .refl r, fun _ => ⟨fun _ => .refl r, fun hdel => ?_⟩⟩⟩
  rw [wp_onMap hv.1]
  simp only [SessionMap.addConversation, hv.identifier, requiredUuid_str, wp_bind, wp_ofExcept_ok, wp_read, id]
  cases hcs : (r.mapOf key.1).sessions.get? key.2 with
  | none => exact Unchanged.setMap r key.1
  | some cs =>
    have hex : r.Exists key := ⟨cs, hcs⟩
    have htr := hc.transcribed key
    rw [show r.conversations key = some cs from hcs, Option.map_eq_some_iff] at htr
    obtain ⟨ts, hts, hkeys⟩ := htr
    dsimp only
    cases how : (r.mapOf key.1).conversationOwners.get? conversation with
    | some owner =>
      simp only [wp_ite, wp_raise, wp_pure]
      refine ⟨fun _ => Unchanged.setMap r key.1, fun howner => ?_⟩
      rw [not_not] at howner
      subst howner
      -- the conversation is in the session already, and so in the transcript
      obtain ⟨cs', hcs', hmem⟩ := ((hc.mapOf_owned key.1).owner_iff conversation key.2).mp how
      rw [hcs, Option.some.injEq] at hcs'
      subst hcs'
      rw [setMap_self hex, hts]
      refine ⟨⟨hc.userMap, hc.owned, hc.canonical, hc.titled, fun k => ?_, hc.streaming, hc.deleting⟩, fun k _ => Keeps.refl r k⟩
      simp only [Dict.get?_set]
      split_ifs with hk
      · subst hk
        rw [Option.map_some, Dict.keys_set_of_mem _ (hkeys ▸ hmem), hkeys]
        exact hcs.symm
      · exact hc.transcribed k
    | none =>
      simp only [wp_update]
      set m : SessionMap := { r.mapOf key.1 with
        sessions := (r.mapOf key.1).sessions.set key.2 (cs ++ [conversation])
        conversationOwners := (r.mapOf key.1).conversationOwners.set conversation key.2 }
      rw [show (r.setMap key.1 m).transcripts.get? key = some ts from hts]
      simp only [wp_update]
      set t : ChatRegistry := { r.setMap key.1 m with
        transcripts := (r.setMap key.1 m).transcripts.set key (ts.set conversation ⟨conversation, question, answer⟩) }
      have hnew : conversation ∉ ts.keys := hkeys ▸ (hc.mapOf_owned key.1).not_mem how hcs
      have hconv : ∀ k, t.conversations k = if key = k then some (cs ++ [conversation]) else r.conversations k :=
        conversations_setMap_set (m := m) rfl
      have hexists : ∀ k, r.Exists k → t.Exists k := by
        rintro k ⟨ds, hds⟩
        by_cases hk : key = k
        · exact ⟨_, by rw [hconv, if_pos hk]⟩
        · exact ⟨ds, by rw [hconv, if_neg hk, hds]⟩
      refine ⟨?_, ?_⟩
      · refine hc.change key (m := m) rfl ((hc.mapOf_owned key.1).add hcs how) (hc.mapOf_userId key.1) hv.2
          (fun k hk => by rw [hconv, if_neg hk]) (fun k _ => rfl) (fun k hk => Dict.get?_set_ne _ _ hk) ?_ ?_ ?_ ?_
        · exact iff_of_true ((hc.titled key).mpr hex) (hexists key hex)
        · rw [hconv, if_pos rfl, Dict.get?_set_self, Option.map_some, Dict.keys_set_of_not_mem _ hnew, hkeys]
        · intro k a ha
          obtain ⟨hne, hk, hkdel⟩ := hc.streaming k a ha
          exact ⟨hne, hexists k hk, hkdel⟩
        · exact fun k hk => hexists k (hc.deleting k hk)
      · intro k _ ds hd hds
        have hk : key ≠ k := fun h => hdel (h ▸ hd)
        exact ⟨hd, by rw [hconv, if_neg hk, hds]⟩

/-- `list_sessions` finds everything of the user's sessions. -/
theorem listSessions_spec (hc : Consistent r) (u : Text) :
    wp (listSessions S u) (fun _ t => r.Unchanged t)
      (fun e t => r.Unchanged t ∧ validatedUserId S.userIdPattern u = .error e) r := by
  rw [listSessions, wp_bind, wp_ofExcept]
  refine ⟨fun user huser => ?_, fun e he => ⟨.refl r, he⟩⟩
  obtain rfl := validatedUserId_eq huser
  rw [wp_bind, wp_onMap huser]
  simp only [SessionMap.listSessions, huser, wp_bind, wp_ofExcept_ok, wp_read, id, wp_ite, wp_raise, wp_pure]
  refine ⟨fun hne => absurd (hc.mapOf_userId user).symm hne, fun _ => ?_⟩
  have hun := Unchanged.setMap r user
  set t := r.setMap user (r.mapOf user)
  have hct : Consistent t := hun.consistent hc
  have hloop : ∀ keys : List Text, (∀ s ∈ keys, t.Exists (user, s)) →
      wp (collect (fun session => snapshotLocked S (user, session)) keys) (fun _ t' => t' = t)
        (fun _ _ => False) t := by
    intro keys
    induction keys with
    | nil => exact fun _ => rfl
    | cons s keys ih =>
      intro hall
      have hs := hall s (List.mem_cons_self ..)
      rw [collect, wp_bind]
      refine wp_snapshotLocked hct ⟨huser, hct.canonical _ hs⟩ (fun _ snapshot => ?_) fun hno => absurd hs hno
      rw [wp_bind]
      exact wp_mono (ih fun s' hs' => hall s' (List.mem_cons_of_mem _ hs')) (fun _ _ ht => ht) fun _ _ hf => hf
  refine wp_mono (hloop _ fun s hs => ?_) (fun _ t' ht => ht ▸ hun) fun _ _ hf => hf.elim
  obtain ⟨cs, hcs⟩ := Dict.mem_keys_iff.mp hs
  exact ⟨cs, by rw [hun.conversations_eq]; exact hcs⟩

theorem reserve_validates (u s : Text) :
    wp (reserveSessionDeletion S u s) (fun _ _ => ∃ key, sessionKey S u s = .ok key) (fun _ _ => True) r := by
  refine wp_sessionKey (fun _ => trivial) fun key hkey => ?_
  exact wp_mono (wp_true _ _) (fun _ _ _ => ⟨key, hkey⟩) fun _ _ _ => trivial

/-- `delete_session` reserves and commits, and the commit after its own reservation cannot raise. -/
theorem deleteSession_spec (hc : Consistent r) (u s : Text) :
    wp (deleteSession S u s)
      (fun _ t => Good r nowhere t) (fun _ t => r.Unchanged t) r := by
  rw [deleteSession, wp_bind]
  refine wp_mono (wp_and (reserveSessionDeletion_spec hc u s) (reserve_validates u s)) (fun cs t hres => ?_)
    fun _ _ ht => ht.1
  obtain ⟨⟨⟨hct, hkeep⟩, hkey⟩, key, hk⟩ := hres
  rw [wp_tryExcept]
  refine wp_mono (commitSessionDeletion_spec hct u s) (fun cs' t' hcom => ?_) fun e t' hcom => ?_
  · obtain ⟨⟨hct', hkeep'⟩, -⟩ := hcom
    refine ⟨hct', fun k _ ds hd hds => ?_⟩
    -- a session that was under deletion before is not the one deleted here
    by_cases hkk : sessionKey S u s = .ok k
    · exact absurd hd (hkey k hkk).2.2.2.1
    · obtain ⟨hd', hds'⟩ := hkeep k id ds hd hds
      exact hkeep' k hkk ds hd' hds'
  · exact absurd (hkey key hk).1 (hcom.2 key hk)

end Methods

/-! ### Runs -/

/-- The keys whose reservation a call may end. -/
def releases (S : RegistrySettings) : Call → SessionKey → Prop
  | .abortSessionDeletion u s, k => sessionKey S u s = .ok k
  | .commitSessionDeletion u s, k => sessionKey S u s = .ok k
  | _, _ => False

/-- A call and its outcome end the reservation of a session: an abort, or a commit that returned. -/
def EndsReservation (S : RegistrySettings) (key : SessionKey) : Call × Except PyError Reply → Prop
  | (.abortSessionDeletion u s, _) => sessionKey S u s = .ok key
  | (.commitSessionDeletion u s, .ok _) => sessionKey S u s = .ok key
  | _ => False

theorem perform_spec {r : ChatRegistry} (hc : Consistent r) (call : Call) :
    Eff.wp (perform S call) (fun _ t => Good r (releases S call) t) (fun _ t => r.Unchanged t) r := by
  cases call with
  | createSession u s => exact (Eff.wp_map _ _).mpr (createSession_spec hc u s)
  | listSessions u =>
    exact (Eff.wp_map _ _).mpr (Eff.wp_mono (listSessions_spec hc u) (fun _ _ h => h.good hc _) fun _ _ h => h.1)
  | getSession u s => exact (Eff.wp_map _ _).mpr (getSession_spec hc u s)
  | recordConversation u s c q a => exact (Eff.wp_map _ _).mpr (recordConversation_spec hc u s c q a)
  | updateTitle u s t => exact (Eff.wp_map _ _).mpr (updateTitle_spec hc u s t)
  | conversationIds u s => exact (Eff.wp_map _ _).mpr (conversationIds_spec hc u s)
  | beginChatStream u s c => exact (Eff.wp_map _ _).mpr (beginChatStream_spec hc u s c)
  | endChatStream u s c => exact (Eff.wp_map _ _).mpr (endChatStream_spec hc u s c)
  | reserveSessionDeletion u s =>
    exact (Eff.wp_map _ _).mpr (Eff.wp_mono (reserveSessionDeletion_spec hc u s) (fun _ _ h => h.1) fun _ _ h => h)
  | abortSessionDeletion u s => exact (Eff.wp_map _ _).mpr (abortSessionDeletion_spec hc u s)
  | commitSessionDeletion u s =>
    exact (Eff.wp_map _ _).mpr
      (Eff.wp_mono (commitSessionDeletion_spec hc u s) (fun _ _ h => h.1) fun _ _ h => h.1)
  | deleteSession u s => exact (Eff.wp_map _ _).mpr (deleteSession_spec hc u s)

theorem step_spec {r t : ChatRegistry} {call : Call} {evs : List (Call × Except PyError Reply)} (hc : Consistent r)
    (hs : (machine S).step r call = some (t, evs)) :
    Consistent t ∧ ∃ outcome, evs = [(call, outcome)] ∧ ∀ key, ¬ EndsReservation S key (call, outcome) → r.Keeps t key := by
  have hspec := perform_spec (S := S) hc call
  simp only [machine] at hs
  cases hp : perform S call r with
  | ok a u =>
    have hgood := Eff.wp_ok hspec hp
    rw [hp] at hs
    cases hs
    refine ⟨hgood.1, .ok a, rfl, fun key hkey => hgood.2 key fun hrel => hkey ?_⟩
    cases call <;> exact hrel
  | error e u =>
    have hun := Eff.wp_error hspec hp
    rw [hp] at hs
    cases hs
    exact ⟨hun.consistent hc, .error e, rfl, fun key _ => hun.keeps key⟩

theorem run_consistent {r t : ChatRegistry} {calls : List Call} {evs : List (Call × Except PyError Reply)}
    (hc : Consistent r) (hrun : (machine S).run r calls = some (t, evs)) : Consistent t :=
  (machine S).invariant hc (fun _ _ _ _ h hs => (step_spec h hs).1) hrun

/-- A session under deletion keeps its conversations until its reservation ends. -/
theorem run_keeps {r t : ChatRegistry} {calls : List Call} {evs : List (Call × Except PyError Reply)}
    (hc : Consistent r) (hrun : (machine S).run r calls = some (t, evs)) {key : SessionKey}
    (hends : ∀ ev ∈ evs, ¬ EndsReservation S key ev) : r.Keeps t key := by
  have h := (machine S).run_induction
    (I := fun _ evs t => Consistent t ∧ ((∀ ev ∈ evs, ¬ EndsReservation S key ev) → r.Keeps t key))
    ⟨hc, fun _ => Keeps.refl r key⟩ ?_ hrun
  · exact h.2 hends
  · rintro as evs t a u ev - ⟨hct, hk⟩ hs
    obtain ⟨hcu, outcome, rfl, hkeep⟩ := step_spec hct hs
    refine ⟨hcu, fun hall cs hd hcs => ?_⟩
    obtain ⟨hd', hcs'⟩ := hk (fun ev hev => hall ev (List.mem_append_left _ hev)) cs hd hcs
    exact hkeep key (hall _ (by simp)) cs hd' hcs'

/-- What the registry owes its clients in a reachable state. -/
structure RegistryState (S : RegistrySettings) (r : ChatRegistry) : Prop where
  /-- No session is under deletion and has an active stream. -/
  exclusive : ∀ k a, r.activeStreams.get? k = some a → a ≠ ∅ → k ∉ r.deletingSessions
  /-- A session under deletion exists. -/
  deletingExists : ∀ k ∈ r.deletingSessions, r.Exists k
  /-- A session with an active stream exists. -/
  streamingExists : ∀ k a, r.activeStreams.get? k = some a → a ≠ ∅ → r.Exists k
  /-- The keys of `_titles` are the existing sessions. -/
  titles : ∀ k, k ∈ r.titles.keys ↔ r.Exists k
  /-- The keys of `_transcripts` are the existing sessions. -/
  transcripts : ∀ k, k ∈ r.transcripts.keys ↔ r.Exists k
  /-- The keys of a session's transcripts are its conversation ids, in order. -/
  transcriptKeys : ∀ k ts cs, r.transcripts.get? k = some ts → r.conversations k = some cs → ts.keys = cs
  /-- `_conversation_owners` is the exact inverse of `_sessions`. -/
  owners : ∀ u m, r.sessionMaps.get? u = some m → m.Owned
  /-- `get_session` returns for every existing session. -/
  getSession : ∀ u s k, sessionKey S u s = .ok k → r.Exists k → ∃ snapshot t, getSession S u s r = .ok snapshot t
  /-- `list_sessions` returns for every user. -/
  listSessions : ∀ u, validatedUserId S.userIdPattern u = .ok u → ∃ snapshots t, listSessions S u r = .ok snapshots t
  /-- A call that raises changes nothing, except that it may create the user's empty map. -/
  raising : ∀ call e t, perform S call r = .error e t → r.Unchanged t
  /-- A commit returns the list its reservation returned, where the reservation was not ended before. -/
  commitReturns : ∀ u s k cs t, sessionKey S u s = .ok k → reserveSessionDeletion S u s r = .ok cs t →
    ∀ calls evs t', (machine S).run t calls = some (t', evs) → (∀ ev ∈ evs, ¬ EndsReservation S k ev) →
    ∀ u' s' cs' t'', sessionKey S u' s' = .ok k → commitSessionDeletion S u' s' t' = .ok cs' t'' → cs' = cs

theorem Consistent.registryState {r : ChatRegistry} (hc : Consistent r) : RegistryState S r where
  exclusive k a ha _ := (hc.streaming k a ha).2.2
  deletingExists := hc.deleting
  streamingExists k a ha _ := (hc.streaming k a ha).2.1
  titles k := by rw [Dict.mem_keys_iff, hc.titled]
  transcripts k := by
    rw [Dict.mem_keys_iff, Exists, ← hc.transcribed]
    simp
  transcriptKeys k ts cs hts hcs := by
    have htr := hc.transcribed k
    rw [hts, hcs] at htr
    exact Option.some.inj htr
  owners := hc.owned
  getSession u s k hk hex := by
    have hspec : Eff.wp (ChatRegistry.getSession S u s) (fun _ _ => True) (fun _ _ => False) r := by
      rw [ChatRegistry.getSession, hk, Eff.wp_bind, Eff.wp_ofExcept_ok]
      exact wp_snapshotLocked hc (sessionKey_valid hk) (fun _ _ => trivial) fun hno => absurd hex hno
    obtain ⟨snapshot, t, ht, -⟩ := Eff.wp_returns hspec
    exact ⟨snapshot, t, ht⟩
  listSessions u hu := by
    obtain ⟨snapshots, t, ht, -⟩ := Eff.wp_returns
      (Eff.wp_mono (listSessions_spec hc u) (fun _ _ _ => trivial) fun e _ he => by rw [hu] at he; cases he.2)
    exact ⟨snapshots, t, ht⟩
  raising call e t he := Eff.wp_error (perform_spec hc call) he
  commitReturns u s k cs t hk hres calls evs t' hrun hends u' s' cs' t'' hk' hcom := by
    obtain ⟨hgood, hreserved⟩ := Eff.wp_ok (reserveSessionDeletion_spec hc u s) hres
    obtain ⟨hd, hcs, -⟩ := hreserved k hk
    obtain ⟨-, hcs'⟩ := run_keeps hgood.1 hrun hends cs hd hcs
    obtain ⟨-, hcommitted⟩ := Eff.wp_ok (commitSessionDeletion_spec (run_consistent hgood.1 hrun) u' s') hcom
    exact Option.some.inj ((hcommitted k hk').2.1.symm.trans hcs')

/-- **The chat registry**: whatever methods are called, in whatever order and with whatever
arguments, the tables agree, a call that raises changes nothing, and a commit returns
what its reservation returned. -/
theorem chat_registry_state_machine {calls : List Call} {r : ChatRegistry}
    {evs : List (Call × Except PyError Reply)} (hrun : (machine S).run ChatRegistry.empty calls = some (r, evs)) :
    RegistryState S r :=
  (run_consistent Consistent.empty hrun).registryState

/-- A session with a conversation is reserved, refuses a stream and a conversation, and is committed. -/
def deletedSessionCalls : List Call :=
  let u := text ['a']
  let s := (Uuid.ofNat 1).str
  let q := text ['q']
  [.createSession u s, .beginChatStream u s (Uuid.ofNat 2).str, .recordConversation u s (Uuid.ofNat 2).str q q,
    .reserveSessionDeletion u s, .endChatStream u s (Uuid.ofNat 2).str, .reserveSessionDeletion u s,
    .beginChatStream u s (Uuid.ofNat 3).str, .recordConversation u s (Uuid.ofNat 3).str q q,
    .commitSessionDeletion u s, .getSession u s]

theorem chat_registry_state_machine_deleted_session :
    ∃ r evs, (machine ⟨.any, fun _ => true⟩).run ChatRegistry.empty deletedSessionCalls = some (r, evs) ∧
      RegistryState ⟨.any, fun _ => true⟩ r := by
  obtain ⟨⟨r, evs⟩, hrun⟩ := Option.isSome_iff_exists.mp
    (show ((machine ⟨.any, fun _ => true⟩).run ChatRegistry.empty deletedSessionCalls).isSome = true by
      decide +kernel)
  exact ⟨r, evs, hrun, chat_registry_state_machine hrun⟩


end ChatRegistry

end TenantRag

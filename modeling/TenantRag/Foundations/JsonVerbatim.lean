import TenantRag.Foundations.JsonMembers
import TenantRag.Foundations.JsonSorted

/-!
# Texts that stand for themselves

`json.dumps(value, ensure_ascii=False)`: in a string, quotes, backslashes and control
characters are escaped, and every other character stands for itself. The layout is that of
the other writer.

## What is proved

* `reads_writeVerbatim` — what is written is a JSON text for the value.
* `loads_writeVerbatim` — it is read back as the value.
* `loads_dumpsVerbatim` — so is an indented text with sorted keys, as the value with sorted keys.
-/

namespace TenantRag

namespace Json

variable {F : Type} [PyFloat F]

/-- What stands for a code point in a string. -/
def escapeVerbatim (c : PyChar) : Text :=
  let n := c.val
  if n = 92 then [92, 92]
  else if n = 34 then [92, 34]
  else if n = 8 then [92, 98]
  else if n = 12 then [92, 102]
  else if n = 10 then [92, 110]
  else if n = 13 then [92, 114]
  else if n = 9 then [92, 116]
  else if n < 32 then escapeUnit n
  else [c]

/-- A string with its quotes. -/
def quotedVerbatim (t : Text) : Text := 34 :: (t.flatMap escapeVerbatim ++ [34])

mutual

/-- The text of a value, where so many brackets are open. -/
def writeVerbatim (L : Layout) : ℕ → Json F → Text
  | _, .null => lit "null"
  | _, .bool true => lit "true"
  | _, .bool false => lit "false"
  | _, .int n => intText n
  | _, .num x => floatText x
  | _, .str t => quotedVerbatim t
  | _, .arr [] => [91, 93]
  | k, .arr (v :: vs) => 91 :: (L.gap k ++ (writeVerbatim L (k + 1) v ++ writeVerbatimItems L k vs))
  | _, .obj [] => [123, 125]
  | k, .obj ((key, v) :: fs) =>
      123 :: (L.gap k ++ (quotedVerbatim key ++ 58 :: (L.colon ++ (writeVerbatim L (k + 1) v ++ writeVerbatimMembers L k fs))))

/-- What stands behind an item. -/
def writeVerbatimItems (L : Layout) : ℕ → List (Json F) → Text
  | k, [] => L.close k ++ [93]
  | k, v :: vs => 44 :: (L.gap k ++ (writeVerbatim L (k + 1) v ++ writeVerbatimItems L k vs))

/-- What stands behind a member. -/
def writeVerbatimMembers (L : Layout) : ℕ → List (Text × Json F) → Text
  | k, [] => L.close k ++ [125]
  | k, (key, v) :: fs =>
      44 :: (L.gap k ++ (quotedVerbatim key ++ 58 :: (L.colon ++ (writeVerbatim L (k + 1) v ++ writeVerbatimMembers L k fs))))

end

/-- `json.dumps(value, ensure_ascii=False, indent=2, sort_keys=True) + "\n"`. -/
def dumpsVerbatim (v : Json F) : Text := writeVerbatim (Layout.indented 2) 0 (sortKeys v) ++ [10]

/-! ### Strings -/

omit [PyFloat F] in
theorem stringBody_escapeVerbatim (c : PyChar) {e q : Text} (h : StringBody e q) : StringBody (escapeVerbatim c ++ e) (c :: q) := by
  have hshort : ∀ d : PyChar, d.val ≠ 117 → shortEscape d = some c → StringBody ([92, d] ++ e) (c :: q) :=
    fun d hd hc => .short hd hc h
  rw [escapeVerbatim]
  split_ifs with h92 h34 h8 h12 h10 h13 h9 h32
  · exact hshort 92 (by decide) (congrArg some (Fin.ext h92.symm))
  · exact hshort 34 (by decide) (congrArg some (Fin.ext h34.symm))
  · exact hshort 98 (by decide) (congrArg some (Fin.ext h8.symm))
  · exact hshort 102 (by decide) (congrArg some (Fin.ext h12.symm))
  · exact hshort 110 (by decide) (congrArg some (Fin.ext h10.symm))
  · exact hshort 114 (by decide) (congrArg some (Fin.ext h13.symm))
  · exact hshort 116 (by decide) (congrArg some (Fin.ext h9.symm))
  · have hdigits : UnitText (unitDigits c.val) c.val := by
      have hscan := scanUnit_unitDigits (n := c.val) (by omega) []
      rwa [List.append_nil] at hscan
    have hunit := StringBody.unit hdigits (by omega) h
    rwa [charOf_val] at hunit
  · exact .plain h34 h92 (by omega) h

theorem stringBody_verbatim (t : Text) : StringBody (t.flatMap escapeVerbatim) t := by
  induction t with
  | nil => exact .nil
  | cons c t ih =>
    rw [List.flatMap_cons]
    exact stringBody_escapeVerbatim c ih

/-! ### Values -/

/-- Every number can be read, and no key occurs twice. -/
inductive Legible : Json F → Prop where
  /-- `None`. -/
  | null : Legible .null
  /-- `True` and `False`. -/
  | bool (b : Bool) : Legible (.bool b)
  /-- An `int`. -/
  | int {n : ℤ} : (decimal n.natAbs).length ≤ intMaxStrDigits → Legible (.int n)
  /-- A `float`. -/
  | num {x : F} : PyFloat.isFinite x = true ∧ PyFloat.isNaN x = false → Legible (.num x)
  /-- A `str`. -/
  | str (t : Text) : Legible (.str t)
  /-- A `list`. -/
  | arr {items : List (Json F)} : (∀ v ∈ items, Legible v) → Legible (.arr items)
  /-- A `dict`. -/
  | obj {fields : List (Text × Json F)} : (fields.map Prod.fst).Nodup → (∀ f ∈ fields, Legible f.2) → Legible (.obj fields)

theorem Legible.sortKeys {v : Json F} (h : Legible v) : Legible (Json.sortKeys v) := by
  induction h with
  | null => exact .null
  | bool b => exact .bool b
  | int hn => exact .int hn
  | num hx => exact .num hx
  | str t => exact .str t
  | arr h ih =>
    rw [Json.sortKeys, sortItems_eq_map]
    refine .arr fun w hw => ?_
    obtain ⟨v, hv, rfl⟩ := List.mem_map.mp hw
    exact ih v hv
  | @obj fields hkeys h ih =>
    rw [Json.sortKeys]
    refine .obj ((keys_sortFields_perm fields).nodup_iff.mpr hkeys) fun g hg => ?_
    rw [(perm_sortFields _).mem_iff, sortMembers_eq_map] at hg
    obtain ⟨f, hf, rfl⟩ := List.mem_map.mp hg
    exact ih f hf

theorem numberText_of_scan_all {s : Text} {v : Json F} (h : scanNumber (s ++ []) = some (v, [])) : NumberText s v := by
  rw [List.append_nil] at h
  obtain ⟨s', rfl, hnumber⟩ := numberText_of_scan h
  rwa [List.append_nil]

/-- What is written is a JSON text for the value. -/
theorem reads_writeVerbatim (L : Layout) {v : Json F} (h : Legible v) (k : ℕ) : Reads (writeVerbatim L k v) (.value v) := by
  induction h generalizing k with
  | null =>
    rw [writeVerbatim]
    exact .wordNull
  | bool b =>
    cases b with
    | true =>
      rw [writeVerbatim]
      exact .wordTrue
    | false =>
      rw [writeVerbatim]
      exact .wordFalse
  | int hn =>
    rw [writeVerbatim]
    exact .number (numberText_of_scan_all (scanNumber_int hn stops_nil))
  | num hx =>
    rw [writeVerbatim, floatText_eq hx]
    exact .number (numberText_of_scan_all (scanNumber_float hx.1 stops_nil))
  | str t =>
    rw [writeVerbatim, quotedVerbatim]
    exact .str (stringBody_verbatim t)
  | @arr items h ih =>
    -- The items behind one that is read.
    have hitems : ∀ (vs : List (Json F)) (v : Json F) (s : Text), (∀ u ∈ vs, u ∈ items) → Reads s (.value v) →
        Reads (s ++ writeVerbatimItems L k vs) (.items (v :: vs)) := by
      intro vs
      induction vs with
      | nil =>
        intro v s _ hs
        rw [writeVerbatimItems]
        exact .last hs (L.close_space k)
      | cons u vs ihs =>
        intro v s hvs hs
        rw [List.forall_mem_cons] at hvs
        have hrest := ihs u (writeVerbatim L (k + 1) u) hvs.2 (ih u hvs.1 (k + 1))
        rw [writeVerbatimItems]
        exact .item (w := []) hs (List.forall_mem_nil _) (L.gap_space k) hrest
    cases items with
    | nil =>
      rw [writeVerbatim]
      exact .emptyArr (w := []) (List.forall_mem_nil _)
    | cons v vs =>
      have hv := ih v List.mem_cons_self (k + 1)
      rw [writeVerbatim]
      exact .arr (L.gap_space k) (hitems vs v _ (fun u hu => List.mem_cons_of_mem v hu) hv)
  | @obj fields hkeys h ih =>
    -- The members behind one that is read, from behind the quote of its name.
    have hmembers : ∀ (fs : List (Text × Json F)) (key : Text) (v : Json F) (s : Text), (∀ f ∈ fs, f ∈ fields) →
        Reads s (.value v) →
        Reads (key.flatMap escapeVerbatim ++ 34 :: ([] ++ 58 :: (L.colon ++ (s ++ writeVerbatimMembers L k fs))))
          (.members ((key, v) :: fs)) := by
      intro fs
      induction fs with
      | nil =>
        intro key v s _ hs
        rw [writeVerbatimMembers]
        exact .lastMember (stringBody_verbatim key) (List.forall_mem_nil _) L.colon_space hs (L.close_space k)
      | cons f fs ihs =>
        obtain ⟨key', v'⟩ := f
        intro key v s hfs hs
        rw [List.forall_mem_cons] at hfs
        have hrest := ihs key' v' (writeVerbatim L (k + 1) v') hfs.2 (ih _ hfs.1 (k + 1))
        have hnone : Spaces [] := List.forall_mem_nil _
        have hall := Reads.member (stringBody_verbatim key) hnone L.colon_space hs hnone (L.gap_space k) hrest
        rw [writeVerbatimMembers, quotedVerbatim]
        simpa using hall
    cases fields with
    | nil =>
      rw [writeVerbatim]
      exact .emptyObj (w := []) (List.forall_mem_nil _)
    | cons f fs =>
      obtain ⟨key, v⟩ := f
      have hv := ih (key, v) List.mem_cons_self (k + 1)
      have hall := Reads.obj (L.gap_space k) (hmembers fs key v _ (fun f hf => List.mem_cons_of_mem _ hf) hv)
      rw [writeVerbatim, quotedVerbatim]
      simpa using hall

theorem hooked_dict {v : Json F} (h : Legible v) : hooked (dictHook (ε := Empty)) v = .ok v := by
  induction h with
  | null | bool b | int hn | num hx | str t => rw [hooked]
  | @arr items h ih =>
    have hitems : hookedItems (dictHook (ε := Empty)) items = .ok items := hookedItems_ok_iff.mpr (List.forall₂_same.mpr ih)
    rw [hooked, hitems]
    rfl
  | @obj fields hkeys h ih =>
    have hmembers : hookedMembers (dictHook (ε := Empty)) fields = .ok fields :=
      hookedMembers_ok_iff.mpr (List.forall₂_same.mpr fun f hf => ⟨rfl, ih f hf⟩)
    rw [hooked, hmembers]
    dsimp only
    rw [dictHook, dictOf_eq hkeys]

/-- What is written is read back as the value. -/
theorem loads_writeVerbatim (L : Layout) {v : Json F} (h : Legible v) {s : Text} (hs : Spaces s) :
    loads (writeVerbatim L 0 v ++ s) = some v := by
  rw [loads_iff]
  exact ⟨v, ⟨[], _, s, List.forall_mem_nil _, hs, rfl, reads_writeVerbatim L h 0⟩, hooked_dict h⟩

/-- A sorted text is read back as the value with sorted keys. -/
theorem loads_dumpsVerbatim {v : Json F} (h : Legible v) : loads (dumpsVerbatim v) = some (sortKeys v) :=
  loads_writeVerbatim _ h.sortKeys (by
    intro c hc
    rw [List.mem_singleton.mp hc]
    rfl)

end Json

end TenantRag

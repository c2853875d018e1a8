import TenantRag.Foundations.JsonRoundTrip

/-!
# The hook of `json.loads`

`json.loads(text, object_pairs_hook=hook)`: every object of the text is given to the hook, as
the list of its members in their order, as soon as its brace is read. The hook may raise.

## What is proved

* `scanValue_eq_with`, `loads_eq_with` — without a hook, `json.loads` is the same with `dict` as its hook.
-/

namespace TenantRag

namespace Json

/-- Why `json.loads` with a hook ended. -/
inductive LoadError (ε : Type) where
  /-- A `JSONDecodeError`. -/
  | decode
  /-- What the hook raised. -/
  | raised (e : ε)
  deriving DecidableEq

variable {F ε : Type} [PyFloat F]

/-- A part that was read, or a `JSONDecodeError`. -/
def decoded {α : Type} (read : Option α) : Except (LoadError ε) α :=
  match read with
  | none => .error .decode
  | some a => .ok a

/-- What the hook makes of the members of an object. -/
def called {α : Type} (result : Except ε α) : Except (LoadError ε) α := result.mapError .raised

section Scanner

variable (hook : List (Text × Json F) → Except ε (Json F))

mutual

/-- `scan_once` with a hook. -/
def scanValueWith : ℕ → Text → Except (LoadError ε) (Json F × Text)
  | 0, _ => .error .decode
  | _ + 1, [] => .error .decode
  | n + 1, c :: cs =>
      if c.val = 34 then (decoded (scanString cs)).map fun p => (.str p.1, p.2)
      else if c.val = 123 then
        match skipSpace cs with
        | [] => .error .decode
        | d :: ds =>
            if d.val = 125 then (called (hook [])).map fun v => (v, ds)
            else if d.val = 34 then
              match scanMembersWith n ds with
              | .error e => .error e
              | .ok (members, r) => (called (hook members)).map fun v => (v, r)
            else .error .decode
      else if c.val = 91 then
        match skipSpace cs with
        | [] => .error .decode
        | d :: ds =>
            if d.val = 93 then .ok (.arr [], ds) else (scanItemsWith n (d :: ds)).map fun p => (.arr p.1, p.2)
      else
        match dropWord (lit "null") (c :: cs) with
        | some r => .ok (.null, r)
        | none =>
            match dropWord (lit "true") (c :: cs) with
            | some r => .ok (.bool true, r)
            | none =>
                match dropWord (lit "false") (c :: cs) with
                | some r => .ok (.bool false, r)
                | none => decoded (scanNumber (c :: cs))

/-- The items of an array. -/
def scanItemsWith : ℕ → Text → Except (LoadError ε) (List (Json F) × Text)
  | 0, _ => .error .decode
  | n + 1, t =>
      match scanValueWith n t with
      | .error e => .error e
      | .ok (v, r) =>
          match skipSpace r with
          | [] => .error .decode
          | d :: ds =>
              if d.val = 93 then .ok ([v], ds)
              else if d.val = 44 then (scanItemsWith n (skipSpace ds)).map fun p => (v :: p.1, p.2)
              else .error .decode

/-- The members of an object. -/
def scanMembersWith : ℕ → Text → Except (LoadError ε) (List (Text × Json F) × Text)
  | 0, _ => .error .decode
  | n + 1, t =>
      match scanString t with
      | none => .error .decode
      | some (key, r) =>
          match skipSpace r with
          | [] => .error .decode
          | c :: cs =>
              if c.val ≠ 58 then .error .decode
              else
                match scanValueWith n (skipSpace cs) with
                | .error e => .error e
                | .ok (v, r) =>
                    match skipSpace r with
                    | [] => .error .decode
                    | d :: ds =>
                        if d.val = 125 then .ok ([(key, v)], ds)
                        else if d.val = 44 then
                          match skipSpace ds with
                          | [] => .error .decode
                          | e :: es =>
                              if e.val = 34 then (scanMembersWith n es).map fun p => ((key, v) :: p.1, p.2)
                              else .error .decode
                        else .error .decode

end

/-- `json.loads(t, object_pairs_hook=hook)`. -/
def loadsWith (t : Text) : Except (LoadError ε) (Json F) :=
  if t.head? = some 0xFEFF then .error .decode
  else
    match scanValueWith hook (2 * t.length + 2) (skipSpace t) with
    | .error e => .error e
    | .ok (v, r) => if skipSpace r = [] then .ok v else .error .decode

end Scanner

/-! ### Without a hook -/

/-- `dict`, which never raises. -/
def dictHook (members : List (Text × Json F)) : Except ε (Json F) := .ok (.obj (dictOf members))

theorem toOption_decoded {α : Type} (read : Option α) : (decoded read : Except (LoadError ε) α).toOption = read := by
  cases read <;> rfl

theorem toOption_map {ε α β : Type} (x : Except ε α) (f : α → β) : (x.map f).toOption = x.toOption.map f := by
  cases x <;> rfl

/-- Without a hook, each part is scanned as it is with `dict`. -/
theorem scanValue_eq_with (n : ℕ) :
    (∀ t, scanValue (F := F) n t = (scanValueWith (ε := ε) dictHook n t).toOption) ∧
      (∀ t, scanItems (F := F) n t = (scanItemsWith (ε := ε) dictHook n t).toOption) ∧
      ∀ t, scanMembers (F := F) n t = (scanMembersWith (ε := ε) dictHook n t).toOption := by
  induction n with
  | zero =>
    refine ⟨fun t => ?_, fun t => ?_, fun t => ?_⟩
    · rw [scanValue, scanValueWith]
      rfl
    · rw [scanItems, scanItemsWith]
      rfl
    · rw [scanMembers, scanMembersWith]
      rfl
  | succ n ih =>
    obtain ⟨ihValue, ihItems, ihMembers⟩ := ih
    refine ⟨fun t => ?_, fun t => ?_, fun t => ?_⟩
    · cases t with
      | nil =>
        rw [scanValue, scanValueWith]
        rfl
      | cons c cs =>
        rw [scanValue, scanValueWith]
        split_ifs
        · rw [toOption_map, toOption_decoded]
        · cases skipSpace cs with
          | nil => rfl
          | cons d ds =>
            dsimp only
            split_ifs
            · rfl
            · rw [ihMembers]
              cases scanMembersWith (F := F) (ε := ε) dictHook n ds <;> rfl
            · rfl
        · cases skipSpace cs with
          | nil => rfl
          | cons d ds =>
            dsimp only
            split_ifs
            · rfl
            · rw [ihItems, toOption_map]
        · cases dropWord (lit "null") (c :: cs) with
          | some r => rfl
          | none =>
            cases dropWord (lit "true") (c :: cs) with
            | some r => rfl
            | none =>
              cases dropWord (lit "false") (c :: cs) with
              | some r => rfl
              | none =>
                dsimp only
                rw [toOption_decoded]
    · rw [scanItems, scanItemsWith, ihValue]
      cases scanValueWith (F := F) (ε := ε) dictHook n t with
      | error e => rfl
      | ok p =>
        obtain ⟨v, r⟩ := p
        simp only [Except.toOption]
        cases skipSpace r with
        | nil => rfl
        | cons d ds =>
          dsimp only
          split_ifs
          · rfl
          · rw [ihItems]
            cases scanItemsWith (F := F) (ε := ε) dictHook n (skipSpace ds) <;> rfl
          · rfl
    · rw [scanMembers, scanMembersWith]
      cases scanString t with
      | none => rfl
      | some p =>
        obtain ⟨key, r⟩ := p
        dsimp only
        cases skipSpace r with
        | nil => rfl
        | cons c cs =>
          dsimp only
          split_ifs
          · rfl
          · rw [ihValue]
            cases scanValueWith (F := F) (ε := ε) dictHook n (skipSpace cs) with
            | error e => rfl
            | ok p =>
              obtain ⟨v, r⟩ := p
              simp only [Except.toOption]
              cases skipSpace r with
              | nil => rfl
              | cons d ds =>
                dsimp only
                split_ifs
                · rfl
                · cases skipSpace ds with
                  | nil => rfl
                  | cons e es =>
                    dsimp only
                    split_ifs
                    · rw [ihMembers]
                      cases scanMembersWith (F := F) (ε := ε) dictHook n es <;> rfl
                    · rfl
                · rfl

/-- So is a text. -/
theorem loads_eq_with (ε : Type) (t : Text) : loads (F := F) t = (loadsWith (ε := ε) dictHook t).toOption := by
  rw [loads, loadsWith]
  split_ifs
  · rfl
  · rw [(scanValue_eq_with (ε := ε) _).1]
    cases scanValueWith (F := F) (ε := ε) dictHook (2 * t.length + 2) (skipSpace t) with
    | error e => rfl
    | ok p =>
      obtain ⟨v, r⟩ := p
      simp only [Except.toOption]
      split_ifs <;> rfl

end Json

end TenantRag

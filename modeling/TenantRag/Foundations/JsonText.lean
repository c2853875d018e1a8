import TenantRag.Foundations.Json
import TenantRag.Foundations.Unicode
import TenantRag.Foundations.Uuid

/-!
# JSON texts

`json.dumps(value, separators=(",", ":"))` with its default of escaping
everything outside ASCII, and `json.loads(text)`: the scanner with its strings,
numbers, white space and constants, the dictionary it makes of an object's
members, and the limit on the digits of an `int`. A text that `loads` refuses is
`none`; the limit on the depth of recursion is left out.
-/

namespace TenantRag

namespace Json

variable {F : Type} [PyFloat F]

/-! ### Writing -/

/-- `"{0:04x}".format(n)` for a unit of UTF-16. -/
def unitDigits (n : ℕ) : Text :=
  [hexChar (Fin.ofNat _ (n / 4096)), hexChar (Fin.ofNat _ (n / 256)), hexChar (Fin.ofNat _ (n / 16)),
    hexChar (Fin.ofNat _ n)]

/-- The escape of a unit of UTF-16. -/
def escapeUnit (n : ℕ) : Text := 92 :: 117 :: unitDigits n

/-- What stands for a code point in a string: itself, a short escape, or one or two units of UTF-16. -/
def escapeChar (c : PyChar) : Text :=
  let n := c.val
  if n = 92 then [92, 92]
  else if n = 34 then [92, 34]
  else if n = 8 then [92, 98]
  else if n = 12 then [92, 102]
  else if n = 10 then [92, 110]
  else if n = 13 then [92, 114]
  else if n = 9 then [92, 116]
  else if 32 ≤ n ∧ n ≤ 126 then [c]
  else if n < 0x10000 then escapeUnit n
  else escapeUnit (0xD800 + (n - 0x10000) / 1024) ++ escapeUnit (0xDC00 + (n - 0x10000) % 1024)

/-- A string with its quotes. -/
def quoted (t : Text) : Text := 34 :: (t.flatMap escapeChar ++ [34])

/-- An `int`. -/
def intText (n : ℤ) : Text := if n < 0 then 45 :: decimal n.natAbs else decimal n.natAbs

/-- A `float`, with the names of the values that are not finite. -/
def floatText (x : F) : Text :=
  if PyFloat.isNaN x then lit "NaN"
  else if PyFloat.isFinite x then PyFloat.repr x
  else if PyFloat.isNegative x then lit "-Infinity"
  else lit "Infinity"

mutual

/-- `json.dumps(value, separators=(",", ":"))`. -/
def dumps : Json F → Text
  | .null => lit "null"
  | .bool true => lit "true"
  | .bool false => lit "false"
  | .int n => intText n
  | .num x => floatText x
  | .str t => quoted t
  | .arr items => 91 :: (join [44] (dumpsItems items) ++ [93])
  | .obj fields => 123 :: (join [44] (dumpsFields fields) ++ [125])

/-- The items of an array. -/
def dumpsItems : List (Json F) → List Text
  | [] => []
  | v :: vs => dumps v :: dumpsItems vs

/-- The members of an object. -/
def dumpsFields : List (Text × Json F) → List Text
  | [] => []
  | (k, v) :: fs => (quoted k ++ 58 :: dumps v) :: dumpsFields fs

end

/-! ### Reading -/

/-- White space between the parts of a text. -/
def isJsonSpace (c : PyChar) : Bool := c.val = 32 || c.val = 9 || c.val = 10 || c.val = 13

/-- The text behind white space. -/
def skipSpace (t : Text) : Text := t.dropWhile isJsonSpace

/-- The text behind a given word. -/
def dropWord (word t : Text) : Option Text := if word.isPrefixOf t then some (t.drop word.length) else none

/-- The number written with four hexadecimal digits, and the text behind them. -/
def scanUnit : Text → Option (ℕ × Text)
  | a :: b :: c :: d :: r =>
      match digitOfChar a, digitOfChar b, digitOfChar c, digitOfChar d with
      | some a, some b, some c, some d => some (a.val * 4096 + b.val * 256 + c.val * 16 + d.val, r)
      | _, _, _, _ => none
  | _ => none

/-- The code point of a number. -/
def charOf (n : ℕ) : PyChar := Fin.ofNat _ n

/-- What a short escape stands for. -/
def shortEscape (c : PyChar) : Option PyChar :=
  if c.val = 34 ∨ c.val = 92 ∨ c.val = 47 then some c
  else if c.val = 98 then some 8
  else if c.val = 102 then some 12
  else if c.val = 110 then some 10
  else if c.val = 114 then some 13
  else if c.val = 116 then some 9
  else none

/-- The code point of an escape, behind its backslash, and the text behind the escape. A high
surrogate is joined with the low one that an escape right behind it stands for. -/
def scanEscape : Text → Option (PyChar × Text)
  | [] => none
  | e :: r =>
      if e.val = 117 then
        match scanUnit r with
        | none => none
        | some (high, r) =>
            if 0xD800 ≤ high ∧ high ≤ 0xDBFF then
              match dropWord [92, 117] r with
              | none => some (charOf high, r)
              | some behind =>
                  match scanUnit behind with
                  | none => none
                  | some (low, behind) =>
                      if 0xDC00 ≤ low ∧ low ≤ 0xDFFF then
                        some (charOf (0x10000 + (high - 0xD800) * 1024 + (low - 0xDC00)), behind)
                      else some (charOf high, r)
            else some (charOf high, r)
      else (shortEscape e).map fun c => (c, r)

/-- `scanString`, looking at no more than `n` code points and escapes. -/
def scanStringAux : ℕ → Text → Option (Text × Text)
  | 0, _ => none
  | _ + 1, [] => none
  | n + 1, c :: cs =>
      if c.val = 34 then some ([], cs)
      else if c.val = 92 then
        match scanEscape cs with
        | none => none
        | some (d, r) => (scanStringAux n r).map fun p => (d :: p.1, p.2)
      else if c.val < 32 then none
      else (scanStringAux n cs).map fun p => (c :: p.1, p.2)

/-- `scanstring`: the string that begins here, behind its opening quote, and the text behind it. -/
def scanString (t : Text) : Option (Text × Text) := scanStringAux t.length t

/-- The digits a number begins with: a zero, or all the digits here. -/
def scanWhole : Text → Option (Text × Text)
  | [] => none
  | c :: cs =>
      if c.val = 48 then some ([c], cs)
      else if isDigit c then some (c :: cs.takeWhile isDigit, cs.dropWhile isDigit)
      else none

/-- A point and digits, if they are here. -/
def scanFraction : Text → Text × Text
  | [] => ([], [])
  | c :: cs =>
      if c.val = 46 ∧ cs.takeWhile isDigit ≠ [] then (c :: cs.takeWhile isDigit, cs.dropWhile isDigit)
      else ([], c :: cs)

/-- A plus or a minus, if it is here. -/
def scanSign : Text → Text × Text
  | [] => ([], [])
  | c :: cs => if c.val = 43 ∨ c.val = 45 then ([c], cs) else ([], c :: cs)

/-- The mark of an exponent with a sign or none and digits, if they are here. -/
def scanExponent : Text → Text × Text
  | [] => ([], [])
  | c :: cs =>
      let p := scanSign cs
      if (c.val = 101 ∨ c.val = 69) ∧ p.2.takeWhile isDigit ≠ [] then
        (c :: (p.1 ++ p.2.takeWhile isDigit), p.2.dropWhile isDigit)
      else ([], c :: cs)

/-- The minus of a number, if it is here. -/
def scanMinus : Text → Text × Text
  | [] => ([], [])
  | c :: cs => if c.val = 45 then ([c], cs) else ([], c :: cs)

/-- `parse_constant`: the names of the floats that are not finite. -/
def scanConstant (t : Text) : Option (Json F × Text) :=
  match dropWord (lit "NaN") t with
  | some r => (PyFloat.ofText (lit "nan")).map fun x => (.num x, r)
  | none =>
      match dropWord (lit "Infinity") t with
      | some r => (PyFloat.ofText (lit "inf")).map fun x => (.num x, r)
      | none =>
          match dropWord (lit "-Infinity") t with
          | some r => (PyFloat.ofText (lit "-inf")).map fun x => (.num x, r)
          | none => none

/-- `sys.get_int_max_str_digits()`. -/
def intMaxStrDigits : ℕ := 4300

/-- A number: a float where it has a fraction or an exponent, an `int` otherwise. -/
def scanNumber (t : Text) : Option (Json F × Text) :=
  let sign := scanMinus t
  match scanWhole sign.2 with
  | none => scanConstant t
  | some (whole, r) =>
      let fraction := scanFraction r
      let exponent := scanExponent fraction.2
      if fraction.1 = [] ∧ exponent.1 = [] then
        if whole.length ≤ intMaxStrDigits then
          some (.int (if sign.1 = [] then (ofDecimal whole : ℤ) else -(ofDecimal whole : ℤ)), exponent.2)
        else none
      else (PyFloat.ofText (sign.1 ++ (whole ++ (fraction.1 ++ exponent.1)))).map fun x => (.num x, exponent.2)

/-- `d[key] = v` on the items of a dictionary. -/
def setField (key : Text) (v : Json F) : List (Text × Json F) → List (Text × Json F)
  | [] => [(key, v)]
  | (k, w) :: fs => if k = key then (k, v) :: fs else (k, w) :: setField key v fs

/-- `dict(pairs)`. -/
def dictOf (pairs : List (Text × Json F)) : List (Text × Json F) :=
  pairs.foldl (fun d p => setField p.1 p.2 d) []

mutual

/-- `scan_once`: the value that begins here and the text behind it, no more than `n` calls deep. -/
def scanValue : ℕ → Text → Option (Json F × Text)
  | 0, _ => none
  | _ + 1, [] => none
  | n + 1, c :: cs =>
      if c.val = 34 then (scanString cs).map fun p => (.str p.1, p.2)
      else if c.val = 123 then
        match skipSpace cs with
        | [] => none
        | d :: ds =>
            if d.val = 125 then some (.obj [], ds)
            else if d.val = 34 then (scanMembers n ds).map fun p => (.obj (dictOf p.1), p.2)
            else none
      else if c.val = 91 then
        match skipSpace cs with
        | [] => none
        | d :: ds => if d.val = 93 then some (.arr [], ds) else (scanItems n (d :: ds)).map fun p => (.arr p.1, p.2)
      else
        match dropWord (lit "null") (c :: cs) with
        | some r => some (.null, r)
        | none =>
            match dropWord (lit "true") (c :: cs) with
            | some r => some (.bool true, r)
            | none =>
                match dropWord (lit "false") (c :: cs) with
                | some r => some (.bool false, r)
                | none => scanNumber (c :: cs)

/-- The items of an array from here to its bracket. -/
def scanItems : ℕ → Text → Option (List (Json F) × Text)
  | 0, _ => none
  | n + 1, t =>
      match scanValue n t with
      | none => none
      | some (v, r) =>
          match skipSpace r with
          | [] => none
          | d :: ds =>
              if d.val = 93 then some ([v], ds)
              else if d.val = 44 then (scanItems n (skipSpace ds)).map fun p => (v :: p.1, p.2)
              else none

/-- The members of an object from here to its brace, behind the quote of the first key. -/
def scanMembers : ℕ → Text → Option (List (Text × Json F) × Text)
  | 0, _ => none
  | n + 1, t =>
      match scanString t with
      | none => none
      | some (key, r) =>
          match skipSpace r with
          | [] => none
          | c :: cs =>
              if c.val ≠ 58 then none
              else
                match scanValue n (skipSpace cs) with
                | none => none
                | some (v, r) =>
                    match skipSpace r with
                    | [] => none
                    | d :: ds =>
                        if d.val = 125 then some ([(key, v)], ds)
                        else if d.val = 44 then
                          match skipSpace ds with
                          | [] => none
                          | e :: es =>
                              if e.val = 34 then (scanMembers n es).map fun p => ((key, v) :: p.1, p.2)
                              else none
                        else none

end

/-- `json.loads(t)`: a text that begins with a byte order mark is refused. -/
def loads (t : Text) : Option (Json F) :=
  if t.head? = some 0xFEFF then none
  else
    match scanValue (2 * t.length + 2) (skipSpace t) with
    | none => none
    | some (v, r) => if skipSpace r = [] then some v else none

end Json

end TenantRag

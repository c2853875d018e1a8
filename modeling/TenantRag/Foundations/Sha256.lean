import TenantRag.Foundations.Framing
import TenantRag.Foundations.Unicode
import TenantRag.Foundations.Uuid

/-!
# Digests

`hashlib.sha256(...).hexdigest()` is sixty-four lower-case hexadecimal digits. The hash
itself is a parameter of what uses it. Content is hashed in frames: each part is
preceded by its length in eight bytes, and the first by a domain.

## What is proved

* `intBase16_hexdigest`, `lower_hexdigest` — a digest reads as a number and is lower-case.
* `eightBytes` — eight bytes are words for the lengths below `2 ** 64`.
-/

namespace TenantRag

/-- The digest of SHA-256: sixty-four hexadecimal digits. -/
structure Sha256 where
  /-- The digits. -/
  digits : List Digit
  /-- There are sixty-four. -/
  length_digits : digits.length = 64
  deriving DecidableEq

namespace Sha256

/-- `hexdigest()`. -/
def hexdigest (d : Sha256) : Text := d.digits.map hexChar

theorem length_hexdigest (d : Sha256) : d.hexdigest.length = 64 := by
  rw [hexdigest, List.length_map, d.length_digits]

theorem hexdigest_injective : Function.Injective hexdigest := by
  intro d e h
  have hdigits : d.digits = e.digits := hexChar_injective.list_map h
  cases d
  cases e
  simpa using hdigits

/-- `int(hexdigest, 16)`. -/
theorem intBase16_hexdigest (d : Sha256) : intBase16 d.hexdigest = some d.digits :=
  Uuid.intBase16_map_hexChar fun h => by simpa [h] using d.length_digits.symm

theorem isSpace_of_mem_hexdigest {d : Sha256} {c : PyChar} (h : c ∈ d.hexdigest) : isSpace c = false := by
  obtain ⟨digit, -, rfl⟩ := List.mem_map.mp h
  exact (hexChar_plain digit).1

end Sha256

/-- `c.lower()` of an ASCII code point. -/
def lowerAscii (c : PyChar) : PyChar := if h : 65 ≤ c.val ∧ c.val ≤ 90 then ⟨c.val + 32, by omega⟩ else c

/-- `t.lower()` of a text that reads as a hexadecimal number. -/
def lower (t : Text) : Text := t.map lowerAscii

theorem lowerAscii_hexChar (d : Digit) : lowerAscii (hexChar d) = hexChar d := by
  revert d
  decide

theorem lower_hexdigest (d : Sha256) : lower d.hexdigest = d.hexdigest := by
  rw [lower, Sha256.hexdigest, List.map_map]
  exact List.map_congr_left fun digit _ => lowerAscii_hexChar digit

/-- `n.to_bytes(8, "big")` of a length, which Python keeps below `2 ** 63`. -/
def lengthBytes (n : ℕ) : List ℕ := (List.range 8).map fun i => n / 256 ^ (7 - i) % 256

theorem lengthBytes_eq (n : ℕ) :
    lengthBytes n = [n / 256 ^ 7 % 256, n / 256 ^ 6 % 256, n / 256 ^ 5 % 256, n / 256 ^ 4 % 256, n / 256 ^ 3 % 256,
      n / 256 ^ 2 % 256, n / 256 % 256, n % 256] := by
  simp [lengthBytes, List.range_succ]

theorem lengthBytes_injOn : Set.InjOn lengthBytes {n | n < 2 ^ 64} := by
  intro m hm n hn h
  change m < 2 ^ 64 at hm
  change n < 2 ^ 64 at hn
  simp only [lengthBytes_eq, List.cons.injEq, and_true] at h
  omega

/-- The lengths of parts, in eight bytes. -/
def eightBytes : LengthCode ℕ where
  word := lengthBytes
  width := 7
  bound := 2 ^ 64
  length_word _ := rfl
  word_injOn := lengthBytes_injOn

/-- A length below `2 ** 56` leaves the first byte zero. -/
theorem head_lengthBytes {n : ℕ} (h : n < 2 ^ 56) : (lengthBytes n).head? = some 0 := by
  rw [lengthBytes_eq, List.head?_cons, Option.some.injEq]
  omega

/-- What is hashed for some parts: the domain, and each part behind its length. -/
def framed (domain : List ℕ) (parts : List (List ℕ)) : List ℕ :=
  domain ++ parts.flatMap fun part => lengthBytes part.length ++ part

end TenantRag

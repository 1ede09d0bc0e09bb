/-!
# UTF-8

Texts as bytes. `encode` writes a text; `decodeLossy` reads any bytes, with one U+FFFD for each
maximal piece that starts a character but does not finish it (or starts none); `decode?` reads
well-formed bytes only. Both readers are the one automaton `scan`, which looks at a byte at a
time and remembers only the character it is in the middle of.
-/

set_option autoImplicit false

namespace ScriptWorker.Text.Utf8

/-- The bytes of one character. -/
def encodeChar (c : Char) : List UInt8 :=
  let n := c.toNat
  if n < 0x80 then [n.toUInt8]
  else if n < 0x800 then [(0xC0 + n / 0x40).toUInt8, (0x80 + n % 0x40).toUInt8]
  else if n < 0x10000 then
    [(0xE0 + n / 0x1000).toUInt8, (0x80 + n / 0x40 % 0x40).toUInt8, (0x80 + n % 0x40).toUInt8]
  else
    [(0xF0 + n / 0x40000).toUInt8, (0x80 + n / 0x1000 % 0x40).toUInt8,
      (0x80 + n / 0x40 % 0x40).toUInt8, (0x80 + n % 0x40).toUInt8]

/-- The bytes of a text. -/
def encode (s : String) : List UInt8 := s.toList.flatMap encodeChar

/-- A character of which some bytes have been read. -/
structure Partial where
  /-- The bits read so far. -/
  value : Nat
  /-- The least byte that may come next. -/
  low : UInt8
  /-- The greatest byte that may come next. -/
  high : UInt8
  /-- How many bytes come after the next one. -/
  left : Nat

/-- What a byte at the start of a character stands for. -/
inductive Lead where
  | char (c : Char)
  | opens (p : Partial)
  | invalid

/-- The role of a first byte. The bounds on the second byte keep out overlong forms, surrogates
and values past the last code point. -/
def lead (b : UInt8) : Lead :=
  let n := b.toNat
  if n < 0x80 then .char (Char.ofNat n)
  else if n < 0xC2 then .invalid
  else if n < 0xE0 then .opens ⟨n - 0xC0, 0x80, 0xBF, 0⟩
  else if n = 0xE0 then .opens ⟨0, 0xA0, 0xBF, 1⟩
  else if n = 0xED then .opens ⟨0xD, 0x80, 0x9F, 1⟩
  else if n < 0xF0 then .opens ⟨n - 0xE0, 0x80, 0xBF, 1⟩
  else if n = 0xF0 then .opens ⟨0, 0x90, 0xBF, 2⟩
  else if n < 0xF4 then .opens ⟨n - 0xF0, 0x80, 0xBF, 2⟩
  else if n = 0xF4 then .opens ⟨4, 0x80, 0x8F, 2⟩
  else .invalid

/-- Reads one byte outside a character: the pieces so far (last first, `none` an invalid one) and
the character it opens. -/
def fresh (out : List (Option Char)) (b : UInt8) : List (Option Char) × Option Partial :=
  match lead b with
  | .char c => (some c :: out, none)
  | .opens p => (out, some p)
  | .invalid => (none :: out, none)

/-- Reads one byte. A byte that cannot go on with the open character ends that as an invalid
piece and is then read afresh. -/
def feed (out : List (Option Char)) (b : UInt8) :
    Option Partial → List (Option Char) × Option Partial
  | none => fresh out b
  | some p =>
    if p.low ≤ b ∧ b ≤ p.high then
      let value := p.value * 0x40 + (b.toNat - 0x80)
      match p.left with
      | 0 => (some (Char.ofNat value) :: out, none)
      | left + 1 => (out, some ⟨value, 0x80, 0xBF, left⟩)
    else fresh (none :: out) b

/-- The pieces of the bytes, last first: characters, and `none` for each invalid piece. -/
def scan (out : List (Option Char)) (state : Option Partial) : List UInt8 → List (Option Char)
  | [] => if state.isSome then none :: out else out
  | b :: rest =>
    let (out, state) := feed out b state
    scan out state rest

/-- The pieces of the bytes in order. -/
def pieces (bytes : List UInt8) : List (Option Char) := (scan [] none bytes).reverse

/-- The text of any bytes, with U+FFFD for each invalid piece. -/
def decodeLossy (bytes : List UInt8) : List Char :=
  (pieces bytes).map (·.getD '\uFFFD')

/-- The text of well-formed bytes. -/
def decode? (bytes : List UInt8) : Option (List Char) :=
  let found := pieces bytes
  if found.all Option.isSome then some (found.filterMap id) else none

end ScriptWorker.Text.Utf8

/-!
# Byte strings

The strings of the script language are any bytes. This module holds the few operations on them
that every other part needs.
-/

set_option autoImplicit false

namespace ScriptWorker.Script

/-- A string of the script language. -/
abbrev Bytes := ByteArray

/-- The bytes of a text. -/
def bytes (s : String) : Bytes := s.toUTF8

/-- The byte of an ASCII character. -/
def byte (c : Char) : UInt8 := c.toNat.toUInt8

/-- The byte at a position. -/
def byteAt? (s : Bytes) (i : Nat) : Option UInt8 :=
  if h : i < s.size then some s[i] else none

/-- The order of two strings from a position on, byte by byte, with the shorter first where one
goes on with the other; `fuel` bounds the bytes looked at. -/
def compareFrom (s t : Bytes) : Nat → Nat → Ordering
  | 0, _ => .eq
  | fuel + 1, i =>
    match byteAt? s i, byteAt? t i with
    | none, none => .eq
    | none, some _ => .lt
    | some _, none => .gt
    | some a, some b => if a < b then .lt else if b < a then .gt else compareFrom s t fuel (i + 1)

/-- The order of two strings. -/
def compareBytes (s t : Bytes) : Ordering := compareFrom s t (s.size + t.size) 0

/-- The bytes up to, but without, the first zero byte. -/
def upToZero (s : Bytes) : Bytes :=
  let l := s.data.toList
  if l.contains 0 then (l.takeWhile (· != 0)).toByteArray else s

/-! ## Classes of bytes -/

/-- Whether a byte lies between two characters. -/
def between (lo hi : Char) (b : UInt8) : Bool := byte lo ≤ b && b ≤ byte hi

/-- A decimal digit. -/
def isDigitByte (b : UInt8) : Bool := between '0' '9' b

/-- A hexadecimal digit. -/
def isHexByte (b : UInt8) : Bool := isDigitByte b || between 'a' 'f' b || between 'A' 'F' b

/-- A letter. -/
def isLetterByte (b : UInt8) : Bool := between 'a' 'z' b || between 'A' 'Z' b

/-- A letter or underscore, which may start a name. -/
def isNameStart (b : UInt8) : Bool := isLetterByte b || b == byte '_'

/-- A letter, underscore or digit, which may go on with a name. -/
def isNameByte (b : UInt8) : Bool := isNameStart b || isDigitByte b

/-- A blank: space, tab, newline, vertical tab, form feed or carriage return. -/
def isBlankByte (b : UInt8) : Bool := b == 0x20 || (0x09 ≤ b && b ≤ 0x0D)

/-- A byte that starts a line. -/
def isLineBreak (b : UInt8) : Bool := b == 0x0A || b == 0x0D

/-- A byte that shows as an ASCII character. -/
def isShown (b : UInt8) : Bool := 0x20 ≤ b && b < 0x7F

/-- The value of a hexadecimal digit. -/
def hexValue (b : UInt8) : Nat :=
  if isDigitByte b then b.toNat - 48
  else if between 'a' 'f' b then b.toNat - 87
  else b.toNat - 55

/-- The bytes of a code point of up to 31 bits, in the scheme of UTF-8 stretched to six bytes. -/
def encodePoint (n : Nat) : List UInt8 :=
  let tail (shift : Nat) : UInt8 := (0x80 + n / Nat.pow 2 shift % 0x40).toUInt8
  if n < 0x80 then [n.toUInt8]
  else if n < 0x800 then [(0xC0 + n / 0x40).toUInt8, tail 0]
  else if n < 0x10000 then [(0xE0 + n / 0x1000).toUInt8, tail 6, tail 0]
  else if n < 0x200000 then [(0xF0 + n / 0x40000).toUInt8, tail 12, tail 6, tail 0]
  else if n < 0x4000000 then
    [(0xF8 + n / 0x1000000).toUInt8, tail 18, tail 12, tail 6, tail 0]
  else [(0xFC + n / 0x40000000).toUInt8, tail 24, tail 18, tail 12, tail 6, tail 0]

end ScriptWorker.Script

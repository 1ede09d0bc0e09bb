import ScriptWorker.Numeric.Decimal
import ScriptWorker.Script.Bytes

/-!
# Numbers of the script language

A number is an integer of 64 bits, which wraps around, or a double. This module reads numerals,
as they stand in programs and in strings that are taken as numbers, and writes numbers.
-/

set_option autoImplicit false

namespace ScriptWorker.Script

open Numeric

/-- A number. -/
inductive Number where
  | int (n : Int64)
  | float (x : Float)

namespace Number

/-- The number nearest to it among the doubles. -/
def toFloat : Number → Float
  | .int n => nearestInt n.toInt
  | .float x => x

/-- The integer that a whole number in the range of integers is. -/
def intOfInt? (n : Int) : Option Int64 :=
  if -0x8000000000000000 ≤ n ∧ n < 0x8000000000000000 then some (Int64.ofInt n) else none

/-- The integer that a double equals. -/
def intOfFloat? (x : Float) : Option Int64 := (wholeOf? x).bind intOfInt?

/-- The integer that a number equals. -/
def toInt? : Number → Option Int64
  | .int n => some n
  | .float x => intOfFloat? x

/-! ## Reading -/

/-- A sign and what follows it. -/
def readSign : List UInt8 → Bool × List UInt8
  | 45 :: rest => (true, rest)
  | 43 :: rest => (false, rest)
  | rest => (false, rest)

/-- Whether only blanks are left. -/
def onlyBlanks (s : List UInt8) : Bool := s.all isBlankByte

/-- The number that decimal digits write. -/
def decimalOf (digits : List UInt8) : Nat :=
  digits.foldl (fun n b => n * 10 + (b.toNat - 48)) 0

/-- The number that hexadecimal digits write. -/
def hexOf (digits : List UInt8) : Nat := digits.foldl (fun n b => n * 16 + hexValue b) 0

/-- What follows `0x`, if that comes first. -/
def afterHexMark? : List UInt8 → Option (List UInt8)
  | 48 :: x :: rest => if x = byte 'x' ∨ x = byte 'X' then some rest else none
  | _ => none

/-- Reads an integer numeral. A hexadecimal one wraps around; a decimal one out of range is no
integer. -/
def readInt? (s : List UInt8) : Option Int64 :=
  let (negative, s) := readSign (s.dropWhile isBlankByte)
  match afterHexMark? s with
  | some s =>
    let (digits, rest) := s.span isHexByte
    if digits.isEmpty || !onlyBlanks rest then none
    else
      let n : Int := hexOf digits
      some (Int64.ofInt (if negative then -n else n))
  | none =>
    let (digits, rest) := s.span isDigitByte
    if digits.isEmpty || !onlyBlanks rest then none
    else
      let n : Int := decimalOf digits
      intOfInt? (if negative then -n else n)

/-- Reads an exponent after its mark, if one is there, and what follows it. -/
def readExponent? (small large : Char) (s : List UInt8) : Int × List UInt8 :=
  match s with
  | [] => (0, [])
  | mark :: after =>
    if mark = byte small ∨ mark = byte large then
      let (negative, after) := readSign after
      let (digits, rest) := after.span isDigitByte
      if digits.isEmpty then (0, s)
      else
        let e : Int := min (decimalOf digits) 100000000
        (if negative then -e else e, rest)
    else (0, s)

/-- Reads digits with a point among or around them: the digits and how many follow the point. -/
def readDigits (isOne : UInt8 → Bool) (s : List UInt8) : List UInt8 × Nat × List UInt8 :=
  let (whole, rest) := s.span isOne
  match rest with
  | 46 :: rest =>
    let (fraction, rest) := rest.span isOne
    (whole ++ fraction, fraction.length, rest)
  | rest => (whole, 0, rest)

/-- The double nearest to `m * 2 ^ e`. -/
def floatOfBinary (negative : Bool) (m : Nat) (e : Int) : Float :=
  let size : Int := m.log2 + e
  if m = 0 ∨ size < -1200 then nearest negative 0 1
  else if 1100 < size then nearest negative (Nat.pow 2 1100) 1
  else
    let (n, d) := scaled m 1 2 (-e)
    nearest negative n d

/-- Reads the numeral of a double. -/
def readFloat? (s : List UInt8) : Option Float :=
  let (negative, s) := readSign (s.dropWhile isBlankByte)
  match afterHexMark? s with
  | some s =>
    let (digits, places, rest) := readDigits isHexByte s
    if digits.isEmpty then none
    else
      let (e, rest) := readExponent? 'p' 'P' rest
      if onlyBlanks rest then some (floatOfBinary negative (hexOf digits) (e - 4 * places))
      else none
  | none =>
    let (digits, places, rest) := readDigits isDigitByte s
    if digits.isEmpty then none
    else
      let (e, rest) := readExponent? 'e' 'E' rest
      if onlyBlanks rest then some (nearestDecimal negative (decimalOf digits) (e - places))
      else none

/-- The number that a numeral writes. -/
def ofBytes? (s : List UInt8) : Option Number :=
  match readInt? s with
  | some n => some (.int n)
  | none => (readFloat? s).map .float

/-! ## Writing -/

/-- The words for a double that is no number. -/
def nanText : String := "-nan"

/-- The text of a double in one of the styles for finite numbers, which get the exact value of
its magnitude as a quotient. -/
def floatText (style : Nat → Nat → List Char) (x : Float) : String :=
  match parts x with
  | .nan => nanText
  | .infinite negative => if negative then "-inf" else "inf"
  | .finite negative m e =>
    let (n, d) := scaled m 1 2 (-e)
    String.ofList (signed negative (style n d))

/-- The text of a double with fourteen significant digits. -/
def shortFloat (x : Float) : String := floatText (fun n d => general n d 14 false) x

/-- The text of a double with, moreover, a sign that it is no integer. -/
def showFloat (x : Float) : String :=
  let text := shortFloat x
  if text.toList.all fun c => c.isDigit || c == '-' then text ++ ".0" else text

/-- The text of a number. -/
def text : Number → String
  | .int n => toString n.toInt
  | .float x => showFloat x

end Number

end ScriptWorker.Script

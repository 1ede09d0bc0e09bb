import ScriptWorker.Script.Numeral

/-!
# Formats

How a conversion of a format string writes a value: sign, alternative form, precision and the
padding to a width.
-/

set_option autoImplicit false

namespace ScriptWorker.Script.Format

open Numeric

/-- What stands between the percent sign and the letter of a conversion. -/
structure Spec where
  left : Bool
  plus : Bool
  space : Bool
  alternative : Bool
  zeros : Bool
  width : Nat
  precision : Option Nat

/-- The longest run of flags, width and precision. -/
def longest : Nat := 21

/-- Whether a byte may stand between the percent sign and the letter. -/
def isModifier (b : UInt8) : Bool :=
  isDigitByte b || "-+ #.".toList.any fun c => byte c == b

/-- Reads at most two digits. -/
def twoDigits (s : List UInt8) : Nat × List UInt8 :=
  match s with
  | a :: b :: rest =>
    if isDigitByte a then
      if isDigitByte b then ((a.toNat - 48) * 10 + (b.toNat - 48), rest)
      else (a.toNat - 48, b :: rest)
    else (0, s)
  | [a] => if isDigitByte a then (a.toNat - 48, []) else (0, s)
  | [] => (0, [])

/-- Reads the modifiers of a conversion of which only some flags are allowed, and possibly no
precision. -/
def readSpec? (modifiers : List UInt8) (flags : String) (precise : Bool) : Option Spec :=
  let isFlag (b : UInt8) : Bool := flags.toList.any fun c => byte c == b
  let (found, rest) := modifiers.span isFlag
  let has (c : Char) : Bool := found.contains (byte c)
  let spec : Spec := ⟨has '-', has '+', has ' ', has '#', has '0', 0, none⟩
  if rest.head? == some (byte '0') then none
  else
    let (width, rest) := twoDigits rest
    match rest with
    | [] => some { spec with width := width }
    | 46 :: rest =>
      if precise then
        let (precision, rest) := twoDigits rest
        if rest.isEmpty then some { spec with width := width, precision := some precision }
        else none
      else none
    | _ => none

/-- Fills a text up to the width with blanks. -/
def Spec.pad (s : Spec) (text : List UInt8) : List UInt8 :=
  let fill := List.replicate (s.width - text.length) (byte ' ')
  if s.left then text ++ fill else fill ++ text

/-- Writes a number with what goes in front of its digits; `zeros` says that zeros may fill up the
width. -/
def Spec.number (s : Spec) (front digits : List Char) (zeros : Bool) : List UInt8 :=
  let size := front.length + digits.length
  let digits :=
    if zeros && s.zeros && !s.left then List.replicate (s.width - size) '0' ++ digits else digits
  s.pad ((front ++ digits).map byte)

/-- The sign of a number. -/
def Spec.sign (s : Spec) (negative : Bool) : List Char :=
  if negative then ['-'] else if s.plus then ['+'] else if s.space then [' '] else []

/-- Digits with zeros in front up to the precision; a zero of precision 0 has no digits. -/
def Spec.precise (s : Spec) (isZero : Bool) (digits : List Char) : List Char :=
  match s.precision with
  | some 0 => if isZero then [] else digits
  | some p => padLeft p digits
  | none => digits

/-- Writes an integer in decimal digits. -/
def Spec.decimal (s : Spec) (n : Int64) : List UInt8 :=
  let digits := s.precise (n == 0) (digitsOf n.toInt.natAbs)
  s.number (s.sign (n < 0)) digits s.precision.isNone

/-- Writes the word of an integer in decimal digits. -/
def Spec.unsigned (s : Spec) (n : Int64) : List UInt8 :=
  s.number [] (s.precise (n == 0) (digitsOf n.toUInt64.toNat)) s.precision.isNone

/-- Writes the word of an integer in octal digits. -/
def Spec.octal (s : Spec) (n : Int64) : List UInt8 :=
  let digits := s.precise (n == 0) (Nat.toDigits 8 n.toUInt64.toNat)
  let digits := if s.alternative && digits.head? != some '0' then '0' :: digits else digits
  s.number [] digits s.precision.isNone

/-- Capital letters for small ones. -/
def capitals (upper : Bool) (text : List Char) : List Char :=
  if upper then text.map Char.toUpper else text

/-- Writes the word of an integer in hexadecimal digits. -/
def Spec.hexadecimal (s : Spec) (upper : Bool) (n : Int64) : List UInt8 :=
  let digits := s.precise (n == 0) (Nat.toDigits 16 n.toUInt64.toNat)
  let front := if s.alternative && n != 0 then ['0', 'x'] else []
  s.number (capitals upper front) (capitals upper digits) s.precision.isNone

/-- Writes a double in a style for its magnitude. -/
def Spec.floating (s : Spec) (upper : Bool) (x : Float) (style : Nat → Nat → List Char) :
    List UInt8 :=
  match parts x with
  | .nan => s.number ['-'] (capitals upper ['n', 'a', 'n']) false
  | .infinite negative => s.number (s.sign negative) (capitals upper ['i', 'n', 'f']) false
  | .finite negative m e =>
    let (n, d) := scaled m 1 2 (-e)
    s.number (s.sign negative) (capitals upper (style n d)) true

/-- Writes a double with digits after the point. -/
def Spec.fixed (s : Spec) (x : Float) : List UInt8 :=
  let places := s.precision.getD 6
  s.floating false x fun n d =>
    let text := Numeric.fixed n d places
    if s.alternative && places = 0 then text ++ ['.'] else text

/-- Writes a double in scientific notation. -/
def Spec.scientific (s : Spec) (upper : Bool) (x : Float) : List UInt8 :=
  s.floating upper x fun n d => Numeric.scientific n d (s.precision.getD 6) s.alternative

/-- Writes a double with so many significant digits. -/
def Spec.general (s : Spec) (upper : Bool) (x : Float) : List UInt8 :=
  s.floating upper x fun n d => Numeric.general n d (s.precision.getD 6) s.alternative

/-! ## Hexadecimal doubles -/

/-- The digits and the exponent of a magnitude: one digit before the point, `places` after it, or
as many as are needed. -/
def hexDigits (m : Nat) (e : Int) (places : Option Nat) : List Char × Int :=
  -- scaled to 52 bits after the point
  let isNormal := decide (0x10000000000000 ≤ m)
  let e : Int := if m = 0 then 0 else if isNormal then e + 52 else -1022
  match places with
  | none =>
    let digits := padLeft 14 (Nat.toDigits 16 m)
    let kept := (digits.reverse.dropWhile (· == '0')).reverse
    (if kept.length < 1 then ['0'] else kept, e)
  | some p =>
    if 13 ≤ p then (padLeft 14 (Nat.toDigits 16 m) ++ List.replicate (p - 13) '0', e)
    else (padLeft (p + 1) (Nat.toDigits 16 (roundDiv m (Nat.pow 16 (13 - p)))), e)

/-- Writes a double in hexadecimal digits with an exponent of two. -/
def Spec.hexFloating (s : Spec) (upper : Bool) (x : Float) : List UInt8 :=
  match parts x with
  | .finite negative m e =>
    let (digits, e) := hexDigits m e s.precision
    let body := match digits with
      | [d] => d :: (if s.alternative then ['.'] else [])
      | d :: rest => d :: '.' :: rest
      | [] => []
    let exponent := 'p' :: (if e < 0 then '-' else '+') :: digitsOf e.natAbs
    s.number (s.sign negative ++ capitals upper ['0', 'x']) (capitals upper (body ++ exponent))
      true
  | _ => s.floating upper x fun _ _ => []

/-! ## Literals -/

/-- A string as a literal of the language. -/
def quoteFrom : List UInt8 → List UInt8
  | [] => []
  | b :: rest =>
    let escaped : List UInt8 :=
      if b == byte '"' || b == byte '\\' || b == 0x0A then [byte '\\', b]
      else if b < 0x20 || b == 0x7F then
        let digits := digitsOf b.toNat
        let isDigitNext := (rest.head?.map isDigitByte).getD false
        byte '\\' :: (if isDigitNext then padLeft 3 digits else digits).map byte
      else [b]
    escaped ++ quoteFrom rest

/-- A string as a literal of the language, in quotes. -/
def quote (s : Bytes) : List UInt8 := byte '"' :: quoteFrom s.data.toList ++ [byte '"']

/-- A number as a literal of the language that reads back exactly. -/
def numberLiteral (n : Number) : List UInt8 :=
  let plain : Spec := ⟨false, false, false, false, false, 0, none⟩
  match n with
  | .int n =>
    if n = Int64.minValue then "0x".toList.map byte ++ plain.hexadecimal false n
    else plain.decimal n
  | .float x =>
    match parts x with
    | .nan => "(0/0)".toList.map byte
    | .infinite negative => (if negative then "-1e9999" else "1e9999").toList.map byte
    | .finite .. => plain.hexFloating false x

end ScriptWorker.Script.Format

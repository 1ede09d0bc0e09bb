import ScriptWorker.Script.Library.Texts

/-!
# Packed values

The functions of the library `string` that lay values out as bytes and read them back. A format
is a sequence of options: each says how one value is laid out, or sets the order of bytes and the
alignment for the options after it.
-/

set_option autoImplicit false

namespace ScriptWorker.Script.Library

open Script.Action

namespace Packing

/-- What an option stands for, with its size in bytes where that is not fixed. -/
inductive Item where
  | signed (size : Nat)
  | unsigned (size : Nat)
  | single
  | double
  /-- A string of so many bytes. -/
  | chars (size : Nat)
  /-- A string after its length, which takes so many bytes. -/
  | counted (size : Nat)
  /-- A string before a zero byte. -/
  | terminated
  /-- One byte that holds nothing. -/
  | padding
  /-- The place where the next option could stand, but not that option. -/
  | alignment
  /-- A setting. -/
  | nothing
  deriving DecidableEq

/-- The bytes that an item takes before the length of any string is known. -/
def Item.size : Item → Nat
  | .signed n | .unsigned n | .chars n | .counted n => n
  | .single => 4
  | .double => 8
  | .padding => 1
  | .terminated | .alignment | .nothing => 0

/-- The settings of a format. -/
structure Layout where
  littleEndian : Bool
  /-- Items stand at multiples of their size, but of no more than this. -/
  maxAlignment : Nat

/-- The settings that a format starts with. -/
def Layout.initial : Layout := ⟨true, 1⟩

/-! ## Numbers as bytes -/

/-- So many bytes of a number, the lowest one first. -/
def lowBytes : Nat → Nat → List UInt8
  | 0, _ => []
  | size + 1, n => (n % 0x100).toUInt8 :: lowBytes size (n / 0x100)

/-- The number whose bytes these are, the lowest one first. -/
def ofLowBytes : List UInt8 → Nat
  | [] => 0
  | b :: rest => b.toNat + 0x100 * ofLowBytes rest

/-- Bytes from the lowest one on, in the order of a layout. -/
def Layout.order (layout : Layout) (low : List UInt8) : List UInt8 :=
  if layout.littleEndian then low else low.reverse

/-- The two's complement of a number, in so many bytes. -/
def complementBytes (size : Nat) (n : Int) : List UInt8 :=
  lowBytes size (n.emod (Nat.pow 0x100 size)).toNat

/-- The number that bytes stand for, the lowest one first, if a 64-bit integer can hold it. -/
def integerOf? (signed : Bool) (low : List UInt8) : Option Int :=
  let n := ofLowBytes (low.take 8)
  let high := low.drop 8
  let negative := signed && 0x8000000000000000 ≤ n
  if low.length < 8 then
    let half := Nat.pow 0x100 low.length / 2
    some (if signed && half ≤ n then (n : Int) - 2 * half else n)
  else if high.all (· == if negative then 0xFF else 0) then some (Int64.ofInt n).toInt
  else none

/-! ## Formats -/

/-- The largest size of an integer. -/
def longestInteger : Nat := 16

/-- Reads a size, which is left out where there is no digit. -/
def size? : List UInt8 → Option Nat × List UInt8
  | b :: rest =>
    if isDigitByte b then more rest (b.toNat - 48) else (none, b :: rest)
  | [] => (none, [])
where
  /-- Goes on with the digits of a size until it is too large. -/
  more : List UInt8 → Nat → Option Nat × List UInt8
    | b :: rest, n =>
      if isDigitByte b && n ≤ (longestText - 9) / 10 then more rest (10 * n + (b.toNat - 48))
      else (some n, b :: rest)
    | [], n => (some n, [])

/-- Reads the size of an integer, with a default. -/
def integerSize (default : Nat) (format : List UInt8) : Action (Nat × List UInt8) := do
  let (n, rest) := size? format
  let n := n.getD default
  if 0 < n ∧ n ≤ longestInteger then return (n, rest)
  else
    failText ("integral size (" ++ toString n ++ ") out of limits [1," ++
      toString longestInteger ++ "]")

/-- Reads what follows the letter of an option. -/
def optionAfter (layout : Layout) (letter : UInt8) (rest : List UInt8) :
    Action (Item × Layout × List UInt8) := do
  match Char.ofNat letter.toNat with
  | 'b' => return (.signed 1, layout, rest)
  | 'B' => return (.unsigned 1, layout, rest)
  | 'h' => return (.signed 2, layout, rest)
  | 'H' => return (.unsigned 2, layout, rest)
  | 'l' | 'j' => return (.signed 8, layout, rest)
  | 'L' | 'J' | 'T' => return (.unsigned 8, layout, rest)
  | 'f' => return (.single, layout, rest)
  | 'd' | 'n' => return (.double, layout, rest)
  | 'i' => do
    let (n, rest) ← integerSize 4 rest
    return (.signed n, layout, rest)
  | 'I' => do
    let (n, rest) ← integerSize 4 rest
    return (.unsigned n, layout, rest)
  | 's' => do
    let (n, rest) ← integerSize 8 rest
    return (.counted n, layout, rest)
  | 'c' =>
    match size? rest with
    | (some n, rest) => return (.chars n, layout, rest)
    | (none, _) => failText "missing size for format option 'c'"
  | 'z' => return (.terminated, layout, rest)
  | 'x' => return (.padding, layout, rest)
  | 'X' => return (.alignment, layout, rest)
  | ' ' => return (.nothing, layout, rest)
  | '<' | '=' => return (.nothing, { layout with littleEndian := true }, rest)
  | '>' => return (.nothing, { layout with littleEndian := false }, rest)
  | '!' => do
    let (n, rest) ← integerSize 8 rest
    return (.nothing, { layout with maxAlignment := n }, rest)
  | _ =>
    fail (bytes "invalid format option '" ++ [letter].toByteArray ++ bytes "'")

/-- The bytes to skip in front of an item at a position so that it stands at a multiple of its
size, which is a power of two. -/
def gap (layout : Layout) (alignment position : Nat) : Action Nat := do
  let alignment := min alignment layout.maxAlignment
  if alignment ≤ 1 then return 0
  else
    requireArg (Nat.pow 2 alignment.log2 == alignment) 1
      "format asks for alignment not power of 2"
    return (alignment - position % alignment) % alignment

/-- Reads an option that starts with a letter, for an item at a position; gives also the bytes to
skip in front of the item. -/
def nextItem (layout : Layout) (position : Nat) (letter : UInt8) (rest : List UInt8) :
    Action (Item × Nat × Layout × List UInt8) := do
  let (item, layout, rest) ← optionAfter layout letter rest
  match item with
  | .chars _ => return (item, 0, layout, rest)
  | .alignment =>
    let invalid {α : Type} : Action α :=
      badArgument 1 (bytes "invalid next option for option 'X'")
    match rest with
    | [] => invalid
    | letter :: rest =>
      let (follower, layout, rest) ← optionAfter layout letter rest
      match follower with
      | .chars _ => invalid
      | _ =>
        if follower.size = 0 then invalid
        else return (item, ← gap layout follower.size position, layout, rest)
  | _ => return (item, ← gap layout item.size position, layout, rest)

/-- The options of a format, which ends at a zero byte. -/
def options (format : Bytes) : List UInt8 := (upToZero format).data.toList

/-! ## Packing -/

/-- The bytes of the argument of a number, if an item takes one. -/
def pack (args : Args) (n : Nat) (layout : Layout) (item : Item) :
    Action (Option (List UInt8)) := do
  match item with
  | .signed size =>
    let i ← intArg args n
    let half : Int := Nat.pow 0x100 size / 2
    requireArg (decide (8 ≤ size ∨ (-half ≤ i ∧ i < half))) n "integer overflow"
    return some (layout.order (complementBytes size i))
  | .unsigned size =>
    let i := (Int64.ofInt (← intArg args n)).toUInt64.toNat
    requireArg (decide (8 ≤ size ∨ i < Nat.pow 0x100 size)) n "unsigned overflow"
    return some (layout.order (lowBytes size i))
  | .single =>
    let x := (← numberArg args n).toFloat
    return some (layout.order (lowBytes 4 x.toFloat32.toBits.toNat))
  | .double =>
    let x := (← numberArg args n).toFloat
    return some (layout.order (lowBytes 8 x.toBits.toNat))
  | .chars size =>
    let s ← stringArg args n
    requireArg (decide (s.size ≤ size)) n "string longer than given size"
    return some (s.data.toList ++ List.replicate (size - s.size) 0)
  | .counted size =>
    let s ← stringArg args n
    requireArg (decide (8 ≤ size ∨ s.size < Nat.pow 0x100 size)) n
      "string length does not fit in given size"
    return some (layout.order (lowBytes size s.size) ++ s.data.toList)
  | .terminated =>
    let s ← stringArg args n
    requireArg (!(s.data.contains 0)) n "string contains zeros"
    return some (s.data.toList ++ [0])
  | .padding | .alignment | .nothing => return none

/-- Goes through a format; `n` is the number of the argument that was used last. -/
def packFrom (args : Args) : Nat → Layout → Nat → List UInt8 → List UInt8 → Action (List UInt8)
  | 0, _, _, _, out => return out.reverse
  | fuel + 1, layout, n, format, out => do
    match format with
    | [] => return out.reverse
    | letter :: rest =>
      let (item, skipped, layout, rest) ← nextItem layout out.length letter rest
      let out := List.replicate skipped 0 ++ out
      match ← pack args (n + 1) layout item with
      | some new => packFrom args fuel layout (n + 1) rest (new.reverse ++ out)
      | none => packFrom args fuel layout n rest (List.replicate item.size 0 ++ out)

/-- The size of what a format lays out, from a position on. -/
def sizeFrom : Nat → Layout → List UInt8 → Nat → Action Nat
  | 0, _, _, total => return total
  | fuel + 1, layout, format, total => do
    match format with
    | [] => return total
    | letter :: rest =>
      let (item, skipped, layout, rest) ← nextItem layout total letter rest
      let fixed : Bool := match item with
        | .counted _ | .terminated => false
        | _ => true
      requireArg fixed 1 "variable-length format"
      let total := total + skipped + item.size
      requireArg (decide (total ≤ longestText)) 1 "format result too large"
      sizeFrom fuel layout rest total

/-! ## Reading back -/

/-- The integer at a position. -/
def integerAt (layout : Layout) (signed : Bool) (s : Bytes) (position size : Nat) :
    Action Int :=
  let found := (s.extract position (position + size)).data.toList
  match integerOf? signed (layout.order found) with
  | some n => return n
  | none => failText (toString size ++ "-byte integer does not fit into Lua Integer")

/-- The value of an item at a position, if it has one, and the position after it. -/
def unpack (layout : Layout) (s : Bytes) (position : Nat) (item : Item) :
    Action (Option Value × Nat) := do
  let after := position + item.size
  let raw := (s.extract position after).data.toList
  match item with
  | .signed size =>
    return (some (.int (Int64.ofInt (← integerAt layout true s position size))), after)
  | .unsigned size =>
    return (some (.int (Int64.ofInt (← integerAt layout false s position size))), after)
  | .single =>
    let bits := ofLowBytes (layout.order raw)
    return (some (.float (Float32.ofBits bits.toUInt32).toFloat), after)
  | .double =>
    let bits := ofLowBytes (layout.order raw)
    return (some (.float (Float.ofBits bits.toUInt64)), after)
  | .chars _ => return (some (text raw), after)
  | .counted size =>
    let length := (Int64.ofInt (← integerAt layout false s position size)).toUInt64.toNat
    requireArg (decide (after + length ≤ s.size)) 2 "data string too short"
    return (some (.str (s.extract after (after + length))), after + length)
  | .terminated =>
    let rest := (s.extract position s.size).data.toList
    requireArg (rest.contains 0) 2 "unfinished string for format 'z'"
    let found := rest.takeWhile (· != 0)
    return (some (text found), position + found.length + 1)
  | .padding | .alignment | .nothing => return (none, after)

/-- Goes through a format from a position on. -/
def unpackFrom (s : Bytes) : Nat → Layout → List UInt8 → Nat → List Value → Results
  | 0, _, _, position, out => return (.ofNat (position + 1) :: out).reverse
  | fuel + 1, layout, format, position, out => do
    match format with
    | [] => return (.ofNat (position + 1) :: out).reverse
    | letter :: rest =>
      let (item, skipped, layout, rest) ← nextItem layout position letter rest
      requireArg (decide (position + skipped + item.size ≤ s.size)) 2 "data string too short"
      let (v, position) ← unpack layout s (position + skipped) item
      unpackFrom s fuel layout rest position (v.toList ++ out)

end Packing

def strPack (args : Args) : Results := do
  let format := Packing.options (← stringArg args 1)
  return [text (← Packing.packFrom args (format.length + 1) .initial 1 format [])]

def strPackSize (args : Args) : Results := do
  let format := Packing.options (← stringArg args 1)
  return [.ofNat (← Packing.sizeFrom (format.length + 1) .initial format 0)]

def strUnpack (args : Args) : Results := do
  let format := Packing.options (← stringArg args 1)
  let s ← stringArg args 2
  let start := startOf (← intArgOr args 3 1) s.size - 1
  requireArg (decide (start ≤ s.size)) 3 "initial position out of string"
  Packing.unpackFrom s (format.length + 1) .initial format start []

end ScriptWorker.Script.Library

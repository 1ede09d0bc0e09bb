import ScriptWorker.Script.Library.Texts

/-!
# Functions on code points

The functions of the library `utf8`, which read strings as sequences of code points in the scheme
of UTF-8, stretched to 31 bits where they are lax.
-/

set_option autoImplicit false

namespace ScriptWorker.Script.Library

open Script.Action

/-- The pattern that matches the bytes of one code point. -/
def charPattern : Bytes :=
  [0x5B, 0x00, 0x2D, 0x7F, 0xC2, 0x2D, 0xFD, 0x5D, 0x5B, 0x80, 0x2D, 0xBF, 0x5D, 0x2A].toByteArray

/-- Whether a byte goes on with a code point. -/
def isContinuation (b : UInt8) : Bool := 0x80 ≤ b && b < 0xC0

/-- Whether the byte at a place goes on with a code point. -/
def continuesAt (s : Bytes) (i : Int) : Bool :=
  if i < 0 then false else ((byteAt? s i.toNat).map isContinuation).getD false

/-- Reads bytes that go on with a code point: how many there are to read is the number of ones
that are left in front of the first byte. -/
def tailFrom (s : Bytes) : Nat → UInt8 → Nat → Nat → Nat → Option (Nat × Nat)
  | 0, _, _, _, _ => none
  | fuel + 1, c, value, i, count =>
    if c &&& 0x40 == 0 then some (value, count)
    else
      match byteAt? s i with
      | some b =>
        if isContinuation b then
          tailFrom s fuel (c <<< 1) (value * 64 + (b.toNat % 64)) (i + 1) (count + 1)
        else none
      | none => none

/-- The least code point that takes so many bytes after the first. -/
def leastOf (count : Nat) : Nat := [0, 0x80, 0x800, 0x10000, 0x200000, 0x4000000].getD count 0

/-- The code point at a place, and the place after it. -/
def pointAt? (s : Bytes) (i : Nat) (strict : Bool) : Option (Nat × Nat) :=
  match byteAt? s i with
  | none => none
  | some b =>
    if b < 0x80 then some (b.toNat, i + 1)
    else
      match tailFrom s 8 b 0 (i + 1) 0 with
      | none => none
      | some (low, count) =>
        let high := (b <<< count.toUInt8).toNat % 128
        let value := low + high * Nat.pow 2 (5 * count)
        if count = 0 ∨ 5 < count ∨ 0x7FFFFFFF < value ∨ value < leastOf count then none
        else if strict && (0x10FFFF < value || (0xD800 ≤ value && value ≤ 0xDFFF)) then none
        else some (value, i + 1 + count)

/-- A position that may be counted from the end. -/
def fromEnd (i : Int) (size : Nat) : Int :=
  if 0 ≤ i then i else if (size : Int) < -i then 0 else size + i + 1

def utfChar (args : Args) : Results := do
  let found ← (List.range args.length).mapM fun i => do
    let n ← intArg args (i + 1)
    requireArg (decide (0 ≤ n ∧ n ≤ 0x7FFFFFFF)) (i + 1) "value out of range"
    return encodePoint n.toNat
  return [text found.flatten]

/-- Counts the code points that start from one place to another. -/
def countPoints (s : Bytes) (lax : Bool) (last : Int) : Nat → Nat → Nat → Value × Option Nat
  | 0, _, n => (.ofNat n, none)
  | fuel + 1, i, n =>
    if last < i then (.ofNat n, none)
    else
      match pointAt? s i (!lax) with
      | some (_, next) => countPoints s lax last fuel next (n + 1)
      | none => (.nil, some (i + 1))

def utfLen (args : Args) : Results := do
  let s ← stringArg args 1
  let i := fromEnd (← intArgOr args 2 1) s.size
  let j := fromEnd (← intArgOr args 3 (-1)) s.size
  let lax := (arg args 4).truthy
  requireArg (decide (1 ≤ i ∧ i - 1 ≤ s.size)) 2 "initial position out of bounds"
  requireArg (decide (j - 1 < s.size)) 3 "final position out of bounds"
  match countPoints s lax (j - 1) (s.size + 1) (i - 1).toNat 0 with
  | (v, none) => return [v]
  | (v, some place) => return [v, .ofNat place]

/-- The code points that start from one place to another. -/
def pointsFrom (s : Bytes) (lax : Bool) (last : Int) : Nat → Nat → Option (List Value)
  | 0, _ => some []
  | fuel + 1, i =>
    if last ≤ i then some []
    else
      match pointAt? s i (!lax) with
      | some (value, next) => (pointsFrom s lax last fuel next).map (.ofNat value :: ·)
      | none => none

def utfCodepoint (args : Args) : Results := do
  let s ← stringArg args 1
  let i := fromEnd (← intArgOr args 2 1) s.size
  let j := fromEnd (← intArgOr args 3 i) s.size
  let lax := (arg args 4).truthy
  requireArg (decide (1 ≤ i)) 2 "out of bounds"
  requireArg (decide (j ≤ s.size)) 3 "out of bounds"
  if j < i then return []
  match pointsFrom s lax j (s.size + 1) (i - 1).toNat with
  | some values => return values
  | none => failText "invalid UTF-8 code"

/-- Moves back to the start of a code point. -/
def backToStart (s : Bytes) : Nat → Int → Int
  | 0, i => i
  | fuel + 1, i => if 0 < i ∧ continuesAt s i = true then backToStart s fuel (i - 1) else i

/-- Moves past the bytes that go on with a code point. -/
def pastTail (s : Bytes) : Nat → Int → Int
  | 0, i => i
  | fuel + 1, i => if continuesAt s i then pastTail s fuel (i + 1) else i

/-- Moves so many code points back; gives also how many are left. -/
def movePointsBack (s : Bytes) : Nat → Int → Int × Nat
  | 0, i => (i, 0)
  | n + 1, i =>
    if i ≤ 0 then (i, n + 1) else movePointsBack s n (backToStart s (s.size + 1) (i - 1))

/-- Moves so many code points on; gives also how many are left. -/
def movePointsOn (s : Bytes) : Nat → Int → Int × Nat
  | 0, i => (i, 0)
  | n + 1, i =>
    if (s.size : Int) ≤ i then (i, n + 1) else movePointsOn s n (pastTail s (s.size + 1) (i + 1))

def utfOffset (args : Args) : Results := do
  let s ← stringArg args 1
  let n ← intArg args 2
  let start : Int := if 0 < n then 1 else s.size + 1
  let i := fromEnd (← intArgOr args 3 start) s.size - 1
  requireArg (decide (0 ≤ i ∧ i ≤ s.size)) 3 "position out of bounds"
  if n = 0 then return [.int (Int64.ofInt (backToStart s (s.size + 1) i + 1))]
  else if continuesAt s i then failText "initial position is a continuation byte"
  else
    let (i, left) :=
      if n < 0 then movePointsBack s (-n).toNat i else movePointsOn s (n - 1).toNat i
    return [if left = 0 then .int (Int64.ofInt (i + 1)) else .nil]

/-- One step of an iteration over code points. -/
def utfStep (strict : Bool) (args : Args) : Results := do
  let s ← stringArg args 1
  let n ← intArg args 2
  let i := (pastTail s (s.size + 1) n).toNat
  if s.size ≤ i then return []
  match pointAt? s i strict with
  | some (value, next) =>
    if continuesAt s next then failText "invalid UTF-8 code"
    else return [.ofNat (i + 1), .ofNat value]
  | none => failText "invalid UTF-8 code"

def utfCodes (args : Args) : Results := do
  let lax := (arg args 2).truthy
  let s ← stringArg args 1
  requireArg (!(continuesAt s 0)) 1 "invalid UTF-8 code"
  return [.builtin (if lax then .utfLaxStep else .utfStep) 0, .str s, .int 0]

end ScriptWorker.Script.Library

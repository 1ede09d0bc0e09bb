import ScriptWorker.Script.Heap

/-!
# Operators on values

What arithmetic, comparison, concatenation and length give without asking metatables, and what
they ask when they give nothing.
-/

set_option autoImplicit false

namespace ScriptWorker.Script

open Numeric

/-! ## Arithmetic -/

/-- What an operator gives. -/
inductive Outcome where
  | value (v : Value)
  /-- Nothing, so the operands' metatables are asked. -/
  | ask
  | fail (message : String)

namespace Number

/-- The quotient of two doubles, rounded down. -/
def floorDivide (x y : Float) : Float := (x / y).floor

/-- The remainder of two doubles with the sign of the second one. -/
def floorRemainder (x y : Float) : Float :=
  let r := remainder x y
  if (if r > 0 then y < 0 else r < 0 && (y > 0 || y.isNaN)) then r + y else r

/-- A power; squares are products. -/
def power (x y : Float) : Float := if y == 2 then x * x else x.pow y

/-- A word shifted to the left, or to the right by a negative amount; zeros come in. -/
def shiftLeft (n by_ : Int64) : Int64 :=
  let n := n.toUInt64
  let b := by_.toInt
  if b ≤ -64 ∨ 64 ≤ b then 0
  else if 0 ≤ b then (n <<< b.toNat.toUInt64).toInt64
  else (n >>> (-b).toNat.toUInt64).toInt64

end Number

/-- An operator on two integers. -/
def onInts (op : BinaryOp) (a b : Int64) : Outcome :=
  let int (n : Int64) : Outcome := .value (.int n)
  let float (x : Float) : Outcome := .value (.float x)
  match op with
  | .add => int (a + b)
  | .sub => int (a - b)
  | .mul => int (a * b)
  | .mod =>
    if b = 0 then .fail "attempt to perform 'n%%0'"
    else int (Int64.ofInt (a.toInt.fmod b.toInt))
  | .idiv =>
    if b = 0 then .fail "attempt to divide by zero"
    else int (Int64.ofInt (a.toInt.fdiv b.toInt))
  | .pow => float (Number.power (nearestInt a.toInt) (nearestInt b.toInt))
  | .div => float (nearestInt a.toInt / nearestInt b.toInt)
  | .band => int (a &&& b)
  | .bor => int (a ||| b)
  | .bxor => int (a ^^^ b)
  | .shl => int (Number.shiftLeft a b)
  | .shr => int (Number.shiftLeft a (if b = Int64.minValue then Int64.maxValue else -b))

/-- An operator on two doubles, if it is one of arithmetic. -/
def onFloats (op : BinaryOp) (x y : Float) : Option Float :=
  match op with
  | .add => some (x + y)
  | .sub => some (x - y)
  | .mul => some (x * y)
  | .mod => some (Number.floorRemainder x y)
  | .idiv => some (Number.floorDivide x y)
  | .pow => some (Number.power x y)
  | .div => some (x / y)
  | _ => none

/-- An operator on two numbers. -/
def onNumbers (op : BinaryOp) (a b : Number) : Outcome :=
  match a, b with
  | .int a, .int b => onInts op a b
  | a, b =>
    match onFloats op a.toFloat b.toFloat with
    | some x => .value (.float x)
    | none =>
      match a.toInt?, b.toInt? with
      | some a, some b => onInts op a b
      | _, _ => .ask

/-- An operator on two values. -/
def applyBinary (op : BinaryOp) (a b : Value) : Outcome :=
  match a.number?, b.number? with
  | some a, some b => onNumbers op a b
  | _, _ => .ask

/-- Whether an operator works on bits. -/
def BinaryOp.onBits : BinaryOp → Bool
  | .band | .bor | .bxor | .shl | .shr => true
  | _ => false

/-- The negative of a number. -/
def negate : Value → Outcome
  | .int n => .value (.int (-n))
  | .float x => .value (.float (-x))
  | _ => .ask

/-- The complement of an integer. -/
def complement (v : Value) : Outcome :=
  match v.number?.bind Number.toInt? with
  | some n => .value (.int (~~~n))
  | none => .ask

/-! ## Comparison -/

/-- How an integer compares with a double that is a number. -/
def compareIntFloat (n : Int64) (x : Float) : Ordering :=
  match parts x with
  | .nan => .eq
  | .infinite negative => if negative then .gt else .lt
  | .finite negative m e =>
    let (num, den) := scaled m 1 2 (-e)
    let num : Int := num
    compare (n.toInt * den) (if negative then -num else num)

/-- Whether a number is less than another, or equal where that is allowed. -/
def lessNumber (orEqual : Bool) (a b : Number) : Bool :=
  match a, b with
  | .int a, .int b => if orEqual then decide (a ≤ b) else decide (a < b)
  | .float x, .float y => if orEqual then decide (x ≤ y) else decide (x < y)
  | .int a, .float y =>
    if y.isNaN then false
    else
      match compareIntFloat a y with
      | .lt => true
      | .eq => orEqual
      | .gt => false
  | .float x, .int b =>
    if x.isNaN then false
    else
      match compareIntFloat b x with
      | .lt => false
      | .eq => orEqual
      | .gt => true

/-- Whether a value is less than another, or equal where that is allowed, if both are numbers or
both are strings. -/
def less? (orEqual : Bool) (a b : Value) : Option Bool :=
  match a, b with
  | .str s, .str t =>
    match compareBytes s t with
    | .lt => some true
    | .eq => some orEqual
    | .gt => some false
  | a, b =>
    match a.number?, b.number? with
    | some a, some b => some (lessNumber orEqual a b)
    | _, _ => none

/-! ## Texts -/

/-- The text of a value that is a string or a number. -/
def textOf? : Value → Option Bytes
  | .str s => some s
  | .int n => some (bytes (Number.int n).text)
  | .float x => some (bytes (Number.float x).text)
  | _ => none

/-- The number that a value is or that a string writes. -/
def numberOf? : Value → Option Number
  | .str s => Number.ofBytes? s.data.toList
  | v => v.number?

/-! ## Messages -/

/-- An origin in parentheses. -/
def originText : Option Origin → Bytes
  | none => .empty
  | some o => bytes (" (" ++ o.kind.text ++ " '") ++ o.name ++ bytes "')"

namespace Heap

/-- An operation was tried on a value of the wrong type. -/
def typeFault (h : Heap) (what : String) (v : Value) (o : Option Origin) : Bytes :=
  bytes ("attempt to " ++ what ++ " a ") ++ h.typeName v ++ bytes " value" ++ originText o

/-- Two values cannot be compared. -/
def compareFault (h : Heap) (a b : Value) : Bytes :=
  let s := h.typeName a
  let t := h.typeName b
  if s == t then bytes "attempt to compare two " ++ s ++ bytes " values"
  else bytes "attempt to compare " ++ s ++ bytes " with " ++ t

/-- An operator with two operands has a wrong one. -/
def operandFault (h : Heap) (op : BinaryOp) (a b : Value) (left right : Option Origin) : Bytes :=
  let wrong (what : String) : Bytes :=
    if a.number?.isNone then h.typeFault what a left else h.typeFault what b right
  if op.onBits then
    if a.number?.isSome && b.number?.isSome then
      let o := if (a.number?.bind Number.toInt?).isNone then left else right
      bytes "number" ++ originText o ++ bytes " has no integer representation"
    else wrong "perform bitwise operation on"
  else wrong "perform arithmetic on"

/-- Two values cannot be concatenated. -/
def concatFault (h : Heap) (a b : Value) (left right : Option Origin) : Bytes :=
  if (textOf? a).isSome then h.typeFault "concatenate" b right
  else h.typeFault "concatenate" a left

/-- The function that the first of two operands, or else the second, has for an event. -/
def binaryHandler (h : Heap) (a b : Value) (event : Bytes) : Value :=
  match h.event a event with
  | .nil => h.event b event
  | f => f

end Heap

end ScriptWorker.Script

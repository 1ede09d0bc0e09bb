import ScriptWorker.Script.Library.Texts

/-!
# Functions on tables

The functions of the library `table`. They reach the items through metatables, so what looks like
a table is good enough.
-/

set_option autoImplicit false

namespace ScriptWorker.Script.Library

open Script.Action

/-- An argument whose items can be reached: a table, or a value with the given events. -/
def itemsArg (args : Args) (n : Nat) (events : List Bytes) : Action Unit :=
  match arg args n with
  | .table _ => return ()
  | v => do
    let able ← read fun h => (h.metatable? v).isSome && events.all fun e => !(h.event v e).isNil
    if able then return () else badType args n "table"

/-- The number of items of an argument. -/
def countArg (args : Args) (n : Nat) (events : List Bytes) : Action Int := do
  itemsArg args n (events ++ [Heap.lenEvent])
  lengthOf (arg args n)

/-- The item at a place. -/
def item (t : Value) (i : Int) : Action Value := getField t (.int (Int64.ofInt i))

/-- Sets the item at a place. -/
def setItem (t : Value) (i : Int) (v : Value) : Action Unit := setField t (.int (Int64.ofInt i)) v

/-- Copies items from one place on to another, the first one first. -/
def copyUp (source : Value) (f : Int) (target : Value) (t : Int) : Nat → Action Unit
  | 0 => return ()
  | n + 1 => do
    setItem target t (← item source f)
    copyUp source (f + 1) target (t + 1) n

/-- Copies items from one place on to another, the last one first. -/
def copyDown (source : Value) (f : Int) (target : Value) (t : Int) : Nat → Action Unit
  | 0 => return ()
  | n + 1 => do
    setItem target (t + n) (← item source (f + n))
    copyDown source f target t n

/-! ## Single functions -/

/-- Joins items from a place on; `last` says which one ends the row. -/
def joinFrom (t : Value) (separator : Bytes) (last : Int) :
    Nat → Int → Bytes → Action Bytes
  | 0, _, out => return out
  | n + 1, i, out => do
    let v ← item t i
    match textOf? v with
    | some s =>
      joinFrom t separator last n (i + 1) (out ++ s ++ (if i < last then separator else .empty))
    | none =>
      failText ("invalid value (" ++ v.typeName ++ ") at index " ++ toString i ++
        " in table for 'concat'")

def tabConcat (args : Args) : Results := do
  let count ← countArg args 1 [Heap.indexEvent]
  let separator ← stringArgOr args 2 .empty
  let i ← intArgOr args 3 1
  let last ← intArgOr args 4 count
  return [.str (← joinFrom (arg args 1) separator last (last - i + 1).toNat i .empty)]

def tabInsert (args : Args) : Results := do
  let e := (← countArg args 1 [Heap.indexEvent, Heap.newIndexEvent]) + 1
  let t := arg args 1
  match args.length with
  | 2 =>
    setItem t e (arg args 2)
    return []
  | 3 =>
    let position ← intArg args 2
    requireArg (decide (1 ≤ position ∧ position ≤ e)) 2 "position out of bounds"
    copyDown t position t (position + 1) (e - position).toNat
    setItem t position (arg args 3)
    return []
  | _ => failText "wrong number of arguments to 'insert'"

def tabRemove (args : Args) : Results := do
  let size ← countArg args 1 [Heap.indexEvent, Heap.newIndexEvent]
  let t := arg args 1
  let position ← intArgOr args 2 size
  if position != size then
    requireArg (decide (1 ≤ position ∧ position ≤ size + 1)) 2 "position out of bounds"
  let v ← item t position
  let count := (size - position).toNat
  copyUp t (position + 1) t position count
  setItem t (position + count) .nil
  return [v]

def tabMove (args : Args) : Results := do
  let f ← intArg args 2
  let e ← intArg args 3
  let t ← intArg args 4
  let n := if isAbsent args 5 then 1 else 5
  itemsArg args 1 [Heap.indexEvent]
  itemsArg args n [Heap.newIndexEvent]
  let target := arg args n
  if f ≤ e then
    requireArg (decide (0 < f ∨ e < 0x7FFFFFFFFFFFFFFF + f)) 3 "too many elements to move"
    let count := (e - f + 1).toNat
    requireArg (decide (t ≤ 0x8000000000000000 - count)) 4 "destination wrap around"
    if e < t ∨ t ≤ f ∨ (n != 1 ∧ (arg args 1).same target = false) then
      copyUp (arg args 1) f target t count
    else copyDown (arg args 1) f target t count
  return [target]

def tabPack (args : Args) : Results := do
  let id ← transact fun h =>
    let t := (args.zipIdx 1).foldl (fun (t : Table) (v, n) => t.insert (.int (Int64.ofNat n)) v)
      (.sized args.length 1)
    h.newTable (t.insert (.str (bytes "n")) (.ofNat args.length))
  return [.table id]

/-- The most values that can be unpacked at once. -/
def unpackLimit : Int := 999900

def tabUnpack (args : Args) : Results := do
  let i ← intArgOr args 2 1
  let e ← if isAbsent args 3 then lengthOf (arg args 1) else intArg args 3
  if e < i then return []
  else if unpackLimit ≤ e - i then failText "too many results to unpack"
  else (List.range (e - i + 1).toNat).mapM fun (k : Nat) => item (arg args 1) (i + k)

/-! ## Sorting -/

/-- The order in which a table is sorted. -/
def precedes (order : Value) (a b : Value) : Action Bool :=
  match order with
  | .nil => lessThan a b
  | f => do return (← callOne f [a, b]).truthy

/-- Swaps two items that have been read. -/
def swap (t : Value) (i j : Int) (v w : Value) : Action Unit := do
  setItem t i w
  setItem t j v

/-- The order is not one. -/
def failOrder {α : Type} : Action α := failText "invalid order function for sorting"

/-- Looks upwards from a place for an item that does not come before the pivot. -/
def scanUp (t order pivot : Value) (last : Int) : Nat → Int → Action (Int × Value)
  | 0, _ => failOrder
  | fuel + 1, i => do
    let v ← item t (i + 1)
    if ← precedes order v pivot then
      if i + 1 = last then failOrder else scanUp t order pivot last fuel (i + 1)
    else return (i + 1, v)

/-- Looks downwards from a place for an item that the pivot does not come before. -/
def scanDown (t order pivot : Value) (first : Int) : Nat → Int → Action (Int × Value)
  | 0, _ => failOrder
  | fuel + 1, j => do
    let v ← item t (j - 1)
    if ← precedes order pivot v then
      if j - 1 < first then failOrder else scanDown t order pivot first fuel (j - 1)
    else return (j - 1, v)

/-- Divides the items between two places by the pivot, which is next to the last place, and gives
the place of the pivot. -/
def divide (t order pivot : Value) (lo up : Int) : Nat → Int → Int → Action Int
  | 0, i, _ => return i
  | fuel + 1, i, j => do
    let (i, v) ← scanUp t order pivot (up - 1) fuel i
    let (j, w) ← scanDown t order pivot i fuel j
    if j < i then
      swap t (up - 1) i pivot v
      return i
    else
      swap t i j v w
      divide t order pivot lo up fuel i j

/-- Sorts the items from one place to another. -/
def sortBetween (t order : Value) (size : Nat) : Nat → Int → Int → Action Unit
  | 0, _, _ => return ()
  | fuel + 1, lo, up => do
    if up ≤ lo then return ()
    let a ← item t lo
    let b ← item t up
    if ← precedes order b a then swap t lo up a b
    if up - lo = 1 then return ()
    let middle := (lo + up) / 2
    let p ← item t middle
    let a ← item t lo
    if ← precedes order p a then swap t middle lo p a
    else
      let b ← item t up
      if ← precedes order b p then swap t middle up p b
    if up - lo = 2 then return ()
    let pivot ← item t middle
    swap t middle (up - 1) pivot (← item t (up - 1))
    let p ← divide t order pivot lo up (2 * size + 4) lo (up - 1)
    if p - lo < up - p then
      sortBetween t order size fuel lo (p - 1)
      sortBetween t order size fuel (p + 1) up
    else
      sortBetween t order size fuel (p + 1) up
      sortBetween t order size fuel lo (p - 1)

def tabSort (args : Args) : Results := do
  let count ← countArg args 1 [Heap.indexEvent, Heap.newIndexEvent]
  if 1 < count then
    requireArg (decide (count < 0x7FFFFFFF)) 1 "array too big"
    match arg args 2 with
    | .nil | .closure _ | .builtin .. => pure ()
    | _ => badType args 2 "function"
    sortBetween (arg args 1) (arg args 2) count.toNat (count.toNat + 1) 1 count
  return []

end ScriptWorker.Script.Library

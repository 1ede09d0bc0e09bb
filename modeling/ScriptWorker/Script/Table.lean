import Std.Data.TreeMap
import ScriptWorker.Script.Value

/-!
# Tables

A table keeps the values of the integers from one on in an array, as far as that array goes, and
all others by key. What the length of a table with gaps is depends on the size of the array, so
the rule by which the array grows belongs to the language: it grows only when a new key finds no
room among the others, and then to the greatest power of two of which more than half is in use.
-/

set_option autoImplicit false

namespace ScriptWorker.Script

/-- A table. -/
structure Table where
  /-- The values of the integers from one on; the gaps hold `nil`. -/
  items : Array Value
  /-- The values of other keys. A key whose value was taken away stays, with `nil`, until the
  table makes room. -/
  entries : Std.TreeMap Key Value Key.order
  /-- How many keys there is room for beside the array. -/
  room : Nat
  metatable : Option Nat

namespace Table

/-- The least power of two not below a number, or 0 for 0. -/
def powerAbove (n : Nat) : Nat :=
  if n ≤ 1 then n else Nat.pow 2 ((n - 1).log2 + 1)

/-- An empty table with an array of the given size and room for more keys. -/
def sized (items room : Nat) : Table :=
  ⟨Array.replicate items .nil, {}, powerAbove room, none⟩

/-- An empty table. -/
def empty : Table := sized 0 0

/-- The place of an integer in an array of the given size. -/
def place? (size : Nat) (n : Int64) : Option Nat :=
  let n := n.toInt
  if 1 ≤ n ∧ n ≤ size then some (n.toNat - 1) else none

/-- The value of a key. -/
def find (t : Table) (k : Key) : Value :=
  match k with
  | .int n =>
    match place? t.items.size n with
    | some i => t.items.getD i .nil
    | none => t.entries.getD k .nil
  | k => t.entries.getD k .nil

/-- The value of a string. -/
def findText (t : Table) (s : Bytes) : Value := t.entries.getD (.str s) .nil

/-! ## Making room -/

/-- The bin in which an integer key is counted: bin `i` holds those above `2 ^ (i - 1)` up to
`2 ^ i`. -/
def bin? (k : Key) : Option Nat :=
  match k with
  | .int n =>
    let n := n.toInt
    if 1 ≤ n ∧ n ≤ 0x40000000 then
      let n := n.toNat
      some (if n = 1 then 0 else (n - 1).log2 + 1)
    else none
  | _ => none

/-- Counts a key in its bin. -/
def count (bins : Array Nat) (k : Key) : Array Nat :=
  match bin? k with
  | some i => bins.modify i (· + 1)
  | none => bins

/-- The greatest power of two of which more than half would be in use: `total` integers are still
to be counted, and `below` is the number of those in the bins already passed. -/
def arraySize (bins : Array Nat) (total : Nat) : Nat → Nat → Nat → Nat → Nat
  | 0, _, _, best => best
  | fuel + 1, i, below, best =>
    if total ≤ Nat.pow 2 i / 2 then best
    else
      let below := below + bins.getD i 0
      arraySize bins total fuel (i + 1) below (if Nat.pow 2 i / 2 < below then Nat.pow 2 i else best)

/-- The keys that have a value. -/
def live (t : Table) : List (Key × Value) :=
  t.entries.toList.filter fun (_, v) => !v.isNil

/-- Puts an entry where it belongs without looking for room. -/
def place (t : Table) (k : Key) (v : Value) : Table :=
  match k with
  | .int n =>
    match place? t.items.size n with
    | some i => { t with items := t.items.set! i v }
    | none => { t with entries := t.entries.insert k v }
  | k => { t with entries := t.entries.insert k v }

/-- Gives the array the given size and makes room for so many keys beside it. -/
def resize (t : Table) (size room : Nat) : Table :=
  let old := t.items
  let fresh : Table := {
    items := old.extract 0 size ++ Array.replicate (size - old.size) .nil
    entries := {}
    room := powerAbove room
    metatable := t.metatable }
  let moved := (old.extract size old.size).toList.zipIdx (size + 1)
  let fresh := moved.foldl
    (fun t (v, n) => if v.isNil then t else t.place (.int (Int64.ofNat n)) v) fresh
  t.live.foldl (fun t (k, v) => t.place k v) fresh

/-- Makes room for one more key. -/
def makeRoom (t : Table) (k : Key) : Table :=
  let live := t.live
  let bins := Array.replicate 31 0
  let (bins, used, _) := t.items.foldl
    (fun ((bins, used, n) : Array Nat × Nat × Nat) v =>
      if v.isNil then (bins, used, n + 1)
      else (count bins (.int (Int64.ofNat n)), used + 1, n + 1)) (bins, 0, 1)
  let bins := live.foldl (fun bins (k, _) => count bins k) bins
  let bins := count bins k
  let size := arraySize bins (bins.foldl (· + ·) 0) 31 0 0 0
  let inArray := (List.range 31).foldl (fun n i => if Nat.pow 2 i ≤ size then n + bins.getD i 0 else n) 0
  t.resize size (used + live.length + 1 - inArray)

/-- Gives a key a value. A new key for which there is no room makes the table grow. -/
def insert (t : Table) (k : Key) (v : Value) : Table :=
  let inArray : Bool := match k with
    | .int n => (place? t.items.size n).isSome
    | _ => false
  if inArray || t.entries.contains k then t.place k v
  else if v.isNil then t
  else if t.entries.size < t.room then { t with entries := t.entries.insert k v }
  else (t.makeRoom k).place k v

/-! ## Length -/

/-- Whether an integer has a value in the array. -/
def has (t : Table) (n : Nat) : Bool := !(t.items.getD (n - 1) .nil).isNil

/-- A border in the array between `i`, which is in use or 0, and `j`, which is not. -/
def borderBetween (t : Table) : Nat → Nat → Nat → Nat
  | 0, i, _ => i
  | fuel + 1, i, j =>
    if j ≤ i + 1 then i
    else
      let m := (i + j) / 2
      if t.has m then borderBetween t fuel m j else borderBetween t fuel i m

/-- Whether an integer has a value among the entries. -/
def hasEntry (t : Table) (n : Nat) : Bool :=
  !(t.entries.getD (.int (Int64.ofNat n)) .nil).isNil

/-- A border among the entries between `i`, which is in use, and `j`, which is not. -/
def entryBorder (t : Table) : Nat → Nat → Nat → Nat
  | 0, i, _ => i
  | fuel + 1, i, j =>
    if j ≤ i + 1 then i
    else
      let m := (i + j) / 2
      if t.hasEntry m then entryBorder t fuel m j else entryBorder t fuel i m

/-- Doubles a number until it is not in use among the entries, then looks for a border. -/
def entryBorderFrom (t : Table) : Nat → Nat → Nat
  | 0, i => i
  | fuel + 1, i =>
    let j := if i = 0 then 1 else 2 * i
    if t.hasEntry j then entryBorderFrom t fuel j else entryBorder t 64 i j

/-- A border of the table: an integer in use, or 0, before one that is not. -/
def length (t : Table) : Nat :=
  let size := t.items.size
  if 0 < size ∧ t.has size = false then
    if 2 ≤ size ∧ t.has (size - 1) = true then size - 1
    else borderBetween t 64 0 size
  else if t.hasEntry (size + 1) then entryBorderFrom t 64 (size + 1)
  else size

/-! ## Iteration -/

/-- The first entry from a place in the array on, and then of all others. -/
def firstFrom (t : Table) : Nat → Nat → Option (Key × Value)
  | 0, _ => t.live.head?
  | fuel + 1, i =>
    match t.items[i]? with
    | some v =>
      if v.isNil then firstFrom t fuel (i + 1) else some (.int (Int64.ofNat (i + 1)), v)
    | none => t.live.head?

/-- The first key after another one that has a value. -/
def entryAfter (t : Table) : Nat → Key → Option (Key × Value)
  | 0, _ => none
  | fuel + 1, k =>
    match t.entries.getEntryGT? k with
    | some (k, v) => if v.isNil then entryAfter t fuel k else some (k, v)
    | none => none

/-- The first entry. -/
def first (t : Table) : Option (Key × Value) := t.firstFrom (t.items.size + 1) 0

/-- The entry after a key, or nothing at all if the key is unknown. -/
def next? (t : Table) (k : Key) : Option (Option (Key × Value)) :=
  let inEntries : Option (Option (Key × Value)) :=
    if t.entries.contains k then some (t.entryAfter t.entries.size k) else none
  match k with
  | .int n =>
    match place? t.items.size n with
    | some i => some (t.firstFrom (t.items.size + 1) (i + 1))
    | none => inEntries
  | _ => inEntries

/-- All entries, those of the array first. -/
def toList (t : Table) : List (Key × Value) :=
  ((t.items.toList.zipIdx 1).filterMap fun (v, n) =>
    if v.isNil then none else some (.int (Int64.ofNat n), v)) ++ t.live

end Table

end ScriptWorker.Script

import ScriptWorker.Loading.Error
import ScriptWorker.Script.Library.Output

/-!
# JSON values and values of the language

`decode` makes a value of the language from a JSON value and `encode` goes back. An array becomes a
table with the metatable of arrays, by which it stays an array even when it is empty; `null`
becomes a value of its own inside arrays and objects, so that they keep their length, and `nil`
where it stands alone.
-/

set_option autoImplicit false

namespace ScriptWorker.Loading.Bridge

open Script

/-! ## From JSON -/

/-- A string of the language. -/
def textValue (s : String) : Value := .str (Text.Utf8.encode s).toByteArray

/-- A whole number; one past the integers of the language becomes a double. -/
def wholeValue (n : Int) : Value :=
  match Number.intOfInt? n with
  | some n => .int n
  | none => .float (Numeric.nearestInt n)

/-- The table for an array with the given items. -/
def arrayTable (items : List Value) : Table :=
  ⟨items.toArray, {}, 0, some Heap.arrayMeta⟩

/-- The table for an object with the given members. -/
def objectTable (members : List (String × Value)) : Table :=
  members.foldl
    (fun t (k, v) => { t with
      entries := t.entries.insert (.str (Text.Utf8.encode k).toByteArray) v })
    (Table.sized 0 members.length)

mutual

/-- The value for a JSON value inside an array or object. -/
def decodeInner (h : Heap) : Json.Value → Value × Heap
  | .null => (.null, h)
  | .bool b => (.bool b, h)
  | .int n => (wholeValue n, h)
  | .float x => (.float x, h)
  | .string s => (textValue s, h)
  | .array items =>
    let (items, h) := decodeItems h items
    let (id, h) := h.newTable (arrayTable items)
    (.table id, h)
  | .object members =>
    let (members, h) := decodeMembers h members
    let (id, h) := h.newTable (objectTable members)
    (.table id, h)

/-- The values for the items of an array. -/
def decodeItems (h : Heap) : List Json.Value → List Value × Heap
  | [] => ([], h)
  | v :: rest =>
    let (v, h) := decodeInner h v
    let (rest, h) := decodeItems h rest
    (v :: rest, h)

/-- The values for the members of an object. -/
def decodeMembers (h : Heap) : List (String × Json.Value) → List (String × Value) × Heap
  | [] => ([], h)
  | (k, v) :: rest =>
    let (v, h) := decodeInner h v
    let (rest, h) := decodeMembers h rest
    ((k, v) :: rest, h)

end

/-- The value for a JSON value. -/
def decode (h : Heap) : Json.Value → Value × Heap
  | .null => (.nil, h)
  | v => decodeInner h v

/-! ## To JSON -/

/-- The text of a string, if it is one. -/
def text? (s : Bytes) : Option String := (Text.Utf8.decode? s.data.toList).map String.ofList

/-- Whether a table counts as an array. -/
def isArray (t : Table) : Bool := decide (0 < t.length) || t.metatable == some Heap.arrayMeta

/-- The values of the integers from one on, up to the first that has none. -/
def itemsFrom (t : Table) : Nat → Nat → List Value
  | 0, _ => []
  | fuel + 1, n =>
    match t.find (.int (Int64.ofNat n)) with
    | .nil => []
    | v => v :: itemsFrom t fuel (n + 1)

/-- The items of a table that counts as an array. -/
def items (t : Table) : List Value := itemsFrom t (t.items.size + t.entries.size) 1

/-- Doubles in messages have a point, and no exponent. -/
def keyLayout : Numeric.Layout := ⟨-400, none, true, 1⟩

/-- A double in messages. -/
def keyFloatText (x : Float) : String :=
  match Numeric.parts x with
  | .finite negative m e => String.ofList (Numeric.signed negative (keyLayout.shortestText m e))
  | _ => Library.printedFloat x

/-- The name of an object's member. -/
def memberName (h : Heap) (k : Value) : Except EncodingFault String :=
  let bad (described : String) : Except EncodingFault String := .error (.badKey described)
  match k with
  | .str s =>
    match text? s with
    | some name => .ok name
    | none => bad "byte array"
  | .nil => bad "unit value"
  | .bool b => bad ("boolean `" ++ (if b then "true" else "false") ++ "`")
  | .int n => bad ("integer `" ++ toString n.toInt ++ "`")
  | .float x => bad ("floating point `" ++ keyFloatText x ++ "`")
  | .table id => bad (if isArray (h.table id) then "sequence" else "map")
  | .null => bad "Option value"
  | v => .error (.unsupported (Library.kindName v))

/-- Refuses a table that is one of the given ones. -/
def checkFresh (above : List Nat) : Value → Except EncodingFault Unit
  | .table id => if above.contains id then .error .recursive else .ok ()
  | _ => .ok ()

/-- The JSON value of a value inside the tables `above`. `fuel` bounds how deeply tables are
nested, which their number does too, since none is inside itself. -/
def encodeInner (h : Heap) : Nat → List Nat → Value → Except EncodingFault Json.Value
  | _, _, .nil | _, _, .null => .ok .null
  | _, _, .bool b => .ok (.bool b)
  | _, _, .int n => .ok (.int n.toInt)
  | _, _, .float x => .ok (if x.isFinite then .float x else .null)
  | _, _, .str s =>
    match text? s with
    | some s => .ok (.string s)
    | none => .error .notText
  | 0, _, .table _ => .error .recursive
  | fuel + 1, above, .table id => do
    checkFresh above (.table id)
    let t := h.table id
    let above := id :: above
    if isArray t then
      return .array (← (items t).mapM (encodeInner h fuel above))
    else
      let members ← t.toList.mapM fun (k, v) => do
        checkFresh above k.toValue
        checkFresh above v
        let name ← memberName h k.toValue
        return (name, ← encodeInner h fuel above v)
      return .ofMembers members
  | _, _, v => .error (.unsupported (Library.kindName v))

/-- The JSON value of a value. -/
def encode (h : Heap) (v : Value) : Except EncodingFault Json.Value :=
  encodeInner h (h.tables.size + 1) [] v

end ScriptWorker.Loading.Bridge

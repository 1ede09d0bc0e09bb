import ScriptWorker.Script.Builtin
import ScriptWorker.Script.Numeral

/-!
# Values

The values of the language. A table, a closure or a coroutine is a reference into a store, so two
of them are equal if they are the same one.
-/

set_option autoImplicit false

namespace ScriptWorker.Script

/-- A value. -/
inductive Value where
  | nil
  | bool (b : Bool)
  | int (n : Int64)
  | float (x : Float)
  | str (s : Bytes)
  | table (id : Nat)
  | closure (id : Nat)
  /-- A built-in function; `memory` tells apart those that remember something. -/
  | builtin (f : Builtin) (memory : Nat)
  | thread (id : Nat)
  /-- Stands for a missing value inside JSON documents. -/
  | null
  /-- A file, by number. -/
  | file (id : Nat)
  /-- An error of the host. -/
  | fault (message : String)
  deriving Inhabited

namespace Value

/-- The value of a number. -/
def ofNumber : Number → Value
  | .int n => .int n
  | .float x => .float x

/-- A number as a value of the language. -/
def ofNat (n : Nat) : Value := .int (Int64.ofNat n)

/-- A text as a value of the language. -/
def ofText (s : String) : Value := .str (bytes s)

/-- The number that a value is. -/
def number? : Value → Option Number
  | .int n => some (.int n)
  | .float x => some (.float x)
  | _ => none

/-- Whether a value counts as true: all but `nil` and `false` do. -/
def truthy : Value → Bool
  | .nil | .bool false => false
  | _ => true

/-- Whether a value is `nil`. -/
def isNil : Value → Bool
  | .nil => true
  | _ => false

/-- The name of a value's type. -/
def typeName : Value → String
  | .nil => "nil"
  | .bool _ => "boolean"
  | .int _ | .float _ => "number"
  | .str _ => "string"
  | .table _ => "table"
  | .closure _ | .builtin .. => "function"
  | .thread _ => "thread"
  | .null | .file _ | .fault _ => "userdata"

/-- Whether two values are the same without looking into them. Numbers are the same if they are
equal. -/
def same : Value → Value → Bool
  | .nil, .nil => true
  | .bool a, .bool b => a == b
  | .int a, .int b => a == b
  | .float a, .float b => a == b
  | .int a, .float b | .float b, .int a => Number.intOfFloat? b == some a
  | .str a, .str b => a == b
  | .table a, .table b => a == b
  | .closure a, .closure b => a == b
  | .builtin f m, .builtin g n => f == g && m == n
  | .thread a, .thread b => a == b
  | .null, .null => true
  | .file a, .file b => a == b
  | _, _ => false

end Value

/-! ## Keys -/

/-- What a table finds values by. A number that equals an integer is that integer. -/
inductive Key where
  | bool (b : Bool)
  | int (n : Int64)
  | float (bits : UInt64)
  | str (s : Bytes)
  | table (id : Nat)
  | closure (id : Nat)
  | builtin (f : Builtin) (memory : Nat)
  | thread (id : Nat)
  | null
  | file (id : Nat)
  | fault (message : String)

namespace Key

/-- The place of a key's kind among the kinds. -/
def rank : Key → Nat
  | .int _ => 0
  | .str _ => 1
  | .float _ => 2
  | .bool _ => 3
  | .table _ => 4
  | .closure _ => 5
  | .builtin .. => 6
  | .thread _ => 7
  | .null => 8
  | .file _ => 9
  | .fault _ => 10

/-- The order of keys: by kind, then within the kind. -/
def order : Key → Key → Ordering
  | .int a, .int b => compare a.toInt b.toInt
  | .str a, .str b => compareBytes a b
  | .float a, .float b => compare a.toNat b.toNat
  | .bool a, .bool b => compare a.toNat b.toNat
  | .table a, .table b => compare a b
  | .closure a, .closure b => compare a b
  | .builtin f m, .builtin g n => (compare f.ctorIdx g.ctorIdx).then (compare m n)
  | .thread a, .thread b => compare a b
  | .null, .null => .eq
  | .file a, .file b => compare a b
  | .fault a, .fault b => compareBytes (bytes a) (bytes b)
  | a, b => compare a.rank b.rank

/-- The key that a value is; `nil` and what is no number are none. -/
def ofValue? : Value → Option Key
  | .nil => none
  | .bool b => some (.bool b)
  | .int n => some (.int n)
  | .float x =>
    match Number.intOfFloat? x with
    | some n => some (.int n)
    | none => if x.isNaN then none else some (.float x.toBits)
  | .str s => some (.str s)
  | .table id => some (.table id)
  | .closure id => some (.closure id)
  | .builtin f m => some (.builtin f m)
  | .thread id => some (.thread id)
  | .null => some .null
  | .file id => some (.file id)
  | .fault m => some (.fault m)

/-- A key as a value. -/
def toValue : Key → Value
  | .bool b => .bool b
  | .int n => .int n
  | .float bits => .float (Float.ofBits bits)
  | .str s => .str s
  | .table id => .table id
  | .closure id => .closure id
  | .builtin f m => .builtin f m
  | .thread id => .thread id
  | .null => .null
  | .file id => .file id
  | .fault m => .fault m

end Key

end ScriptWorker.Script

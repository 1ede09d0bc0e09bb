import ScriptWorker.Script.Code
import ScriptWorker.Script.Table

/-!
# The heap

Everything that values refer to: tables, the cells of variables that closures take along, the
closures themselves and files. The heap only grows. It also keeps what was printed.
-/

set_option autoImplicit false

namespace ScriptWorker.Script

/-- A function of the language with the cells of the variables that it took along. -/
structure Closure where
  proto : Proto
  captured : Array Nat

/-- A search through a text that goes on where it stopped. -/
structure Search where
  subject : Bytes
  pattern : Bytes
  position : Nat
  /-- The end of the match before, which the next one must not share. -/
  lastEnd : Option Nat

/-- What kind of file it is, which decides how it is closed. -/
inductive StreamKind where
  /-- One of the standard streams, which programs cannot close. -/
  | standard
  | file
  /-- The output or input of a process. -/
  | process

/-- A file as programs see it. -/
structure Stream where
  /-- The system's number for it, until it is closed. -/
  handle : Option Nat
  kind : StreamKind

/-- An iteration over a file: what it reads in each round, and whether it closes the file. -/
structure LineReader where
  stream : Nat
  formats : List Value
  closes : Bool

/-- The state of a generator of random numbers. -/
structure Generator where
  s0 : UInt64
  s1 : UInt64
  s2 : UInt64
  s3 : UInt64

/-- The heap. -/
structure Heap where
  tables : Array Table
  cells : Array Value
  closures : Array Closure
  searches : Array Search
  streams : Array Stream
  readers : Array LineReader
  /-- The file that is read from where none is named. -/
  input : Nat
  /-- The file that is flushed and closed where none is named. -/
  output : Nat
  /-- The generator of random numbers, from the first time on that one is asked for. -/
  generator : Option Generator
  /-- The lines printed, the last one first. -/
  printed : List String

namespace Heap

/-! ## Well-known tables -/

/-- The table of global variables. -/
def globals : Nat := 0

/-- The metatable of strings. -/
def stringMeta : Nat := 1

/-- The modules that are loaded, by name. -/
def loaded : Nat := 2

/-- The functions that load modules of given names. -/
def preload : Nat := 3

/-- The handle of the standard output. -/
def stdout : Nat := 4

/-- The metatable of arrays that come from outside. -/
def arrayMeta : Nat := 5

/-- The metatable of files. -/
def fileMeta : Nat := 6

/-- The table of a module of the standard library, the first of them next to the ones above. -/
def library (i : Nat) : Nat := 7 + i

/-! ## Tables -/

/-- Puts a table on the heap. -/
def newTable (t : Table) (h : Heap) : Nat × Heap :=
  (h.tables.size, { h with tables := h.tables.push t })

/-- The table of a number. -/
def table (h : Heap) (id : Nat) : Table := h.tables.getD id .empty

/-- Changes a table. -/
def modifyTable (id : Nat) (f : Table → Table) (h : Heap) : Heap :=
  { h with tables := h.tables.modify id f }

/-- The value of a key in a table, without its metatable. -/
def rawGet (h : Heap) (id : Nat) (k : Value) : Value :=
  match Key.ofValue? k with
  | some k => (h.table id).find k
  | none => .nil

/-- What a value cannot be as a key. -/
def keyFault (k : Value) : String :=
  match k with
  | .nil => "table index is nil"
  | _ => "table index is NaN"

/-- Sets the value of a key in a table, without its metatable. -/
def rawSet (h : Heap) (id : Nat) (k v : Value) : Except String Unit × Heap :=
  match Key.ofValue? k with
  | some k => (.ok (), h.modifyTable id (·.insert k v))
  | none => (.error (keyFault k), h)

/-! ## Metatables -/

/-- The metatable of a value. -/
def metatable? (h : Heap) : Value → Option Nat
  | .table id => (h.table id).metatable
  | .str _ => some stringMeta
  | .file _ => some fileMeta
  | _ => none

/-- What a value's metatable has under a name, or `nil`. -/
def event (h : Heap) (v : Value) (name : Bytes) : Value :=
  match h.metatable? v with
  | some id => (h.table id).findText name
  | none => .nil

/-! ## Events -/

/-- The names of the events in metatables. -/
def indexEvent : Bytes := bytes "__index"
@[inherit_doc indexEvent] def newIndexEvent : Bytes := bytes "__newindex"
@[inherit_doc indexEvent] def callEvent : Bytes := bytes "__call"
@[inherit_doc indexEvent] def lenEvent : Bytes := bytes "__len"
@[inherit_doc indexEvent] def eqEvent : Bytes := bytes "__eq"
@[inherit_doc indexEvent] def ltEvent : Bytes := bytes "__lt"
@[inherit_doc indexEvent] def leEvent : Bytes := bytes "__le"
@[inherit_doc indexEvent] def concatEvent : Bytes := bytes "__concat"
@[inherit_doc indexEvent] def closeEvent : Bytes := bytes "__close"
@[inherit_doc indexEvent] def textEvent : Bytes := bytes "__tostring"
@[inherit_doc indexEvent] def nameEvent : Bytes := bytes "__name"
@[inherit_doc indexEvent] def pairsEvent : Bytes := bytes "__pairs"
@[inherit_doc indexEvent] def metatableEvent : Bytes := bytes "__metatable"

/-- The name of a value's type in messages, which a metatable may set. -/
def typeName (h : Heap) (v : Value) : Bytes :=
  let named : Value := match v with
    | .table _ | .file _ => h.event v nameEvent
    | _ => .nil
  match named with
  | .str s => s
  | _ => bytes v.typeName

/-- The event of an operator with one operand. -/
def unaryEvent : UnaryOp → Bytes
  | .neg => bytes "__unm"
  | .len => lenEvent
  | .bnot => bytes "__bnot"
  | .not => .empty

/-- The event of an operator with two operands. -/
def binaryEvent : BinaryOp → Bytes
  | .add => bytes "__add"
  | .sub => bytes "__sub"
  | .mul => bytes "__mul"
  | .mod => bytes "__mod"
  | .pow => bytes "__pow"
  | .div => bytes "__div"
  | .idiv => bytes "__idiv"
  | .band => bytes "__band"
  | .bor => bytes "__bor"
  | .bxor => bytes "__bxor"
  | .shl => bytes "__shl"
  | .shr => bytes "__shr"

/-- The name of an event in messages. -/
def eventName (e : Bytes) : Bytes := e.extract 2 e.size

/-! ## Fields with metatables -/

/-- Whether a value is a function. -/
def isFunction : Value → Bool
  | .closure _ | .builtin .. => true
  | _ => false

/-- What reading or writing a field comes to. -/
inductive Access where
  /-- It is done, with this value where one is read. -/
  | done (v : Value)
  /-- A function has to be called with these arguments. -/
  | call (f : Value) (args : List Value)
  /-- The value has no fields; `direct` says whether it is the one given. -/
  | bad (v : Value) (direct : Bool)
  /-- It fails with this message. -/
  | fail (message : String)

/-- How many metatables one access may lead through. -/
def chainLimit : Nat := 2000

/-- Reads a field, asking metatables where there is none. -/
def getFrom (h : Heap) (direct : Bool) : Nat → Value → Value → Access
  | 0, _, _ => .fail "'__index' chain too long; possibly a loop"
  | fuel + 1, t, k =>
    let ask (absent : Access) : Access :=
      match h.event t indexEvent with
      | .nil => absent
      | f => if isFunction f then .call f [t, k] else getFrom h false fuel f k
    match t with
    | .table id =>
      match h.rawGet id k with
      | .nil => if (h.table id).metatable.isNone then .done .nil else ask (.done .nil)
      | v => .done v
    | _ => ask (.bad t direct)

/-- Reads a field. -/
def get (h : Heap) (t k : Value) : Access := h.getFrom true chainLimit t k

/-- Where a field is written: into a table, or somewhere else. -/
inductive Target where
  | table (id : Nat)
  | other (a : Access)

/-- Finds where a field is written, asking metatables where there is none yet. -/
def targetFrom (h : Heap) (direct : Bool) : Nat → Value → Value → Value → Target
  | 0, _, _, _ => .other (.fail "'__newindex' chain too long; possibly a loop")
  | fuel + 1, t, k, v =>
    let ask (absent : Target) : Target :=
      match h.event t newIndexEvent with
      | .nil => absent
      | f => if isFunction f then .other (.call f [t, k, v]) else targetFrom h false fuel f k v
    match t with
    | .table id =>
      if (h.table id).metatable.isNone then .table id
      else if (h.rawGet id k).isNil then ask (.table id)
      else .table id
    | _ => ask (.other (.bad t direct))

/-- Writes a field. -/
def set (h : Heap) (t k v : Value) : Access × Heap :=
  match h.targetFrom true chainLimit t k v with
  | .table id =>
    match h.rawSet id k v with
    | (.ok (), h) => (.done .nil, h)
    | (.error message, h) => (.fail message, h)
  | .other a => (a, h)

/-! ## Calls -/

/-- Why a value cannot be called. -/
inductive CallFault where
  /-- The value, or the one that stands for it in the end, has nothing to be called. -/
  | notCallable (v : Value)
  /-- Ever another value stands for it. -/
  | endless

/-- What a call of a value comes to: a function and its arguments. A value that is no function comes
first among the arguments of the one that its metatable has for it. -/
def callee (h : Heap) : Nat → Value → List Value → Except CallFault (Value × List Value)
  | 0, _, _ => .error .endless
  | fuel + 1, f, args =>
    if isFunction f then .ok (f, args)
    else
      match h.event f callEvent with
      | .nil => .error (.notCallable f)
      | g => callee h fuel g (f :: args)

/-! ## Cells and closures -/

/-- Puts a value into a new cell. -/
def newCell (v : Value) (h : Heap) : Nat × Heap :=
  (h.cells.size, { h with cells := h.cells.push v })

/-- The value in a cell. -/
def cell (h : Heap) (id : Nat) : Value := h.cells.getD id .nil

/-- Sets the value in a cell. -/
def setCell (id : Nat) (v : Value) (h : Heap) : Heap := { h with cells := h.cells.set! id v }

/-- Puts a closure on the heap. -/
def newClosure (c : Closure) (h : Heap) : Nat × Heap :=
  (h.closures.size, { h with closures := h.closures.push c })

/-! ## Files -/

/-- Puts a file on the heap. -/
def newStream (f : Stream) (h : Heap) : Nat × Heap :=
  (h.streams.size, { h with streams := h.streams.push f })

/-- The system's number for a file that is open. -/
def handle? (h : Heap) (id : Nat) : Option Nat := (h.streams[id]?).bind (·.handle)

/-- Notes that a file is closed. -/
def closeStream (id : Nat) (h : Heap) : Heap :=
  { h with streams := h.streams.modify id fun f => { f with handle := none } }

/-- Puts an iteration over a file on the heap. -/
def newReader (r : LineReader) (h : Heap) : Nat × Heap :=
  (h.readers.size, { h with readers := h.readers.push r })

/-- Notes a printed line. -/
def print (line : String) (h : Heap) : Heap := { h with printed := line :: h.printed }

end Heap

end ScriptWorker.Script

import ScriptWorker.Script.Syntax
import ScriptWorker.Script.Value

/-!
# Code

A function runs as instructions for a machine with slots for local variables, cells for those that
closures take along, and a stack for the values in between. An operand that is a local variable is
read when the instruction runs, so it shows what the evaluation of the other operands did to it.
-/

set_option autoImplicit false

namespace ScriptWorker.Script

/-- What an error message says a value comes from. -/
inductive OriginKind where
  | local | upvalue | global | field | method | constant | forIterator | metamethod
  deriving DecidableEq

/-- The name of an origin in messages. -/
def OriginKind.text : OriginKind → String
  | .local => "local"
  | .upvalue => "upvalue"
  | .global => "global"
  | .field => "field"
  | .method => "method"
  | .constant => "constant"
  | .forIterator => "for iterator"
  | .metamethod => "metamethod"

/-- Where a value comes from. -/
structure Origin where
  kind : OriginKind
  name : Bytes

/-- Where an instruction finds a value. -/
inductive Operand where
  /-- On top of the stack, from where it is taken. -/
  | pop
  | slot (n : Nat)
  | cell (n : Nat)
  | literal (v : Value)

/-- How many results of a call are wanted. -/
inductive Want where
  | none
  | one
  | count (n : Nat)
  /-- All of them, for the list that the next instruction ends with. -/
  | all

/-- An instruction. Of two operands on the stack, the right one is on top. -/
inductive Instr where
  | push (o : Operand)
  | outer (index : Nat)
  | setOuter (index : Nat) (o : Operand)
  | setSlot (n : Nat) (o : Operand)
  | setCell (n : Nat) (o : Operand)
  | newCell (n : Nat) (o : Operand)
  | varargs (w : Want)
  | closure (child : Nat)
  | newTable (slot items room : Nat)
  /-- Takes values from the stack into a table in a slot, the first under the key `start`. -/
  | setItems (slot start count : Nat) (spread : Bool)
  | index (t k : Operand) (origin : Option Origin)
  | setIndex (t k v : Operand) (origin : Option Origin)
  /-- Replaces an object by its method and itself. -/
  | method (o : Operand) (name : Bytes) (origin : Option Origin)
  | unary (op : UnaryOp) (o : Operand) (origin : Option Origin)
  | binary (op : BinaryOp) (a b : Operand) (left right : Option Origin)
  | concat (origins : List (Option Origin))
  | compare (op : CompareOp) (negated : Bool) (a b : Operand)
  | jump (target : Nat)
  | jumpIf (expected : Bool) (o : Operand) (target : Nat)
  | jumpCompare (op : CompareOp) (expected : Bool) (a b : Operand) (target : Nat)
  /-- Jumps if the top of the stack is as expected, and takes it away otherwise. -/
  | jumpKeep (expected : Bool) (target : Nat)
  | call (count : Nat) (spread : Bool) (w : Want) (origin : Option Origin)
  | tailCall (count : Nat) (spread : Bool) (origin : Option Origin)
  | return (count : Nat) (spread : Bool)
  | numericPrep (base exit : Nat)
  | numericLoop (base body : Nat)
  | genericPrep (base : Nat)
  | genericCall (base count : Nat)
  | genericLoop (base count body : Nat)
  /-- Closes the variables from a slot on. -/
  | close (level : Nat)
  /-- Notes that the variable in a slot is closed when its scope ends. -/
  | mark (slot : Nat) (o : Operand) (name : Bytes)

/-- A compiled function. -/
structure Proto where
  code : Array Instr
  /-- The line of each instruction. -/
  lines : Array Nat
  children : Array Proto
  parameters : Nat
  variadic : Bool
  slots : Nat
  /-- Whether closures take local variables along. -/
  cells : Bool
  captured : Array Captured
  /-- The name of the program in messages. -/
  chunk : Bytes
  /-- The line of the definition, or 0 for a whole program. -/
  line : Nat
  deriving Inhabited

end ScriptWorker.Script

import ScriptWorker.Script.Token

/-!
# Syntax trees

The tree of a program after its names have been resolved. A local variable is known by its number
within its function, a variable of an enclosing function by its place in the list of variables
that the closure takes along, and a global is a field of the variable `_ENV`.
-/

set_option autoImplicit false

namespace ScriptWorker.Script

/-- Operators with one operand. -/
inductive UnaryOp where
  | neg | not | len | bnot
  deriving DecidableEq

/-- Operators with two operands that compute a value from both. -/
inductive BinaryOp where
  | add | sub | mul | mod | pow | div | idiv | band | bor | bxor | shl | shr
  deriving DecidableEq

/-- Comparisons. -/
inductive CompareOp where
  | eq | lt | le | gt | ge
  deriving DecidableEq

/-- A local variable of a function. -/
structure Local where
  name : Bytes
  /-- The number of the local variables in scope before it. -/
  slot : Nat
  /-- Whether a closure takes it along. -/
  captured : Bool

/-- Where a closure finds a variable that it takes along: among the local variables of the
enclosing function, or among those that one took along. -/
inductive Source where
  | local (id : Nat)
  | outer (index : Nat)

/-- A variable that a closure takes along. -/
structure Captured where
  name : Bytes
  source : Source

/-- What is known of a function beside its body. -/
structure Header where
  /-- The number of parameters; they are its first local variables. -/
  parameters : Nat
  variadic : Bool
  locals : Array Local
  captured : Array Captured
  /-- The label that each jump goes to. -/
  jumps : Array Nat
  /-- The number of local variables in scope at each label. -/
  levels : Array Nat
  /-- Whether a variable is closed when its scope ends. -/
  closes : Bool
  /-- The line of the definition, or 0 for a whole program. -/
  line : Nat

mutual

/-- An expression. Lines are those that errors name. -/
inductive Expr where
  | nil
  | truth (b : Bool)
  | number (n : Number)
  | string (s : Bytes)
  | varargs
  | local (id : Nat)
  | outer (index : Nat)
  | index (table key : Expr) (line : Nat)
  | call (callee : Expr) (arguments : List Expr) (line : Nat)
  | method (object : Expr) (name : Bytes) (arguments : List Expr) (keyLine line : Nat)
  | function (f : Function)
  | unary (op : UnaryOp) (operand : Expr) (line : Nat)
  | binary (op : BinaryOp) (left right : Expr) (line : Nat)
  | concat (left right : Expr) (line : Nat)
  | compare (op : CompareOp) (negated : Bool) (left right : Expr) (line : Nat)
  | both (left right : Expr)
  | either (left right : Expr)
  | table (items : List Item) (line : Nat)
  | paren (e : Expr)

/-- An item of a table constructor. -/
inductive Item where
  | positional (value : Expr)
  | named (key value : Expr) (line : Nat)

/-- A statement. -/
inductive Statement where
  | call (e : Expr)
  /-- New variables, one of which may be closed with its scope. -/
  | locals (ids : List Nat) (values : List Expr) (closed : Option Nat) (line : Nat)
  | assign (targets values : List Expr) (line : Nat)
  | block (body : List Statement)
  | while (condition : Expr) (body : List Statement)
  /-- The condition sees the variables of the body; `level` is the number of variables outside. -/
  | repeat (body : List Statement) (condition : Expr) (level : Nat)
  | branch (condition : Expr) (thenBody elseBody : List Statement)
  /-- Slot `base` and the two after it hold the state of the loop. -/
  | numericFor (base id : Nat) (first last : Expr) (step : Option Expr) (body : List Statement)
      (line prepLine : Nat)
  /-- Slot `base` and the three after it hold the state of the loop. -/
  | genericFor (base : Nat) (ids : List Nat) (values : List Expr) (body : List Statement)
      (line prepLine : Nat)
  | localFunction (id : Nat) (f : Function)
  | return (values : List Expr) (tail : Bool) (line : Nat)
  | goto (id : Nat) (line : Nat)
  | label (id : Nat)

/-- A function. -/
inductive Function where
  | mk (header : Header) (body : List Statement)

end

end ScriptWorker.Script

import ScriptWorker.Script.Operate
import ScriptWorker.Script.System

/-!
# Actions of built-in functions

A built-in function is described by what it does next: it may end, raise an error, use the heap,
make a request to the system, call a function and go on with the results, or deal with coroutines.
The machine that carries an action out decides nothing about what the function means.
-/

set_option autoImplicit false

namespace ScriptWorker.Script

/-- How a coroutine stands. -/
inductive Status where
  | suspended | running | normal | dead
  deriving DecidableEq

/-- The word for how a coroutine stands. -/
def Status.text : Status → String
  | .suspended => "suspended"
  | .running => "running"
  | .normal => "normal"
  | .dead => "dead"

/-- A function that has been called and has not ended, as traces show it. -/
inductive Site where
  | builtin (f : Builtin) (origin : Option Origin)
  /-- A function of the language, with the line at hand and that of its definition. -/
  | script (chunk : Bytes) (line definition : Nat) (origin : Option Origin)

/-- What a built-in function can see of the machine. -/
structure View where
  /-- The place, as messages start with it, of the function so many calls up. -/
  place : Nat → Bytes
  /-- What the place of the call says the function comes from. -/
  origin : Option Origin
  self : Builtin
  /-- The running coroutine; 0 is the main program. -/
  thread : Nat
  yieldable : Bool
  status : Nat → Status
  /-- How deeply calls are nested. -/
  depth : Nat
  /-- The functions that have been called before, the last one first. -/
  sites : List Site

/-- What a built-in function does next. -/
inductive Action (α : Type) : Type 1 where
  | done (a : α)
  | raise (error : Value)
  | view (k : View → Action α)
  | heap {β : Type} (act : Heap → β × Heap) (k : β → Action α)
  | ask (r : Request) (k : r.Answer → Action α)
  /-- Ends the process. -/
  | exit (status : Int64)
  /-- Calls a function; coroutines cannot yield while it runs. -/
  | call (f : Value) (args : List Value) (k : List Value → Action α)
  /-- Calls a function, which may yield, and goes on with its results or with the error that it
  raised. Errors first go through the handler, if there is one. -/
  | guarded (f : Value) (args : List Value) (handler : Option Value)
      (k : Except Value (List Value) → Action α)
  /-- Makes a coroutine. -/
  | spawn (f : Value) (k : Nat → Action α)
  /-- Resumes a coroutine until it yields, ends or fails. -/
  | resume (id : Nat) (args : List Value) (k : Except Value (List Value) → Action α)
  | yield (values : List Value) (k : List Value → Action α)
  /-- Ends a coroutine that is not running, and gives the variables that have to be closed and the
  error that it ended with. -/
  | reap (id : Nat) (k : List Value × Option Value → Action α)

namespace Action

/-- One action after another. -/
def bind {α β : Type} : Action α → (α → Action β) → Action β
  | .done a, f => f a
  | .raise e, _ => .raise e
  | .view k, f => .view fun v => (k v).bind f
  | .heap act k, f => .heap act fun b => (k b).bind f
  | .ask r k, f => .ask r fun a => (k a).bind f
  | .exit status, _ => .exit status
  | .call g args k, f => .call g args fun vs => (k vs).bind f
  | .guarded g args handler k, f => .guarded g args handler fun r => (k r).bind f
  | .spawn g k, f => .spawn g fun id => (k id).bind f
  | .resume id args k, f => .resume id args fun r => (k r).bind f
  | .yield vs k, f => .yield vs fun r => (k r).bind f
  | .reap id k, f => .reap id fun r => (k r).bind f

instance : Monad Action where
  pure := .done
  bind := bind

/-! ## The heap -/

/-- Looks at the heap. -/
def read {β : Type} (f : Heap → β) : Action β := .heap (fun h => (f h, h)) .done

/-- Changes the heap. -/
def change (f : Heap → Heap) : Action Unit := .heap (fun h => ((), f h)) .done

/-- Looks at the heap and changes it. -/
def transact {β : Type} (f : Heap → β × Heap) : Action β := .heap f .done

/-- Makes a request. -/
def request (r : Request) : Action r.Answer := .ask r .done

/-! ## Errors -/

/-- Fails with a message, which gets the place of the caller in front. -/
def fail {α : Type} (message : Bytes) : Action α :=
  .view fun v => .raise (.str (v.place 1 ++ message))

@[inherit_doc fail]
def failText {α : Type} (message : String) : Action α := fail (bytes message)

/-- Fails with a message about an argument, counted from one. -/
def badArgument {α : Type} (n : Nat) (message : Bytes) : Action α :=
  .view fun v =>
    let name : Bytes := match v.origin with
      | some o => o.name
      | none => bytes (v.self.path?.getD "?")
    let isMethod : Bool := match v.origin with
      | some o => o.kind = .method
      | none => false
    let message : Bytes :=
      if isMethod && n == 1 then
        bytes "calling '" ++ name ++ bytes "' on bad self (" ++ message ++ bytes ")"
      else
        bytes ("bad argument #" ++ toString (if isMethod then n - 1 else n) ++ " to '") ++ name ++
          bytes "' (" ++ message ++ bytes ")"
    .raise (.str (v.place 1 ++ message))

/-! ## Arguments -/

/-- The arguments of a call. -/
abbrev Args := List Value

/-- The argument of a number, counted from one; a missing one is `nil`. -/
def arg (args : Args) (n : Nat) : Value := args.getD (n - 1) .nil

/-- An argument has the wrong type. -/
def badType {α : Type} (args : Args) (n : Nat) (wanted : String) : Action α :=
  .heap (fun h => (h, h)) fun h =>
    let found : Bytes := match args[n - 1]? with
      | some .null => bytes "light userdata"
      | some v => h.typeName v
      | none => bytes "no value"
    badArgument n (bytes (wanted ++ " expected, got ") ++ found)

/-- An argument of any type, which has to be there. -/
def anyArg (args : Args) (n : Nat) : Action Value :=
  match args[n - 1]? with
  | some v => return v
  | none => badArgument n (bytes "value expected")

/-- An argument that is a table. -/
def tableArg (args : Args) (n : Nat) : Action Nat :=
  match arg args n with
  | .table id => return id
  | _ => badType args n "table"

/-- An argument that is a string, or a number in its place. -/
def stringArg (args : Args) (n : Nat) : Action Bytes :=
  match textOf? (arg args n) with
  | some s => return s
  | none => badType args n "string"

/-- An argument that is a number, or a string that writes one. -/
def numberArg (args : Args) (n : Nat) : Action Number :=
  match numberOf? (arg args n) with
  | some x => return x
  | none => badType args n "number"

/-- An argument that is an integer, or a number or string that equals one. -/
def intArg (args : Args) (n : Nat) : Action Int := do
  match numberOf? (arg args n) with
  | some x =>
    match x.toInt? with
    | some i => return i.toInt
    | none => badArgument n (bytes "number has no integer representation")
  | none => badType args n "number"

/-- Whether an argument is missing or `nil`. -/
def isAbsent (args : Args) (n : Nat) : Bool := (arg args n).isNil

/-- An integer argument, with a default. -/
def intArgOr (args : Args) (n : Nat) (default : Int) : Action Int :=
  if isAbsent args n then return default else intArg args n

/-- A string argument, with a default. -/
def stringArgOr (args : Args) (n : Nat) (default : Bytes) : Action Bytes :=
  if isAbsent args n then return default else stringArg args n

/-- A condition on an argument. -/
def requireArg (condition : Bool) (n : Nat) (message : String) : Action Unit :=
  if condition then return () else badArgument n (bytes message)

/-! ## Fields and operators with metatables -/

/-- Calls a function for its first result. -/
def callOne (f : Value) (args : List Value) : Action Value := do
  return (← Action.call f args .done).headD .nil

/-- Reads a field. -/
def getField (t k : Value) : Action Value := do
  match ← read (·.get t k) with
  | .done v => return v
  | .call f args => callOne f args
  | .bad v _ => do
    let h ← read fun h => h.typeFault "index" v none
    .raise (.str h)
  | .fail message => .raise (.ofText message)

/-- Writes a field. -/
def setField (t k v : Value) : Action Unit := do
  match ← transact (·.set t k v) with
  | .done _ => return ()
  | .call f args =>
    let _ ← Action.call f args .done
  | .bad v _ => do
    let h ← read fun h => h.typeFault "index" v none
    .raise (.str h)
  | .fail message => .raise (.ofText message)

/-- The length of a value, which is an integer. -/
def lengthOf (v : Value) : Action Int := do
  let f ← read fun h => h.event v Heap.lenEvent
  let n : Value ← match f, v with
    | .nil, .table id => do return .ofNat (← read fun h => (h.table id).length)
    | .nil, .str s => pure (.ofNat s.size)
    | .nil, v => do .raise (.str (← read fun h => h.typeFault "get length of" v none))
    | f, v => callOne f [v, v]
  match n.number?.bind Number.toInt? with
  | some n => return n.toInt
  | none => failText "object length is not an integer"

/-- Whether a value is less than another. -/
def lessThan (a b : Value) : Action Bool := do
  match less? false a b with
  | some r => return r
  | none =>
    match ← read fun h => h.binaryHandler a b Heap.ltEvent with
    | .nil => .raise (.str (← read fun h => h.compareFault a b))
    | f => return (← callOne f [a, b]).truthy

/-- Hexadecimal digits of a number. -/
def hexText (n : Nat) : String := String.ofList (Nat.toDigits 16 n)

/-- The text for a value of which only the identity can be shown. -/
def identityText (v : Value) : Bytes :=
  let address (base n : Nat) : Bytes :=
    bytes ("0x" ++ String.ofList (Numeric.padLeft 12 (hexText (base + 32 * n)).toList))
  match v with
  | .table id => address 0x600000000000 id
  | .closure id => address 0x610000000000 id
  | .builtin f m => address 0x560000000000 (1024 * f.ctorIdx + m)
  | .thread id => address 0x620000000000 id
  | .file id => address 0x630000000000 id
  | _ => bytes "(nil)"

/-- The text of a value, which its metatable may provide. -/
def textOf (v : Value) : Action Bytes := do
  match ← read fun h => h.event v Heap.textEvent with
  | .nil =>
    match v with
    | .nil => return bytes "nil"
    | .bool b => return bytes (if b then "true" else "false")
    | .fault message => return bytes message
    | v =>
      match textOf? v with
      | some s => return s
      | none =>
        let name ← read fun h => h.typeName v
        return name ++ bytes ": " ++ identityText v
  | f =>
    match textOf? (← callOne f [v]) with
    | some s => return s
    | none => failText "'__tostring' must return a string"

end Action

end ScriptWorker.Script

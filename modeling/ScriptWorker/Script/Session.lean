import ScriptWorker.Script.Library.Initial
import ScriptWorker.Script.Machine

/-!
# Sessions

A session is what remains of the machine between two calls from outside, with the system that it
runs on. A call runs a function to its end and leaves the session as the function left it, also
where it fails.
-/

set_option autoImplicit false

namespace ScriptWorker.Script

/-- The heap and the coroutines between two calls, and the system. -/
structure Session : Type 1 where
  heap : Heap
  threads : Array Thread
  system : System

/-- How a call ends. -/
inductive Ending where
  | returned (values : List Value)
  | raised (message : String)
  /-- It comes to no end: it takes more steps than were allowed, or has ended the process. -/
  | unfinished

namespace Session

/-- A session in which nothing has run. -/
def fresh (system : System) : Session := ⟨Library.initialHeap, #[Machine.ended none []], system⟩

/-- The text of an error that has left the language. -/
def errorText : Value → String
  | .str s => String.ofList (Text.Utf8.decodeLossy s.data.toList)
  | .fault message => message
  | v => v.typeName

/-- What a trace of calls starts with. -/
def traceMark : List Char := "\nstack traceback:".toList

/-- The part of a text before a trace of calls. -/
def beforeTrace (s : List Char) : List Char :=
  match s with
  | [] => []
  | c :: rest => if traceMark.isPrefixOf s then [] else c :: beforeTrace rest

/-- The message of an error that has left the language. -/
def messageOf : Value → String
  | .str s => String.ofList (beforeTrace (Text.Utf8.decodeLossy s.data.toList))
  | e => errorText e

/-- The machine at the start of a call. -/
def callMachine (s : Session) (f : Value) (args : List Value) : Machine where
  control := .act ⟨.pcall, none⟩ <|
    .guarded f args (some (.builtin .describeError 0)) fun
      | .ok values => .done values
      | .error e => .raise e
  frames := []
  level := ⟨0, 0, false⟩
  heap := s.heap
  current := 0
  threads := s.threads
  resumers := []

/-- Calls a function, for at most so many steps. -/
def callWithin (limit : Nat) (s : Session) (f : Value) (args : List Value) : Ending × Session :=
  match (s.callMachine f args).runOn Library.start limit s.system with
  | (.running m, system) | (.exited m, system) => (.unfinished, ⟨m.heap, m.threads, system⟩)
  | (.done (.ok values) m, system) => (.returned values, ⟨m.heap, m.threads, system⟩)
  | (.done (.error e) m, system) => (.raised (messageOf e), ⟨m.heap, m.threads, system⟩)

/-- How many steps a call may take: more than any that ends in practice. -/
def stepLimit : Nat := 0x4000000000000000

/-- Calls a function. -/
def call (s : Session) (f : Value) (args : List Value) : Ending × Session :=
  s.callWithin stepLimit f args

/-- Takes the lines printed since they were last taken, in order. -/
def takePrinted (s : Session) : List String × Session :=
  (s.heap.printed.reverse, { s with heap := { s.heap with printed := [] } })

end Session

end ScriptWorker.Script

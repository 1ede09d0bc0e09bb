import ScriptWorker.Script.Chunk
import ScriptWorker.Script.Library.Texts

/-!
# Basic functions

The functions that are global variables: errors, metatables, iteration, access without metatables,
conversions and the loading of chunks.
-/

set_option autoImplicit false

namespace ScriptWorker.Script.Library

open Script.Action

/-! ## Errors -/

/-- Raises a value. A message gets the place of a function in front, counted by calls up. -/
def raiseAt {α : Type} (level : Int) (e : Value) : Action α :=
  match e with
  | .str s =>
    if 0 < level then .view fun v => .raise (.str (v.place level.toNat ++ s)) else .raise e
  | e => .raise e

def raiseError (args : Args) : Results := do
  raiseAt (← intArgOr args 2 1) (arg args 1)

def assertTrue (args : Args) : Results := do
  if (arg args 1).truthy then return args
  else
    let _ ← anyArg args 1
    raiseAt 1 ((args[1]?).getD (.ofText "assertion failed!"))

def protectedCall (args : Args) : Results := do
  let f ← anyArg args 1
  Action.guarded f (args.drop 1) none fun
    | .ok values => .done (.bool true :: values)
    | .error e => .done [.bool false, e]

def protectedCallWith (args : Args) : Results := do
  let handler := arg args 2
  unless Heap.isFunction handler do badType args 2 "function"
  Action.guarded (arg args 1) (args.drop 2) (some handler) fun
    | .ok values => .done (.bool true :: values)
    | .error e => .done [.bool false, e]

/-! ## Metatables -/

/-- What hides a value's metatable, or `nil`. -/
def metatableGuard (v : Value) : Action Value :=
  match v with
  | .fault _ => return .bool false
  | v => read fun h => h.event v Heap.metatableEvent

def getMetatable (args : Args) : Results := do
  let v ← anyArg args 1
  match ← metatableGuard v with
  | .nil =>
    match ← read fun h => h.metatable? v with
    | some id => return [.table id]
    | none => return [.nil]
  | g => return [g]

def setMetatable (args : Args) : Results := do
  let id ← tableArg args 1
  let metatable : Option Nat ← match (args[1]? : Option Value) with
    | some .nil => pure none
    | some (.table m) => pure (some m)
    | _ => badType args 2 "nil or table"
  match ← metatableGuard (.table id) with
  | .nil =>
    change (Heap.modifyTable id fun t => { t with metatable })
    return [.table id]
  | _ => failText "cannot change a protected metatable"

/-! ## Access without metatables -/

def rawEqual (args : Args) : Results := do
  let a ← anyArg args 1
  let b ← anyArg args 2
  return [.bool (a.same b)]

def rawLen (args : Args) : Results := do
  match arg args 1 with
  | .table id => return [.ofNat (← read fun h => (h.table id).length)]
  | .str s => return [.ofNat s.size]
  | _ => badType args 1 "table or string"

def rawGet (args : Args) : Results := do
  let id ← tableArg args 1
  let k ← anyArg args 2
  return [← read fun h => h.rawGet id k]

def rawSet (args : Args) : Results := do
  let id ← tableArg args 1
  let k ← anyArg args 2
  let v ← anyArg args 3
  match ← transact (·.rawSet id k v) with
  | .ok () => return [.table id]
  | .error message => Action.raise (.ofText message)

/-! ## Iteration -/

/-- An entry as results; no entry is one `nil`. -/
def entryResults : Option (Key × Value) → List Value
  | some (k, v) => [k.toValue, v]
  | none => [.nil]

def nextEntry (args : Args) : Results := do
  let id ← tableArg args 1
  match arg args 2 with
  | .nil => return entryResults (← read fun h => (h.table id).first)
  | k =>
    match ← read fun h => (Key.ofValue? k).bind fun k => (h.table id).next? k with
    | some e => return entryResults e
    | none => Action.raise (.ofText "invalid key to 'next'")

def pairsOf (args : Args) : Results := do
  let v ← anyArg args 1
  match ← read fun h => h.event v Heap.pairsEvent with
  | .nil => return [.builtin .next 0, v, .nil]
  | f =>
    let values ← Action.call f [v] .done
    return [values.getD 0 .nil, values.getD 1 .nil, values.getD 2 .nil]

def itemsOf (args : Args) : Results := do
  return [.builtin .ipairsStep 0, ← anyArg args 1, .int 0]

def nextItem (args : Args) : Results := do
  let n := Int64.ofInt ((← intArg args 2) + 1)
  match ← getField (arg args 1) (.int n) with
  | .nil => return [.nil]
  | v => return [.int n, v]

def select (args : Args) : Results := do
  let rest := args.drop 1
  match arg args 1 with
  | .str s =>
    if s == bytes "#" then return [.ofNat rest.length] else chosen rest
  | _ => chosen rest
where
  chosen (rest : Args) : Results := do
    let i ← intArg args 1
    let i : Int := if i < 0 then args.length + i else min i args.length
    requireArg (decide (1 ≤ i)) 1 "index out of range"
    return rest.drop (i.toNat - 1)

/-! ## Conversions -/

def typeOf (args : Args) : Results := do
  return [.ofText (← anyArg args 1).typeName]

def toText (args : Args) : Results := do
  return [.str (← textOf (← anyArg args 1))]

/-- The value of a letter or digit as a digit. -/
def digitValue? (b : UInt8) : Option Nat :=
  if isDigitByte b then some (b.toNat - 48)
  else if isLetterByte b then some ((upperByte b).toNat - 55)
  else none

/-- The integer that digits to a base write; it wraps around. -/
def inBase? (base : Nat) (s : List UInt8) : Option Int64 := do
  let (negative, s) := Number.readSign (s.dropWhile isBlankByte)
  let (digits, rest) := s.span fun b => isDigitByte b || isLetterByte b
  let digits := digits.filterMap digitValue?
  guard (!digits.isEmpty && digits.all (· < base) && rest.all isBlankByte)
  let n : Int := (digits.foldl (fun n d => n * base + d) 0 : Nat)
  return Int64.ofInt (if negative then -n else n)

/-- A number as a result; no number is `nil`. -/
def numberResult : Option Number → List Value
  | some n => [.ofNumber n]
  | none => [.nil]

def toNumber (args : Args) : Results := do
  if isAbsent args 2 then
    let v ← anyArg args 1
    return numberResult (numberOf? v)
  else
    let base ← intArg args 2
    match arg args 1 with
    | .str s =>
      requireArg (decide (2 ≤ base ∧ base ≤ 36)) 2 "base out of range"
      return numberResult ((inBase? base.toNat s.data.toList).map .int)
    | _ => badType args 1 "string"

/-! ## Chunks -/

/-- The pieces that a function gives one after another, until it gives nothing. -/
def readPieces (f : Value) : Nat → Bytes → Action (Except Value Bytes)
  | 0, s => .done (.ok s)
  | fuel + 1, s =>
    Action.guarded f [] none fun
      | .error e => .done (.error e)
      | .ok values =>
        match values.headD .nil with
        | .nil => .done (.ok s)
        | v =>
          match textOf? v with
          | some piece =>
            if piece.size = 0 then .done (.ok s) else readPieces f fuel (s ++ piece)
          | none => .view fun view =>
            .done (.error (.str (view.place 1 ++ bytes "reader function must return a string")))

/-- How many pieces a chunk may come in. -/
def pieceLimit : Nat := 0x1000000

/-- The code of a chunk, or the message that refuses it. -/
def compile (name source mode : Bytes) : Action (Except Bytes Proto) :=
  .view fun v =>
    match Chunk.load name source mode v.depth with
    | .code p => return .ok p
    | .refused message => return .error message
    | .compiled form => do
      match ← request (.undump form) with
      | some p => return .ok p
      | none => return .error (Chunk.compiledFault name "truncated chunk")

/-- The function for a chunk, or `nil` and a message. -/
def functionFor (name source mode : Bytes) (environment : Value) : Results := do
  match ← compile name source mode with
  | .ok p => return [← transact (Chunk.close p environment)]
  | .error message => return [.nil, .str message]

def loadChunk (args : Args) : Results := do
  let mode ← stringArgOr args 3 (bytes "bt")
  let environment := (args[3]?).getD (.table Heap.globals)
  match textOf? (arg args 1) with
  | some source => functionFor (← stringArgOr args 2 source) source mode environment
  | none =>
    let name ← stringArgOr args 2 (bytes "=(load)")
    unless Heap.isFunction (arg args 1) do badType args 1 "function"
    match ← readPieces (arg args 1) pieceLimit .empty with
    | .ok source => functionFor name source mode environment
    | .error e => return [.nil, e]

/-- The compiled form of a function, which `load` takes back. -/
def dumpFunction (args : Args) : Results := do
  let code? : Option Proto ← match arg args 1 with
    | .closure id => read fun h => (h.closures[id]?).map (·.proto)
    | .builtin .. => pure none
    | _ => badType args 1 "function"
  match code? with
  | some p => return [.str (Chunk.compiled (← request (.dump p (arg args 2).truthy)))]
  | none => failText "unable to dump given function"

/-! ## Memory -/

/-- An argument that is one of some words. -/
def optionArg (args : Args) (n : Nat) (default : String) (words : List String) :
    Action String := do
  let s ← stringArgOr args n (bytes default)
  match words.find? fun w => bytes w == s with
  | some w => return w
  | none => badArgument n (bytes "invalid option '" ++ upToZero s ++ bytes "'")

/-- Memory is never collected, so what is asked for has happened already. -/
def collectGarbage (args : Args) : Results := do
  match ← optionArg args 1 "collect" ["stop", "restart", "collect", "count", "step", "setpause",
      "setstepmul", "isrunning", "generational", "incremental"] with
  | "count" =>
    let n ← read fun h => h.tables.size + h.cells.size + h.closures.size
    return [.float (n.toFloat / 16)]
  | "step" | "isrunning" => return [.bool true]
  | "setpause" => return [.int 200]
  | "setstepmul" => return [.int 100]
  | "generational" | "incremental" => return [.ofText "incremental"]
  | _ => return [.int 0]

def warn (args : Args) : Results := do
  let _ ← stringArg args 1
  for i in List.range args.length do
    let _ ← stringArg args (i + 1)
  return []

end ScriptWorker.Script.Library

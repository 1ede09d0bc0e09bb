import ScriptWorker.Script.Library.Basic

/-!
# The process and its surroundings

The functions of the library `os`: the clock and the calendar, the environment, other programs and
the names of files. What they give is what the system answers.
-/

set_option autoImplicit false

namespace ScriptWorker.Script.Library

open Script.Action

/-! ## Outcomes -/

/-- Failure with a message and an error number. The message names what it is about, if that is
given. -/
def failure (about : Option Bytes) (e : SystemError) : List Value :=
  let message := match about with
    | some name => name ++ bytes ": " ++ e.message
    | none => e.message
  [.nil, .str message, .int e.number]

/-- The results of what either succeeds or fails. -/
def outcome (about : Option Bytes) : Except SystemError Unit → List Value
  | .ok () => [.bool true]
  | .error e => failure about e

/-- The results of a process. -/
def processOutcome : Except SystemError ProcessEnd → List Value
  | .ok (.exited 0) => [.bool true, .ofText "exit", .int 0]
  | .ok (.exited status) => [.nil, .ofText "exit", .int status]
  | .ok (.signalled number) => [.nil, .ofText "signal", .int number]
  | .error e => failure none e

/-- A name as the system takes it, up to the first zero byte. -/
def nameArg (args : Args) (n : Nat) : Action Bytes := do return upToZero (← stringArg args n)

/-! ## Time -/

def osClock (_ : Args) : Results := do return [.float (← request .clock)]

/-- The conversion specifiers of dates with a letter alone, and those with a letter behind `E` and
behind `O`. -/
def dateLetters : List Char := "aAbBcCdDeFgGhHIjmMnprRStTuUVwWxXyYzZ%".toList
@[inherit_doc dateLetters] def dateLettersE : List Char := "cCxXyY".toList
@[inherit_doc dateLetters] def dateLettersO : List Char := "deHImMSuUVwWy".toList

/-- Reads the conversion specifier behind a percent sign. -/
def dateSpecifier? (s : List UInt8) : Option (List UInt8 × List UInt8) :=
  let within (letters : List Char) (b : UInt8) : Bool := letters.any fun c => byte c == b
  match s with
  | b :: rest =>
    if within dateLetters b then some ([b], rest)
    else
      match rest with
      | c :: rest =>
        if b == byte 'E' && within dateLettersE c || b == byte 'O' && within dateLettersO c then
          some ([b, c], rest)
        else none
      | [] => none
  | [] => none

/-- Writes a moment as a format says. -/
def writeDate (c : Calendar) : Nat → List UInt8 → Bytes → Action Bytes
  | 0, _, text => return text
  | _, [], text => return text
  | fuel + 1, b :: rest, text =>
    if b == byte '%' then
      match dateSpecifier? rest with
      | some (specifier, rest) => do
        let part ← request (.formatTime (byte '%' :: specifier).toByteArray c)
        writeDate c fuel rest (text ++ part)
      | none =>
        badArgument 1 (bytes "invalid conversion specifier '%" ++ upToZero rest.toByteArray ++
          bytes "'")
    else writeDate c fuel rest (text.push b)

/-- Sets the fields of a table to the parts of a moment. -/
def setDate (id : Nat) (c : Calendar) : Action Unit := do
  let numbers : List (String × Int) := [
    ("year", c.year), ("month", c.month), ("day", c.day), ("hour", c.hour), ("min", c.minute),
    ("sec", c.second), ("yday", c.yearDay), ("wday", c.weekday)]
  let fields : List (String × Value) := numbers.map fun (name, n) => (name, .int (Int64.ofInt n))
  let summer : List (String × Value) := (c.summer.map fun b => ("isdst", Value.bool b)).toList
  for (name, v) in fields ++ summer do
    setField (.table id) (.ofText name) v

def osDate (args : Args) : Results := do
  let format := (← stringArgOr args 1 (bytes "%c")).data.toList
  let time : Int64 ←
    if isAbsent args 2 then request .now else pure (Int64.ofInt (← intArg args 2))
  let (utc, format) := match format with
    | 0x21 :: rest => (true, rest)
    | s => (false, s)
  match ← request (.calendar utc time) with
  | none => failText "date result cannot be represented in this installation"
  | some c =>
    if upToZero format.toByteArray == bytes "*t" then
      let id ← transact (·.newTable .empty)
      setDate id c
      return [.table id]
    else return [.str (← writeDate c format.length format .empty)]

/-- A field of a date, which counts from `first` on; a missing one is `default`, if there is one. -/
def dateField (t : Value) (name : String) (default : Option Int) (first : Int) : Action Int := do
  let v ← getField t (.ofText name)
  match (numberOf? v).bind Number.toInt? with
  | some n =>
    let n := n.toInt
    if 0 ≤ n ∧ n - first ≤ 0x7FFFFFFF ∨ n < 0 ∧ -0x80000000 + first ≤ n then return n
    else failText ("field '" ++ name ++ "' is out-of-bound")
  | none =>
    match v, default with
    | .nil, some n => return n
    | .nil, none => failText ("field '" ++ name ++ "' missing in date table")
    | _, _ => failText ("field '" ++ name ++ "' is not an integer")

/-- The moment that the fields of a table say. -/
def readDate (t : Value) : Action Calendar := do
  let year ← dateField t "year" none 1900
  let month ← dateField t "month" none 1
  let day ← dateField t "day" none 0
  let hour ← dateField t "hour" (some 12) 0
  let minute ← dateField t "min" (some 0) 0
  let second ← dateField t "sec" (some 0) 0
  let summer : Option Bool := match ← getField t (.ofText "isdst") with
    | .nil => none
    | v => some v.truthy
  return ⟨year, month, day, hour, minute, second, 1, 1, summer⟩

/-- The present time, or that of a moment, whose parts are then put in their ranges. -/
def osTime (args : Args) : Results := do
  let time : Option Int64 ←
    if isAbsent args 1 then pure (some (← request .now))
    else do
      let id ← tableArg args 1
      let (time, c) ← request (.moment (← readDate (.table id)))
      setDate id c
      pure time
  match time with
  | some t => return [.int t]
  | none => failText "time result cannot be represented in this installation"

def osDiffTime (args : Args) : Results := do
  let a ← intArg args 1
  let b ← intArg args 2
  return [.float (Numeric.nearestInt a - Numeric.nearestInt b)]

/-! ## The process -/

def osExecute (args : Args) : Results := do
  if isAbsent args 1 then return [.bool (← request .hasShell)]
  else return processOutcome (← request (.execute (← nameArg args 1)))

def osExit (args : Args) : Results := do
  let status : Int ← match arg args 1 with
    | .bool b => pure (if b then 0 else 1)
    | _ => intArgOr args 1 0
  Action.exit (Int64.ofInt status)

/-- A string or `nil`. -/
def textOrNil : Option Bytes → Value
  | some s => .str s
  | none => .nil

def osGetenv (args : Args) : Results := do
  return [textOrNil (← request (.variable (← nameArg args 1)))]

/-- Sets the locale. Only the system knows it: numbers and classes of bytes stay those of the
locale that programs start in. -/
def osSetLocale (args : Args) : Results := do
  let name ← if isAbsent args 1 then pure none else some <$> nameArg args 1
  let category ← optionArg args 2 "all" ["all", "collate", "ctype", "monetary", "numeric", "time"]
  return [textOrNil (← request (.locale category name))]

/-! ## Names of files -/

def osRemove (args : Args) : Results := do
  let name ← nameArg args 1
  return outcome (some name) (← request (.remove name))

def osRename (args : Args) : Results := do
  let old ← nameArg args 1
  let new ← nameArg args 2
  return outcome none (← request (.rename old new))

def osTmpName (_ : Args) : Results := do
  match ← request .temporaryName with
  | some name => return [.str name]
  | none => failText "unable to generate a unique filename"

end ScriptWorker.Script.Library

import ScriptWorker.Script.Action
import ScriptWorker.Text.Utf8

/-!
# Output

What programs print is noted line by line on the heap; nothing reaches a stream. The texts of
values are plainer here than those of `tostring`, and metatables have no say in them.
-/

set_option autoImplicit false

namespace ScriptWorker.Script.Library

open Script.Action Numeric

/-- Doubles are printed without an exponent, and whole ones without a point. -/
def printLayout : Layout := ⟨-400, none, false, 1⟩

/-- The printed text of a double. -/
def printedFloat (x : Float) : String :=
  match parts x with
  | .nan => "NaN"
  | .infinite negative => if negative then "-inf" else "inf"
  | .finite negative m e => String.ofList (signed negative (printLayout.shortestText m e))

/-- The name of a value's kind outside the language. -/
def kindName : Value → String
  | .int _ => "integer"
  | .null => "lightuserdata"
  | .fault _ => "error"
  | v => v.typeName

/-- The printed text of a value. -/
def printedText : Value → String
  | .nil => "nil"
  | .bool b => if b then "true" else "false"
  | .int n => toString n.toInt
  | .float x => printedFloat x
  | .str s =>
    match Text.Utf8.decode? s.data.toList with
    | some text => String.ofList text
    | none => "<invalid utf8>"
  | v => kindName v

/-- Prints values with a text between them. -/
def printValues (separator : String) (values : List Value) : Action Unit :=
  change (Heap.print (separator.intercalate (values.map printedText)))

def printLine (args : Args) : Action (List Value) := do
  printValues "\t" args
  return []

def ioWrite (args : Args) : Action (List Value) := do
  printValues "" args
  return [.table Heap.stdout]

/-- Writes to a handle, which has to be a table. -/
def ioWriteMethod (args : Args) : Action (List Value) := do
  match arg args 1 with
  | .table id =>
    printValues "" (args.drop 1)
    return [.table id]
  | v =>
    Action.raise (.fault ("bad argument #1: error converting Lua " ++ kindName v ++ " to table"))

end ScriptWorker.Script.Library

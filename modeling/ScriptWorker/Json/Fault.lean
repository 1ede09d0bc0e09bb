import ScriptWorker.Json.Printer
import ScriptWorker.Text.Quoted

/-!
# Why a text is not read

The causes for which reading JSON text stops, their wording, and the place in the text that a
message names.
-/

set_option autoImplicit false

namespace ScriptWorker.Json

/-- What stands where something else was wanted. -/
inductive Found where
  | null
  | bool (b : Bool)
  | int (n : Int)
  | float (x : Float)
  | string (s : String)
  | sequence
  | map

/-- The words for what was found. -/
def Found.describe : Found → String
  | .null => "null"
  | .bool b => "boolean `" ++ (if b then "true" else "false") ++ "`"
  | .int n => "integer `" ++ toString n ++ "`"
  | .float x => "floating point `" ++ floatText x ++ "`"
  | .string s => "string " ++ Text.Quoted.encode s
  | .sequence => "sequence"
  | .map => "map"

/-- Why reading stopped. -/
inductive Cause where
  | endInList
  | endInObject
  | endInString
  | endInValue
  | wantedColon
  | wantedCommaOrBracket
  | wantedCommaOrBrace
  | wantedWord
  | wantedValue
  | badEscape
  | badNumber
  | numberOutOfRange
  | controlInString
  | keyNotString
  | loneSurrogate
  | trailingComma
  | trailingCharacters
  | hexEscapeEnds
  | tooDeep
  | wrongType (found : Found) (wanted : String)
  | wrongLength (length : Nat) (wanted : String)
  | missingField (name : String)
  | duplicateField (name : String)
  | unknownVariant (name : String) (known : List String)

/-- Names in backquotes, as a choice. -/
def choiceText : List String → String
  | [] => "there are no variants"
  | [a] => "expected `" ++ a ++ "`"
  | [a, b] => "expected `" ++ a ++ "` or `" ++ b ++ "`"
  | names => "expected one of " ++ ", ".intercalate (names.map fun n => "`" ++ n ++ "`")

/-- The wording of a cause. -/
def Cause.message : Cause → String
  | .endInList => "EOF while parsing a list"
  | .endInObject => "EOF while parsing an object"
  | .endInString => "EOF while parsing a string"
  | .endInValue => "EOF while parsing a value"
  | .wantedColon => "expected `:`"
  | .wantedCommaOrBracket => "expected `,` or `]`"
  | .wantedCommaOrBrace => "expected `,` or `\x7d`"
  | .wantedWord => "expected ident"
  | .wantedValue => "expected value"
  | .badEscape => "invalid escape"
  | .badNumber => "invalid number"
  | .numberOutOfRange => "number out of range"
  | .controlInString =>
    "control character (\\u0000-\\u001F) found while parsing a string"
  | .keyNotString => "key must be a string"
  | .loneSurrogate => "lone leading surrogate in hex escape"
  | .trailingComma => "trailing comma"
  | .trailingCharacters => "trailing characters"
  | .hexEscapeEnds => "unexpected end of hex escape"
  | .tooDeep => "recursion limit exceeded"
  | .wrongType found wanted => "invalid type: " ++ found.describe ++ ", expected " ++ wanted
  | .wrongLength length wanted =>
    "invalid length " ++ toString length ++ ", expected " ++ wanted
  | .missingField name => "missing field `" ++ name ++ "`"
  | .duplicateField name => "duplicate field `" ++ name ++ "`"
  | .unknownVariant name known => "unknown variant `" ++ name ++ "`, " ++ choiceText known

/-- A stop: its cause, the text that was unread, how many bytes of that were looked at, and whether
the place is still to be moved to the end of the record that is being read. -/
structure Stop where
  cause : Cause
  rest : List Char
  bytes : Nat
  inRecord : Bool

/-- A cause with its line (from one) and the bytes of that line in front of it. -/
structure Fault where
  cause : Cause
  line : Nat
  column : Nat

/-- The wording of a fault. -/
def Fault.message (f : Fault) : String :=
  f.cause.message ++ " at line " ++ toString f.line ++ " column " ++ toString f.column

/-- Line and column after one more character. -/
def advance (at_ : Nat × Nat) (c : Char) : Nat × Nat :=
  if c = '\n' then (at_.1 + 1, 0) else (at_.1, at_.2 + c.utf8Size)

/-- Line and column after a number of bytes of a text. -/
def advanceBytes (at_ : Nat × Nat) : Nat → List Char → Nat × Nat
  | _, [] => at_
  | n, c :: rest =>
    if c.utf8Size ≤ n then advanceBytes (advance at_ c) (n - c.utf8Size) rest
    else (at_.1, at_.2 + n)

/-- The fault of a stop in a text. -/
def Stop.fault (stop : Stop) (text : List Char) : Fault :=
  let before := (text.take (text.length - stop.rest.length)).foldl advance (1, 0)
  let (line, column) := advanceBytes before stop.bytes stop.rest
  ⟨stop.cause, line, column⟩

end ScriptWorker.Json

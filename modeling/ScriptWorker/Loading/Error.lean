import ScriptWorker.Json.Value

/-!
# Why loading or calling a function fails
-/

set_option autoImplicit false

namespace ScriptWorker.Loading

/-- Why a source gives no callable unit. -/
inductive ConversionError where
  /-- The payload is no text but a value of the named type. -/
  | nonText (found : String)
  | missingDeclaration
  | unterminatedParameters (name : String)
  | missingBody (name : String)
  /-- The code is not accepted. -/
  | compile (message : String)
  /-- The module raised an error while it was run. -/
  | execute (message : String)
  | noExports

/-- The wording of a failed conversion. -/
def ConversionError.message : ConversionError → String
  | .nonText found => "function source must be a string, got " ++ found
  | .missingDeclaration => "no named function declaration found in source"
  | .unterminatedParameters name =>
    "parameter list of '" ++ name ++ "' has no closing parenthesis"
  | .missingBody name => "function '" ++ name ++ "' has no braced body"
  | .compile message => "failed to compile function: " ++ message
  | .execute message => "module raised while loading: " ++ message
  | .noExports => "module did not export anything"

/-- The name of a value's type. -/
def typeName : Json.Value → String
  | .null => "null"
  | .bool _ => "boolean"
  | .int _ | .float _ => "number"
  | .string _ => "string"
  | .array _ => "array"
  | .object _ => "object"

/-- The failure of a payload that should have been text. -/
def ConversionError.ofPayload (v : Json.Value) : ConversionError := .nonText (typeName v)

/-- Why a value of the language has no JSON form. -/
inductive EncodingFault where
  /-- It is or holds a value of a kind that JSON lacks. -/
  | unsupported (kind : String)
  /-- It holds a table that holds itself. -/
  | recursive
  /-- It holds a table with a key that is no string but what the text describes. -/
  | badKey (described : String)
  /-- It is or holds a string that is no text. -/
  | notText

/-- The wording of the fault. -/
def EncodingFault.message : EncodingFault → String
  | .unsupported kind => "deserialize error: unsupported value type `" ++ kind ++ "`"
  | .recursive => "deserialize error: recursive table detected"
  | .badKey described => "deserialize error: invalid type: " ++ described ++
    ", expected a string key"
  | .notText => "deserialize error: invalid type: byte array, expected any valid JSON value"

/-- Why a call gives no result. -/
inductive InvocationError where
  /-- The function raised an error. -/
  | raised (message : String)
  | missingEntryPoint (name : String)
  /-- The result has no JSON form. -/
  | unrepresentable (cause : EncodingFault)

/-- The wording of a failed call. -/
def InvocationError.message : InvocationError → String
  | .raised message => "function raised: " ++ message
  | .missingEntryPoint name => "module does not export a callable '" ++ name ++ "'"
  | .unrepresentable cause => "function result cannot be encoded as JSON: " ++ cause.message

end ScriptWorker.Loading

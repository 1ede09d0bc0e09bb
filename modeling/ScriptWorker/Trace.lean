/-!
# Diagnostic events
-/

set_option autoImplicit false

namespace ScriptWorker.Trace

/-- How much an event matters, least first. -/
inductive Level where
  | trace
  | debug
  | info
  | warn
  | error
  deriving DecidableEq

/-- The level's name in a diagnostic line. -/
def Level.name : Level → String
  | .trace => "TRACE"
  | .debug => "DEBUG"
  | .info => "INFO"
  | .warn => "WARN"
  | .error => "ERROR"

/-- The value of an event's field. -/
inductive FieldValue where
  /-- A string, which is quoted where other values are not. -/
  | text (s : String)
  /-- A value by its wording. -/
  | shown (s : String)
  | number (n : Nat)
  | flag (b : Bool)

/-- The value as bare text. -/
def FieldValue.bare : FieldValue → String
  | .text s => s
  | .shown s => s
  | .number n => toString n
  | .flag b => if b then "true" else "false"

/-- Something that a diagnostic stream may show. -/
structure Event where
  level : Level
  target : String
  message : String
  fields : List (String × FieldValue)

/-- The target of the channel's events. -/
def channelTarget : String := "funcworker::channel"

/-- The target of the worker's events. -/
def workerTarget : String := "funcworker::worker"

/-- The target of the loader's events. -/
def loaderTarget : String := "funcworker::loader"

/-- The target of what a loaded function prints. -/
def userTarget : String := "funcworker::user"

end ScriptWorker.Trace

import ScriptWorker.Json.Printer
import ScriptWorker.Text.Quoted
import ScriptWorker.Trace

/-!
# Lines of the diagnostic stream

An event is one JSON object with its fields as members, or a line of words with its fields as
`name=value`.
-/

set_option autoImplicit false

namespace ScriptWorker.Trace

/-- A field's value in JSON. -/
def FieldValue.json : FieldValue → String
  | .text s | .shown s => Json.stringText s
  | .number n => toString n
  | .flag b => if b then "true" else "false"

/-- A field's value among words, where a text is quoted. -/
def FieldValue.word : FieldValue → String
  | .text s => Text.Quoted.encode s
  | v => v.bare

namespace Event

/-- The event as a JSON object, at a time. -/
def json (e : Event) (time : String) : String :=
  let member (name value : String) : String := Json.stringText name ++ ":" ++ value
  let members := [member "timestamp" (Json.stringText time),
    member "level" (Json.stringText e.level.name),
    member "message" (Json.stringText e.message)] ++
    e.fields.map (fun (name, v) => member name v.json) ++
    [member "target" (Json.stringText e.target)]
  "\x7b" ++ ",".intercalate members ++ "\x7d"

/-- The event as a line of words, at a time. -/
def compact (e : Event) (time : String) : String :=
  let level := e.level.name
  let gap := String.ofList (List.replicate (5 - level.length) ' ')
  let fields := e.fields.map fun (name, v) => " " ++ name ++ "=" ++ v.word
  time ++ " " ++ gap ++ level ++ " " ++ e.target ++ ": " ++ e.message ++ String.join fields

end Event

end ScriptWorker.Trace

import ScriptWorker.Config.Choice
import ScriptWorker.Json.Record
import ScriptWorker.Text.Blank

/-!
# Settings

What a worker can be told: six settings, their defaults, their JSON form and the one rule that
the sources of settings cannot check.
-/

set_option autoImplicit false

namespace ScriptWorker.Config

/-- The settings of a worker. -/
structure Settings where
  strategy : Loading.Conversion
  entryPoint : String
  onInvokeError : Worker.FailurePolicy
  requestLogging : Bool
  logFilter : String
  logFormat : LogFormat

namespace Settings

/-- The settings in the absence of any other. -/
def default : Settings where
  strategy := conversionChoice.default
  entryPoint := "handler"
  onInvokeError := policyChoice.default
  requestLogging := false
  logFilter := "info"
  logFormat := LogFormat.choice.default

/-- Whether the entry point names anything. -/
def valid (s : Settings) : Bool := !Text.allBlank s.entryPoint

/-- The wording of the rule that `valid` checks. -/
def blankEntryPoint : String := "entry_point must name an exported function"

/-- The switches that concern the protocol. -/
def options (s : Settings) : Worker.Options := ⟨s.onInvokeError, s.requestLogging⟩

/-- The JSON text of the settings, in the order of their declaration. -/
def render (s : Settings) : String :=
  "\x7b\"strategy\":" ++ Json.stringText (conversionChoice.nameOf s.strategy) ++
    ",\"entry_point\":" ++ Json.stringText s.entryPoint ++
    ",\"on_invoke_error\":" ++ Json.stringText (policyChoice.nameOf s.onInvokeError) ++
    ",\"request_logging\":" ++ (if s.requestLogging then "true" else "false") ++
    ",\"log_filter\":" ++ Json.stringText s.logFilter ++
    ",\"log_format\":" ++ Json.stringText (LogFormat.choice.nameOf s.logFormat) ++ "\x7d"

/-- What has been read of the settings. -/
structure Draft where
  strategy : Option Loading.Conversion
  entryPoint : Option String
  onInvokeError : Option Worker.FailurePolicy
  requestLogging : Option Bool
  logFilter : Option String
  logFormat : Option LogFormat

/-- The settings of a draft that lacks none, or the name of the first that it lacks. -/
def Draft.complete (d : Draft) : Except String Settings := do
  let need {α : Type} (name : String) (o : Option α) : Except String α :=
    match o with
    | some a => .ok a
    | none => .error name
  return {
    strategy := ← need "strategy" d.strategy
    entryPoint := ← need "entry_point" d.entryPoint
    onInvokeError := ← need "on_invoke_error" d.onInvokeError
    requestLogging := ← need "request_logging" d.requestLogging
    logFilter := ← need "log_filter" d.logFilter
    logFormat := ← need "log_format" d.logFormat }

/-- A field whose value is read by `read` and kept by `put`. -/
def field {α : Type} (name : String) (get : Draft → Option α) (put : Draft → α → Draft)
    (read : Nat → Nat → List Char → Json.Reading (α × List Char)) : Json.Field Draft where
  name := name
  isSet := fun d => (get d).isSome
  read := fun size depth d s => do
    let (value, rest) ← read size depth s
    return (put d value, rest)

/-- How settings are read from JSON; none may be missing. -/
def layout : Json.Record Draft Settings where
  wanted := "struct Config"
  fields := [
    field "strategy" Draft.strategy (fun d v => { d with strategy := some v })
      (fun size depth => Json.readChoice size depth conversionChoice.names),
    field "entry_point" Draft.entryPoint (fun d v => { d with entryPoint := some v })
      (fun size _ => Json.readText size "a string"),
    field "on_invoke_error" Draft.onInvokeError (fun d v => { d with onInvokeError := some v })
      (fun size depth => Json.readChoice size depth policyChoice.names),
    field "request_logging" Draft.requestLogging (fun d v => { d with requestLogging := some v })
      (fun size _ => Json.readFlag size),
    field "log_filter" Draft.logFilter (fun d v => { d with logFilter := some v })
      (fun size _ => Json.readText size "a string"),
    field "log_format" Draft.logFormat (fun d v => { d with logFormat := some v })
      (fun size depth => Json.readChoice size depth LogFormat.choice.names)]
  start := ⟨none, none, none, none, none, none⟩
  build := Draft.complete

/-- The settings that a whole JSON text holds. -/
def parse (text : String) : Except Json.Fault Settings := layout.parse text.toList

end Settings

end ScriptWorker.Config

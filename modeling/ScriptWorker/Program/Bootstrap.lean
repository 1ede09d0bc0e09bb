import ScriptWorker.Config.Load
import ScriptWorker.Trace.Filter
import ScriptWorker.Trace.Line

/-!
# Getting ready

Before a worker starts, its settings are loaded and checked and the diagnostic stream is set up.
The stream is set up once: whoever gets ready later finds it as it is, and the later filter is not
even looked at.
-/

set_option autoImplicit false

namespace ScriptWorker.Program

/-- The diagnostic stream: which events it shows, and how. -/
structure Telemetry where
  filter : Trace.Filter
  format : Config.LogFormat

/-- The line of an event at a time, if the event is shown. -/
def Telemetry.line? (t : Telemetry) (time : String) (e : Trace.Event) : Option String :=
  if t.filter.admits e then
    some (match t.format with
      | .json => e.json time
      | .compact => e.compact time)
  else none

/-- The lines of events that are shown. -/
def Telemetry.lines (t : Telemetry) (time : String) (events : List Trace.Event) : List String :=
  events.filterMap (t.line? time)

/-- Why a worker cannot start. -/
inductive BootstrapError where
  | configuration (e : Config.LoadError)
  /-- The settings break the rule that sources cannot check. -/
  | validation
  | telemetry (expression : String) (f : Trace.FilterFault)

/-- The wording of an error. -/
def BootstrapError.message : BootstrapError → String
  | .configuration e => "failed to load configuration: " ++ e.message
  | .validation => "invalid configuration: " ++ Config.Settings.blankEntryPoint
  | .telemetry expression f =>
    "failed to initialise telemetry: invalid log filter '" ++ expression ++ "': " ++ f.message

/-- The stream that settings ask for. -/
def Telemetry.ofSettings (s : Config.Settings) : Except Trace.FilterFault Telemetry := do
  return ⟨← Trace.Filter.parse s.logFilter, s.logFormat⟩

/-- The event of a worker that is ready. -/
def configuredEvent (s : Config.Settings) : Trace.Event :=
  ⟨.info, Trace.workerTarget, "worker configured", [
    ("strategy", .shown (Config.conversionChoice.nameOf s.strategy)),
    ("entry_point", .text s.entryPoint),
    ("on_invoke_error", .shown (Config.policyChoice.nameOf s.onInvokeError)),
    ("request_logging", .flag s.requestLogging)]⟩

/-- The event of a worker that has stopped because of a failure. -/
def stoppedEvent (message : String) : Trace.Event :=
  ⟨.error, Trace.workerTarget, "worker stopped", [("error", .shown message)]⟩

/-- Gets ready with settings that have been loaded or not, where the diagnostic stream may have been
set up already: the settings and the stream. -/
def bootstrap (installed : Option Telemetry) (loaded : Except Config.LoadError Config.Settings) :
    Except BootstrapError (Config.Settings × Telemetry) :=
  match loaded with
  | .error e => .error (.configuration e)
  | .ok s =>
    if s.valid then
      match installed with
      | some t => .ok (s, t)
      | none =>
        match Telemetry.ofSettings s with
        | .ok t => .ok (s, t)
        | .error f => .error (.telemetry s.logFilter f)
    else .error .validation

end ScriptWorker.Program

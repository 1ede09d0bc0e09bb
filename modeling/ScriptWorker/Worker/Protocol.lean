import ScriptWorker.Channel.Delivery
import ScriptWorker.Loading.Error
import ScriptWorker.Message.Inbound

/-!
# The worker

A worker loads one function and then serves requests with it for the rest of its life. What
loading and calling mean is left to a `Strategy`, so that the protocol can be studied over any
loader, any unit and any clock.
-/

set_option autoImplicit false

namespace ScriptWorker.Worker

open Channel Loading Message

universe u v

/-- What a worker does about a request that fails. -/
inductive FailurePolicy where
  /-- It stops. -/
  | crash
  /-- It reports the failure and goes on. -/
  | report
  deriving DecidableEq

/-- The switches of a worker. -/
structure Options where
  onInvokeError : FailurePolicy
  /-- Whether a log line precedes each request that is served. -/
  requestLogging : Bool

/-- How sources become units and how units are called. A loader has a memory of type `κ`; a unit
is of type `υ` and may be another one after a call. Both tell the trace what they did. -/
structure Strategy (κ : Type u) (υ : Type v) where
  load : κ → String → Except ConversionError υ × κ × List Trace.Event
  invoke : υ → Json.Value → Except InvocationError Json.Value × υ × List Trace.Event

/-- A clock: the time it gives, or the words of its failure, each time it is asked. -/
abbrev Clock := Nat → Except String String

/-- Why a worker stops. -/
inductive Failure where
  | channel (e : Channel.Error)
  | invocation (e : InvocationError)
  | timestamp (cause : String)

/-- The wording of a failure. -/
def Failure.message : Failure → String
  | .channel e => e.message
  | .invocation e => "function invocation failed: " ++ e.message
  | .timestamp cause => "failed to format request timestamp: " ++ cause

/-- The phase of a worker. -/
inductive Phase (υ : Type v) where
  /-- It waits for a source that loads. -/
  | loading
  /-- It serves requests with a unit. -/
  | serving (unit : υ)

namespace Phase

variable {υ : Type v}

/-- Whether nothing has been loaded. -/
def isLoading : Phase υ → Bool
  | .loading => true
  | .serving _ => false

/-- The phase's name in diagnostics. -/
def name : Phase υ → String
  | .loading => "loading"
  | .serving _ => "serving"

/-- The phase with what it holds, as diagnostics show it. -/
def shown : Phase υ → String
  | .loading => "Loading"
  | .serving _ => "Serving(FunctionSlot \x7b .. \x7d)"

end Phase

end ScriptWorker.Worker

namespace ScriptWorker

open Channel Loading Message

universe u v

/-- The state of a worker: the loader's memory, how often the clock was asked, and the phase. -/
structure Worker (κ : Type u) (υ : Type v) where
  loader : κ
  asked : Nat
  phase : Worker.Phase υ

namespace Worker

/-- What a worker is set up with. -/
structure Setup (κ : Type u) (υ : Type v) where
  strategy : Strategy κ υ
  options : Options
  clock : Clock

variable {κ : Type u} {υ : Type v}

/-- A worker that has seen nothing. -/
def fresh (loader : κ) : Worker κ υ := ⟨loader, 0, .loading⟩

/-- An event of the worker. -/
def event (level : Trace.Level) (message : String) (fields : List (String × Trace.FieldValue)) :
    Trace.Event :=
  ⟨level, Trace.workerTarget, message, fields⟩

/-- The event of a run that has ended well. -/
def finishedEvent (exit : Exit) : Trace.Event :=
  event .debug "protocol loop finished" [("exit", .shown exit.name)]

/-- The outcome of a line: whether it went well, the worker after it, and the outlets. -/
abbrev Handled (κ : Type u) (υ : Type v) := Except Failure Unit × Worker κ υ × Outlets

/-- Ends a line with a message. -/
def reply (w : Worker κ υ) (o : Outlets) (m : Outbound) : Handled κ υ :=
  match o.emit m with
  | (.ok (), o) => (.ok (), w, o)
  | (.error e, o) => (.error (.channel e), w, o)

namespace Setup

/-- Tries to load a source and says whether that worked. -/
def load (s : Setup κ υ) (w : Worker κ υ) (source : Json.Value) (o : Outlets) : Handled κ υ :=
  let refuse (w : Worker κ υ) (o : Outlets) (e : ConversionError) : Handled κ υ :=
    reply w (o.note (event .info "function failed to load" [("error", .shown e.message)]))
      (.functionLoaded false)
  match source with
  | .string text =>
    let (result, loader, events) := s.strategy.load w.loader text
    let w := { w with loader }
    let o := o.noteAll events
    match result with
    | .ok unit =>
      reply { w with phase := .serving unit }
        (o.note (event .info "function loaded, serving requests" [])) (.functionLoaded true)
    | .error e => refuse w o e
  | source => refuse w o (.ofPayload source)

/-- Calls the unit and answers with its result, or does what the policy says. -/
def answer (s : Setup κ υ) (w : Worker κ υ) (unit : υ) (argument : Json.Value) (o : Outlets) :
    Handled κ υ :=
  let (result, unit, events) := s.strategy.invoke unit argument
  let w := { w with phase := .serving unit }
  let o := o.noteAll events
  match result with
  | .ok value => reply w o (.response value)
  | .error e =>
    match s.options.onInvokeError with
    | .crash => (.error (.invocation e), w, o)
    | .report =>
      reply w (o.note (event .warn "request failed, reporting" [("error", .shown e.message)]))
        (.error e.message)

/-- Serves a request, after its log line where those are asked for. -/
def serve (s : Setup κ υ) (w : Worker κ υ) (unit : υ) (argument : Json.Value) (o : Outlets) :
    Handled κ υ :=
  if s.options.requestLogging then
    let w := { w with asked := w.asked + 1 }
    match s.clock w.asked with
    | .error cause => (.error (.timestamp cause), w, o)
    | .ok time =>
      match o.emit (.log ("received request: " ++ argument.render) time) with
      | (.error e, o) => (.error (.channel e), w, o)
      | (.ok (), o) => s.answer w unit argument o
  else s.answer w unit argument o

/-- Passes over a message that the phase has no use for. -/
def ignore (w : Worker κ υ) (m : Inbound) (o : Outlets) : Handled κ υ :=
  (.ok (), w, o.note (event .debug "ignoring message"
    [("state", .text w.phase.name), ("kind", .text m.kind)]))

/-- Handles one line. -/
def handleLine (s : Setup κ υ) (w : Worker κ υ) (line : String) (o : Outlets) : Handled κ υ :=
  match Inbound.parse line with
  | .error e =>
    (.ok (), w, o.note (event .warn "ignoring malformed line"
      [("state", .text w.phase.name), ("error", .shown e.message)]))
  | .ok m =>
    match m, w.phase with
    | .function source, .loading => s.load w source o
    | .request argument, .serving unit => s.serve w unit argument o
    | m, _ => ignore w m o

/-- The worker as a handler of lines; it never asks to be detached. -/
def handler (s : Setup κ υ) : Handler (Worker κ υ) Failure where
  ofChannel := .channel
  onLine := fun w line o =>
    match s.handleLine w line o with
    | (.ok (), w, o) => (.ok .goOn, w, o)
    | (.error e, w, o) => (.error e, w, o)

/-- Announces the worker and then hands it every line until the input ends. -/
def run (s : Setup κ υ) (loader : κ) (input : List UInt8) (readFault : Option String)
    (faults : Faults) : Except Failure Unit × Channel (Worker κ υ) :=
  let channel : Channel (Worker κ υ) := .open_ input readFault (.fresh faults)
  match channel.emit .started with
  | (.error e, channel) => (.error (.channel e), channel)
  | (.ok (), channel) =>
    let (_, channel) := channel.subscribe (.fresh loader)
    match channel.run s.handler with
    | (.error e, channel) => (.error e, channel)
    | (.ok exit, channel) =>
      (.ok (), { channel with outlets := channel.outlets.note (finishedEvent exit) })

end Setup

end Worker

end ScriptWorker

import ScriptWorker.Message.Outbound
import ScriptWorker.Trace

/-!
# The output stream

Messages go out as one write of a whole line and one flush. Either may be refused; which calls
are is given by `Faults`, and a `Sink` remembers the calls that went through.
-/

set_option autoImplicit false

namespace ScriptWorker.Channel

/-- Which calls on the stream are refused, and with what text, by their number from one. -/
structure Faults where
  write : Nat → Option String
  flush : Nat → Option String

/-- A stream that refuses nothing. -/
def Faults.none : Faults := ⟨fun _ => .none, fun _ => .none⟩

/-- A call that went through. -/
inductive Call where
  | wrote (text : String)
  | flushed
  deriving DecidableEq

/-- Why the channel failed. -/
inductive Error where
  | read (cause : String)
  | write (cause : String)

/-- The wording of the failure. -/
def Error.message : Error → String
  | .read cause => "failed to read from input stream: " ++ cause
  | .write cause => "failed to write to output stream: " ++ cause

/-- An output stream: how often it has been called, and the calls that went through, last
first. -/
structure Sink where
  faults : Faults
  writes : Nat
  flushes : Nat
  calls : List Call

namespace Sink

/-- A stream that has not been called. -/
def fresh (faults : Faults) : Sink := ⟨faults, 0, 0, []⟩

/-- Writes a text with one call. -/
def write (sink : Sink) (text : String) : Except Error Unit × Sink :=
  let sink := { sink with writes := sink.writes + 1 }
  match sink.faults.write sink.writes with
  | some cause => (.error (.write cause), sink)
  | none => (.ok (), { sink with calls := .wrote text :: sink.calls })

/-- Flushes what has been written. -/
def flush (sink : Sink) : Except Error Unit × Sink :=
  let sink := { sink with flushes := sink.flushes + 1 }
  match sink.faults.flush sink.flushes with
  | some cause => (.error (.write cause), sink)
  | none => (.ok (), { sink with calls := .flushed :: sink.calls })

/-- Writes a message's line and flushes it. -/
def emit (sink : Sink) (m : Message.Outbound) : Except Error Unit × Sink :=
  match sink.write m.line with
  | (.error e, sink) => (.error e, sink)
  | (.ok (), sink) => sink.flush

/-- The texts written so far, in order. -/
def written (sink : Sink) : List String :=
  sink.calls.reverse.filterMap fun
    | .wrote text => some text
    | .flushed => none

end Sink

/-- Where a worker's output goes: messages to the stream, diagnostics to the trace (last first). -/
structure Outlets where
  sink : Sink
  trace : List Trace.Event

namespace Outlets

/-- Outlets that have not been used. -/
def fresh (faults : Faults) : Outlets := ⟨.fresh faults, []⟩

/-- Records an event. -/
def note (o : Outlets) (e : Trace.Event) : Outlets := { o with trace := e :: o.trace }

/-- Records events in order. -/
def noteAll (o : Outlets) (es : List Trace.Event) : Outlets :=
  { o with trace := es.reverse ++ o.trace }

/-- Writes a message. -/
def emit (o : Outlets) (m : Message.Outbound) : Except Error Unit × Outlets :=
  let (result, sink) := o.sink.emit m
  (result, { o with sink })

end Outlets

end ScriptWorker.Channel

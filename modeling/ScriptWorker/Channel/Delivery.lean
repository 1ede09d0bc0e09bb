import ScriptWorker.Channel.Line
import ScriptWorker.Channel.Sink

/-!
# Delivering lines to a handler

A channel reads its input a segment at a time and hands each line to the handler that is
subscribed. It stops at the end of the input, when no handler is left, or at the first failure;
what it has not read stays for the next run.
-/

set_option autoImplicit false

namespace ScriptWorker.Channel

universe u

/-- What a handler asks for after a line. -/
inductive Delivery where
  | goOn
  | detach

/-- Why a run ended well. -/
inductive Exit where
  | endOfInput
  | detached
  deriving DecidableEq

/-- The name of an exit in diagnostics. -/
def Exit.name : Exit → String
  | .endOfInput => "EndOfInput"
  | .detached => "Detached"

/-- What handles lines: the states of a handler, its failures, and what it does with a line. -/
structure Handler (η : Type u) (ε : Type) where
  /-- The handler's own form of a failing channel. -/
  ofChannel : Error → ε
  /-- Handles one line. -/
  onLine : η → String → Outlets → Except ε Delivery × η × Outlets

end ScriptWorker.Channel

namespace ScriptWorker

universe u

/-- Two streams and the handler that is subscribed. -/
structure Channel (η : Type u) where
  /-- The bytes not read yet. -/
  unread : List UInt8
  /-- The failure of reading past them, if it does not end the input. -/
  readFault : Option String
  outlets : Channel.Outlets
  handler : Option η

namespace Channel

variable {η : Type u} {ε : Type}

/-- A channel without a handler. -/
def open_ (input : List UInt8) (readFault : Option String) (outlets : Outlets) : Channel η :=
  ⟨input, readFault, outlets, none⟩

/-- The event of a handler's leaving. -/
def detachedEvent : Trace.Event :=
  ⟨.debug, Trace.channelTarget, "line handler detached", []⟩

/-- The event of the input's end. -/
def closedEvent : Trace.Event :=
  ⟨.debug, Trace.channelTarget, "input stream closed", []⟩

/-- Subscribes a handler and gives back the one it replaces. -/
def subscribe (c : Channel η) (handler : η) : Option η × Channel η :=
  (c.handler, { c with handler := some handler })

/-- Detaches the handler and gives it back. -/
def stop (c : Channel η) : Option η × Channel η :=
  match c.handler with
  | none => (none, c)
  | some handler =>
    (some handler, { c with handler := none, outlets := c.outlets.note detachedEvent })

/-- Writes a message. -/
def emit (c : Channel η) (m : Message.Outbound) : Except Error Unit × Channel η :=
  let (result, outlets) := c.outlets.emit m
  (result, { c with outlets })

/-- Delivers the given segments. -/
def runFrom (h : Handler η ε) (readFault : Option String) :
    Option η → Outlets → List (List UInt8) → Except ε Exit × Channel η
  | none, outlets, segments =>
    (.ok .detached, ⟨segments.flatten, readFault, outlets, none⟩)
  | some state, outlets, [] =>
    match readFault with
    | some cause =>
      (.error (h.ofChannel (.read cause)), ⟨[], readFault, outlets, some state⟩)
    | none => (.ok .endOfInput, ⟨[], readFault, outlets.note closedEvent, some state⟩)
  | some state, outlets, segment :: rest =>
    match readFault, terminated segment with
    | some cause, false =>
      (.error (h.ofChannel (.read cause)), ⟨rest.flatten, readFault, outlets, some state⟩)
    | _, _ =>
      match h.onLine state (lineOf segment) outlets with
      | (.error e, state, outlets) =>
        (.error e, ⟨rest.flatten, readFault, outlets, some state⟩)
      | (.ok .goOn, state, outlets) => runFrom h readFault (some state) outlets rest
      | (.ok .detach, _, outlets) =>
        runFrom h readFault none (outlets.note detachedEvent) rest

/-- Delivers lines until the input ends, no handler is left or something fails. -/
def run (h : Handler η ε) (c : Channel η) : Except ε Exit × Channel η :=
  runFrom h c.readFault c.handler c.outlets (segments c.unread)

end Channel

end ScriptWorker

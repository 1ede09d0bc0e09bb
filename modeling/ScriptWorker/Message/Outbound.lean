import ScriptWorker.Message.Envelope

/-!
# Outbound messages
-/

set_option autoImplicit false

namespace ScriptWorker.Message

/-- A message that a worker writes. -/
inductive Outbound where
  /-- The worker is up. -/
  | started
  /-- Whether a source was loaded. -/
  | functionLoaded (loaded : Bool)
  /-- The result of a request. -/
  | response (data : Json.Value)
  /-- A request that failed. -/
  | error (message : String)
  /-- The trace of a request, with its time. -/
  | log (message time : String)

namespace Outbound

/-- The tag on the wire. -/
def kind : Outbound → String
  | .started => "started"
  | .functionLoaded _ => "function_loaded"
  | .response _ => "response"
  | .error _ => "error"
  | .log .. => "log"

/-- The message's envelope. Only a log line has a time. -/
def envelope (m : Outbound) : Envelope :=
  match m with
  | .started => ⟨m.kind, .string "", none⟩
  | .functionLoaded loaded => ⟨m.kind, .bool loaded, none⟩
  | .response data => ⟨m.kind, data, none⟩
  | .error message => ⟨m.kind, .string message, none⟩
  | .log message time => ⟨m.kind, .string message, some time⟩

/-- The message's line, with its end. -/
def line (m : Outbound) : String := m.envelope.render ++ "\n"

end Outbound

end ScriptWorker.Message

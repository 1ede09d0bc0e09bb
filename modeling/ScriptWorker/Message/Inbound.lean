import ScriptWorker.Message.Envelope
import ScriptWorker.Text.Blank

/-!
# Inbound messages

What a line asks for: a source to load, a request to serve, or something else, which a worker
ignores.
-/

set_option autoImplicit false

namespace ScriptWorker.Message

/-- A decoded line. -/
inductive Inbound where
  /-- A source to load; whether it is text is for the loader to say. -/
  | function (source : Json.Value)
  /-- An argument to call the loaded function with. -/
  | request (argument : Json.Value)
  /-- Any other well-formed message. -/
  | other (kind : String)

/-- Why a line is no message. -/
inductive LineError where
  /-- The line is blank. -/
  | blank
  /-- The line is not the text of an envelope. -/
  | invalid (fault : Json.Fault)

/-- The wording of the error. -/
def LineError.message : LineError → String
  | .blank => "malformed message: empty message line"
  | .invalid fault => "invalid message JSON: " ++ fault.message

namespace Inbound

/-- The message of an envelope. -/
def ofEnvelope (e : Envelope) : Inbound :=
  if e.kind = "function" then .function e.data
  else if e.kind = "request" then .request e.data
  else .other e.kind

/-- The message on a line, blanks at its ends aside. -/
def parse (line : String) : Except LineError Inbound :=
  match Text.trim line.toList with
  | [] => .error .blank
  | text =>
    match Envelope.parse text with
    | .ok e => .ok (ofEnvelope e)
    | .error fault => .error (.invalid fault)

/-- The tag that the message came with. -/
def kind : Inbound → String
  | .function _ => "function"
  | .request _ => "request"
  | .other kind => kind

end Inbound

end ScriptWorker.Message

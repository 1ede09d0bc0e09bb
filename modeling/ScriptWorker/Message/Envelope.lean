import ScriptWorker.Json.Record

/-!
# Envelopes

The record on every line of the protocol: a tag, a payload and, on log lines, a time. An envelope
is read from an object with these members among any others, or from an array of its two or three
values.
-/

set_option autoImplicit false

namespace ScriptWorker.Message

/-- One line's record. -/
structure Envelope where
  kind : String
  data : Json.Value
  time : Option String

namespace Envelope

/-- What has been read of an envelope: `time` is `none` until its member has been read. -/
structure Draft where
  kind : Option String
  data : Option Json.Value
  time : Option (Option String)

/-- How an envelope is read. -/
def layout : Json.Record Draft Envelope where
  wanted := "struct Envelope"
  fields := [
    { name := "type"
      isSet := fun d => d.kind.isSome
      read := fun size _ d s => do
        let (kind, rest) ← Json.readText size "a string" s
        return ({ d with kind := some kind }, rest) },
    { name := "data"
      isSet := fun d => d.data.isSome
      read := fun size depth d s => do
        let (data, rest) ← Json.readValue size depth s
        return ({ d with data := some data }, rest) },
    { name := "time"
      isSet := fun d => d.time.isSome
      read := fun size _ d s => do
        let (time, rest) ← Json.readTextOrNull size s
        return ({ d with time := some time }, rest) }]
  start := ⟨none, none, none⟩
  build := fun d =>
    match d.kind, d.data with
    | some kind, some data => .ok ⟨kind, data, d.time.join⟩
    | none, _ => .error "type"
    | some _, none => .error "data"

/-- The envelope that a whole text holds. -/
def parse (text : List Char) : Except Json.Fault Envelope := layout.parse text

/-- The envelope's text: tag, payload and, where there is one, the time. -/
def render (e : Envelope) : String :=
  let head := "\x7b\"type\":" ++ Json.stringText e.kind ++ ",\"data\":"
  let body := e.data.write head
  match e.time with
  | none => body ++ "\x7d"
  | some time => body ++ ",\"time\":" ++ Json.stringText time ++ "\x7d"

end Envelope

end ScriptWorker.Message

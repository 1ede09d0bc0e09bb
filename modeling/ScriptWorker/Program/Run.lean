import ScriptWorker.Loading.Loaded
import ScriptWorker.Program.Bootstrap

/-!
# A run of the program

The program gets ready and then serves its input until that ends or something fails.
-/

set_option autoImplicit false

namespace ScriptWorker.Program

open Loading

/-- What a worker with the given settings is set up with. -/
def setupOf (s : Config.Settings) (clock : Worker.Clock) : Worker.Setup Script.System Loaded where
  strategy := strategy s.strategy s.entryPoint
  options := s.options
  clock := clock

/-- What a run leaves behind: its exit status, the texts written to the output stream, and the lines
of the diagnostic stream. -/
structure Outcome where
  status : Nat
  output : List String
  diagnostics : List String

/-- What is left to be said when a worker has stopped because of a failure. -/
def farewell (t : Telemetry) (time message : String) : List String :=
  (t.line? time (stoppedEvent message)).toList ++ [message]

/-- Runs the program on a whole input and a system; `time` stands in every line of the diagnostic
stream. -/
def run (sources : Config.Sources) (system : Script.System) (clock : Worker.Clock) (time : String)
    (input : List UInt8) : Outcome :=
  match bootstrap none (Config.load sources) with
  | .error e => ⟨1, [], [e.message]⟩
  | .ok (s, t) =>
    let (result, c) := (setupOf s clock).run system input none .none
    let events := configuredEvent s :: c.outlets.trace.reverse
    let output := c.outlets.sink.written
    let lines := t.lines time events
    match result with
    | .ok () => ⟨0, output, lines⟩
    | .error f => ⟨1, output, lines ++ farewell t time f.message⟩

end ScriptWorker.Program

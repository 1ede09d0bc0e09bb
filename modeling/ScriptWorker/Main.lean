import ScriptWorker.Program.Moment
import ScriptWorker.Program.Run
import ScriptWorker.Script.Host
import Std.Time.DateTime.Timestamp

/-!
# The command line

Gathers what the program is told, then hands the lines of the standard input to the worker as they
come. Messages go to the standard output and diagnostics to the standard error. The exit status is
zero if the input ends and one if anything fails.
-/

set_option autoImplicit false

namespace ScriptWorker.Program

/-- The present time in writing. -/
def presentTime : IO String := do
  let now ← Std.Time.Timestamp.now
  return (Moment.mk now.toNanosecondsSinceUnixEpoch.toInt.toNat).render

/-! ## Sources of settings -/

/-- The variables of the program's environment. -/
def readVariables : IO Config.Variables := do
  return Config.Variables.ofBlock (← IO.FS.readBinFile "/proc/self/environ").toList

/-- What is at a place. -/
def nodeAt (place : String) : IO Config.Node := do
  try
    return .file (← IO.FS.readFile place)
  catch
    | .inappropriateType .. => return .directory
    | _ => return .missing

/-- Adds a place, and the places of the files that the file there extends. -/
partial def fetch (files : Config.FileSystem) (place : String) : IO Config.FileSystem := do
  if (files.lookup place).isSome then return files
  let node ← nodeAt place
  let files := (place, node) :: files
  match node with
  | .file text =>
    match Config.basePlace? place text with
    | some base => fetch files base
    | none => return files
  | _ => return files

/-- The sources of settings of a program that is called with the given words. -/
def readSources (words : List String) : IO Config.Sources := do
  let environment ← readVariables
  let directory := (← IO.currentDir).toString
  let named := match Config.Flag.read words with
    | .ok given => given.configPath.toList
    | .error _ => []
  let places := (named ++ Config.usualPaths environment directory).map
    (Config.Path.resolve directory)
  let mut files : Config.FileSystem := []
  for place in places do
    files ← fetch files place
  return ⟨words, environment, files, directory⟩

/-! ## Serving -/

/-- Writes lines to the standard error. -/
def say (lines : List String) : IO Unit := do
  let stream ← IO.getStderr
  for line in lines do
    stream.putStrLn line

/-- Writes the diagnostics of events that are shown. -/
def report (t : Telemetry) (events : List Trace.Event) : IO Unit := do
  say (t.lines (← presentTime) events)

/-- Makes the calls on the standard output and writes the diagnostics. -/
def deliver (t : Telemetry) (o : Channel.Outlets) : IO Unit := do
  report t o.trace.reverse
  let stream ← IO.getStdout
  for call in o.sink.calls.reverse do
    match call with
    | .wrote text => stream.putStr text
    | .flushed => stream.flush

/-- The bytes through the next newline, or to the end of the input. -/
partial def readSegment (stream : IO.FS.Stream) (read : List UInt8) : IO (List UInt8) := do
  match (← stream.read 1).toList with
  | [] => return read.reverse
  | byte :: _ =>
    if byte = Channel.newline then return (byte :: read).reverse
    else readSegment stream (byte :: read)

/-- Ends the program because of a failure. -/
def stop (t : Telemetry) (f : Worker.Failure) : IO UInt32 := do
  say (farewell t (← presentTime) f.message)
  return 1

/-- Hands the worker one line after another. -/
partial def serve (s : Config.Settings) (t : Telemetry) (w : Worker Script.System Loading.Loaded) :
    IO UInt32 := do
  match ← (readSegment (← IO.getStdin) []).toBaseIO with
  | .error e => stop t (.channel (.read (toString e)))
  | .ok [] =>
    report t [Channel.closedEvent, Worker.finishedEvent .endOfInput]
    return 0
  | .ok segment =>
    let time ← presentTime
    let (result, w, o) := (setupOf s fun _ => .ok time).handleLine w (Channel.lineOf segment)
      (.fresh .none)
    deliver t o
    match result with
    | .ok () => serve s t w
    | .error f => stop t f

/-- The system of functions: they see the variables of the program, and files in memory. -/
def functionSystem (environment : Config.Variables) : Script.System :=
  (Script.Host.empty (environment.map fun (name, v) => (Script.bytes name, Script.bytes v))).system

/-- Announces the worker and serves. -/
def start (s : Config.Settings) (t : Telemetry) (system : Script.System) : IO UInt32 := do
  report t [configuredEvent s]
  let (_, o) := (Channel.Outlets.fresh .none).emit .started
  deliver t o
  serve s t (.fresh system)

end ScriptWorker.Program

open ScriptWorker.Program in
/-- Runs the program with the words after its name. -/
def main (words : List String) : IO UInt32 := do
  let sources ← readSources words
  match bootstrap none (ScriptWorker.Config.load sources) with
  | .error e =>
    say [e.message]
    return 1
  | .ok (s, t) =>
    try start s t (functionSystem sources.environment)
    catch e => stop t (.channel (.write (toString e)))

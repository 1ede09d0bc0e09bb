import ScriptWorker.Config.Files
import ScriptWorker.Config.Flags

/-!
# Loading settings

The command line stands above the environment, the environment above the file, and the file above
the defaults. All that is wrong with the sources is reported together.
-/

set_option autoImplicit false

namespace ScriptWorker.Config

/-- Why settings cannot be loaded. -/
inductive LoadError where
  | usage (f : UsageFault)
  | file (path : String) (f : FileFault)
  | cyclicExtends (paths : List String)
  /-- A value does not fit its setting. -/
  | merge (f : ValueFault)
  /-- More than one thing is wrong. -/
  | several (errors : List LoadError)

namespace LoadError

/-- The error of a fault in files. -/
def ofFiles : FilesFault → LoadError
  | .file path f => .file path f
  | .cyclic paths => .cyclicExtends paths

mutual

/-- The wording of an error. -/
def message : LoadError → String
  | .usage f => "Failed to parse command-line arguments: error: " ++ f.message
  | .file path f => "Configuration file error in '" ++ path ++ "': " ++ f.message
  | .cyclicExtends paths => "Cyclic extends detected: " ++ " -> ".intercalate paths
  | .merge f => "Failed to merge CLI with configuration: " ++ f.message
  | .several errors => "multiple configuration errors:" ++ messages 1 errors

/-- The wordings of errors, each on a line of its own with its number. -/
def messages (n : Nat) : List LoadError → String
  | [] => ""
  | e :: rest => "\n" ++ toString n ++ ": " ++ e.message ++ messages (n + 1) rest

end

end LoadError

/-- Where settings come from: the words after the program's name, the environment, the files, and
the directory in which the program runs. -/
structure Sources where
  words : List String
  environment : Variables
  files : FileSystem
  directory : String

/-- What is read from the sources, the highest layer first, and what is wrong with them. -/
def Sources.layers (s : Sources) : List Layer × List LoadError :=
  let (given, usage) : Option Given × List LoadError :=
    match Flag.read s.words with
    | .ok g => (some g, [])
    | .error f => (none, [.usage f])
  let (files, faults) := readFiles s.files s.environment s.directory (given.bind (·.configPath))
  ((given.map (·.layer)).toList ++ Variables.layer s.environment :: files,
    usage ++ faults.map .ofFiles)

/-- Loads settings. -/
def load (s : Sources) : Except LoadError Settings :=
  let (layers, errors) := s.layers
  match Settings.ofLayers layers, errors with
  | .ok settings, [] => .ok settings
  | .ok _, [e] => .error e
  | .error f, [] => .error (.merge f)
  | .ok _, errors => .error (.several errors)
  | .error f, errors => .error (.several (errors ++ [.merge f]))

end ScriptWorker.Config

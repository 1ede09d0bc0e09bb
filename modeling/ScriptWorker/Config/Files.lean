import ScriptWorker.Config.Layer
import ScriptWorker.Config.Variables
import ScriptWorker.Toml.Document

/-!
# Settings from files

The file that the command line names has to be there; without one, the first file is taken that
exists among the one that the environment names and some usual places. A file may extend another
one, which stands below it, and so on, but not in a circle.
-/

set_option autoImplicit false

namespace ScriptWorker.Config

/-! ## Paths -/

namespace Path

/-- Whether a path starts at the root. -/
def isAbsolute (path : String) : Bool := path.toList.head? == some '/'

/-- A path below another one, unless it starts at the root. -/
def join (base path : String) : String :=
  if isAbsolute path || base.isEmpty then path
  else if base.toList.getLast? == some '/' then base ++ path
  else base ++ "/" ++ path

/-- The pieces of a text between marks. -/
def pieces (mark : Char) (text : String) : List String :=
  (text.toList.splitOn mark).map String.ofList

/-- The steps of a path, with those that lead back taken away. -/
def steps (path : String) : List String :=
  (pieces '/' path).foldl
    (fun done step =>
      if step.isEmpty || step == "." then done
      else if step == ".." then done.dropLast
      else done ++ [step])
    []

/-- The one path from the root to a place. -/
def ofSteps (steps : List String) : String := "/" ++ "/".intercalate steps

/-- The path from the root to the place that a path means in a directory. -/
def resolve (directory path : String) : String := ofSteps (steps (join directory path))

/-- The directory of a place. -/
def parent (place : String) : String := ofSteps (steps place).dropLast

/-- The part of a path's last step after its last point, if there is one. -/
def extension? (path : String) : Option String :=
  match (pieces '.' ((steps path).getLast?.getD "")).reverse with
  | ending :: before :: rest => if rest.isEmpty && before.isEmpty then none else some ending
  | _ => none

end Path

/-! ## Places -/

/-- What is at a place. -/
inductive Node where
  | missing
  | directory
  | file (text : String)

/-- What is where, by the paths from the root. -/
abbrev FileSystem := List (String × Node)

/-- What is at a place. -/
def FileSystem.node (fs : FileSystem) (place : String) : Node := (fs.lookup place).getD .missing

/-- Why a file is not accepted. -/
inductive FileFault where
  /-- It has to be there. -/
  | required
  | notRegular
  | unreadable (f : Toml.Fault)
  /-- The name of the file that it extends is no string but a value of the named kind. -/
  | badExtends (kind : String)
  | emptyExtends
  /-- It is extended by another one but not there. -/
  | missingBase (base child : String)
  /-- It is in a format that is not read. -/
  | otherFormat (format : String)

/-- The wording of a fault. -/
def FileFault.message : FileFault → String
  | .required => "required configuration file not found"
  | .notRegular => "configuration path is not a regular file"
  | .unreadable f => f.message
  | .badExtends kind => "'extends' key must be a string, but found type: " ++ kind
  | .emptyExtends => "'extends' key must be a non-empty string"
  | .missingBase base child => "extended configuration file '" ++ base ++
    "' does not exist (referenced from '" ++ child ++ "')"
  | .otherFormat format => format ++ " feature disabled: enable the '" ++ format ++
    "' feature to support this file type"

/-- Why files give no layers. -/
inductive FilesFault where
  | file (path : String) (f : FileFault)
  /-- Files extend each other in a circle. -/
  | cyclic (paths : List String)

/-! ## Files that extend others -/

/-- The kind of a value. -/
def kindOf : Json.Value → String
  | .null => "null"
  | .bool _ => "boolean"
  | .int _ | .float _ => "number"
  | .string _ => "string"
  | .array _ => "array"
  | .object _ => "object"

/-- The members of a file's document. -/
def readDocument (place text : String) : Except FilesFault Layer :=
  let other (format : String) : Except FilesFault Layer :=
    .error (.file place (.otherFormat format))
  match Path.extension? place with
  | some "json" | some "json5" => other "json5"
  | some "yaml" | some "yml" => other "yaml"
  | _ =>
    match Toml.parse text with
    | .ok members => .ok members
    | .error f => .error (.file place (.unreadable f))

/-- The file that a document extends, as it is written there. -/
def extended? (place : String) (layer : Layer) : Except FilesFault (Option String) :=
  match layer.lookup "extends" with
  | none => .ok none
  | some (.string "") => .error (.file place .emptyExtends)
  | some (.string base) => .ok (some base)
  | some v => .error (.file place (.badExtends (kindOf v)))

/-- The path that a file extends, from the directory of the file. -/
def basePath (place base : String) : String := Path.join (Path.parent place) base

/-- The place that a file with a text extends, if it can be read that far. -/
def basePlace? (place text : String) : Option String :=
  match readDocument place text with
  | .error _ => none
  | .ok layer =>
    match extended? place layer with
    | .ok (some base) => some (Path.ofSteps (Path.steps (basePath place base)))
    | _ => none

/-- The layers of the file at a place and of those that it extends; the files in `above` extend it.
No file stands in the chain twice, so their number bounds its length. -/
def readChain (fs : FileSystem) : Nat → List String → String → String →
    Except FilesFault (List Layer)
  | 0, above, place, _ => .error (.cyclic (above.reverse ++ [place]))
  | fuel + 1, above, place, text =>
    if above.contains place then .error (.cyclic (above.reverse ++ [place]))
    else do
      let layer ← readDocument place text
      match ← extended? place layer with
      | none => return [layer]
      | some base =>
        let path := basePath place base
        let target := Path.ofSteps (Path.steps path)
        match fs.node target with
        | .missing => throw (.file path (.missingBase path place))
        | .directory => throw (.file target .notRegular)
        | .file text => return layer :: (← readChain fs fuel (place :: above) target text)

/-- The layers of a file, if it is there. -/
def readFile (fs : FileSystem) (directory path : String) :
    Except FilesFault (Option (List Layer)) :=
  let place := Path.resolve directory path
  match fs.node place with
  | .missing => .ok none
  | .directory => .error (.file path .notRegular)
  | .file text => (readChain fs (fs.length + 1) [] place text).map some

/-! ## The usual places -/

/-- The directory of the settings among those of other programs. -/
def appName : String := "funcworker"

/-- The name of a file of settings among those of other programs. -/
def dotName : String := ".funcworker.toml"

/-- The places in a directory of settings. -/
def placesIn (directory : String) : List String :=
  [Path.join (Path.join directory appName) "config.toml", Path.join directory dotName]

/-- The paths of files that are tried where the command line names none, in this order. -/
def usualPaths (vars : Variables) (directory : String) : List String :=
  let named := (Variables.find? vars "FUNCWORKER_CONFIG_PATH").toList
  let own := (Variables.find? vars "XDG_CONFIG_HOME").toList
  let shared := match Variables.find? vars "XDG_CONFIG_DIRS" with
    | some list => Path.pieces ':' list
    | none => ["/etc/xdg"]
  let home := (Variables.find? vars "HOME").toList
  named ++ own.flatMap placesIn ++ shared.flatMap placesIn ++
    home.flatMap (fun h => placesIn (Path.join h ".config") ++ [Path.join h dotName]) ++
    [Path.join directory dotName]

/-- The layers of the first of some files that is there and can be read, and what is wrong with
those before it. -/
def firstOf (fs : FileSystem) (directory : String) (faults : List FilesFault) :
    List String → Option (List Layer) × List FilesFault
  | [] => (none, faults.reverse)
  | path :: rest =>
    match readFile fs directory path with
    | .ok (some layers) => (some layers, faults.reverse)
    | .ok none => firstOf fs directory faults rest
    | .error f => firstOf fs directory (f :: faults) rest

/-- The layers of the file that the command line names or of the first that is found, and the faults
that count. Those of files that need not be there count only if no file is found. -/
def readFiles (fs : FileSystem) (vars : Variables) (directory : String)
    (named : Option String) : List Layer × List FilesFault :=
  let usual : List FilesFault → List Layer × List FilesFault := fun required =>
    match firstOf fs directory [] (usualPaths vars directory) with
    | (some layers, _) => (layers, required)
    | (none, faults) => ([], required ++ faults)
  match named with
  | none => usual []
  | some path =>
    match readFile fs directory path with
    | .ok (some layers) => (layers, [])
    | .ok none => usual [.file path .required]
    | .error f => usual [f]

end ScriptWorker.Config

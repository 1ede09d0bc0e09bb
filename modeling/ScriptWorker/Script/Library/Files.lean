import ScriptWorker.Script.Library.Output
import ScriptWorker.Script.Library.Processes

/-!
# Files

The functions of the library `io` and the methods of files. Writing to the standard output is noted
as printed where it goes through `io.write` or the handle `io.stdout`; everything else goes to the
system, which knows open files by numbers.
-/

set_option autoImplicit false

namespace ScriptWorker.Script.Library

open Script.Action

/-! ## Open files -/

/-- The standard streams among the files of programs. -/
def stdinFile : Nat := 0
@[inherit_doc stdinFile] def stdoutFile : Nat := 1
@[inherit_doc stdinFile] def stderrFile : Nat := 2

/-- The files that programs start with. -/
def standardStreams : Array Stream :=
  #[⟨some 0, .standard⟩, ⟨some 1, .standard⟩, ⟨some 2, .standard⟩]

/-- A first argument that is a file. -/
def fileArg (args : Args) : Action Nat :=
  match arg args 1 with
  | .file id => return id
  | _ => badType args 1 "FILE*"

/-- The system's number for a file, which has to be open. -/
def handleOf (id : Nat) (closed : String) : Action Nat := do
  match ← read (·.handle? id) with
  | some handle => return handle
  | none => failText closed

/-- A first argument that is an open file: its number here and that of the system. -/
def openFileArg (args : Args) : Action (Nat × Nat) := do
  let id ← fileArg args
  return (id, ← handleOf id "attempt to use a closed file")

/-- The system's number for the file that is read from where none is named. -/
def inputHandle : Action Nat := do
  handleOf (← read (·.input)) "default input file is closed"

@[inherit_doc inputHandle]
def outputHandle : Action Nat := do
  handleOf (← read (·.output)) "default output file is closed"

/-- The file that the system has opened, or its failure. -/
def opened (kind : StreamKind) (about : Option Bytes) : Except SystemError Nat → Results
  | .ok handle => do return [.file (← transact (·.newStream ⟨some handle, kind⟩))]
  | .error e => return failure about e

/-- Opens a file that has to be there. -/
def openOrFail (name mode : Bytes) : Action Nat := do
  match ← request (.open name mode) with
  | .ok handle => transact (·.newStream ⟨some handle, .file⟩)
  | .error e =>
    fail (bytes "cannot open file '" ++ name ++ bytes "' (" ++ e.message ++ bytes ")")

/-- Closes a file. The standard streams stay open. -/
def closeFile (id handle : Nat) : Results := do
  let kind? : Option StreamKind ← read fun h => (h.streams[id]?).map (·.kind)
  match kind? with
  | some .standard => return [.nil, .ofText "cannot close standard file"]
  | some .process =>
    change (Heap.closeStream id)
    return processOutcome (← request (.finish handle))
  | _ =>
    change (Heap.closeStream id)
    return outcome none (← request (.close handle))

/-! ## Opening and closing -/

/-- Whether a mode is one in which files are opened: a letter, possibly a plus sign, and any number
of letters for binary files. -/
def isMode (mode : List UInt8) : Bool :=
  match mode with
  | b :: rest =>
    let rest := match rest with
      | 0x2B :: rest => rest
      | rest => rest
    "rwa".toList.any (fun c => byte c == b) && rest.all (· == byte 'b')
  | [] => false

def ioOpen (args : Args) : Results := do
  let name ← nameArg args 1
  let mode := upToZero (← stringArgOr args 2 (bytes "r"))
  requireArg (isMode mode.data.toList) 2 "invalid mode"
  opened .file (some name) (← request (.open name mode))

def ioPopen (args : Args) : Results := do
  let command ← nameArg args 1
  let mode := upToZero (← stringArgOr args 2 (bytes "r"))
  requireArg (mode == bytes "r" || mode == bytes "w") 2 "invalid mode"
  opened .process (some command) (← request (.start command mode))

def ioTmpFile (_ : Args) : Results := do
  opened .file none (← request .temporaryFile)

def fileClose (args : Args) : Results := do
  let (id, handle) ← openFileArg args
  closeFile id handle

def ioClose (args : Args) : Results := do
  if args.isEmpty then fileClose [.file (← read (·.output))] else fileClose args

/-- Closes a file that is no longer used, if that has not been done. -/
def fileFinish (args : Args) : Results := do
  let id ← fileArg args
  match ← read (·.handle? id) with
  | some handle => do
    let _ ← closeFile id handle
    return []
  | none => return []

/-- Gives the file that is used where none is named, and sets it where an argument is given: a file
or the name of one, which is opened. -/
def defaultFile (args : Args) (mode : String) (get : Heap → Nat) (set : Nat → Heap → Heap) :
    Results := do
  unless isAbsent args 1 do
    let id ← match textOf? (arg args 1) with
      | some name => openOrFail (upToZero name) (bytes mode)
      | none => Prod.fst <$> openFileArg args
    change (set id)
  return [.file (← read get)]

def ioInput (args : Args) : Results :=
  defaultFile args "r" (·.input) fun id h => { h with input := id }

def ioOutput (args : Args) : Results :=
  defaultFile args "w" (·.output) fun id h => { h with output := id }

def ioType (args : Args) : Results := do
  match ← anyArg args 1 with
  | .file id =>
    let handle? ← read (·.handle? id)
    return [.ofText (if handle?.isSome then "file" else "closed file")]
  | _ => return [.nil]

/-! ## Reading -/

/-- What an argument says is read. -/
def readFormat (args : Args) (n : Nat) : Action ReadFormat := do
  match arg args n with
  | .int _ | .float _ => return .bytes (← intArg args n).toNat
  | _ =>
    let s := (← stringArg args n).data.toList
    let s := match s with
      | 0x2A :: rest => rest
      | s => s
    match s with
    | 0x6E :: _ => return .numeral
    | 0x6C :: _ => return .line false
    | 0x4C :: _ => return .line true
    | 0x61 :: _ => return .all
    | _ => badArgument n (bytes "invalid format")

/-- What has been read as a value, or `nil` if it is not what was asked for. -/
def readValue (format : ReadFormat) : Option Bytes → Value
  | some s =>
    match format with
    | .numeral => ((Number.ofBytes? s.data.toList).map Value.ofNumber).getD .nil
    | _ => .str s
  | none =>
    match format with
    | .all => .str .empty
    | _ => .nil

/-- Reads what the arguments from a number on say, until something is missing. -/
def readFormats (handle : Nat) (args : Args) : Nat → Nat → List Value → Results
  | 0, _, values => return values.reverse
  | count + 1, n, values => do
    let format ← readFormat args n
    match ← request (.read handle format) with
    | .error e => return failure none e
    | .ok found =>
      match readValue format found with
      | .nil => return (.nil :: values).reverse
      | v => readFormats handle args count (n + 1) (v :: values)

/-- Reads what the arguments from a number on say, or a line if there are none. -/
def readFrom (handle : Nat) (args : Args) (first : Nat) : Results :=
  if args.length < first then readFormats handle [.ofText "l"] 1 1 []
  else readFormats handle args (args.length + 1 - first) first []

def ioRead (args : Args) : Results := do readFrom (← inputHandle) args 1

def fileRead (args : Args) : Results := do
  let (_, handle) ← openFileArg args
  readFrom handle args 2

/-! ## Lines -/

/-- How many formats the rounds of an iteration may have. -/
def formatLimit : Nat := 250

/-- The function that reads a file round by round. -/
def lineReader (stream : Nat) (args : Args) (closes : Bool) : Action Value := do
  let formats := args.drop 1
  requireArg (decide (formats.length ≤ formatLimit)) (formatLimit + 2) "too many arguments"
  return .builtin .ioLinesStep (← transact (·.newReader ⟨stream, formats, closes⟩))

def fileLines (args : Args) : Results := do
  let (id, _) ← openFileArg args
  return [← lineReader id args false]

def ioLines (args : Args) : Results := do
  if isAbsent args 1 then fileLines (.file (← read (·.input)) :: args.drop 1)
  else
    let id ← openOrFail (← nameArg args 1) (bytes "r")
    return [← lineReader id args true, .nil, .nil, .file id]

/-- A round of an iteration over a file. -/
def ioLinesStep (reader : Nat) : Results := do
  match ← read (·.readers[reader]?) with
  | none => return [.nil]
  | some r =>
    let handle ← handleOf r.stream "file is already closed"
    let values ← readFrom handle (.nil :: r.formats) 2
    if (values.headD .nil).truthy then return values
    else
      match values with
      | _ :: .str message :: _ => fail message
      | _ =>
        if r.closes then
          let _ ← closeFile r.stream handle
        return []

/-! ## Writing -/

/-- The text of an argument that is written. -/
def writtenArg (args : Args) (n : Nat) : Action Bytes :=
  match arg args n with
  | .float x => return bytes (Number.shortFloat x)
  | _ => stringArg args n

def fileWrite (args : Args) : Results := do
  let (id, handle) ← openFileArg args
  let mut failed : Option SystemError := none
  for i in List.range (args.length - 1) do
    let text ← writtenArg args (i + 2)
    match ← request (.write handle text) with
    | .ok () => pure ()
    | .error e => failed := some e
  match failed with
  | none => return [.file id]
  | some e => return failure none e

def ioFlush (_ : Args) : Results := do
  return outcome none (← request (.flush (← outputHandle)))

def fileFlush (args : Args) : Results := do
  let (_, handle) ← openFileArg args
  return outcome none (← request (.flush handle))

def fileSeek (args : Args) : Results := do
  let (_, handle) ← openFileArg args
  let whence ← optionArg args 2 "cur" ["set", "cur", "end"]
  let offset ← intArgOr args 3 0
  match ← request (.seek handle whence (Int64.ofInt offset)) with
  | .ok position => return [.int position]
  | .error e => return failure none e

/-- The size of a buffer where none is given. -/
def bufferSize : Int := 1024

def fileSetBuffer (args : Args) : Results := do
  let (_, handle) ← openFileArg args
  let some _ := args[1]? | badType args 2 "string"
  let mode ← optionArg args 2 "" ["no", "full", "line"]
  let size ← intArgOr args 3 bufferSize
  return outcome none (← request (.buffer handle mode (Int64.ofInt size)))

/-- The text of a file. -/
def fileText (args : Args) : Results := do
  let id ← fileArg args
  match ← read (·.handle? id) with
  | some _ => return [.str (bytes "file (" ++ identityText (.file id) ++ bytes ")")]
  | none => return [.ofText "file (closed)"]

end ScriptWorker.Script.Library

import ScriptWorker.Script.Library.Files

/-!
# Chunks in files and modules

The functions that load chunks from files, and `require` with the library `package`, which looks
for modules in files. Libraries in machine code are not loaded.
-/

set_option autoImplicit false

namespace ScriptWorker.Script.Library

open Script.Action

/-! ## Chunks in files -/

/-- What a file holds, or the message that it cannot be opened or read. -/
def contents (name : Bytes) : Action (Except Bytes Bytes) := do
  let refused (what : String) (e : SystemError) : Except Bytes Bytes :=
    .error (bytes ("cannot " ++ what ++ " ") ++ name ++ bytes ": " ++ e.message)
  match ← request (.open name (bytes "r")) with
  | .error e => return refused "open" e
  | .ok handle =>
    let found ← request (.read handle .all)
    let _ ← request (.close handle)
    match found with
    | .ok found => return .ok (found.getD .empty)
    | .error e => return refused "read" e

/-- A chunk without the mark of its encoding, and with an empty line in the place of a first line
that starts with `#`. -/
def stripComment (s : List UInt8) : List UInt8 :=
  let s := match s with
    | 0xEF :: 0xBB :: 0xBF :: rest => rest
    | s => s
  match s with
  | 0x23 :: rest =>
    match rest.dropWhile (· != 0x0A) with
    | 0x0A :: 0x1B :: rest => 0x1B :: rest
    | rest => rest
  | s => s

/-- The code of the chunk in a file, or in the standard input if no file is named. -/
def compileFile (name? : Option Bytes) (mode : Bytes) : Action (Except Bytes Proto) := do
  let (found, name) ← match name? with
    | some name => do pure (← contents name, bytes "@" ++ name)
    | none => do
      let found ← request (.read stdinFile .all)
      pure ((match found with
        | .ok found => .ok (found.getD .empty)
        | .error e => .error (bytes "cannot read stdin: " ++ e.message)), bytes "=stdin")
  match found with
  | .ok source => compile name (stripComment source.data.toList).toByteArray mode
  | .error message => return .error message

/-- A first argument that names a file, if there is one. -/
def chunkNameArg (args : Args) : Action (Option Bytes) :=
  if isAbsent args 1 then return none else some <$> nameArg args 1

def loadFile (args : Args) : Results := do
  let name? ← chunkNameArg args
  let mode ← stringArgOr args 2 (bytes "bt")
  let environment := (args[2]?).getD (.table Heap.globals)
  match ← compileFile name? mode with
  | .ok p => return [← transact (Chunk.close p environment)]
  | .error message => return [.nil, .str message]

def doFile (args : Args) : Results := do
  match ← compileFile (← chunkNameArg args) (bytes "bt") with
  | .ok p => Action.call (← transact (Chunk.close p (.table Heap.globals))) [] .done
  | .error message => Action.raise (.str message)

/-! ## Looking for modules -/

/-- The paths where modules are looked for, with a mark for the module's name, as they are where the
environment names no others. -/
def searchPath : String :=
  ";".intercalate [
    "/usr/local/share/lua/5.4/?.lua", "/usr/local/share/lua/5.4/?/init.lua",
    "/usr/local/lib/lua/5.4/?.lua", "/usr/local/lib/lua/5.4/?/init.lua",
    "./?.lua", "./?/init.lua"]

/-- The paths where compiled libraries are looked for. -/
def librarySearchPath : String :=
  ";".intercalate ["/usr/local/lib/lua/5.4/?.so", "/usr/local/lib/lua/5.4/loadall.so", "./?.so"]

/-- A string with every occurrence of a byte replaced. -/
def replaceByte (b : UInt8) (by_ s : List UInt8) : List UInt8 :=
  s.flatMap fun c => if c = b then by_ else [c]

/-- The files where a path leads for a name. -/
def candidates (path name : List UInt8) : List Bytes :=
  let paths := (path.splitOnP (· == byte ';')).filter (!·.isEmpty)
  paths.map fun p => (replaceByte (byte '?') name p).toByteArray

/-- The first of some files that can be opened. -/
def findFile : List Bytes → Action (Option Bytes)
  | [] => return none
  | file :: files => do
    match ← request (.open file (bytes "r")) with
    | .ok handle =>
      let _ ← request (.close handle)
      return some file
    | .error _ => findFile files

/-- The message about files that are not there. -/
def missing (files : List Bytes) : Bytes :=
  match files.map fun f => bytes "no file '" ++ f ++ bytes "'" with
  | [] => .empty
  | first :: rest => rest.foldl (fun s l => s ++ bytes "\n\t" ++ l) first

def packageSearchPath (args : Args) : Results := do
  let name := (← stringArg args 1).data.toList
  let path := (← stringArg args 2).data.toList
  let dot := (← stringArgOr args 3 (bytes ".")).data.toList
  let by_ := (← stringArgOr args 4 (bytes "/")).data.toList
  let name := match dot with
    | [b] => replaceByte b by_ name
    | _ => name
  let files := candidates path name
  match ← findFile files with
  | some file => return [.str file]
  | none => return [.nil, .str (missing files)]

def packageLoadLib (_ : Args) : Results :=
  Action.raise (.fault "safety error: package.loadlib is disabled in safe mode")

/-- The function that loads a module from the file where the search path leads, with the name of
the file, or the message that there is none. -/
def fileLoader (name : Bytes) : Results := do
  match textOf? (← getField (.table (Heap.library 7)) (.ofText "path")) with
  | none => failText "'package.path' must be a string"
  | some path =>
    let files := candidates path.data.toList (replaceByte (byte '.') [byte '/'] name.data.toList)
    match ← findFile files with
    | none => return [.str (missing files)]
    | some file =>
      match ← compileFile (some file) (bytes "bt") with
      | .ok p => return [← transact (Chunk.close p (.table Heap.globals)), .str file]
      | .error message =>
        fail (bytes "error loading module '" ++ name ++ bytes "' from file '" ++ file ++
          bytes "':\n\t" ++ message)

/-- What a way of finding modules says about a name, by its number. -/
def packageSearcher (way : Nat) (args : Args) : Results := do
  match way with
  | 0 =>
    let name ← stringArg args 1
    match ← read fun h => h.rawGet Heap.preload (.str name) with
    | .nil => return [.str (bytes "no field package.preload['" ++ name ++ bytes "']")]
    | f => return [f, .ofText ":preload:"]
  | 1 => fileLoader (← stringArg args 1)
  | _ => return [.ofText "\n\tcan't load C modules in safe mode"]

/-- Asks the ways of finding modules one after another, and gathers what they say. -/
def findLoader (searchers : Value) (name : Bytes) : Nat → Nat → Bytes →
    Action (Value × Value)
  | 0, _, said => fail said
  | fuel + 1, i, said => do
    match ← read fun h =>
      match searchers with
      | .table id => h.rawGet id (.ofNat i)
      | _ => .nil with
    | .nil => fail (bytes "module '" ++ name ++ bytes "' not found:" ++ said)
    | f =>
      let values ← Action.call f [.str name] .done
      let first := values.getD 0 .nil
      if Heap.isFunction first then return (first, values.getD 1 .nil)
      else
        match textOf? first with
        | some s => findLoader searchers name fuel (i + 1) (said ++ bytes "\n\t" ++ s)
        | none => findLoader searchers name fuel (i + 1) said

def require (args : Args) : Results := do
  let name ← stringArg args 1
  let loaded : Value := .table Heap.loaded
  let v ← getField loaded (.str name)
  if v.truthy then return [v]
  else
    let searchers ← getField (.table (Heap.library 7)) (.ofText "searchers")
    match searchers with
    | .table _ => pure ()
    | _ => failText "'package.searchers' must be a table"
    let (f, extra) ← findLoader searchers name 1000 1 .empty
    let result ← callOne f [.str name, extra]
    unless result.isNil do setField loaded (.str name) result
    if (← getField loaded (.str name)).isNil then setField loaded (.str name) (.bool true)
    return [← getField loaded (.str name), extra]

end ScriptWorker.Script.Library

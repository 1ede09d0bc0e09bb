import ScriptWorker.Script.Library.Start

/-!
# The environment of programs

The heap that every program starts with: the global variables, the libraries and the metatables of
strings, files and arrays from outside.
-/

set_option autoImplicit false

namespace ScriptWorker.Script.Library

/-- A table of named values. -/
def tableOf (members : List (String × Value)) : Table :=
  members.foldl (fun t (name, v) => t.insert (.str (bytes name)) v) .empty

/-- The functions of a library as named values. -/
def functionsOf (functions : List (String × Builtin)) : List (String × Value) :=
  functions.map fun (name, f) => (name, .builtin f 0)

/-- What the libraries hold beside functions. -/
def constantsOf : String → List (String × Value)
  | "math" => [
    ("pi", .float pi), ("huge", .float (1.0 / 0.0)), ("maxinteger", .int Int64.maxValue),
    ("mininteger", .int Int64.minValue)]
  | "utf8" => [("charpattern", .str charPattern)]
  | "io" => [
    ("stdin", .file stdinFile), ("stderr", .file stderrFile), ("stdout", .table Heap.stdout)]
  | "package" => [
    ("path", .ofText searchPath), ("cpath", .ofText librarySearchPath),
    ("config", .ofText "/\n;\n?\n!\n-\n"), ("loaded", .table Heap.loaded),
    ("preload", .table Heap.preload), ("searchers", .table searchers)]
  | _ => []
where
  searchers : Nat := Heap.library Builtin.libraries.length

/-- The libraries, by name and by the numbers of their tables. -/
def libraryTables : List (String × Value) :=
  Builtin.libraries.zipIdx.map fun ((name, _), i) => (name, .table (Heap.library i))

/-- The global variables. -/
def globalsTable : Table :=
  tableOf (functionsOf Builtin.basic ++ libraryTables ++
    [("_G", .table Heap.globals), ("_VERSION", .ofText "Lua 5.4")])

/-- The metatable of strings, by which a string has the functions on strings as methods. -/
def stringMetaTable : Table :=
  tableOf (("__index", .table (Heap.library 1)) :: functionsOf Builtin.stringEvents)

/-- The methods of a file. -/
def fileMethods : Table := tableOf (functionsOf Builtin.fileMethods)

/-- The metatable of files. -/
def fileMetaTable : Table :=
  tableOf [
    ("__name", .ofText "FILE*"), ("__tostring", .builtin .fileText 0),
    ("__close", .builtin .fileFinish 0), ("__gc", .builtin .fileFinish 0),
    ("__index", .table (Heap.library (Builtin.libraries.length + 1)))]

/-- The ways of finding modules. -/
def searchersTable : Table :=
  (List.range 3).foldl
    (fun t i => t.insert (.int (Int64.ofNat (i + 1))) (.builtin .packageSearcher i)) .empty

/-- All tables that programs start with, in the order of their numbers. -/
def tables : List Table := [
  globalsTable,
  stringMetaTable,
  tableOf (("_G", .table Heap.globals) :: libraryTables),
  .empty,
  tableOf [("write", .builtin .ioWriteMethod 0)],
  tableOf [("__metatable", .bool false)],
  fileMetaTable] ++
  Builtin.libraries.map (fun (name, functions) =>
    tableOf (functionsOf functions ++ constantsOf name)) ++
  [searchersTable, fileMethods]

/-- The heap that programs start with. -/
def initialHeap : Heap := {
  tables := tables.toArray
  cells := #[]
  closures := #[]
  searches := #[]
  streams := standardStreams
  readers := #[]
  input := stdinFile
  output := stdoutFile
  generator := none
  printed := [] }

end ScriptWorker.Script.Library

import ScriptWorker.Loading.Bridge
import ScriptWorker.Loading.Conversion
import ScriptWorker.Loading.Signature
import ScriptWorker.Script.Session
import ScriptWorker.Worker.Protocol

/-!
# Loading sources and calling what they give

By signature, the declared function is compiled and called directly. As a module, the source runs
once, and its entry point is looked up among its exports for each call. Each source has a heap of
its own, but all of them run on one system, where a source that is refused can leave traces too.
-/

set_option autoImplicit false

namespace ScriptWorker.Loading

open Script

/-- What a call goes to. -/
inductive Entry where
  | function (f : Value)
  /-- A function under a name among a module's exports. -/
  | exported (surface : Value) (name : String)

/-- A loaded function with the session that it lives in. -/
structure Loaded : Type 1 where
  session : Session
  entry : Entry

/-! ## Events -/

/-- The events of printed lines. -/
def printedEvents (lines : List String) : List Trace.Event :=
  lines.map fun line => ⟨.info, Trace.userTarget, "function printed", [("output", .shown line)]⟩

/-- Takes the events of what was printed. -/
def takeEvents (s : Session) : List Trace.Event × Session :=
  let (lines, s) := s.takePrinted
  (printedEvents lines, s)

/-- The event of a source that loaded by signature. -/
def compiledEvent (signature : Signature) : Trace.Event :=
  ⟨.debug, Trace.loaderTarget, "compiled function from signature",
    [("name", .shown signature.name), ("params", .number signature.params.length)]⟩

/-- The event of a source that loaded as a module. -/
def moduleEvent (entryPoint : String) : Trace.Event :=
  ⟨.debug, Trace.loaderTarget, "loaded module", [("entry_point", .shown entryPoint)]⟩

/-- The message about a call that was given up. -/
def unfinishedMessage : String := "the function does not end"

/-! ## Loading -/

/-- A text as a string of the language. -/
def sourceBytes (s : String) : Bytes := (Text.Utf8.encode s).toByteArray

/-- A function for a chunk of source. -/
def compileChunk (s : Session) (name source : String) (environment : Value) :
    Except String (Value × Session) :=
  let refused (message : Bytes) : Except String (Value × Session) :=
    .error (String.ofList (Session.beforeTrace (Text.Utf8.decodeLossy message.data.toList)))
  let name := sourceBytes ("=" ++ name)
  match Chunk.load name (sourceBytes source) (bytes "bt") 0 with
  | .code p =>
    let (f, heap) := Chunk.close p environment s.heap
    .ok (f, { s with heap })
  -- the header of compiled code is no text, so none is found here
  | .compiled _ => refused (Chunk.compiledFault name "truncated chunk")
  | .refused message => refused message

/-- Loads a source by its signature on a system. -/
def loadSignature (system : System) (source : String) :
    Except ConversionError Loaded × System × List Trace.Event :=
  match Signature.extract source with
  | .error e => (.error e, system, [])
  | .ok signature =>
    match compileChunk (.fresh system) signature.name signature.chunk (.table Heap.globals) with
    | .error message => (.error (.compile message), system, [])
    | .ok (chunk, s) =>
      let (ending, s) := s.call chunk []
      let (events, s) := takeEvents s
      match ending with
      | .returned values =>
        let f := values.headD .nil
        if Heap.isFunction f then
          (.ok ⟨s, .function f⟩, s.system, events ++ [compiledEvent signature])
        else
          (.error (.compile ("error converting Lua " ++ Library.kindName f ++ " to function")),
            s.system, events)
      | .raised message => (.error (.compile message), s.system, events)
      | .unfinished => (.error (.compile unfinishedMessage), s.system, events)

/-! ## Modules -/

/-- The environment of a module: tables for its exports, and the global variables behind them. -/
def moduleEnvironment (h : Heap) : Nat × Heap :=
  let (exports, h) := h.newTable .empty
  let (module_, h) := h.newTable (Library.tableOf [("exports", .table exports)])
  let (metatable, h) := h.newTable (Library.tableOf [("__index", .table Heap.globals)])
  h.newTable { Library.tableOf [("exports", .table exports), ("module", .table module_)] with
    metatable := some metatable }

/-- Whether a value can be the surface of a module: all but `nil` and tables without entries. -/
def isSurface (h : Heap) : Value → Bool
  | .nil => false
  | .table id => (h.table id).first.isSome
  | _ => true

/-- The places where a module may have put its exports, in the order in which they are asked. -/
def surfaces (h : Heap) (environment : Nat) (returned : Value) : List Value :=
  let inModule : List Value := match h.rawGet environment (.ofText "module") with
    | .table id => [h.rawGet id (.ofText "exports")]
    | _ => []
  returned :: inModule ++ [h.rawGet environment (.ofText "exports")]

/-- The exports of a module that has run and returned a value. -/
def surface? (h : Heap) (environment : Nat) (returned : Value) : Option Value :=
  (surfaces h environment returned).find? (isSurface h)

/-- The environment of a module on a system, and the session in which it is compiled. -/
def moduleStart (system : System) : Nat × Session :=
  let s := Session.fresh system
  let (environment, heap) := moduleEnvironment s.heap
  (environment, { s with heap })

/-- Loads a source as a module on a system. -/
def loadModule (entryPoint : String) (system : System) (source : String) :
    Except ConversionError Loaded × System × List Trace.Event :=
  let (environment, s) := moduleStart system
  match compileChunk s "module" source (.table environment) with
  | .error message => (.error (.compile message), system, [])
  | .ok (chunk, s) =>
    let (ending, s) := s.call chunk []
    let (events, s) := takeEvents s
    match ending with
    | .returned values =>
      match surface? s.heap environment (values.headD .nil) with
      | some surface =>
        (.ok ⟨s, .exported surface entryPoint⟩, s.system, events ++ [moduleEvent entryPoint])
      | none => (.error .noExports, s.system, events)
    | .raised message => (.error (.execute message), s.system, events)
    | .unfinished => (.error (.execute unfinishedMessage), s.system, events)

/-! ## Calling -/

/-- Calls a function with a JSON value for its first result as another one. -/
def callFunction (s : Session) (f : Value) (argument : Json.Value) :
    Except InvocationError Json.Value × Session :=
  let (argument, heap) := Bridge.decode s.heap argument
  let (ending, s) := { s with heap }.call f [argument]
  match ending with
  | .returned values =>
    match Bridge.encode s.heap (values.headD .nil) with
    | .ok v => (.ok v, s)
    | .error fault => (.error (.unrepresentable fault), s)
  | .raised message => (.error (.raised message), s)
  | .unfinished => (.error (.raised unfinishedMessage), s)

/-- Looks up what an entry stands for. -/
def resolve (s : Session) : Entry → Except InvocationError Value × Session
  | .function f => (.ok f, s)
  | .exported (.table id) name =>
    let (ending, s) := s.call (.builtin .fieldOf 0) [.table id, Bridge.textValue name]
    match ending with
    | .returned values =>
      let f := values.headD .nil
      if Heap.isFunction f then (.ok f, s) else (.error (.missingEntryPoint name), s)
    | .raised message => (.error (.raised message), s)
    | .unfinished => (.error (.raised unfinishedMessage), s)
  | .exported _ name => (.error (.missingEntryPoint name), s)

/-- Calls a loaded function. -/
def Loaded.invoke (u : Loaded) (argument : Json.Value) :
    Except InvocationError Json.Value × Loaded × List Trace.Event :=
  let (found, s) := resolve u.session u.entry
  let (result, s) := match found with
    | .ok f => callFunction s f argument
    | .error e => (.error e, s)
  let (events, s) := takeEvents s
  (result, ⟨s, u.entry⟩, events)

/-! ## Strategies -/

/-- Loads a source on a system. -/
def Conversion.load (c : Conversion) (entryPoint : String) (system : System) (source : String) :
    Except ConversionError Loaded × System × List Trace.Event :=
  match c with
  | .signature => loadSignature system source
  | .module => loadModule entryPoint system source

/-- A strategy for workers. What its loader remembers is the system as the last source has left
it. -/
def strategy (c : Conversion) (entryPoint : String) : Worker.Strategy System Loaded where
  load := c.load entryPoint
  invoke := Loaded.invoke

end ScriptWorker.Loading

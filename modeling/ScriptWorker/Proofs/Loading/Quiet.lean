import ScriptWorker.Loading.Loaded
import ScriptWorker.Proofs.Script.Calls
import ScriptWorker.Script.Host

/-!
# Sources that ask for nothing

A source that asks the system for nothing while it is loaded is loaded alike on every system, and
leaves it as it was (`load_of_asksNothing`). One that is not compiled is not even run, so it asks
for nothing.
-/

set_option autoImplicit false

namespace ScriptWorker.Loading

open Script

/-- The unit on another system. -/
def Loaded.on (u : Loaded) (system : System) : Loaded := ⟨u.session.on system, u.entry⟩

/-- The function that is called to load a source, with the session of the call, if the source is
compiled. -/
def Conversion.compiled? (c : Conversion) (system : System) (source : String) :
    Option (Value × Session) :=
  match c with
  | .signature =>
    match Signature.extract source with
    | .ok g => (compileChunk (.fresh system) g.name g.chunk (.table Heap.globals)).toOption
    | .error _ => none
  | .module =>
    (compileChunk (moduleStart system).2 "module" source (.table (moduleStart system).1)).toOption

/-- Whether a source asks the system for nothing while it is loaded. -/
def Conversion.asksNothing (c : Conversion) (source : String) : Bool :=
  (c.compiled? .bare source).all fun (f, s) => s.asksNothing f []

theorem compileChunk_on (s : Session) (name source : String) (environment : Value)
    (system : System) :
    compileChunk (s.on system) name source environment =
      (compileChunk s name source environment).map fun (f, s) => (f, s.on system) := by
  simp only [compileChunk]
  cases Chunk.load (sourceBytes ("=" ++ name)) (sourceBytes source) (bytes "bt") 0 <;> rfl

theorem moduleStart_eq (system : System) :
    moduleStart system = ((moduleStart .bare).1, (moduleStart .bare).2.on system) := rfl

/-- A compiled function whose call asks for nothing is called alike on every system. -/
theorem call_compiled {s : Session} {f : Value}
    (h : (some (f, s)).all (fun (f, s) => s.asksNothing f []) = true) (system : System) :
    (s.on system).call f [] = ((s.call f []).1, (s.call f []).2.on system) :=
  Session.call_on h system

theorem loadSignature_of_asksNothing {source : String}
    (h : Conversion.asksNothing .signature source = true) (system : System) :
    loadSignature system source =
      ((loadSignature .bare source).1.map (·.on system), system,
        (loadSignature .bare source).2.2) := by
  rw [Conversion.asksNothing, Conversion.compiled?] at h
  simp only [loadSignature]
  cases hg : Signature.extract source with
  | error e => rfl
  | ok g =>
    have hon := compileChunk_on (.fresh .bare) g.name g.chunk (.table Heap.globals) system
    rw [Session.on_fresh] at hon
    simp only [hg] at h ⊢
    cases hc : compileChunk (.fresh .bare) g.name g.chunk (.table Heap.globals) with
    | error message =>
      rw [hc] at hon
      simp only [hon, Except.map]
    | ok compiled =>
      obtain ⟨f, s⟩ := compiled
      rw [hc] at h hon
      simp only [hon, Except.map, call_compiled h system]
      rcases s.call f [] with ⟨values | message | _, s'⟩
      · simp only [takeEvents, Session.takePrinted, Session.on]
        split <;> rfl
      · rfl
      · rfl

theorem loadModule_of_asksNothing {source : String}
    (h : Conversion.asksNothing .module source = true) (entryPoint : String) (system : System) :
    loadModule entryPoint system source =
      ((loadModule entryPoint .bare source).1.map (·.on system), system,
        (loadModule entryPoint .bare source).2.2) := by
  rw [Conversion.asksNothing, Conversion.compiled?] at h
  have hon := compileChunk_on (moduleStart .bare).2 "module" source (.table (moduleStart .bare).1)
    system
  simp only [loadModule]
  rw [moduleStart_eq system]
  cases hc : compileChunk (moduleStart .bare).2 "module" source
      (.table (moduleStart .bare).1) with
  | error message =>
    rw [hc] at hon
    simp only [hon, Except.map]
  | ok compiled =>
    obtain ⟨f, s⟩ := compiled
    rw [hc] at h hon
    simp only [hon, Except.map, call_compiled h system]
    rcases s.call f [] with ⟨values | message | _, s'⟩
    · simp only [takeEvents, Session.takePrinted, Session.on]
      cases surface? _ _ _ <;> rfl
    · rfl
    · rfl

/-- **A source that asks for nothing is loaded alike on every system**, and leaves it as it was. -/
theorem load_of_asksNothing {c : Conversion} {source : String} (h : c.asksNothing source = true)
    (entryPoint : String) (system : System) :
    c.load entryPoint system source =
      ((c.load entryPoint .bare source).1.map (·.on system), system,
        (c.load entryPoint .bare source).2.2) := by
  cases c with
  | signature => exact loadSignature_of_asksNothing h system
  | module => exact loadModule_of_asksNothing h entryPoint system

end ScriptWorker.Loading

import ScriptWorker.Proofs.Loading.EntryPoints
import ScriptWorker.Proofs.Results
import ScriptWorker.Proofs.Script.Raising

/-!
# Messages of raised errors

A text that a function raises without a place in front of it, and that nothing catches, is reported
by the call, and a text that a module raises so while it is loaded is reported by the loading
(`raised_reported`). What is reported is the text itself only if it has neither a zero character nor
the mark that a trace of calls starts with.
-/

set_option autoImplicit false

namespace ScriptWorker.Loading

open Script Worker

/-- A failing call is reported by a worker that reports failures. -/
theorem answer_of_error {setup : Setup System Loaded} (hs : setup.strategy.invoke = Loaded.invoke)
    (hp : setup.options.onInvokeError = .report) {u : Loaded} {v : Json.Value} {e : InvocationError}
    (he : (u.invoke v).1 = .error e) (w : Worker System Loaded) (o : Channel.Outlets) :
    setup.answer w u v o = reply { w with phase := .serving (u.invoke v).2.1 }
      ((o.noteAll (u.invoke v).2.2).note
        (event .warn "request failed, reporting" [("error", .shown e.message)]))
      (.error e.message) := by
  simp only [Setup.answer, hs, he, hp]

section

variable {text : String} {s s' : Session} {f : Value}

theorem call_of_raisesUncaught {args : List Value}
    (h : s.RaisesUncaught f args (Text.Utf8.encode text).toByteArray s') :
    s.call f args = (.raised (Session.reported text), s') := by
  rw [Session.call_of_raisesUncaught h, Session.messageOf_upToZero]

theorem callFunction_of_raisesUncaught {v : Json.Value}
    (h : Session.RaisesUncaught { s with heap := (Bridge.decode s.heap v).2 } f
      [(Bridge.decode s.heap v).1] (Text.Utf8.encode text).toByteArray s') :
    callFunction s f v = (.error (.raised (Session.reported text)), s') := by
  rw [callFunction_eq (call_of_raisesUncaught h), outcomeOf]

end

theorem loadModule_of_raised {system : System} {entryPoint source message : String} {chunk : Value}
    {s s' : Session}
    (hc : compileChunk (moduleStart system).2 "module" source (.table (moduleStart system).1) =
      .ok (chunk, s))
    (hr : s.call chunk [] = (.raised message, s')) :
    (loadModule entryPoint system source).1 = .error (.execute message) := by
  rw [loadModule]
  simp only [hc, hr]

/-- **A raised text is reported up to a zero character and the mark of a trace.** Whatever unit is
called, if the call comes to raise the text uncaught, it fails with what is reported of the text,
and a worker that reports failures writes an error line with that. Loading a module that comes to
raise the text fails with the same message. The message is a part of the text from its start; it is
all of it just if there is neither a zero character nor the mark in it. -/
theorem raised_reported (text : String) :
    (∀ (u : Loaded) (v : Json.Value) (f : Value) (s s' : Session),
      resolve u.session u.entry = (.ok f, s) →
      Session.RaisesUncaught { s with heap := (Bridge.decode s.heap v).2 } f
        [(Bridge.decode s.heap v).1] (Text.Utf8.encode text).toByteArray s' →
      (u.invoke v).1 = .error (.raised (Session.reported text)) ∧
      (u.invoke v).2.1 = ⟨(takeEvents s').2, u.entry⟩ ∧
      ∀ (setup : Setup System Loaded) (w : Worker System Loaded) (o : Channel.Outlets),
        setup.strategy.invoke = Loaded.invoke → setup.options.onInvokeError = .report →
        setup.answer w u v o = reply { w with phase := .serving (u.invoke v).2.1 }
          ((o.noteAll (u.invoke v).2.2).note (event .warn "request failed, reporting"
            [("error", .shown ("function raised: " ++ Session.reported text))]))
          (.error ("function raised: " ++ Session.reported text))) ∧
    (∀ (entryPoint : String) (system : System) (source : String) (chunk : Value) (s s' : Session),
      compileChunk (moduleStart system).2 "module" source (.table (moduleStart system).1) =
        .ok (chunk, s) →
      s.RaisesUncaught chunk [] (Text.Utf8.encode text).toByteArray s' →
      (loadModule entryPoint system source).1 = .error (.execute (Session.reported text))) ∧
    (Session.reported text).toList <+: text.toList ∧
    (Session.reported text = text ↔
      '\x00' ∉ text.toList ∧ ¬Session.traceMark <:+: text.toList) := by
  refine ⟨fun u v f s s' hf h => ?_, fun entryPoint system source chunk s s' hc h =>
    loadModule_of_raised hc (call_of_raisesUncaught h), Session.reported_initial text,
    Session.reported_eq_iff text⟩
  have hi := Loaded.invoke_found v hf
  rw [callFunction_of_raisesUncaught h] at hi
  refine ⟨congrArg Prod.fst hi, congrArg (·.2.1) hi, fun setup w o hs hp => ?_⟩
  exact answer_of_error hs hp (congrArg Prod.fst hi) w o

/-! ## Sources that raise texts -/

/-- A function that raises its argument without a place in front of it. -/
def raisingSource : String := "function f(x) \x7b error(x, 0) \x7d"

/-- Whether the unit is a function that raises its argument and does nothing before. -/
def Loaded.raises (u : Loaded) : Bool :=
  match u.entry with
  | .function (.closure id) =>
    match u.session.heap.closures[id]? with
    | some c =>
      match c.raised? u.session.heap with
      | some (.slot 0) => decide (0 < c.proto.parameters)
      | _ => false
    | none => false
  | _ => false

theorem Loaded.raises_spec {u : Loaded} (hu : u.raises) :
    ∃ f, u.entry = .function f ∧ ∀ b, u.session.RaisesUncaught f [.str b] b u.session := by
  unfold raises at hu
  split at hu
  next id he =>
    split at hu
    next c hc =>
      split at hu
      next hx =>
        refine ⟨.closure id, he, fun b => ?_⟩
        exact Session.raisesUncaught_argument hc (Closure.callsError_of_raised? hx)
          (of_decide_eq_true hu) b
      next => cases hu
    next => cases hu
  next => cases hu

set_option maxRecDepth 100000 in
theorem loads_raisingSource :
    (loadSignature .bare raisingSource).1.toOption.any Loaded.raises = true := by
  decide +kernel

theorem exists_raising :
    ∃ u f, (loadSignature .bare raisingSource).1 = .ok u ∧
      resolve u.session u.entry = (.ok f, u.session) ∧
      ∀ b, u.session.RaisesUncaught f [.str b] b u.session := by
  obtain ⟨u, hu, hload⟩ := exists_of_any loads_raisingSource
  obtain ⟨f, he, hraises⟩ := Loaded.raises_spec hload
  exact ⟨u, f, hu, resolve_function he, hraises⟩

/-- A module that raises a text while it is loaded. -/
def failingSource : String := "error('boom', 0)"

/-- Whether the compiled module raises that text and does nothing before. -/
def raisesBoom (compiled : Value × Session) : Bool :=
  match compiled.1 with
  | .closure id =>
    match compiled.2.heap.closures[id]? with
    | some c =>
      match c.raised? compiled.2.heap with
      | some (.literal (.str b)) => b.data.toList == Text.Utf8.encode "boom"
      | _ => false
    | none => false
  | _ => false

theorem raisesBoom_spec {compiled : Value × Session} (h : raisesBoom compiled) :
    compiled.2.RaisesUncaught compiled.1 [] (Text.Utf8.encode "boom").toByteArray compiled.2 := by
  unfold raisesBoom at h
  split at h
  next id hid =>
    split at h
    next c hc =>
      split at h
      next b hx =>
        obtain rfl := Text.Utf8.eq_toByteArray_iff.2 (beq_iff_eq.1 h)
        rw [hid]
        exact Session.raisesUncaught_literal hc (Closure.callsError_of_raised? hx) []
      next => cases h
    next => cases h
  next => cases h

set_option maxRecDepth 100000 in
theorem compiles_failingSource :
    (compileChunk (moduleStart .bare).2 "module" failingSource
      (.table (moduleStart .bare).1)).toOption.any raisesBoom = true := by
  decide +kernel

/-- Each text that the function is called with is reported up to where it is cut, and the text that
the module raises is reported. -/
theorem raised_argument :
    (∃ u, (loadSignature .bare raisingSource).1 = .ok u ∧ ∀ text,
      (u.invoke (.string text)).1 = .error (.raised (Session.reported text))) ∧
    (loadModule "handler" .bare failingSource).1 = .error (.execute "boom") := by
  constructor
  · obtain ⟨u, f, hu, hf, hraises⟩ := exists_raising
    refine ⟨u, hu, fun text => ?_⟩
    exact ((raised_reported text).1 u (.string text) f u.session u.session hf (hraises _)).1
  · have hboom : Session.reported "boom" = "boom" := by decide +kernel
    obtain ⟨compiled, hc, hraises⟩ := exists_of_any compiles_failingSource
    rw [← hboom]
    exact (raised_reported "boom").2.1 "handler" .bare failingSource compiled.1 compiled.2
      compiled.2 hc (raisesBoom_spec hraises)

/-- A text that has the mark of a trace in it. -/
def markedText : String := "a\nstack traceback:\nb"

/-- The function raises the text, and the call fails with its first line alone. -/
theorem marked_cut :
    ∃ u f, (loadSignature .bare raisingSource).1 = .ok u ∧
      resolve u.session u.entry = (.ok f, u.session) ∧
      u.session.RaisesUncaught f [Bridge.textValue markedText]
        (Text.Utf8.encode markedText).toByteArray u.session ∧
      (u.invoke (.string markedText)).1 = .error (.raised "a") ∧ "a" ≠ markedText := by
  obtain ⟨u, f, hu, hf, hraises⟩ := exists_raising
  have hcut : Session.reported markedText = "a" := by decide +kernel
  have hr := hraises (Text.Utf8.encode markedText).toByteArray
  refine ⟨u, f, hu, hf, hr, ?_, by decide⟩
  rw [Loaded.invoke_found (.string markedText) hf,
    callFunction_of_raisesUncaught (v := .string markedText) hr, hcut]

end ScriptWorker.Loading

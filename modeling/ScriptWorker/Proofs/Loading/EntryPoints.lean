import ScriptWorker.Loading.Loaded
import ScriptWorker.Proofs.Script.Calls
import ScriptWorker.Script.Host

/-!
# Entry points of modules

A call of a module looks its entry point up among the exports and calls what is there. `Calls` and
`Invokes` say what such a call may come to, case by case; each call is just one of the cases
(`invokes_invoke`). Only functions are called: a module whose entry point is anything else, also a
value that the language can call, lacks it (`missingEntryPoint_iff`).
-/

set_option autoImplicit false

namespace ScriptWorker.Loading

open Script

/-! ## Calling -/

/-- What a call of a function with a JSON value comes to, and the session after it. -/
inductive Calls (s : Session) (f : Value) (v : Json.Value) :
    Except InvocationError Json.Value → Session → Prop
  | result {values w s'}
    (hc : { s with heap := (Bridge.decode s.heap v).2 }.call f [(Bridge.decode s.heap v).1] =
      (.returned values, s'))
    (hw : Bridge.encode s'.heap (values.headD .nil) = .ok w) : Calls s f v (.ok w) s'
  | unrepresentable {values fault s'}
    (hc : { s with heap := (Bridge.decode s.heap v).2 }.call f [(Bridge.decode s.heap v).1] =
      (.returned values, s'))
    (hw : Bridge.encode s'.heap (values.headD .nil) = .error fault) :
    Calls s f v (.error (.unrepresentable fault)) s'
  | raised {message s'}
    (hc : { s with heap := (Bridge.decode s.heap v).2 }.call f [(Bridge.decode s.heap v).1] =
      (.raised message, s')) : Calls s f v (.error (.raised message)) s'
  | unfinished {s'}
    (hc : { s with heap := (Bridge.decode s.heap v).2 }.call f [(Bridge.decode s.heap v).1] =
      (.unfinished, s')) : Calls s f v (.error (.raised unfinishedMessage)) s'

/-- What a call comes to outside that has ended so in a session. -/
def outcomeOf (s : Session) : Ending → Except InvocationError Json.Value
  | .returned values => (Bridge.encode s.heap (values.headD .nil)).mapError .unrepresentable
  | .raised message => .error (.raised message)
  | .unfinished => .error (.raised unfinishedMessage)

theorem callFunction_eq {s s' : Session} {f : Value} {v : Json.Value} {ending : Ending}
    (hc : { s with heap := (Bridge.decode s.heap v).2 }.call f [(Bridge.decode s.heap v).1] =
      (ending, s')) : callFunction s f v = (outcomeOf s' ending, s') := by
  rw [callFunction]
  cases hd : Bridge.decode s.heap v with
  | mk argument heap =>
    rw [hd] at hc
    simp only [hc]
    cases ending with
    | returned values =>
      simp only [outcomeOf]
      cases Bridge.encode s'.heap (values.headD .nil) <;> rfl
    | raised message | unfinished => rfl

theorem calls_callFunction (s : Session) (f : Value) (v : Json.Value) :
    Calls s f v (callFunction s f v).1 (callFunction s f v).2 := by
  rcases hc : { s with heap := (Bridge.decode s.heap v).2 }.call f [(Bridge.decode s.heap v).1] with
    ⟨values | message | _, s'⟩
  · rw [callFunction_eq hc, outcomeOf]
    cases hw : Bridge.encode s'.heap (values.headD .nil) with
    | ok w => exact .result hc hw
    | error fault => exact .unrepresentable hc hw
  · rw [callFunction_eq hc]
    exact .raised hc
  · rw [callFunction_eq hc]
    exact .unfinished hc

/-- A call does not say that a module lacks its entry point. -/
theorem Calls.ne_missing {s s' : Session} {f : Value} {v : Json.Value}
    {r : Except InvocationError Json.Value} (h : Calls s f v r s') (name : String) :
    r ≠ .error (.missingEntryPoint name) := by
  cases h <;> simp

/-! ## Looking up -/

/-- The lookup of a name among exports, by the language's own rules for fields. -/
def lookUp (s : Session) (surface : Value) (name : String) : Ending × Session :=
  s.call (.builtin .fieldOf 0) [surface, Bridge.textValue name]

/-- What a call of a module's entry point with a JSON value comes to, and the session after it. -/
inductive Invokes (s : Session) (surface : Value) (name : String) (v : Json.Value) :
    Except InvocationError Json.Value → Session → Prop
  /-- Only tables have fields. -/
  | noTable (ht : ∀ id, surface ≠ .table id) :
    Invokes s surface name v (.error (.missingEntryPoint name)) s
  | noFunction {id values s'} (ht : surface = .table id)
    (hl : lookUp s surface name = (.returned values, s'))
    (hf : Heap.isFunction (values.headD .nil) = false) :
    Invokes s surface name v (.error (.missingEntryPoint name)) s'
  | raised {id message s'} (ht : surface = .table id)
    (hl : lookUp s surface name = (.raised message, s')) :
    Invokes s surface name v (.error (.raised message)) s'
  | unfinished {id s'} (ht : surface = .table id)
    (hl : lookUp s surface name = (.unfinished, s')) :
    Invokes s surface name v (.error (.raised unfinishedMessage)) s'
  | called {id values s' r s''} (ht : surface = .table id)
    (hl : lookUp s surface name = (.returned values, s'))
    (hf : Heap.isFunction (values.headD .nil) = true)
    (hc : Calls s' (values.headD .nil) v r s'') : Invokes s surface name v r s''

theorem resolve_table (s : Session) (id : Nat) (name : String) :
    resolve s (.exported (.table id) name) =
      match lookUp s (.table id) name with
      | (.returned values, s') =>
        if Heap.isFunction (values.headD .nil) then (.ok (values.headD .nil), s')
        else (.error (.missingEntryPoint name), s')
      | (.raised message, s') => (.error (.raised message), s')
      | (.unfinished, s') => (.error (.raised unfinishedMessage), s') := by
  simp only [resolve, lookUp]
  rcases s.call (.builtin .fieldOf 0) [.table id, Bridge.textValue name] with ⟨_ | _ | _, _⟩ <;> rfl

theorem resolve_function {u : Loaded} {f : Value} (he : u.entry = .function f) :
    resolve u.session u.entry = (.ok f, u.session) := by
  rw [he, resolve]

section

variable {u : Loaded} {s : Session} (v : Json.Value)

theorem Loaded.invoke_found {f : Value} (h : resolve u.session u.entry = (.ok f, s)) :
    u.invoke v = ((callFunction s f v).1, ⟨(takeEvents (callFunction s f v).2).2, u.entry⟩,
      (takeEvents (callFunction s f v).2).1) := by
  rw [Loaded.invoke, h]

theorem Loaded.invoke_fault {e : InvocationError} (h : resolve u.session u.entry = (.error e, s)) :
    u.invoke v = (.error e, ⟨(takeEvents s).2, u.entry⟩, (takeEvents s).1) := by
  rw [Loaded.invoke, h]

end

/-- **Each call of an entry point is described**, and leaves the entry as it is. -/
theorem invokes_invoke (s : Session) (surface : Value) (name : String) (v : Json.Value) :
    let u : Loaded := ⟨s, .exported surface name⟩
    ∃ s', Invokes s surface name v (u.invoke v).1 s' ∧
      (u.invoke v).2 = (⟨(takeEvents s').2, u.entry⟩, (takeEvents s').1) := by
  intro u
  by_cases ht : ∃ id, surface = .table id
  · obtain ⟨id, rfl⟩ := ht
    rcases hl : lookUp s (.table id) name with ⟨values | message | _, s'⟩
    · cases hf : Heap.isFunction (values.headD .nil) with
      | true =>
        have hr : resolve s u.entry = (.ok (values.headD .nil), s') := by
          simp only [u, resolve_table, hl, hf, if_true]
        rw [Loaded.invoke_found v hr]
        exact ⟨_, .called rfl hl hf (calls_callFunction s' _ v), rfl⟩
      | false =>
        have hr : resolve s u.entry = (.error (.missingEntryPoint name), s') := by
          simp only [u, resolve_table, hl, hf, Bool.false_eq_true, if_false]
        rw [Loaded.invoke_fault v hr]
        exact ⟨s', .noFunction rfl hl hf, rfl⟩
    · have hr : resolve s u.entry = (.error (.raised message), s') := by
        simp only [u, resolve_table, hl]
      rw [Loaded.invoke_fault v hr]
      exact ⟨s', .raised rfl hl, rfl⟩
    · have hr : resolve s u.entry = (.error (.raised unfinishedMessage), s') := by
        simp only [u, resolve_table, hl]
      rw [Loaded.invoke_fault v hr]
      exact ⟨s', .unfinished rfl hl, rfl⟩
  · have hr : resolve s u.entry = (.error (.missingEntryPoint name), s) := by
      cases surface with
      | table id => exact absurd ⟨id, rfl⟩ ht
      | _ => rfl
    rw [Loaded.invoke_fault v hr]
    exact ⟨s, .noTable fun id hid => ht ⟨id, hid⟩, rfl⟩

section

variable {s s₁ : Session} {surface : Value} {name : String} {v : Json.Value}
  {r : Except InvocationError Json.Value}

/-- An entry point is missing just if no function is found. -/
theorem Invokes.missing_iff (h : Invokes s surface name v r s₁) :
    r = .error (.missingEntryPoint name) ↔
      (∀ id, surface ≠ .table id) ∨ ∃ values s', lookUp s surface name = (.returned values, s') ∧
        Heap.isFunction (values.headD .nil) = false := by
  cases h with
  | noTable ht => exact ⟨fun _ => .inl ht, fun _ => rfl⟩
  | noFunction ht hl hf => exact ⟨fun _ => .inr ⟨_, _, hl, hf⟩, fun _ => rfl⟩
  | raised ht hl | unfinished ht hl =>
    refine ⟨nofun, ?_⟩
    rintro (hn | ⟨values, s', hl', -⟩)
    · exact absurd ht (hn _)
    · rw [hl] at hl'
      cases hl'
  | called ht hl hf hc =>
    refine ⟨fun hr => absurd hr (hc.ne_missing name), ?_⟩
    rintro (hn | ⟨values, s', hl', hf'⟩)
    · exact absurd ht (hn _)
    · rw [hl] at hl'
      cases hl'
      rw [hf] at hf'
      cases hf'

/-- An error of the lookup is one of the call. -/
theorem Invokes.of_raised (h : Invokes s surface name v r s₁) {id : Nat}
    (ht : surface = .table id) {message : String} {s' : Session}
    (hl : lookUp s surface name = (.raised message, s')) : r = .error (.raised message) := by
  cases h with
  | noTable hn => exact absurd ht (hn id)
  | raised _ hl' =>
    rw [hl] at hl'
    cases hl'
    rfl
  | noFunction _ hl' | unfinished _ hl' | called _ hl' =>
    rw [hl] at hl'
    cases hl'

/-- A function that is found is called. -/
theorem Invokes.calls (h : Invokes s surface name v r s₁) {id : Nat} (ht : surface = .table id)
    {values : List Value} {s' : Session} (hl : lookUp s surface name = (.returned values, s'))
    (hf : Heap.isFunction (values.headD .nil) = true) : Calls s' (values.headD .nil) v r s₁ := by
  cases h with
  | noTable hn => exact absurd ht (hn id)
  | called _ hl' _ hc =>
    rw [hl] at hl'
    cases hl'
    exact hc
  | noFunction _ hl' hf' =>
    rw [hl] at hl'
    cases hl'
    rw [hf] at hf'
    cases hf'
  | raised _ hl' | unfinished _ hl' =>
    rw [hl] at hl'
    cases hl'

end

/-- A value that cannot be called is no function. -/
theorem isFunction_of_callee_error {h : Heap} {f : Value} {args : List Value}
    {fault : Heap.CallFault} (hc : h.callee Heap.chainLimit f args = .error fault) :
    Heap.isFunction f = false := by
  cases hf : Heap.isFunction f with
  | false => rfl
  | true =>
    rw [Heap.chainLimit, Heap.callee, if_pos hf] at hc
    cases hc

/-- **Only functions are entry points.** A call of a module finds no entry point just if the exports
are no table or what is looked up in them is no function. So values that cannot be called are none,
but neither are those for which the language would call a function. If the lookup raises an error,
the call does; a function that is found is called with the argument, and what comes of that comes of
the call. -/
theorem missingEntryPoint_iff (s : Session) (surface : Value) (name : String) (v : Json.Value) :
    let u : Loaded := ⟨s, .exported surface name⟩
    ((u.invoke v).1 = .error (.missingEntryPoint name) ↔
      (∀ id, surface ≠ .table id) ∨ ∃ values s', lookUp s surface name = (.returned values, s') ∧
        Heap.isFunction (values.headD .nil) = false) ∧
    ∀ id, surface = .table id →
      (∀ message s', lookUp s surface name = (.raised message, s') →
        (u.invoke v).1 = .error (.raised message)) ∧
      ∀ values s', lookUp s surface name = (.returned values, s') →
        (∀ args fault, s'.heap.callee Heap.chainLimit (values.headD .nil) args = .error fault →
          (u.invoke v).1 = .error (.missingEntryPoint name)) ∧
        (Heap.isFunction (values.headD .nil) = true →
          ∃ s'', Calls s' (values.headD .nil) v (u.invoke v).1 s'' ∧
            (u.invoke v).2.1 = ⟨(takeEvents s'').2, u.entry⟩) := by
  intro u
  obtain ⟨s₁, hi, hs⟩ := invokes_invoke s surface name v
  refine ⟨hi.missing_iff, fun id ht => ⟨fun message s' hl => hi.of_raised ht hl,
    fun values s' hl => ⟨fun args fault hc => ?_, fun hf => ?_⟩⟩⟩
  · exact hi.missing_iff.2 (.inr ⟨values, s', hl, isFunction_of_callee_error hc⟩)
  · exact ⟨s₁, hi.calls ht hl hf, congrArg Prod.fst hs⟩

/-- A module whose entry point is a table for which the language calls a function. -/
def callableSource : String :=
  "return \x7b handler = setmetatable(\x7b\x7d, \x7b" ++
    " __call = function(self, x) return x end \x7d) \x7d"

/-- Whether the unit's entry point is no function and yet gives back a number when it is called. -/
def Loaded.hasCallable (u : Loaded) : Bool :=
  match u.entry with
  | .exported (.table id) "handler" =>
    match lookUp u.session (.table id) "handler" with
    | (.returned values, s) =>
      let f := values.headD .nil
      match Heap.isFunction f, s.heap.callee Heap.chainLimit f [],
        (callFunction s f (.int 1)).1 with
      | false, .ok _, .ok (.int 1) => true
      | _, _, _ => false
    | _ => false
  | _ => false

theorem Loaded.hasCallable_spec {u : Loaded} (hu : u.hasCallable) :
    ∃ id values s g, u.entry = .exported (.table id) "handler" ∧
      lookUp u.session (.table id) "handler" = (.returned values, s) ∧
      Heap.isFunction (values.headD .nil) = false ∧
      s.heap.callee Heap.chainLimit (values.headD .nil) [] = .ok g ∧
      (callFunction s (values.headD .nil) (.int 1)).1 = .ok (.int 1) := by
  unfold hasCallable at hu
  split at hu
  next id he =>
    split at hu
    next values s hl =>
      simp only at hu
      split at hu
      next g hf hg hw => exact ⟨id, values, s, g, he, hl, hf, hg, hw⟩
      next => cases hu
    next => cases hu
  next => cases hu

set_option maxRecDepth 100000 in
theorem loads_callableSource :
    (loadModule "handler" .bare callableSource).1.toOption.any Loaded.hasCallable = true := by
  decide +kernel

/-- An entry point that can be called, and gives a result then, is missing. -/
theorem callable_missing :
    ∃ u id values s g, (loadModule "handler" .bare callableSource).1 = .ok u ∧
      u.entry = .exported (.table id) "handler" ∧
      lookUp u.session (.table id) "handler" = (.returned values, s) ∧
      s.heap.callee Heap.chainLimit (values.headD .nil) [] = .ok g ∧
      (callFunction s (values.headD .nil) (.int 1)).1 = .ok (.int 1) ∧
      (u.invoke (.int 1)).1 = .error (.missingEntryPoint "handler") := by
  have hload := loads_callableSource
  cases hr : (loadModule "handler" .bare callableSource).1 with
  | error e =>
    rw [hr] at hload
    cases hload
  | ok u =>
    rw [hr] at hload
    obtain ⟨session, entry⟩ := u
    obtain ⟨id, values, s, g, he, hl, hf, hg, hw⟩ := Loaded.hasCallable_spec hload
    obtain rfl : entry = .exported (.table id) "handler" := he
    obtain ⟨_, hi, -⟩ := invokes_invoke session (.table id) "handler" (.int 1)
    have hm := hi.missing_iff.2 (.inr ⟨values, s, hl, hf⟩)
    exact ⟨⟨session, _⟩, id, values, s, g, rfl, rfl, hl, hg, hw, hm⟩

end ScriptWorker.Loading

import ScriptWorker.Script.Session

/-!
# Calls from outside

A call starts a function above one guard and ends when that guard is handed the results. What lies
between is counted in steps (`runOn_add`), so a function that hands over results after some steps
makes a call that returns them (`Session.call_of_run`). A call that asks the system for nothing is
the same on all of them (`Session.call_on`). Two kinds of functions are followed here: code that
returns its first argument (`Proto.isIdentity`), and the reading of a field.
-/

set_option autoImplicit false

namespace ScriptWorker.Script

namespace Machine

variable {start : Builtin → Nat → List Value → Action (List Value)}

theorem runOn_succ {m m' : Machine} (h : step start m = .more m') (n : Nat) (system : System) :
    runOn start (n + 1) system m = runOn start n system m' := by
  rw [runOn, h]

/-- Steps that lead to more steps can be counted apart. -/
theorem runOn_add {n : Nat} {m m' : Machine} {system system' : System}
    (h : runOn start n system m = (.running m', system')) (k : Nat) :
    runOn start (n + k) system m = runOn start k system' m' := by
  induction n generalizing m system with
  | zero =>
    cases h
    rw [Nat.zero_add]
  | succ n ih =>
    rw [Nat.succ_add]
    rw [runOn] at h ⊢
    cases hs : step start m with
    | more m₁ | ask r k =>
      rw [hs] at h
      exact ih h
    | done r m₁ | exited m₁ =>
      rw [hs] at h
      cases h

section

variable {a a' : Activation} {h h' : Heap} {values : List Value} {frames : List Frame} {l : Level}
  {current : Nat} {threads : Array Thread} {resumers : List (Nat × List Frame)}

theorem step_go (ha : a.step h = .go a' h') :
    step start ⟨.run a, frames, l, h, current, threads, resumers⟩ =
      .more ⟨.run a', frames, l, h', current, threads, resumers⟩ := by
  rw [step, ha, advance]

theorem step_done (ha : a.step h = .return h' values) :
    step start ⟨.run a, frames, l, h, current, threads, resumers⟩ =
      .more ⟨.deliver values, frames, l, h', current, threads, resumers⟩ := by
  rw [step, ha, advance]

end

/-- A call that goes one deeper, below the limit, enters the function. -/
theorem call_enter {m : Machine} {f : Value} (hf : Heap.isFunction f)
    (hd : m.level.depth + 1 < depthLimit) (args : List Value) (origin : Option Origin) :
    call start m f args origin true =
      enter start { m with level := { m.level with depth := m.level.depth + 1 } } f args
        origin := by
  have hc : m.heap.callee Heap.chainLimit f args = .ok (f, args) := if_pos hf
  have hl : depthLimit ≤ depthLimitForErrors := by decide
  simp only [call, hc, if_true, if_neg (Nat.ne_of_lt hd),
    if_neg (Nat.not_le.2 (Nat.lt_of_lt_of_le hd hl))]

/-- A closure that finds room runs from the start of its code. -/
theorem enter_closure {m : Machine} {id : Nat} {c : Closure} (hc : m.heap.closures[id]? = some c)
    (ho : m.level.overflowed = false) (hr : m.level.height + c.proto.slots + 2 ≤ heightLimit)
    (args : List Value) (origin : Option Origin) :
    enter start m (.closure id) args origin =
      { m with
        control := .run (.enter c args)
        level := { m.level with height := m.level.height + c.proto.slots + 2 } } := by
  simp only [enter, hc, ho, Bool.false_eq_true, if_false, if_pos hr]

end Machine

namespace Session

open Machine

/-- The guard under a call. -/
def ground : Frame :=
  .guard ⟨.pcall, none⟩ ⟨0, 0, false⟩ (some (.builtin .describeError 0)) fun
    | .ok values => .done values
    | .error e => .raise e

/-- The machine above the guard. -/
def above (s : Session) : Machine :=
  ⟨.deliver [], [ground], ⟨1, 0, false⟩, s.heap, 0, s.threads, []⟩

/-- The first step of a call enters the function. -/
theorem step_callMachine (s : Session) {f : Value} (hf : Heap.isFunction f) (args : List Value) :
    step Library.start (s.callMachine f args) =
      .more (enter Library.start s.above f args none) := by
  have hd : (⟨0, 0, false⟩ : Level).depth + 1 < depthLimit := by decide
  exact congrArg Step.more (call_enter
    (m := ⟨.deliver [], [ground], ⟨0, 0, false⟩, s.heap, 0, s.threads, []⟩) hf hd args none)

/-- Results that reach the guard leave the machine in three steps. -/
theorem runOn_ground (values : List Value) (l : Level) (s : Session) (k : Nat) :
    runOn Library.start (k + 3) s.system
        ⟨.deliver values, [ground], l, s.heap, 0, s.threads, []⟩ =
      (.done (.ok values) ⟨.deliver [], [], ⟨0, 0, false⟩, s.heap, 0, s.threads, []⟩, s.system) :=
  rfl

/-- **A function that hands over results makes a call that returns them**, with the session as it is
then. -/
theorem call_of_run {s s' : Session} {f : Value} (hf : Heap.isFunction f) {args values : List Value}
    {n : Nat} {l : Level} (hn : n + 4 ≤ stepLimit)
    (h : runOn Library.start n s.system (enter Library.start s.above f args none) =
      (.running ⟨.deliver values, [ground], l, s'.heap, 0, s'.threads, []⟩, s'.system)) :
    s.call f args = (.returned values, s') := by
  obtain ⟨k, hk⟩ := Nat.exists_eq_add_of_le hn
  have hr : runOn Library.start stepLimit s.system (s.callMachine f args) =
      (.done (.ok values) ⟨.deliver [], [], ⟨0, 0, false⟩, s'.heap, 0, s'.threads, []⟩,
        s'.system) := by
    rw [hk, show n + 4 + k = n + (k + 3) + 1 by omega, runOn_succ (s.step_callMachine hf args)]
    exact (runOn_add h (k + 3)).trans (runOn_ground values l s' k)
  rw [call, callWithin, hr]

end Session

/-! ## Calls that ask for nothing -/

namespace Machine

section

variable (start : Builtin → Nat → List Value → Action (List Value))

/-- Carries out so many steps, or fewer if the system is asked for something before. -/
def run : Nat → Machine → Step
  | 0, m => .more m
  | n + 1, m =>
    match step start m with
    | .more m => run n m
    | s => s

end

/-- What a run has come to that has not asked for anything. -/
def Step.rest? : Step → Option Rest
  | .more m => some (.running m)
  | .ask .. => none
  | .done result m => some (.done result m)
  | .exited m => some (.exited m)

/-- **A run that asks for nothing** comes to the same on every system. -/
theorem runOn_of_run {start : Builtin → Nat → List Value → Action (List Value)} {n : Nat}
    {m : Machine} {rest : Rest} (h : (run start n m).rest? = some rest) (system : System) :
    runOn start n system m = (rest, system) := by
  induction n generalizing m with
  | zero =>
    cases h
    rfl
  | succ n ih =>
    rw [run] at h
    rw [runOn]
    cases hs : step start m with
    | more m₁ =>
      rw [hs] at h
      exact ih h
    | ask r k =>
      rw [hs] at h
      cases h
    | done r m₁ | exited m₁ =>
      rw [hs] at h
      cases h
      rfl

end Machine

namespace Session

open Machine

/-- The session on another system. -/
def on (s : Session) (system : System) : Session := { s with system }

theorem on_fresh (system system' : System) : (fresh system).on system' = fresh system' := rfl

/-- Whether a call asks the system for nothing. -/
def asksNothing (s : Session) (f : Value) (args : List Value) : Bool :=
  (run Library.start stepLimit (s.callMachine f args)).rest?.isSome

variable {s : Session} {f : Value} {args : List Value}

theorem callWithin_on {limit : Nat} {rest : Rest}
    (h : (run Library.start limit (s.callMachine f args)).rest? = some rest) (system : System) :
    (s.on system).callWithin limit f args =
      ((s.callWithin limit f args).1, (s.callWithin limit f args).2.on system) := by
  have hs : runOn Library.start limit system ((s.on system).callMachine f args) = (rest, system) :=
    runOn_of_run h system
  rw [callWithin, callWithin, runOn_of_run h]
  simp only [on] at hs ⊢
  rw [hs]
  rcases rest with _ | ⟨_ | _, _⟩ | _ <;> rfl

/-- A call that asks for nothing is the same on every system. -/
theorem call_on (h : s.asksNothing f args = true) (system : System) :
    (s.on system).call f args = ((s.call f args).1, (s.call f args).2.on system) := by
  obtain ⟨rest, hr⟩ := Option.isSome_iff_exists.1 h
  exact callWithin_on hr system

end Session

/-! ## Code that returns its argument -/

namespace Activation

theorem step_push {a : Activation} {h : Heap} {o : Operand} {v : Value}
    (hi : a.proto.code[a.pc]? = some (.push o))
    (ho : ∀ pc, fetch { a with pc } h o = (v, { a with pc })) :
    a.step h = .go (push { a with pc := a.pc + 1 } v) h := by
  simp only [step, hi, ho]

theorem step_return {a : Activation} {n : Nat}
    (hi : a.proto.code[a.pc]? = some (.return n false)) (hc : a.closing = []) (h : Heap) :
    a.step h = .return h (a.stack.take n).reverse := by
  simp only [step, hi, toClose, hc, takeList, take, Bool.false_eq_true, if_false]

/-- The first slot holds the first argument, if the function takes one. -/
theorem fetch_argument {c : Closure} (hp : 0 < c.proto.parameters) (v : Value) (rest : List Value)
    (h : Heap) (pc : Nat) (stack : List Value) :
    fetch { enter c (v :: rest) with pc, stack } h (.slot 0) =
      (v, { enter c (v :: rest) with pc, stack }) := by
  obtain ⟨n, hn⟩ := Nat.exists_eq_add_one.2 hp
  have hslot : (enter c (v :: rest)).slots.getD 0 .nil = v := by
    simp [enter, hn, List.splitAt_eq, Array.getD]
  rw [fetch, hslot]

end Activation

/-- Whether the code takes an argument and returns it: it pushes the first slot and returns the top
of the stack. -/
def Proto.isIdentity (p : Proto) : Bool :=
  match p.code[0]?, p.code[1]? with
  | some (Instr.push (.slot 0)), some (Instr.return 1 false) =>
    decide (0 < p.parameters ∧ p.slots + 2 ≤ heightLimit)
  | _, _ => false

theorem Proto.isIdentity_iff {p : Proto} : p.isIdentity = true ↔
    p.code[0]? = some (.push (.slot 0)) ∧ p.code[1]? = some (.return 1 false) ∧
      0 < p.parameters ∧ p.slots + 2 ≤ heightLimit := by
  constructor
  · intro h
    unfold isIdentity at h
    split at h
    next h0 h1 => exact ⟨h0, h1, of_decide_eq_true h⟩
    next => cases h
  · rintro ⟨h0, h1, h⟩
    simp only [isIdentity, h0, h1, decide_eq_true h]

namespace Session

open Machine

/-- **A closure with the code of an identity returns its argument** and changes nothing. -/
theorem call_identity {s : Session} {id : Nat} {c : Closure} (hc : s.heap.closures[id]? = some c)
    (hp : c.proto.isIdentity) (v : Value) : s.call (.closure id) [v] = (.returned [v], s) := by
  obtain ⟨hpush, hreturn, hparameters, hslots⟩ := Proto.isIdentity_iff.1 hp
  have hroom : 0 + c.proto.slots + 2 ≤ heightLimit := (Nat.zero_add _).symm ▸ hslots
  have h1 := Activation.step_push (a := .enter c [v]) hpush
    fun pc => Activation.fetch_argument hparameters v [] s.heap pc []
  have h2 := Activation.step_return
    (a := Activation.push { Activation.enter c [v] with pc := 1 } v) hreturn rfl s.heap
  refine call_of_run (n := 2) (l := ⟨1, 0 + c.proto.slots + 2, false⟩) rfl (by decide) ?_
  rw [enter_closure hc rfl hroom]
  exact (runOn_succ (step_go h1) 1 _).trans (runOn_succ (step_done h2) 0 _)

end Session

/-! ## Fields -/

namespace Session

open Machine

/-- Reading a field looks at the heap, and is done where the value has the field. -/
theorem start_fieldOf (t k : Value) :
    ∃ next, Library.start .fieldOf 0 [t, k] = .heap (fun h => (h.get t k, h)) next ∧
      ∀ v, next (.done v) = .done [v] :=
  ⟨_, rfl, fun _ => rfl⟩

/-- **A field that no function has to be called for is read**, and nothing changes. -/
theorem call_fieldOf_done {s : Session} {t k v : Value} (hg : s.heap.get t k = .done v) :
    s.call (.builtin .fieldOf 0) [t, k] = (.returned [v], s) := by
  obtain ⟨next, hs, hd⟩ := start_fieldOf t k
  -- the first step looks at the heap
  have h1 : step Library.start (enter Library.start s.above (.builtin .fieldOf 0) [t, k] none) =
      .more { s.above with control := .act ⟨.fieldOf, none⟩ (.done [v]) } := by
    rw [← hd, ← hg, enter, hs]
    rfl
  refine call_of_run (n := 2) (l := ⟨1, 0, false⟩) rfl (by decide) ?_
  exact (runOn_succ h1 1 _).trans (runOn_succ rfl 0 _)

/-- A field that a table has itself is read from it. -/
theorem call_fieldOf {s : Session} {id : Nat} {k v : Value} (hv : s.heap.rawGet id k = v)
    (hn : v.isNil = false) :
    s.call (.builtin .fieldOf 0) [.table id, k] = (.returned [v], s) := by
  refine call_fieldOf_done ?_
  rw [Heap.get, Heap.chainLimit, Heap.getFrom, hv]
  cases v <;> first | rfl | cases hn

end Session

end ScriptWorker.Script

import Mathlib.Data.List.TakeWhile
import ScriptWorker.Proofs.Script.Calls
import ScriptWorker.Proofs.Text.Ascii

/-!
# Errors that leave the language

The built-in `error` with a text and no place in front of it runs the handler of the call from
outside, which cuts the text at its first zero character and puts a trace of the calls behind it
(`runOn_raisesText`). What reaches the guard under the call ends it (`runOn_ground_error`), and the
part of the text before the first mark of a trace is reported (`Session.call_of_raisesUncaught`).
That takes off the handler's trace (`Session.messageOf_traced`), and what stands behind a mark in
the text itself. So a text is reported as it is just if it has neither a zero character nor that
mark (`Session.reported_eq_iff`).
-/

set_option autoImplicit false

namespace ScriptWorker.Script

/-! ## Texts up to a zero character -/

theorem upToZero_eq (b : Bytes) :
    upToZero b = (b.data.toList.takeWhile (· != 0)).toByteArray := by
  simp only [upToZero]
  split_ifs with hz
  · rfl
  · have hall : ∀ x ∈ b.data.toList, (x != 0) = true := by
      intro x hx
      refine bne_iff_ne.2 fun h0 => hz ?_
      exact List.contains_iff_mem.2 (h0 ▸ hx)
    rw [List.takeWhile_eq_self_iff.2 hall]
    exact Text.Utf8.eq_toByteArray_iff.2 rfl

theorem zero_mem_encodeChar {c : Char} : 0 ∈ Text.Utf8.encodeChar c ↔ c = '\x00' := by
  constructor
  · intro h
    by_cases hc : 0x20 ≤ c.toNat
    · exact absurd (Text.Utf8.le_of_mem_encodeChar hc h) (by decide)
    · rw [Text.Utf8.encodeChar, if_pos (by omega), List.mem_singleton] at h
      have hn := congrArg UInt8.toNat h
      rw [Nat.toUInt8_eq, UInt8.toNat_ofNat', Nat.mod_eq_of_lt (by omega)] at hn
      rw [← Char.ofNat_toNat c, ← hn]
      rfl
  · rintro rfl
    decide

theorem takeWhile_encode (s : List Char) :
    (s.flatMap Text.Utf8.encodeChar).takeWhile (· != 0) =
      (s.takeWhile (· != '\x00')).flatMap Text.Utf8.encodeChar := by
  induction s with
  | nil => rfl
  | cons c s ih =>
    by_cases hc : c = '\x00'
    · subst hc
      rfl
    · have hall : ∀ x ∈ Text.Utf8.encodeChar c, (x != 0) = true := by
        intro x hx
        exact bne_iff_ne.2 fun h0 => hc (zero_mem_encodeChar.1 (h0 ▸ hx))
      rw [List.flatMap_cons, List.takeWhile_append_of_pos hall, ih, List.takeWhile_cons,
        if_pos (bne_iff_ne.2 hc), List.flatMap_cons]

namespace Session

/-! ## The part in front of a trace -/

theorem beforeTrace_initial (s : List Char) : beforeTrace s <+: s := by
  induction s with
  | nil => exact List.prefix_refl []
  | cons c s ih =>
    rw [beforeTrace]
    split
    · exact List.nil_prefix
    · exact List.cons_prefix_cons.2 ⟨rfl, ih⟩

/-- A text with a mark is cut at its first one. -/
theorem beforeTrace_append_mark {s : List Char} (h : traceMark <:+: s) :
    beforeTrace s ++ traceMark <+: s := by
  induction s with
  | nil => exact absurd (List.infix_nil.1 h) (by decide)
  | cons c s ih =>
    rw [beforeTrace]
    split
    next hp => exact List.isPrefixOf_iff_prefix.1 hp
    next hp =>
      rw [List.cons_append]
      refine List.cons_prefix_cons.2 ⟨rfl, ih ((List.infix_cons_iff.1 h).resolve_left fun hm => ?_)⟩
      exact hp (List.isPrefixOf_iff_prefix.2 hm)

theorem beforeTrace_eq_self_iff (s : List Char) : beforeTrace s = s ↔ ¬traceMark <:+: s := by
  constructor
  · intro h hm
    have hl := (beforeTrace_append_mark hm).length_le
    have hpos : 0 < traceMark.length := by decide
    rw [h, List.length_append] at hl
    omega
  · intro h
    induction s with
    | nil => rfl
    | cons c s ih =>
      rw [beforeTrace, if_neg fun hp => h (List.isPrefixOf_iff_prefix.1 hp).isInfix,
        ih fun hm => h (hm.trans (List.suffix_cons c s).isInfix)]

/-- A mark that begins in front of another one ends there. -/
theorem traceMark_begins {s rest : List Char} (hs : s ≠ [])
    (h : traceMark <+: s ++ (traceMark ++ rest)) : traceMark <+: s := by
  rcases List.prefix_or_prefix_of_prefix h (List.prefix_append s _) with hp | ⟨t, ht⟩
  · exact hp
  · -- else the other one begins inside the mark, where there is no newline
    have ht' : t <+: traceMark ++ rest := (List.prefix_append_right_inj s).1 (ht ▸ h)
    cases t with
    | nil => exact ⟨[], by rw [List.append_nil, ← ht, List.append_nil]⟩
    | cons c t =>
      obtain ⟨d, s, rfl⟩ := List.exists_cons_of_ne_nil hs
      have hc : c = '\n' := (List.cons_prefix_cons.1 ht').1
      have hmem : '\n' ∈ traceMark.tail := by
        rw [← ht, List.cons_append, List.tail_cons]
        exact List.mem_append_right s (hc ▸ List.mem_cons_self)
      exact absurd hmem (by decide)

/-- **The cut takes off what begins with a mark**, whatever stands in front. -/
theorem beforeTrace_append (s rest : List Char) :
    beforeTrace (s ++ (traceMark ++ rest)) = beforeTrace s := by
  induction s with
  | nil =>
    have hp := List.isPrefixOf_iff_prefix.2 (List.prefix_append traceMark rest)
    exact if_pos hp
  | cons c s ih =>
    rw [List.cons_append, beforeTrace, beforeTrace, ih]
    refine if_congr ?_ rfl rfl
    rw [List.isPrefixOf_iff_prefix, List.isPrefixOf_iff_prefix, ← List.cons_append]
    exact ⟨traceMark_begins (List.cons_ne_nil c s), fun h => h.trans (List.prefix_append _ _)⟩

/-- **The trace of the handler is taken off again.** -/
theorem messageOf_traced (h : Heap) (sites : List Site) (b : Bytes) :
    messageOf (.str (Library.traced h sites b)) = messageOf (.str (upToZero b)) := by
  have hhead : Library.traceHead.data.toList = 0x0A :: Text.Utf8.encode "stack traceback:" := by
    decide +kernel
  have hmark : traceMark = '\n' :: "stack traceback:".toList := rfl
  rw [messageOf, messageOf, Library.traced, ByteArray.data_append, ByteArray.data_append,
    Array.toList_append, Array.toList_append, hhead, List.cons_append,
    Text.Utf8.decodeLossy_ascii (by decide), Text.Utf8.decodeLossy_encode_append]
  exact congrArg String.ofList (beforeTrace_append _ _)

/-- What is reported of a text: the part in front of the first zero character, and of that the part
in front of the first mark of a trace. -/
def reported (s : String) : String :=
  String.ofList (beforeTrace (s.toList.takeWhile (· != '\x00')))

theorem messageOf_upToZero (s : String) :
    messageOf (.str (upToZero (Text.Utf8.encode s).toByteArray)) = reported s := by
  rw [upToZero_eq, messageOf, List.data_toByteArray, List.data_toByteArray, Text.Utf8.encode,
    takeWhile_encode]
  have hd := Text.Utf8.decodeLossy_encode (String.ofList (s.toList.takeWhile (· != '\x00')))
  rw [Text.Utf8.encode, String.toList_ofList] at hd
  rw [hd, reported]

theorem reported_initial (s : String) : (reported s).toList <+: s.toList := by
  rw [reported, String.toList_ofList]
  exact (beforeTrace_initial _).trans (List.takeWhile_prefix _)

/-- **A text is reported as it is just if it has neither a zero character nor the mark of a
trace.** -/
theorem reported_eq_iff (s : String) :
    reported s = s ↔ '\x00' ∉ s.toList ∧ ¬traceMark <:+: s.toList := by
  have hcut : s.toList.takeWhile (· != '\x00') = s.toList ↔ '\x00' ∉ s.toList := by
    rw [List.takeWhile_eq_self_iff]
    exact ⟨fun h hm => bne_iff_ne.1 (h _ hm) rfl, fun h c hc => bne_iff_ne.2 fun h0 => h (h0 ▸ hc)⟩
  constructor
  · intro h
    have hl := congrArg String.toList h
    rw [reported, String.toList_ofList] at hl
    -- both cuts leave everything, as the text is no longer than what is left
    have hw : s.toList.takeWhile (· != '\x00') = s.toList := by
      refine (List.takeWhile_prefix _).eq_of_length_le ?_
      have hle := (beforeTrace_initial (s.toList.takeWhile (· != '\x00'))).length_le
      rwa [hl] at hle
    rw [hw] at hl
    exact ⟨hcut.1 hw, (beforeTrace_eq_self_iff _).1 hl⟩
  · rintro ⟨hz, hm⟩
    rw [reported, hcut.2 hz, (beforeTrace_eq_self_iff _).2 hm, String.ofList_toList]

end Session

/-! ## Running the handler -/

namespace Machine

/-- The machine is at the start of `error`, with a string and no place to be put in front of it, in
the main program. The handler that applies is that of the call from outside, there is room to run
it, and strings have no text of their own making. -/
structure RaisesText (m : Machine) (origin : Option Origin) (b : Bytes) : Prop where
  running : m.control = .act ⟨.error, origin⟩ (Library.start .error 0 [.str b, .int 0])
  uncaught : handler? m.frames = some (.builtin .describeError 0)
  main : m.current = 0
  shallow : m.level.depth + 1 < depthLimit
  plain : m.heap.event (.str b) Heap.textEvent = .nil

/-- What the handler makes of a string that `error` raises. -/
def handled (m : Machine) (origin : Option Origin) (b : Bytes) : Bytes :=
  Library.traced m.heap (sites (.handling m.level (some ⟨.error, origin⟩) :: m.frames)) b

/-- The handler looks for a text of the error's own making, and otherwise takes the string, behind
which it puts a trace of the calls that it sees. -/
theorem start_describeError (b : Bytes) :
    ∃ next, Library.start .describeError 0 [.str b] =
        .heap (fun h => (h.event (.str b) Heap.textEvent, h)) next ∧
      next .nil = .view fun v => .heap (fun h => (Library.traced h v.sites b, h)) fun t =>
        .done [.str t] :=
  ⟨_, rfl, rfl⟩

/-- **The handler cuts the string at its first zero byte and puts a trace behind it**, and nothing
else changes. -/
theorem runOn_raisesText {m : Machine} {origin : Option Origin} {b : Bytes}
    (h : m.RaisesText origin b) (system : System) :
    runOn Library.start 7 system m =
      (.running { m with control := .unwind (.str (m.handled origin b)) [] }, system) := by
  obtain ⟨control, frames, level, heap, current, threads, resumers⟩ := m
  obtain ⟨hc, hu, -, hd, hp⟩ := h
  simp only at hc hu hd hp
  subst hc
  obtain ⟨next, hstart, hnext⟩ := start_describeError b
  -- the error is raised and the handler starts above the function
  have hraise : step Library.start
      ⟨.raise (.str b) (some ⟨.error, origin⟩), frames, level, heap, current, threads, resumers⟩ =
        .more ⟨.act ⟨.describeError, none⟩ (Library.start .describeError 0 [.str b]),
          .handling level (some ⟨.error, origin⟩) :: frames,
          { level with depth := level.depth + 1 }, heap, current, threads, resumers⟩ := by
    rw [step, raise]
    simp only [hu]
    rw [call_enter rfl hd]
    rfl
  -- the handler looks at the heap, and its result takes the error's place
  have hread : step Library.start
      ⟨.act ⟨.describeError, none⟩ (Library.start .describeError 0 [.str b]),
        .handling level (some ⟨.error, origin⟩) :: frames,
        { level with depth := level.depth + 1 }, heap, current, threads, resumers⟩ =
        .more ⟨.act ⟨.describeError, none⟩
            (.view fun v => .heap (fun h => (Library.traced h v.sites b, h)) fun t =>
              .done [.str t]),
          .handling level (some ⟨.error, origin⟩) :: frames,
          { level with depth := level.depth + 1 }, heap, current, threads, resumers⟩ := by
    rw [hstart, ← hnext, ← hp]
    rfl
  exact (runOn_succ rfl 6 system).trans
    ((runOn_succ hraise 5 system).trans (runOn_succ hread 4 system))

/-- **An error that comes to the guard under a call ends the call.** -/
theorem runOn_ground_error {m : Machine} {e : Value} (hc : m.control = .unwind e [])
    (hf : abandon [] m.frames = ([], [Session.ground])) (hm : m.current = 0) (k : Nat)
    (system : System) :
    runOn Library.start (k + 4) system m =
      (.done (.error e)
        { m with control := .deliver [], frames := [], level := ⟨0, 0, false⟩ }, system) := by
  obtain ⟨control, frames, level, heap, current, threads, resumers⟩ := m
  simp only at hc hf hm
  subst hc hm
  have hunwind : step Library.start ⟨.unwind e [], frames, level, heap, 0, threads, resumers⟩ =
      .more ⟨.act ⟨.pcall, none⟩ (.raise e), [], ⟨0, 0, false⟩, heap, 0, threads, resumers⟩ := by
    rw [step, unwind]
    simp only [hf]
    rfl
  exact (runOn_succ hunwind (k + 3) system).trans rfl

end Machine

namespace Session

open Machine

/-! ## Calls that raise an error -/

/-- A call comes to the execution of `error` with a string and no place to be put in front of it.
No guard of the program is above it, and the variables that wait to be closed hand the error on to
the guard under the call. The session is the one in which the call ends. -/
inductive RaisesUncaught (s : Session) (f : Value) (args : List Value) (b : Bytes) : Session → Prop
  | intro {n n' : Nat} {m m' : Machine} {system system' : System} {origin : Option Origin}
    (reaches : runOn Library.start n s.system (s.callMachine f args) = (.running m, system))
    (raises : m.RaisesText origin b)
    (closes : runOn Library.start n' system
      { m with control := .unwind (.str (m.handled origin b)) [] } = (.running m', system'))
    (unwinds : m'.control = .unwind (.str (m.handled origin b)) [])
    (bare : abandon [] m'.frames = ([], [ground])) (main : m'.current = 0)
    (ends : n + n' + 11 ≤ stepLimit) : RaisesUncaught s f args b ⟨m'.heap, m'.threads, system'⟩

/-- **A string that is raised and not caught makes the call fail**, cut at its first zero byte. -/
theorem call_of_raisesUncaught {s s' : Session} {f : Value} {args : List Value} {b : Bytes}
    (h : s.RaisesUncaught f args b s') :
    s.call f args = (.raised (messageOf (.str (upToZero b))), s') := by
  obtain ⟨reaches, raises, closes, unwinds, bare, main, ends⟩ := h
  rename_i n n' m m' system system' origin
  obtain ⟨k, hk⟩ := Nat.exists_eq_add_of_le ends
  have hr : runOn Library.start stepLimit s.system (s.callMachine f args) =
      (.done (.error (.str (m.handled origin b)))
        { m' with control := .deliver [], frames := [], level := ⟨0, 0, false⟩ }, system') := by
    rw [hk, show n + n' + 11 + k = n + (7 + (n' + (k + 4))) by omega, runOn_add reaches,
      runOn_add (runOn_raisesText raises system), runOn_add closes]
    exact runOn_ground_error unwinds bare main k system'
  rw [call, callWithin, hr, ← messageOf_traced]
  rfl

end Session

/-! ## Code that calls `error` -/

namespace Machine

theorem step_callBuiltin {start : Builtin → Nat → List Value → Action (List Value)}
    {a a' : Activation} {h h' : Heap} {b : Builtin} {memory : Nat} {args : List Value}
    {origin : Option Origin} (ha : a.step h = .call a' h' (.builtin b memory) args origin false)
    {frames : List Frame} {l : Level} {current : Nat} {threads : Array Thread}
    {resumers : List (Nat × List Frame)} :
    step start ⟨.run a, frames, l, h, current, threads, resumers⟩ =
      .more ⟨.act ⟨b, origin⟩ (start b memory args), .script a' l :: frames, l, h', current,
        threads, resumers⟩ := by
  rw [step, ha]
  rfl

end Machine

namespace Activation

variable {a : Activation} {h : Heap}

theorem step_outer {i : Nat} (hi : a.proto.code[a.pc]? = some (.outer i)) :
    a.step h = .go (push { a with pc := a.pc + 1 } (h.cell (a.captured.getD i 0))) h := by
  rw [step, hi]

/-- A field that no function has to be called for goes on the stack in the place of its table. -/
theorem step_index {k t v : Value} {rest : List Value} {origin : Option Origin}
    (hi : a.proto.code[a.pc]? = some (.index .pop (.literal k) origin)) (hs : a.stack = t :: rest)
    (hg : h.get t k = .done v) :
    a.step h = .go { a with pc := a.pc + 1, stack := v :: rest } h := by
  simp only [step, hi, fetchTwo, fetch, hs, hg, access, accept, push, List.headD_cons]

/-- A call takes its arguments from the stack, and the function below them. -/
theorem step_call {x y f : Value} {rest : List Value} {w : Want} {origin : Option Origin}
    (hi : a.proto.code[a.pc]? = some (.call 2 false w origin))
    (hs : a.stack = y :: x :: f :: rest) :
    a.step h = .call { a with pc := a.pc + 1, stack := rest, pending := .results w } h f [x, y]
      origin false := by
  simp [step, hi, takeList, take, fetch, hs]

end Activation

/-- A closure that first of all calls `error` with what an operand stands for and 0. -/
structure Closure.CallsError (c : Closure) (h : Heap) (x : Operand) : Prop where
  code : ∃ i k o o' w, c.proto.code[0]? = some (.outer i) ∧
    c.proto.code[1]? = some (.index .pop (.literal k) o) ∧
    c.proto.code[2]? = some (.push x) ∧
    c.proto.code[3]? = some (.push (.literal (.int 0))) ∧
    c.proto.code[4]? = some (.call 2 false w o') ∧
    h.get (h.cell (c.captured.getD i 0)) k = .done (.builtin .error 0)
  slots : c.proto.slots + 2 ≤ heightLimit
  plain : h.event (.str .empty) Heap.textEvent = .nil

/-- The operand for which a closure first of all calls `error` with 0, if it does. -/
def Closure.raised? (c : Closure) (h : Heap) : Option Operand :=
  match c.proto.code[0]?, c.proto.code[1]?, c.proto.code[2]?, c.proto.code[3]?,
    c.proto.code[4]? with
  | some (Instr.outer i), some (Instr.index .pop (.literal k) _), some (Instr.push x),
    some (Instr.push (.literal (.int n))), some (Instr.call 2 false _ _) =>
    match h.get (h.cell (c.captured.getD i 0)) k, h.event (.str .empty) Heap.textEvent with
    | .done (.builtin .error 0), .nil =>
      if n = 0 ∧ c.proto.slots + 2 ≤ heightLimit then some x else none
    | _, _ => none
  | _, _, _, _, _ => none

theorem Closure.callsError_of_raised? {c : Closure} {h : Heap} {x : Operand}
    (hx : c.raised? h = some x) : c.CallsError h x := by
  unfold raised? at hx
  split at hx
  next i k o x' n w o' h0 h1 h2 h3 h4 =>
    split at hx
    next hg hp =>
      split_ifs at hx with hn
      obtain ⟨rfl, hslots⟩ := hn
      cases hx
      exact ⟨⟨i, k, _, _, _, h0, h1, h2, h3, h4, hg⟩, hslots, hp⟩
    next => cases hx
  next => cases hx

/-- The code runs up to the call of `error`, whatever is below. -/
theorem Machine.runOn_callsError {c : Closure} {h : Heap} {x : Operand} (hc : c.CallsError h x)
    {a : Activation} (hp : a.proto = c.proto) (hcaptured : a.captured = c.captured) (hpc : a.pc = 0)
    (hs : a.stack = []) {v : Value}
    (hx : ∀ pc stack, Activation.fetch { a with pc, stack } h x = (v, { a with pc, stack }))
    (frames : List Frame) (l : Level) (current : Nat) (threads : Array Thread)
    (resumers : List (Nat × List Frame)) (system : System) :
    ∃ o w, runOn Library.start 5 system ⟨.run a, frames, l, h, current, threads, resumers⟩ =
      (.running ⟨.act ⟨.error, o⟩ (Library.start .error 0 [v, .int 0]),
        .script { a with pc := 5, stack := [], pending := .results w } l :: frames, l, h, current,
        threads, resumers⟩, system) := by
  obtain ⟨⟨i, k, o, o', w, h0, h1, h2, h3, h4, hg⟩, -⟩ := hc
  rw [← hp] at h0 h1 h2 h3 h4
  rw [← hcaptured] at hg
  -- the stack in front of each instruction
  have r0 := Activation.step_outer (h := h) (hpc ▸ h0)
  simp only [Activation.push, hpc, hs] at r0
  have r1 := Activation.step_index (a := { a with pc := 1, stack := [_] }) h1 rfl hg
  have r2 := Activation.step_push (a := { a with pc := 2, stack := [.builtin .error 0] }) h2
    fun pc => hx pc _
  have r3 := Activation.step_push (h := h)
    (a := { a with pc := 3, stack := [v, .builtin .error 0] }) h3 fun _ => rfl
  have r4 := Activation.step_call (h := h)
    (a := { a with pc := 4, stack := [.int 0, v, .builtin .error 0] }) h4 rfl
  exact ⟨o', w, (runOn_succ (step_go r0) 4 system).trans <|
    (runOn_succ (step_go r1) 3 system).trans <| (runOn_succ (step_go r2) 2 system).trans <|
      (runOn_succ (step_go r3) 1 system).trans (runOn_succ (step_callBuiltin r4) 0 system)⟩

namespace Session

open Machine

variable {s : Session} {id : Nat} {c : Closure} {x : Operand}

/-- **A call of such a closure raises what the operand stands for**, and the session stays as it
was. -/
theorem raisesUncaught_callsError (hid : s.heap.closures[id]? = some c)
    (hc : c.CallsError s.heap x) {args : List Value} {b : Bytes}
    (hx : ∀ pc stack, Activation.fetch { Activation.enter c args with pc, stack } s.heap x =
      (.str b, { Activation.enter c args with pc, stack })) :
    s.RaisesUncaught (.closure id) args b s := by
  have hroom : 0 + c.proto.slots + 2 ≤ heightLimit := (Nat.zero_add _).symm ▸ hc.slots
  have hdepth : 1 + 1 < depthLimit := by decide
  have henter := s.step_callMachine (f := .closure id) rfl args
  rw [enter_closure hid rfl hroom] at henter
  obtain ⟨o, w, hrun⟩ :=
    runOn_callsError hc (a := .enter c args) rfl rfl rfl rfl hx [ground]
      ⟨1, 0 + c.proto.slots + 2, false⟩ 0 s.threads [] s.system
  -- no variable waits to be closed
  have hclose (m : Machine) : runOn Library.start 0 s.system m = (.running m, s.system) := rfl
  exact .intro ((runOn_succ henter 5 s.system).trans hrun) ⟨rfl, rfl, rfl, hdepth, hc.plain⟩
    (hclose _) rfl rfl rfl (by decide)

theorem raisesUncaught_argument (hid : s.heap.closures[id]? = some c)
    (hc : c.CallsError s.heap (.slot 0)) (hp : 0 < c.proto.parameters) (b : Bytes) :
    s.RaisesUncaught (.closure id) [.str b] b s :=
  raisesUncaught_callsError hid hc (Activation.fetch_argument hp (.str b) [] s.heap)

theorem raisesUncaught_literal {b : Bytes} (hid : s.heap.closures[id]? = some c)
    (hc : c.CallsError s.heap (.literal (.str b))) (args : List Value) :
    s.RaisesUncaught (.closure id) args b s :=
  raisesUncaught_callsError hid hc fun _ _ => rfl

end Session

end ScriptWorker.Script

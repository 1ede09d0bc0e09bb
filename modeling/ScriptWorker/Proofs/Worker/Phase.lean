import ScriptWorker.Proofs.Worker.Serving

/-!
# The phase under faults

`handleLines` hands lines to a worker on any stream and goes on whatever becomes of a line. A state
is assigned before the message about it is written, so a refused message leaves the worker where an
accepted one would have: one line takes a loading worker where the loader's verdict says
(`handleLine_loading`), and leaves a serving one with its unit, called at most once
(`handleLine_serving`). From these, `handleLines_loading` finds the phase and the unit after any
lines from the lines alone.
-/

set_option autoImplicit false

namespace ScriptWorker.Worker

open Channel Loading Message

universe u v

variable {κ : Type u} {υ : Type v}

/-- The worker and the outlets after lines, whatever each of them comes to. -/
def Setup.handleLines (s : Setup κ υ) (w : Worker κ υ) (o : Outlets) :
    List String → Worker κ υ × Outlets
  | [] => (w, o)
  | line :: lines =>
    let (_, w, o) := s.handleLine w line o
    s.handleLines w o lines

/-- The unit after calls with arguments. -/
def Strategy.advance (st : Strategy κ υ) (unit : υ) (args : List Json.Value) : υ :=
  args.foldl (fun unit a => (st.invoke unit a).2.1) unit

/-- The phase after an attempt to load. -/
def Phase.ofAttempt : Option υ → Phase υ
  | none => .loading
  | some unit => .serving unit

namespace Setup

variable (s : Setup κ υ)

theorem handleLines_cons (w : Worker κ υ) (o : Outlets) (line : String) (lines : List String) :
    s.handleLines w o (line :: lines) =
      s.handleLines (s.handleLine w line o).2.1 (s.handleLine w line o).2.2 lines := rfl

theorem handleLines_append (w : Worker κ υ) (o : Outlets) (lines more : List String) :
    s.handleLines w o (lines ++ more) =
      s.handleLines (s.handleLines w o lines).1 (s.handleLines w o lines).2 more := by
  induction lines generalizing w o with
  | nil => rfl
  | cons line lines ih => rw [List.cons_append, handleLines_cons, ih, handleLines_cons]

/-! ## One line -/

/-- What holds in every state of a line's turn holds after the line, with any faults. -/
theorem handleLine_worker {P : Worker κ υ → Prop} {w : Worker κ υ} {line : String}
    (hw : P (s.turn w (Inbound.ofLine? line)).worker)
    (hs : ∀ p ∈ (s.turn w (Inbound.ofLine? line)).said, P p.2) (o : Outlets) :
    P (s.handleLine w line o).2.1 := by
  have h : (s.handleLine w line o).2.1 =
      ((s.turn w (Inbound.ofLine? line)).perform o.sink).2.1 :=
    congrArg (·.2.1) (s.handleLine_perform w line o)
  rw [h]
  exact Turn.perform_worker hw hs o.sink

/-- The turn of a loading worker has one state, that after the attempt. -/
theorem turn_loading (k : κ) (n : Nat) (m : Option Inbound) :
    let w' : Worker κ υ := ⟨(s.strategy.attempt k m).2, n, .ofAttempt (s.strategy.attempt k m).1⟩
    (s.turn ⟨k, n, .loading⟩ m).worker = w' ∧
      ∀ p ∈ (s.turn ⟨k, n, .loading⟩ m).said, p.2 = w' := by
  cases ha : (s.strategy.attempt k m).1 with
  | some unit =>
    rw [s.turn_loading_some (Prod.ext ha rfl)]
    exact ⟨rfl, fun p hp => by rw [List.mem_singleton.1 hp]; rfl⟩
  | none =>
    rw [s.turn_loading_none ha]
    split
    · exact ⟨rfl, fun p hp => by rw [List.mem_singleton.1 hp]; rfl⟩
    · rename_i hf
      rw [s.strategy.attempt_of_not_isFunction (Bool.eq_false_iff.2 hf)]
      exact ⟨rfl, fun p hp => nomatch hp⟩

/-- The states of a call's turn hold the unit that the call has left. -/
theorem answerTurn_worker (w : Worker κ υ) (unit : υ) (a : Json.Value) :
    let w' : Worker κ υ := { w with phase := .serving (s.strategy.invoke unit a).2.1 }
    (s.answerTurn w unit a).worker = w' ∧ ∀ p ∈ (s.answerTurn w unit a).said, p.2 = w' := by
  obtain ⟨value, -, h⟩ | ⟨e, -, -, h⟩ | ⟨e, -, -, h⟩ := s.answerTurn_cases w unit a
  · rw [h]
    exact ⟨rfl, fun p hp => by rw [List.mem_singleton.1 hp]⟩
  · rw [h]
    exact ⟨rfl, fun p hp => nomatch hp⟩
  · rw [h]
    exact ⟨rfl, fun p hp => by rw [List.mem_singleton.1 hp]⟩

/-- The states of a request's turn hold the unit before the call or after it. -/
theorem serveTurn_worker {P : Worker κ υ → Prop} {w : Worker κ υ} {unit : υ} {a : Json.Value}
    (h0 : ∀ n, P { w with asked := n })
    (h1 : ∀ n, P ⟨w.loader, n, .serving (s.strategy.invoke unit a).2.1⟩) :
    P (s.serveTurn w unit a).worker ∧ ∀ p ∈ (s.serveTurn w unit a).said, P p.2 := by
  obtain h | ⟨time, h⟩ | ⟨cause, h⟩ := s.serveTurn_cases w unit a
  · obtain ⟨hw, hp⟩ := s.answerTurn_worker w unit a
    rw [h]
    exact ⟨hw ▸ h1 _, fun p hin => hp p hin ▸ h1 _⟩
  · obtain ⟨hw, hp⟩ := s.answerTurn_worker { w with asked := w.asked + 1 } unit a
    rw [h]
    refine ⟨hw ▸ h1 _, fun p hin => ?_⟩
    rcases List.mem_cons.1 hin with rfl | hin
    · exact h0 _
    · exact hp p hin ▸ h1 _
  · rw [h]
    exact ⟨h0 _, fun p hin => nomatch hin⟩

/-- One line takes a loading worker where the loader's verdict says. -/
theorem handleLine_loading {w : Worker κ υ} (hw : w.phase = .loading) (line : String)
    (o : Outlets) :
    let a := s.strategy.attempt w.loader (Inbound.ofLine? line)
    let w' := (s.handleLine w line o).2.1
    w'.loader = a.2 ∧ w'.phase = .ofAttempt a.1 := by
  obtain ⟨k, n, _⟩ := w
  subst hw
  obtain ⟨h1, h2⟩ := s.turn_loading k n (Inbound.ofLine? line)
  refine s.handleLine_worker (P := fun w' => w'.loader = _ ∧ w'.phase = _) ?_ (fun p hp => ?_) o
  · rw [h1]
    exact ⟨rfl, rfl⟩
  · rw [h2 p hp]
    exact ⟨rfl, rfl⟩

/-- One line leaves a serving worker with its unit, which is called at most with the argument of
that line. -/
theorem handleLine_serving {w : Worker κ υ} {unit : υ} (hw : w.phase = .serving unit)
    (line : String) (o : Outlets) :
    let w' := (s.handleLine w line o).2.1
    w'.loader = w.loader ∧ ∃ args, args.Sublist (argument? (Inbound.ofLine? line)).toList ∧
      w'.phase = .serving (s.strategy.advance unit args) := by
  intro w'
  -- any message of the turn may be refused, so this has to hold in all of its states
  let P : Worker κ υ → Prop := fun w' =>
    w'.loader = w.loader ∧ ∃ args, args.Sublist (argument? (Inbound.ofLine? line)).toList ∧
      w'.phase = .serving (s.strategy.advance unit args)
  have h0 : ∀ n, P { w with asked := n } := fun n => ⟨rfl, [], List.nil_sublist _, hw⟩
  cases ha : argument? (Inbound.ofLine? line) with
  | none =>
    have ht := s.turn_serving_none hw ha
    rw [← ha]
    exact s.handleLine_worker (P := P) (by rw [ht]; exact h0 _)
      (by rw [ht]; exact fun p hp => nomatch hp) o
  | some a =>
    have h1 : ∀ n, P ⟨w.loader, n, .serving (s.strategy.invoke unit a).2.1⟩ := fun n =>
      ⟨rfl, [a], by rw [ha]; exact List.Sublist.refl _, rfl⟩
    have ht := s.serveTurn_worker h0 h1
    rw [← s.turn_serving_some hw ha] at ht
    rw [← ha]
    exact s.handleLine_worker (P := P) ht.1 ht.2 o

/-! ## All lines -/

theorem requests_cons (m : Option Inbound) (ms : List (Option Inbound)) :
    requests (m :: ms) = (argument? m).toList ++ requests ms := by
  rw [requests, List.filterMap_cons]
  cases argument? m <;> rfl

/-- **A worker that serves goes on serving with its unit**, whatever fails, and calls it at most
once for each request. -/
theorem handleLines_serving {w : Worker κ υ} {unit : υ} (hw : w.phase = .serving unit)
    (o : Outlets) (lines : List String) :
    let w' := (s.handleLines w o lines).1
    w'.loader = w.loader ∧ ∃ args, args.Sublist (requests (lines.map Inbound.ofLine?)) ∧
      w'.phase = .serving (s.strategy.advance unit args) := by
  induction lines generalizing w unit o with
  | nil => exact ⟨rfl, [], List.nil_sublist _, hw⟩
  | cons line lines ih =>
    obtain ⟨h1, args, h2, h3⟩ := s.handleLine_serving hw line o
    obtain ⟨i1, more, i2, i3⟩ := ih h3 (s.handleLine w line o).2.2
    refine ⟨i1.trans h1, args ++ more, ?_, ?_⟩
    · rw [List.map_cons, requests_cons]
      exact h2.append i2
    · rw [Strategy.advance, List.foldl_append]
      exact i3

/-- **The phase and the unit are those of the lines alone**: with no source that loads the worker
is loading, and else it serves with the unit of the first one. -/
theorem handleLines_loading {w : Worker κ υ} (hw : w.phase = .loading) (o : Outlets)
    (lines : List String) :
    let w' := (s.handleLines w o lines).1
    match s.strategy.opening w.loader (lines.map Inbound.ofLine?) with
    | none => w'.loader = s.strategy.memory w.loader (lines.map Inbound.ofLine?) ∧
        w'.phase = .loading
    | some j => w'.loader = j.loader ∧ ∃ args, args.Sublist (requests j.after) ∧
        w'.phase = .serving (s.strategy.advance j.unit args) := by
  induction lines generalizing w o with
  | nil => exact ⟨rfl, hw⟩
  | cons line lines ih =>
    obtain ⟨h1, h2⟩ := s.handleLine_loading hw line o
    rw [handleLines_cons, List.map_cons]
    cases ha : (s.strategy.attempt w.loader (Inbound.ofLine? line)).1 with
    | some unit =>
      rw [ha] at h2
      rw [s.strategy.opening_cons_some (Prod.ext ha rfl)]
      obtain ⟨i1, i2⟩ := s.handleLines_serving h2 (s.handleLine w line o).2.2 lines
      exact ⟨i1.trans h1, i2⟩
    | none =>
      rw [ha] at h2
      have i := ih h2 (s.handleLine w line o).2.2
      rw [h1] at i
      rw [s.strategy.opening_cons_none ha, Strategy.memory_cons]
      generalize s.strategy.opening _ (lines.map Inbound.ofLine?) = j at i ⊢
      cases j with
      | none => exact i
      | some j => exact i

end Setup

end ScriptWorker.Worker

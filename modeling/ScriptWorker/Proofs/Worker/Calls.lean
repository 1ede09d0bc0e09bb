import ScriptWorker.Proofs.Channel.Running
import ScriptWorker.Proofs.Worker.Record

/-!
# The calls of a run

A run of the recording worker is the run of the worker with records (`forget_run`), on any stream.
The records tell the calls: as long as nothing has failed, the unit has been called once for each
request that is honoured, in order and with its argument (`calls_course`).
-/

set_option autoImplicit false

namespace ScriptWorker.Worker

open Channel Loading Message

universe u v

variable {κ : Type u} {υ : Type v}

/-- The arguments that a recording worker has called its unit with. -/
def calls (w : Worker (κ × List String) (υ × List Json.Value)) : List Json.Value :=
  match w.phase with
  | .loading => []
  | .serving (_, called) => called

/-- The arguments of the requests that are honoured among lines: those behind the first source that
loads. -/
def Strategy.honoured (st : Strategy κ υ) (k : κ) (ms : List (Option Inbound)) : List Json.Value :=
  match st.opening k ms with
  | none => []
  | some j => requests j.after

/-- The honoured requests among lines that begin as others do, through the source that loads. -/
theorem Strategy.honoured_behind {st : Strategy κ υ} {k : κ} {ms : List (Option Inbound)}
    {j : Opening κ υ} (h : st.opening k ms = some j) (after : List (Option Inbound)) :
    st.honoured k (j.before ++ j.line :: after) = requests after := by
  obtain ⟨-, hb, ha⟩ := st.opening_eq_some_iff.1 h
  have hj : st.opening k (j.before ++ j.line :: after) = some { j with after } :=
    st.opening_eq_some_iff.2 ⟨rfl, hb, ha⟩
  rw [honoured, hj]

namespace Setup

variable (s : Setup κ υ)

/-! ## Runs with records -/

theorem forget_runFrom (readFault : Option String)
    (w : Worker (κ × List String) (υ × List Json.Value)) (o : Outlets)
    (segs : List (List UInt8)) :
    runFrom s.handler readFault (some w.forget) o segs =
      ((runFrom s.recorded.handler readFault (some w) o segs).1,
        (runFrom s.recorded.handler readFault (some w) o segs).2.map forget) := by
  refine runFrom_map forget rfl (fun w line o => ?_) readFault (some w) o segs
  have h := s.forget_handleLine w o line
  simp only [handler, ← h]
  rcases s.recorded.handleLine w line o with ⟨_ | _, w', o'⟩ <;> rfl

/-- **Records change nothing in a run**, whatever its streams do. -/
theorem forget_run (k : κ) (input : List UInt8) (readFault : Option String) (faults : Faults) :
    s.run k input readFault faults =
      ((s.recorded.run (k, []) input readFault faults).1,
        (s.recorded.run (k, []) input readFault faults).2.map forget) := by
  simp only [Setup.run, open_, Channel.emit, Channel.subscribe, Channel.run]
  rcases (Outlets.fresh faults).emit .started with ⟨_ | _, o⟩
  · rfl
  · have h := s.forget_runFrom readFault (.fresh (k, [])) o (segments input)
    simp only [show (fresh (k, []) : Worker (κ × List String) (υ × List Json.Value)).forget =
      fresh k from rfl] at h
    simp only [h]
    rcases runFrom s.recorded.handler readFault (some (fresh (k, []))) o (segments input) with
      ⟨_ | _, _⟩ <;> rfl

/-! ## Calls along a course -/

/-- A request whose turn ends well has called the unit. -/
theorem phase_serveTurn {w : Worker κ υ} {unit : υ} {a : Json.Value}
    (h : (s.serveTurn w unit a).result = .ok ()) :
    (s.serveTurn w unit a).worker.phase = .serving (s.strategy.invoke unit a).2.1 := by
  obtain ht | ⟨time, ht⟩ | ⟨cause, ht⟩ := s.serveTurn_cases w unit a
  · rw [ht, (s.answerTurn_worker w unit a).1]
  · rw [ht]
    exact congrArg Worker.phase (s.answerTurn_worker { w with asked := w.asked + 1 } unit a).1
  · rw [ht] at h
    cases h

/-- A course of serving that ends well has called the unit for each request. -/
theorem phase_course_serving {w : Worker κ υ} {unit : υ} (hw : w.phase = .serving unit)
    {ms : List (Option Inbound)} (h : (s.course w ms).result = .ok ()) :
    (s.course w ms).worker.phase = .serving (s.strategy.advance unit (requests ms)) := by
  induction ms generalizing w unit with
  | nil => exact hw
  | cons m ms ih =>
    cases ha : argument? m with
    | none =>
      rw [s.course_cons_silent (s.turn_serving_none hw ha)] at h ⊢
      rw [requests_cons, ha]
      exact ih hw h
    | some a =>
      have ht := s.turn_serving_some hw ha
      cases hr : (s.turn w m).result with
      | error f =>
        rw [s.course_cons_error hr] at h
        cases h
      | ok _ =>
        rw [s.course_cons_ok hr] at h ⊢
        rw [ht] at h hr ⊢
        rw [requests_cons, ha]
        exact ih (s.phase_serveTurn hr) h

/-- The phase at the end of a course that ends well. -/
theorem phase_course {k : κ} {ms : List (Option Inbound)}
    (h : (s.course (.fresh k) ms).result = .ok ()) :
    (s.course (.fresh k) ms).worker.phase = .ofAttempt ((s.strategy.opening k ms).map fun j =>
      s.strategy.advance j.unit (requests j.after)) := by
  cases hj : s.strategy.opening k ms with
  | none =>
    have hc : s.course (.fresh k) ms = _ := s.course_loading_none (n := 0) hj
    rw [hc]
    rfl
  | some j =>
    have hc : s.course (.fresh k) ms = _ := s.course_loading_some (n := 0) hj
    rw [hc] at h ⊢
    exact s.phase_course_serving (w := ⟨j.loader, 0, .serving j.unit⟩) rfl h

/-- **The calls of a course that ends well** are the honoured requests. -/
theorem calls_course {k : κ} {ms : List (Option Inbound)}
    (h : (s.recorded.course (.fresh (k, [])) ms).result = .ok ()) :
    (s.recorded.course (.fresh (k, [])) ms).worker.calls = s.strategy.honoured k ms := by
  have ho : s.recorded.strategy.opening (k, []) ms = _ := s.strategy.opening_recorded k [] ms
  have ha : ∀ unit args, s.recorded.strategy.advance (unit, []) args = _ := fun unit args =>
    s.strategy.advance_recorded unit [] args
  unfold calls Strategy.honoured
  rw [s.recorded.phase_course h, ho]
  cases s.strategy.opening k ms with
  | none => rfl
  | some j =>
    simp only [Option.map_some, Phase.ofAttempt, ha]
    rfl

end Setup

end ScriptWorker.Worker

import ScriptWorker.Proofs.Worker.Opening

/-!
# Serving requests

A worker that serves passes over everything but requests. `exchanges` lists what becomes of the
requests as data: the arguments with the readings of the clock and the results of calling the unit
once for each, where each call starts from the unit that the call before left. `course_serving`
says that with a clock that does not fail the course of serving writes the replies of the exchanges
in order, up to the first one that is fatal.
-/

set_option autoImplicit false

namespace ScriptWorker.Worker

open Channel Loading Message

universe u v

variable {κ : Type u} {υ : Type v}

/-! ## Exchanges -/

/-- The messages in front of the answer to a request: its log line, if there are log lines. -/
def logOf (options : Options) (argument : Json.Value) (time : String) : List Outbound :=
  if options.requestLogging then [.log ("received request: " ++ argument.render) time] else []

theorem logOf_on {options : Options} (h : options.requestLogging = true) (argument : Json.Value)
    (time : String) :
    logOf options argument time = [.log ("received request: " ++ argument.render) time] :=
  if_pos h

theorem logOf_off {options : Options} (h : options.requestLogging = false) (argument : Json.Value)
    (time : String) : logOf options argument time = [] :=
  if_neg (Bool.eq_false_iff.1 h)

/-- A request with the time of its log line and the result of the call. -/
structure Exchange where
  argument : Json.Value
  time : String
  result : Except InvocationError Json.Value

namespace Exchange

/-- The messages that answer the request. -/
def replies (options : Options) (x : Exchange) : List Outbound :=
  logOf options x.argument x.time ++
  match x.result with
  | .ok value => [.response value]
  | .error e =>
    match options.onInvokeError with
    | .report => [.error e.message]
    | .crash => []

/-- The failure that ends the run at this request, if it does. -/
def fatal? (options : Options) (x : Exchange) : Option InvocationError :=
  match x.result, options.onInvokeError with
  | .error e, .crash => some e
  | _, _ => none

end Exchange

/-- The exchanges that take place: those through the first fatal one. -/
def throughFatal (options : Options) : List Exchange → List Exchange
  | [] => []
  | x :: xs =>
    if (x.fatal? options).isSome then [x] else x :: throughFatal options xs

/-- The exchanges of a unit with arguments, where `n` readings of the clock have been taken. -/
def Strategy.exchanges (st : Strategy κ υ) (times : Nat → String) :
    Nat → υ → List Json.Value → List Exchange
  | _, _, [] => []
  | n, unit, a :: args =>
    ⟨a, times (n + 1), (st.invoke unit a).1⟩ ::
      st.exchanges times (n + 1) (st.invoke unit a).2.1 args

/-- The clock that shows the given times. -/
def Clock.showing (times : Nat → String) : Clock := fun n => .ok (times n)

/-- How a run ends for which a failure is fatal or not. -/
def endOf : Option InvocationError → Except Failure Unit
  | none => .ok ()
  | some e => .error (.invocation e)

/-- The number of lines through the `n`-th request. -/
def linesThrough : Nat → List (Option Inbound) → Nat
  | 0, _ | _, [] => 0
  | n + 1, m :: ms => linesThrough (if (argument? m).isSome then n else n + 1) ms + 1

theorem linesThrough_none {m : Option Inbound} (h : argument? m = none) (n : Nat)
    (ms : List (Option Inbound)) :
    linesThrough (n + 1) (m :: ms) = linesThrough (n + 1) ms + 1 := by
  rw [linesThrough, h]
  rfl

theorem linesThrough_some {m : Option Inbound} {a : Json.Value} (h : argument? m = some a) (n : Nat)
    (ms : List (Option Inbound)) : linesThrough (n + 1) (m :: ms) = linesThrough n ms + 1 := by
  rw [linesThrough, h]
  rfl

theorem linesThrough_zero (ms : List (Option Inbound)) : linesThrough 0 ms = 0 := by
  cases ms <;> rfl

/-- Where an exchange is fatal, some take place. -/
theorem length_throughFatal {options : Options} {xs : List Exchange}
    (h : (xs.findSome? (·.fatal? options)).isSome) :
    ∃ n, (throughFatal options xs).length = n + 1 := by
  cases xs with
  | nil => cases h
  | cons x xs =>
    unfold throughFatal
    split <;> exact ⟨_, List.length_cons⟩

/-! ## Turns of a worker that serves -/

namespace Setup

variable (s : Setup κ υ)

theorem turn_serving_none {w : Worker κ υ} {unit : υ} (hw : w.phase = .serving unit)
    {m : Option Inbound} (h : argument? m = none) : s.turn w m = .silent w := by
  rcases m with _ | (_ | _ | _)
  · rfl
  · simp only [turn, hw]
  · cases h
  · rfl

theorem turn_serving_some {w : Worker κ υ} {unit : υ} (hw : w.phase = .serving unit)
    {m : Option Inbound} {a : Json.Value} (h : argument? m = some a) :
    s.turn w m = s.serveTurn w unit a := by
  rcases m with _ | (_ | _ | _)
  · cases h
  · cases h
  · cases h
    simp only [turn, hw]
  · cases h

/-- The worker after a request: the unit has been called, and the clock asked if there is a log. -/
def served (s : Setup κ υ) (w : Worker κ υ) (unit : υ) (a : Json.Value) : Worker κ υ :=
  ⟨w.loader, if s.options.requestLogging then w.asked + 1 else w.asked,
    .serving (s.strategy.invoke unit a).2.1⟩

/-- The turns that a call may come to. Each ends with the unit that the call has left. -/
theorem answerTurn_cases (w : Worker κ υ) (unit : υ) (a : Json.Value) :
    let w' : Worker κ υ := { w with phase := .serving (s.strategy.invoke unit a).2.1 }
    (∃ value, (s.strategy.invoke unit a).1 = .ok value ∧
      s.answerTurn w unit a = .saying w' (.response value)) ∨
    (∃ e, (s.strategy.invoke unit a).1 = .error e ∧ s.options.onInvokeError = .crash ∧
      s.answerTurn w unit a = ⟨[], .error (.invocation e), w'⟩) ∨
    (∃ e, (s.strategy.invoke unit a).1 = .error e ∧ s.options.onInvokeError = .report ∧
      s.answerTurn w unit a = .saying w' (.error e.message)) := by
  simp only [answerTurn]
  cases (s.strategy.invoke unit a).1 with
  | ok value => exact .inl ⟨value, rfl, rfl⟩
  | error e =>
    cases s.options.onInvokeError with
    | crash => exact .inr (.inl ⟨e, rfl, rfl, rfl⟩)
    | report => exact .inr (.inr ⟨e, rfl, rfl, rfl⟩)

theorem serveTurn_plain (w : Worker κ υ) (unit : υ) (a : Json.Value)
    (hl : s.options.requestLogging = false) : s.serveTurn w unit a = s.answerTurn w unit a := by
  rw [serveTurn, if_neg (Bool.eq_false_iff.1 hl)]

theorem serveTurn_log (w : Worker κ υ) (unit : υ) (a : Json.Value) {time : String}
    (hl : s.options.requestLogging = true) (hc : s.clock (w.asked + 1) = .ok time) :
    s.serveTurn w unit a =
      .behind (.log ("received request: " ++ a.render) time) { w with asked := w.asked + 1 }
        (s.answerTurn { w with asked := w.asked + 1 } unit a) := by
  rw [serveTurn, if_pos hl, hc]

theorem serveTurn_timestamp (w : Worker κ υ) (unit : υ) (a : Json.Value) {cause : String}
    (hl : s.options.requestLogging = true) (hc : s.clock (w.asked + 1) = .error cause) :
    s.serveTurn w unit a = ⟨[], .error (.timestamp cause), { w with asked := w.asked + 1 }⟩ := by
  rw [serveTurn, if_pos hl, hc]

/-- The turns that a request may come to: the call's, if there is no log; else the call's behind a
log line, or none of it where the clock fails. -/
theorem serveTurn_cases (w : Worker κ υ) (unit : υ) (a : Json.Value) :
    let w' : Worker κ υ := { w with asked := w.asked + 1 }
    s.serveTurn w unit a = s.answerTurn w unit a ∨
    (∃ time, s.serveTurn w unit a =
      .behind (.log ("received request: " ++ a.render) time) w' (s.answerTurn w' unit a)) ∨
    ∃ cause, s.serveTurn w unit a = ⟨[], .error (.timestamp cause), w'⟩ := by
  cases hl : s.options.requestLogging with
  | false => exact .inl (s.serveTurn_plain w unit a hl)
  | true =>
    cases hc : s.clock (w.asked + 1) with
    | ok time => exact .inr (.inl ⟨time, s.serveTurn_log w unit a hl hc⟩)
    | error cause => exact .inr (.inr ⟨cause, s.serveTurn_timestamp w unit a hl hc⟩)

/-- The turn of a call is its exchange, without the log line. -/
theorem answerTurn_eq (w : Worker κ υ) (unit : υ) (a : Json.Value) (time : String) :
    let x : Exchange := ⟨a, time, (s.strategy.invoke unit a).1⟩
    logOf s.options a time ++ (s.answerTurn w unit a).messages = x.replies s.options ∧
      (s.answerTurn w unit a).result = endOf (x.fatal? s.options) ∧
      (s.answerTurn w unit a).worker =
        { w with phase := .serving (s.strategy.invoke unit a).2.1 } := by
  simp only [Exchange.replies, Exchange.fatal?]
  obtain ⟨value, hi, h⟩ | ⟨e, hi, hp, h⟩ | ⟨e, hi, hp, h⟩ := s.answerTurn_cases w unit a
  · rw [h, hi]
    exact ⟨rfl, rfl, rfl⟩
  · rw [h, hi, hp]
    exact ⟨rfl, rfl, rfl⟩
  · rw [h, hi, hp]
    exact ⟨rfl, rfl, rfl⟩

section
variable {s} {times : Nat → String}

/-- The turn of a request is its exchange. -/
theorem serveTurn_showing (hs : s.clock = .showing times) (w : Worker κ υ) (unit : υ)
    (a : Json.Value) {n : Nat} (hn : s.options.requestLogging = true → w.asked = n) :
    let x : Exchange := ⟨a, times (n + 1), (s.strategy.invoke unit a).1⟩
    (s.serveTurn w unit a).messages = x.replies s.options ∧
      (s.serveTurn w unit a).result = endOf (x.fatal? s.options) ∧
      (s.serveTurn w unit a).worker = s.served w unit a := by
  cases hl : s.options.requestLogging with
  | true =>
    have hc : s.clock (w.asked + 1) = .ok (times (n + 1)) := by rw [hs, hn hl, Clock.showing]
    obtain ⟨h1, h2, h3⟩ := s.answerTurn_eq { w with asked := w.asked + 1 } unit a (times (n + 1))
    rw [s.serveTurn_log w unit a hl hc]
    rw [logOf_on hl] at h1
    exact ⟨h1, h2, h3.trans (by rw [served, if_pos hl])⟩
  | false =>
    obtain ⟨h1, h2, h3⟩ := s.answerTurn_eq w unit a (times (n + 1))
    rw [s.serveTurn_plain w unit a hl]
    rw [logOf_off hl] at h1
    exact ⟨h1, h2, h3.trans (by rw [served, if_neg (Bool.eq_false_iff.1 hl)])⟩

/-- **The course of serving** is the exchanges with the requests, through the first fatal one. -/
theorem course_serving (hs : s.clock = .showing times) {w : Worker κ υ} {unit : υ}
    (hw : w.phase = .serving unit) {n : Nat} (hn : s.options.requestLogging = true → w.asked = n)
    (ms : List (Option Inbound)) :
    let xs := s.strategy.exchanges times n unit (requests ms)
    let served := throughFatal s.options xs
    let fatal := xs.findSome? (·.fatal? s.options)
    (s.course w ms).said = served.flatMap (·.replies s.options) ∧
      (s.course w ms).result = endOf fatal ∧
      (s.course w ms).read = if fatal.isSome then linesThrough served.length ms else ms.length := by
  induction ms generalizing w unit n with
  | nil => exact ⟨rfl, rfl, rfl⟩
  | cons m ms ih =>
    cases ha : argument? m with
    | none =>
      have hr : requests (m :: ms) = requests ms := by
        rw [requests, List.filterMap_cons_none ha, requests]
      obtain ⟨h1, h2, h3⟩ := ih hw hn
      rw [s.course_cons_silent (s.turn_serving_none hw ha), hr]
      refine ⟨h1, h2, ?_⟩
      simp only [h3, List.length_cons]
      split
      · rename_i hf
        obtain ⟨i, hi⟩ := length_throughFatal hf
        rw [hi, linesThrough_none ha]
      · rfl
    | some a =>
      have hr : requests (m :: ms) = a :: requests ms := by
        rw [requests, List.filterMap_cons_some ha, requests]
      obtain ⟨h1, h2, h3⟩ := serveTurn_showing hs w unit a hn
      rw [← s.turn_serving_some hw ha] at h1 h2 h3
      simp only [hr, Strategy.exchanges, throughFatal, List.findSome?_cons]
      cases hf : Exchange.fatal? s.options ⟨a, times (n + 1), (s.strategy.invoke unit a).1⟩ with
      | some e =>
        rw [hf] at h2
        rw [s.course_cons_error h2, h1]
        simp only [Option.isSome_some, if_true, List.flatMap_cons, List.flatMap_nil,
          List.append_nil, List.length_singleton, linesThrough_some ha, linesThrough_zero, endOf,
          and_self]
      | none =>
        rw [hf] at h2
        have hn' : s.options.requestLogging = true → (s.served w unit a).asked = n + 1 := by
          intro hl
          simp only [served, hl, if_true, hn hl]
        obtain ⟨i1, i2, i3⟩ := ih (w := s.served w unit a) rfl hn'
        rw [s.course_cons_ok h2, h3]
        simp only [Course.behind, h1, Option.isSome_none, Bool.false_eq_true, if_false,
          List.flatMap_cons, List.length_cons, linesThrough_some ha]
        refine ⟨by rw [i1], i2, ?_⟩
        rw [i3]
        split <;> rfl

end

end Setup

end ScriptWorker.Worker

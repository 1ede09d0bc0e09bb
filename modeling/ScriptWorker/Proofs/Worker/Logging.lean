import ScriptWorker.Proofs.Message.Lines
import ScriptWorker.Proofs.Worker.Calls
import ScriptWorker.Proofs.Worker.ClosedForm

/-!
# Log lines change nothing else

With or without log lines the same exchanges take place (`throughFatal_logging`), so the closed
forms of the two runs differ in the log lines only (`closedForm_filter`). A clock that fails matters
to log lines alone: it stops a run in front of the first request that is honoured
(`course_failing_clock`). `run_logging` puts this together for runs.
-/

set_option autoImplicit false

namespace ScriptWorker.Worker

open Channel Loading Message

universe u v

variable {κ : Type u} {υ : Type v}

/-! ## Exchanges with and without log lines -/

namespace Exchange

/-- The messages that answer the request, its log line aside. -/
def answers (policy : FailurePolicy) (x : Exchange) : List Outbound :=
  match x.result with
  | .ok value => [.response value]
  | .error e =>
    match policy with
    | .report => [.error e.message]
    | .crash => []

/-- The log line of the request. -/
def log (x : Exchange) : Outbound := .log ("received request: " ++ x.argument.render) x.time

theorem replies_on (policy : FailurePolicy) (x : Exchange) :
    x.replies ⟨policy, true⟩ = x.log :: x.answers policy := rfl

theorem replies_off (policy : FailurePolicy) (x : Exchange) :
    x.replies ⟨policy, false⟩ = x.answers policy := rfl

/-- One message answers a request, and none only if its failure is fatal. -/
theorem answers_cases (policy : FailurePolicy) (x : Exchange) :
    (∃ value, x.answers policy = [.response value]) ∨
      (∃ message, x.answers policy = [.error message]) ∨
      (x.answers policy = [] ∧ ∀ logging, (x.fatal? ⟨policy, logging⟩).isSome) := by
  unfold answers fatal?
  cases x.result with
  | ok value => exact .inl ⟨value, rfl⟩
  | error e =>
    cases policy with
    | report => exact .inr (.inl ⟨e.message, rfl⟩)
    | crash => exact .inr (.inr ⟨rfl, fun _ => rfl⟩)

theorem isLog_answers {policy : FailurePolicy} {x : Exchange} :
    ∀ m ∈ x.answers policy, m.isLog = false := by
  intro m hm
  obtain ⟨value, h⟩ | ⟨message, h⟩ | ⟨h, -⟩ := x.answers_cases policy
  · rw [h] at hm
    rw [List.mem_singleton.1 hm]
    rfl
  · rw [h] at hm
    rw [List.mem_singleton.1 hm]
    rfl
  · rw [h] at hm
    cases hm

/-- Without its log line an exchange writes its answers. -/
theorem filter_replies (policy : FailurePolicy) (x : Exchange) :
    (x.replies ⟨policy, true⟩).filter (!·.isLog) = x.replies ⟨policy, false⟩ := by
  rw [replies_on, replies_off, List.filter_cons_of_neg (by simp [log, Outbound.isLog]),
    List.filter_eq_self]
  intro m hm
  rw [isLog_answers m hm]
  rfl

end Exchange

/-- Which exchanges take place is up to the policy alone. -/
theorem throughFatal_logging (policy : FailurePolicy) (logging : Bool) (xs : List Exchange) :
    throughFatal ⟨policy, logging⟩ xs = throughFatal ⟨policy, false⟩ xs := by
  induction xs with
  | nil => rfl
  | cons x xs ih =>
    rw [throughFatal, throughFatal, ih]
    rfl

theorem prefix_throughFatal (options : Options) (xs : List Exchange) :
    throughFatal options xs <+: xs := by
  induction xs with
  | nil => exact List.prefix_rfl
  | cons x xs ih =>
    unfold throughFatal
    split
    · exact ⟨xs, rfl⟩
    · exact List.cons_prefix_cons.2 ⟨rfl, ih⟩

/-- Where nothing is fatal, all exchanges take place. -/
theorem throughFatal_of_none {options : Options} {xs : List Exchange}
    (h : xs.findSome? (·.fatal? options) = none) : throughFatal options xs = xs := by
  induction xs with
  | nil => rfl
  | cons x xs ih =>
    rw [List.findSome?_cons] at h
    cases hx : x.fatal? options with
    | some e =>
      rw [hx] at h
      cases h
    | none =>
      rw [hx] at h
      rw [throughFatal, hx, ih h]
      rfl

/-- A fatal exchange is the last one that takes place, and ends the run. -/
theorem throughFatal_last {options : Options} {xs before after : List Exchange} {x : Exchange}
    (h : throughFatal options xs = before ++ x :: after) (hx : (x.fatal? options).isSome) :
    after = [] ∧ (xs.findSome? (·.fatal? options)).isSome := by
  induction xs generalizing before with
  | nil => simp [throughFatal] at h
  | cons y xs ih =>
    rw [throughFatal] at h
    rw [List.findSome?_cons]
    cases hy : y.fatal? options with
    | some e =>
      rw [hy] at h
      cases before with
      | nil =>
        cases h
        exact ⟨rfl, rfl⟩
      | cons z before => simp at h
    | none =>
      rw [hy] at h
      cases before with
      | nil =>
        cases h
        rw [hy] at hx
        cases hx
      | cons z before =>
        have h' : y :: throughFatal options xs = z :: (before ++ x :: after) := h
        exact ih (List.cons.inj h').2

theorem arguments_exchanges (st : Strategy κ υ) (times : Nat → String) (n : Nat) (unit : υ)
    (args : List Json.Value) : (st.exchanges times n unit args).map (·.argument) = args := by
  induction args generalizing n unit with
  | nil => rfl
  | cons a args ih => rw [Strategy.exchanges, List.map_cons, ih]

/-- Records do not change what is exchanged. -/
theorem exchanges_recorded (st : Strategy κ υ) (times : Nat → String) (n : Nat) (unit : υ)
    (called args : List Json.Value) :
    st.recorded.exchanges times n (unit, called) args = st.exchanges times n unit args := by
  induction args generalizing n unit called with
  | nil => rfl
  | cons a args ih =>
    have := ih (n + 1) (st.invoke unit a).2.1 (called ++ [a])
    rw [Strategy.exchanges, Strategy.exchanges, ← this]
    rfl

/-! ## Closed forms with and without log lines -/

namespace Strategy

variable (st : Strategy κ υ)

/-- The messages in front of the requests. -/
def preamble (k : κ) (ms : List (Option Inbound)) : List Outbound :=
  match st.opening k ms with
  | none => .started :: .replicate (ms.countP isFunction) (.functionLoaded false)
  | some j =>
    .started :: .replicate (j.before.countP isFunction) (.functionLoaded false) ++
      [.functionLoaded true]

/-- The exchanges that take place in a run. -/
def served (policy : FailurePolicy) (times : Nat → String) (k : κ) (ms : List (Option Inbound)) :
    List Exchange :=
  match st.opening k ms with
  | none => []
  | some j => throughFatal ⟨policy, false⟩ (st.exchanges times 0 j.unit (requests j.after))

theorem isLog_preamble (k : κ) (ms : List (Option Inbound)) :
    ∀ m ∈ st.preamble k ms, m.isLog = false := by
  have refusals : ∀ n, ∀ m ∈ Outbound.started :: List.replicate n (.functionLoaded false),
      m.isLog = false := by
    intro n m hm
    rcases List.mem_cons.1 hm with rfl | hm
    · rfl
    · rw [List.eq_of_mem_replicate hm]
      rfl
  intro m hm
  unfold preamble at hm
  split at hm
  · exact refusals _ m hm
  · rcases List.mem_append.1 hm with hm | hm
    · exact refusals _ m hm
    · rw [List.mem_singleton.1 hm]
      rfl

/-- The closed form of a run, with or without log lines. -/
theorem closedForm_said (policy : FailurePolicy) (logging : Bool) (times : Nat → String) (k : κ)
    (ms : List (Option Inbound)) :
    (closedForm st ⟨policy, logging⟩ times k ms).said =
      st.preamble k ms ++ (st.served policy times k ms).flatMap (·.replies ⟨policy, logging⟩) := by
  unfold closedForm preamble served
  cases st.opening k ms with
  | none => rw [List.flatMap_nil, List.append_nil]
  | some j =>
    simp only [throughFatal_logging policy logging, List.append_assoc]
    rfl

/-- Log lines do not change how a run ends. -/
theorem closedForm_logging (policy : FailurePolicy) (times : Nat → String) (k : κ)
    (ms : List (Option Inbound)) :
    (closedForm st ⟨policy, true⟩ times k ms).failure =
        (closedForm st ⟨policy, false⟩ times k ms).failure ∧
      (closedForm st ⟨policy, true⟩ times k ms).read =
        (closedForm st ⟨policy, false⟩ times k ms).read := by
  unfold closedForm
  cases st.opening k ms with
  | none => exact ⟨rfl, rfl⟩
  | some j =>
    simp only [throughFatal_logging policy true]
    exact ⟨rfl, rfl⟩

/-- **The closed forms differ in the log lines only.** -/
theorem closedForm_filter (policy : FailurePolicy) (times : Nat → String) (k : κ)
    (ms : List (Option Inbound)) :
    (closedForm st ⟨policy, true⟩ times k ms).said.filter (!·.isLog) =
      (closedForm st ⟨policy, false⟩ times k ms).said := by
  have hp : (st.preamble k ms).filter (!·.isLog) = st.preamble k ms := by
    rw [List.filter_eq_self]
    intro m hm
    rw [st.isLog_preamble k ms m hm]
    rfl
  rw [closedForm_said, closedForm_said, List.filter_append, hp, List.filter_flatMap]
  simp only [Exchange.filter_replies]

/-- The requests that are served come first among those that are honoured. -/
theorem prefix_served (policy : FailurePolicy) (times : Nat → String) (k : κ)
    (ms : List (Option Inbound)) :
    (st.served policy times k ms).map (·.argument) <+: st.honoured k ms := by
  unfold served honoured
  cases st.opening k ms with
  | none => exact List.prefix_rfl
  | some j =>
    have h := (prefix_throughFatal ⟨policy, false⟩
      (st.exchanges times 0 j.unit (requests j.after))).map (·.argument)
    rwa [arguments_exchanges] at h

/-- Where nothing is fatal, all honoured requests are served. -/
theorem served_of_ok {policy : FailurePolicy} {times : Nat → String} {k : κ}
    {ms : List (Option Inbound)} (h : (closedForm st ⟨policy, false⟩ times k ms).failure = none) :
    (st.served policy times k ms).map (·.argument) = st.honoured k ms := by
  unfold closedForm at h
  unfold served honoured
  cases hj : st.opening k ms with
  | none => rfl
  | some j =>
    rw [hj] at h
    simp only [throughFatal_of_none h, arguments_exchanges]

/-- A request that is answered with nothing is the last one that is served, and ends the run. -/
theorem served_unanswered {policy : FailurePolicy} {times : Nat → String} {k : κ}
    {ms : List (Option Inbound)} {before after : List Exchange} {x : Exchange}
    (h : st.served policy times k ms = before ++ x :: after)
    (hx : (x.fatal? ⟨policy, false⟩).isSome) :
    after = [] ∧ (closedForm st ⟨policy, false⟩ times k ms).failure.isSome := by
  unfold closedForm
  unfold served at h
  cases hj : st.opening k ms with
  | none =>
    rw [hj] at h
    simp at h
  | some j =>
    rw [hj] at h
    exact throughFatal_last h hx

theorem served_recorded (policy : FailurePolicy) (times : Nat → String) (k : κ)
    (called : List String) (ms : List (Option Inbound)) :
    st.recorded.served policy times (k, called) ms = st.served policy times k ms := by
  unfold served
  rw [st.opening_recorded]
  cases st.opening k ms with
  | none => rfl
  | some j => simp only [Option.map_some, exchanges_recorded]

end Strategy

/-- The texts of messages without the log lines among them. -/
theorem lines_without_log (ms : List Outbound) :
    (ms.map Outbound.line).filter (!Outbound.isLogLine ·) =
      (ms.filter (!·.isLog)).map Outbound.line := by
  rw [List.filter_map]
  congr 2
  funext m
  rw [Function.comp_apply, Outbound.isLogLine_line]

/-! ## The calls of a run -/

namespace Setup

variable {s : Setup κ υ} {times : Nat → String}

/-- The course of serving calls the unit for the exchanges that take place. -/
theorem phase_course_showing (hs : s.clock = .showing times) {w : Worker κ υ} {unit : υ}
    (hw : w.phase = .serving unit) {n : Nat} (hn : s.options.requestLogging = true → w.asked = n)
    (ms : List (Option Inbound)) :
    (s.course w ms).worker.phase = .serving (s.strategy.advance unit
      ((throughFatal s.options (s.strategy.exchanges times n unit (requests ms))).map
        (·.argument))) := by
  induction ms generalizing w unit n with
  | nil => exact hw
  | cons m ms ih =>
    rw [requests_cons]
    cases ha : argument? m with
    | none =>
      rw [s.course_cons_silent (s.turn_serving_none hw ha)]
      exact ih hw hn
    | some a =>
      obtain ⟨-, h2, h3⟩ := serveTurn_showing hs w unit a hn
      rw [← s.turn_serving_some hw ha] at h2 h3
      simp only [Option.toList_some, List.singleton_append, Strategy.exchanges, throughFatal]
      cases hf : Exchange.fatal? s.options ⟨a, times (n + 1), (s.strategy.invoke unit a).1⟩ with
      | some e =>
        rw [hf] at h2
        rw [s.course_cons_error h2, h3]
        rfl
      | none =>
        rw [hf] at h2
        rw [s.course_cons_ok h2, h3]
        have hn' : s.options.requestLogging = true → (s.served w unit a).asked = n + 1 := by
          intro hl
          simp only [served, hl, if_true, hn hl]
        exact ih (w := s.served w unit a) rfl hn'

/-- **The calls of a run** are the requests that are served, with or without log lines. -/
theorem calls_run (st : Strategy κ υ) (policy : FailurePolicy) (logging : Bool)
    (times : Nat → String) (k : κ) (input : List UInt8) :
    let r := (Setup.mk st ⟨policy, logging⟩ (.showing times)).recorded.run (k, []) input none .none
    r.2.handler.map calls =
      some ((st.served policy times k (inbox input)).map (·.argument)) := by
  let s : Setup κ υ := ⟨st, ⟨policy, logging⟩, .showing times⟩
  intro r
  have hh : r.2.handler = some (s.recorded.course (.fresh (k, [])) (inbox input)).worker :=
    (s.recorded.run_course (k, []) input).2.2.2
  rw [hh, Option.map_some, ← st.served_recorded policy times k []]
  congr 1
  unfold Strategy.served
  cases hj : st.recorded.opening (k, []) (inbox input) with
  | none =>
    have hc : s.recorded.course (.fresh (k, [])) (inbox input) = _ :=
      s.recorded.course_loading_none (n := 0) hj
    rw [hc]
    rfl
  | some j =>
    have hc : s.recorded.course (.fresh (k, [])) (inbox input) = _ :=
      s.recorded.course_loading_some (n := 0) hj
    have hs : s.recorded.clock = .showing times := rfl
    have hp := phase_course_showing hs (w := ⟨j.loader, 0, .serving j.unit⟩) rfl (n := 0)
      (fun _ => rfl) j.after
    rw [hc, Course.followedBy, calls, hp]
    rw [st.opening_recorded, Option.map_eq_some_iff] at hj
    obtain ⟨j, -, rfl⟩ := hj
    have ha : ∀ args, s.recorded.strategy.advance (j.unit, []) args = _ :=
      st.advance_recorded j.unit []
    simp only [ha, List.nil_append]
    exact congrArg (List.map (·.argument)) (throughFatal_logging policy logging _)

end Setup

/-! ## Clocks -/

namespace Setup

variable (s : Setup κ υ)

/-- A worker that serves passes over lines without requests. -/
theorem course_no_requests {w : Worker κ υ} {unit : υ} (hw : w.phase = .serving unit)
    {ms : List (Option Inbound)} (h : requests ms = []) :
    s.course w ms = ⟨[], .ok (), w, ms.length⟩ := by
  induction ms with
  | nil => rfl
  | cons m ms ih =>
    rw [requests_cons, List.append_eq_nil_iff, Option.toList_eq_nil_iff] at h
    rw [s.course_cons_silent (s.turn_serving_none hw h.1), ih h.2, List.length_cons]

/-- Where the time for its log line cannot be had, a request ends the course and is not served. -/
theorem course_timestamp {w : Worker κ υ} {unit : υ} (hw : w.phase = .serving unit)
    {before after : List (Option Inbound)} {m : Option Inbound} {a : Json.Value} {cause : String}
    (hb : requests before = []) (hm : argument? m = some a) (hl : s.options.requestLogging = true)
    (hc : s.clock (w.asked + 1) = .error cause) :
    s.course w (before ++ m :: after) =
      ⟨[], .error (.timestamp cause), { w with asked := w.asked + 1 }, before.length + 1⟩ := by
  have hn := s.course_no_requests hw hb
  have ht := (s.turn_serving_some hw hm).trans
    (s.serveTurn_timestamp w unit a hl hc)
  rw [s.course_append (by rw [hn]), hn, s.course_cons_error (by rw [ht]), ht]
  rfl

/-- **Where the clock fails at once**, a course with log lines ends at the first honoured request.
It has written what stands in front of the requests. -/
theorem course_failing_clock (k : κ) (ms : List (Option Inbound)) {cause : String}
    (hl : s.options.requestLogging = true) (hc : s.clock 1 = .error cause) :
    let c := s.course (.fresh k) ms
    .started :: c.said = s.strategy.preamble k ms ∧
      c.worker.phase = .ofAttempt ((s.strategy.opening k ms).map (·.unit)) ∧
      (s.strategy.honoured k ms = [] → c.result = .ok () ∧ c.read = ms.length) ∧
      ∀ a rest, s.strategy.honoured k ms = a :: rest →
        c.result = .error (.timestamp cause) ∧
        ∃ front line back, ms = front ++ line :: back ∧ c.read = front.length + 1 ∧
          s.strategy.honoured k front = [] ∧ s.strategy.honoured k (front ++ [line]) = [a] := by
  intro c
  unfold Strategy.honoured Strategy.preamble
  cases hj : s.strategy.opening k ms with
  | none =>
    have hcourse : c = _ := s.course_loading_none (n := 0) hj
    rw [hcourse]
    exact ⟨rfl, rfl, fun _ => ⟨rfl, rfl⟩, fun _ _ h => absurd h.symm (List.cons_ne_nil _ _)⟩
  | some j =>
    have hcourse : c = _ := s.course_loading_some (n := 0) hj
    obtain ⟨hms, -, -⟩ := s.strategy.opening_eq_some_iff.1 hj
    simp only [hcourse, Course.followedBy]
    cases hr : requests j.after with
    | nil =>
      rw [s.course_no_requests (w := ⟨j.loader, 0, .serving j.unit⟩) rfl hr, List.append_nil]
      refine ⟨rfl, rfl, fun _ => ⟨rfl, ?_⟩, fun _ _ h => absurd h.symm (List.cons_ne_nil _ _)⟩
      rw [hms, List.length_append, List.length_cons]
      exact Nat.add_right_comm _ _ _
    | cons a rest =>
      obtain ⟨front, line, back, hafter, hfront, hline, -⟩ := List.filterMap_eq_cons_iff.1 hr
      have hf : requests front = [] := List.filterMap_eq_nil_iff.2 hfront
      rw [hafter, s.course_timestamp (w := ⟨j.loader, 0, .serving j.unit⟩) rfl hf hline hl hc,
        List.append_nil]
      refine ⟨rfl, rfl, fun h => absurd h (List.cons_ne_nil a rest), fun b rest' hb => ?_⟩
      cases hb
      refine ⟨rfl, j.before ++ j.line :: front, line, back, ?_, ?_, ?_, ?_⟩
      · rw [hms, hafter, List.append_assoc, List.cons_append]
      · show j.before.length + 1 + (front.length + 1) = _
        rw [List.length_append, List.length_cons]
        omega
      · exact (Strategy.honoured_behind hj front).trans hf
      · rw [List.append_assoc, List.cons_append]
        refine (Strategy.honoured_behind hj _).trans ?_
        rw [requests, List.filterMap_append, List.filterMap_cons_some hline]
        exact congrArg (· ++ [a]) hf

/-- Where the clock fails at once, a run with log lines calls nothing. -/
theorem calls_failing_clock {k : κ} {input : List UInt8} {cause : String}
    (hl : s.options.requestLogging = true) (hc : s.clock 1 = .error cause) :
    (s.recorded.run (k, []) input none .none).2.handler.map calls = some [] := by
  obtain ⟨-, -, -, hh⟩ := s.recorded.run_course (k, []) input
  obtain ⟨-, hp, -⟩ := s.recorded.course_failing_clock (k, []) (inbox input) hl hc
  have ho : s.recorded.strategy.opening (k, []) (inbox input) = _ :=
    s.strategy.opening_recorded k [] (inbox input)
  rw [hh, Option.map_some, calls, hp, ho]
  cases s.strategy.opening k (inbox input) <;> rfl

end Setup

/-- **Log lines change nothing else.** With a clock that does not fail, the runs with and without
log lines serve the same requests, end alike and read the same lines. Their outputs are the same but
for one log line per served request, in front of its answer; a request that is not answered is the
last one, and ends the run. Where the clock fails at once, the run with log lines ends at the first
honoured request, of which it writes nothing and for which it calls nothing. The run without log
lines does not depend on the clock. -/
theorem run_logging (st : Strategy κ υ) (policy : FailurePolicy) (k : κ) (input : List UInt8) :
    let setup := fun logging clock => Setup.mk st ⟨policy, logging⟩ clock
    let run := fun logging clock => (setup logging clock).run k input none .none
    let recorded := fun logging clock => (setup logging clock).recorded.run (k, []) input none .none
    let lines := fun logging clock => (run logging clock).2.outlets.sink.written
    (∀ logging clock, run logging clock =
      ((recorded logging clock).1, (recorded logging clock).2.map forget)) ∧
    (∀ times, let clock := Clock.showing times
      let served := st.served policy times k (inbox input)
      (lines true clock).filter (!Outbound.isLogLine ·) = lines false clock ∧
      (run true clock).1 = (run false clock).1 ∧
      (run true clock).2.unread = (run false clock).2.unread ∧
      (∀ logging, (recorded logging clock).2.handler.map calls = some (served.map (·.argument))) ∧
      (∀ m ∈ st.preamble k (inbox input), m.isLog = false) ∧
      lines true clock = (st.preamble k (inbox input) ++
        served.flatMap fun x => x.log :: x.answers policy).map Outbound.line ∧
      served.map (·.argument) <+: st.honoured k (inbox input) ∧
      ((run true clock).1 = .ok () → served.map (·.argument) = st.honoured k (inbox input)) ∧
      ∀ before x after, served = before ++ x :: after →
        (∃ value, x.answers policy = [.response value]) ∨
        (∃ message, x.answers policy = [.error message]) ∨
        (x.answers policy = [] ∧ after = [] ∧ ∃ e, (run true clock).1 = .error (.invocation e))) ∧
    (∀ clock cause, clock 1 = .error cause →
      lines true clock = (st.preamble k (inbox input)).map Outbound.line ∧
      (recorded true clock).2.handler.map calls = some [] ∧
      (st.honoured k (inbox input) = [] →
        (run true clock).1 = .ok () ∧ (run true clock).2.unread = []) ∧
      ∀ a rest, st.honoured k (inbox input) = a :: rest →
        (run true clock).1 = .error (.timestamp cause) ∧
        ∃ head seg tail, segments input = head ++ seg :: tail ∧
          (run true clock).2.unread = tail.flatten ∧
          st.honoured k (head.map ofSegment?) = [] ∧
          st.honoured k ((head ++ [seg]).map ofSegment?) = [a]) ∧
    ∀ clock clock', run false clock = run false clock' := by
  intro setup run recorded lines
  refine ⟨fun logging clock => (setup logging clock).forget_run k input none .none,
    fun times => ?_, fun clock cause hc => ?_, fun _ _ => rfl⟩
  · have hform := fun logging => run_eq_closedForm st ⟨policy, logging⟩ times k input
    obtain ⟨on1, on2, on3, -⟩ := hform true
    obtain ⟨off1, off2, off3, -⟩ := hform false
    obtain ⟨hfailure, hread⟩ := st.closedForm_logging policy times k (inbox input)
    intro clock served
    refine ⟨?_, ?_, ?_, fun logging => Setup.calls_run st policy logging times k input,
      st.isLog_preamble k (inbox input), ?_, st.prefix_served policy times k (inbox input), ?_, ?_⟩
    · rw [show lines true clock = _ from on1, show lines false clock = _ from off1,
        lines_without_log, st.closedForm_filter]
    · rw [show (run true clock).1 = _ from on2, show (run false clock).1 = _ from off2, hfailure]
    · rw [show (run true clock).2.unread = _ from on3,
        show (run false clock).2.unread = _ from off3, hread]
    · rw [show lines true clock = _ from on1, st.closedForm_said]
      rfl
    · intro hok
      rw [show (run true clock).1 = _ from on2, hfailure] at hok
      refine st.served_of_ok ?_
      cases hf : (closedForm st ⟨policy, false⟩ times k (inbox input)).failure with
      | none => rfl
      | some e =>
        rw [hf] at hok
        cases hok
    · intro before x after hs
      obtain h | h | ⟨h, hx⟩ := x.answers_cases policy
      · exact .inl h
      · exact .inr (.inl h)
      · obtain ⟨ha, hf⟩ := st.served_unanswered hs (hx false)
        obtain ⟨e, he⟩ := Option.isSome_iff_exists.1 hf
        refine .inr (.inr ⟨h, ha, e, ?_⟩)
        rw [show (run true clock).1 = _ from on2, hfailure, he]
        rfl
  · let s := setup true clock
    obtain ⟨r1, r2, -, -⟩ := s.run_course k input
    obtain ⟨h1, -, h2, h3⟩ := s.course_failing_clock k (inbox input) rfl hc
    refine ⟨?_, s.calls_failing_clock rfl hc, fun hn => ?_, fun a rest ha => ?_⟩
    · rw [show lines true clock = _ from s.run_written k input, h1]
    · obtain ⟨h2, h4⟩ := h2 hn
      refine ⟨r1.trans h2, r2.trans ?_⟩
      rw [h4, inbox, List.length_map, List.drop_length, List.flatten_nil]
    · obtain ⟨h3, front, line, back, hms, hread, hf, hl⟩ := h3 a rest ha
      obtain ⟨head, tail, hseg, rfl, ht⟩ := List.map_eq_append_iff.1 hms
      obtain ⟨seg, tail, rfl, rfl, -⟩ := List.map_eq_cons_iff.1 ht
      refine ⟨r1.trans h3, head, seg, tail, hseg, r2.trans ?_, hf, ?_⟩
      · rw [hread, hseg, List.length_map, List.append_cons, List.drop_left']
        rw [List.length_append, List.length_singleton]
      · rw [List.map_append]
        exact hl

end ScriptWorker.Worker

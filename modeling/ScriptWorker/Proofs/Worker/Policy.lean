import ScriptWorker.Proofs.Channel.Segments
import ScriptWorker.Proofs.Message.Lines
import ScriptWorker.Proofs.Worker.Serving

/-!
# The two policies compared

A run that stops at a failure is a run that reports failures, cut at the first report. Line by line
the two do the same (`turn_policy`) until a call fails; then one has written all that the other has
but the report (`course_policy`). `run_crash` says so of the texts that the two runs write.
-/

set_option autoImplicit false

namespace ScriptWorker.Worker

open Channel Loading Message

universe u v

variable {κ : Type u} {υ : Type v}

/-- The setup with another policy. -/
def Setup.withPolicy (s : Setup κ υ) (policy : FailurePolicy) : Setup κ υ :=
  { s with options := { s.options with onInvokeError := policy } }

theorem isError_logOf (options : Options) (argument : Json.Value) (time : String) :
    ∀ m ∈ logOf options argument time, m.isError = false := by
  intro m hm
  unfold logOf at hm
  split at hm
  · rw [List.mem_singleton.1 hm]
    rfl
  · cases hm

namespace Setup

variable (s : Setup κ υ)

/-! ## One line -/

/-- The turns of a failing call differ in the report and the ending, those of another in nothing. -/
theorem answerTurn_policy (w : Worker κ υ) (unit : υ) (argument : Json.Value) :
    let report := (s.withPolicy .report).answerTurn w unit argument
    let crash := (s.withPolicy .crash).answerTurn w unit argument
    (crash = report ∧ ∀ m ∈ report.messages, m.isError = false) ∨
    ∃ e, report.messages = [.error e.message] ∧ report.result = .ok () ∧
      crash.messages = [] ∧ crash.result = .error (.invocation e) := by
  simp only [answerTurn, withPolicy]
  cases (s.strategy.invoke unit argument).1 with
  | ok value =>
    refine .inl ⟨rfl, fun m hm => ?_⟩
    rw [List.mem_singleton.1 hm]
    rfl
  | error e => exact .inr ⟨e, rfl, rfl, rfl, rfl⟩

/-- The turns of a request differ as those of its call, behind the log line. -/
theorem serveTurn_policy (w : Worker κ υ) (unit : υ) (argument : Json.Value) :
    let report := (s.withPolicy .report).serveTurn w unit argument
    let crash := (s.withPolicy .crash).serveTurn w unit argument
    (crash = report ∧ ∀ m ∈ report.messages, m.isError = false) ∨
    ∃ time e, report.messages = logOf s.options argument time ++ [.error e.message] ∧
      report.result = .ok () ∧ crash.messages = logOf s.options argument time ∧
      crash.result = .error (.invocation e) := by
  cases hl : s.options.requestLogging with
  | false =>
    rw [(s.withPolicy .report).serveTurn_plain w unit argument hl,
      (s.withPolicy .crash).serveTurn_plain w unit argument hl]
    rcases s.answerTurn_policy w unit argument with h | ⟨e, h1, h2, h3, h4⟩
    · exact .inl h
    · refine .inr ⟨"", e, ?_, h2, ?_, h4⟩
      · rw [logOf_off hl]
        exact h1
      · rw [logOf_off hl]
        exact h3
  | true =>
    cases hc : s.clock (w.asked + 1) with
    | error cause =>
      rw [(s.withPolicy .report).serveTurn_timestamp w unit argument hl hc,
        (s.withPolicy .crash).serveTurn_timestamp w unit argument hl hc]
      exact .inl ⟨rfl, fun m hm => nomatch hm⟩
    | ok time =>
      rw [(s.withPolicy .report).serveTurn_log w unit argument hl hc,
        (s.withPolicy .crash).serveTurn_log w unit argument hl hc]
      rcases s.answerTurn_policy { w with asked := w.asked + 1 } unit argument with
        ⟨h, hm⟩ | ⟨e, h1, h2, h3, h4⟩
      · refine .inl ⟨by rw [h], fun m hin => ?_⟩
        rcases List.mem_cons.1 hin with rfl | hin
        · rfl
        · exact hm m hin
      · refine .inr ⟨time, e, ?_, h2, ?_, h4⟩
        · rw [logOf_on hl]
          exact congrArg (_ :: ·) h1
        · rw [logOf_on hl]
          exact congrArg (_ :: ·) h3

/-- **One line under both policies.** -/
theorem turn_policy (w : Worker κ υ) (m : Option Inbound) :
    let report := (s.withPolicy .report).turn w m
    let crash := (s.withPolicy .crash).turn w m
    (crash = report ∧ ∀ a ∈ report.messages, a.isError = false) ∨
    ∃ argument time e, m = some (.request argument) ∧
      report.messages = logOf s.options argument time ++ [.error e.message] ∧
      report.result = .ok () ∧ crash.messages = logOf s.options argument time ∧
      crash.result = .error (.invocation e) := by
  have hn : ∀ a ∈ ([] : List Outbound), a.isError = false := fun a h => absurd h List.not_mem_nil
  obtain ⟨loader, n, phase⟩ := w
  rcases m with _ | (source | argument | kind)
  · exact .inl ⟨rfl, hn⟩
  · cases phase with
    | serving unit => exact .inl ⟨rfl, hn⟩
    | loading =>
      refine .inl ⟨rfl, fun a h => ?_⟩
      simp only [turn, loadTurn] at h
      split at h <;> rw [List.mem_singleton.1 h] <;> rfl
  · cases phase with
    | loading => exact .inl ⟨rfl, hn⟩
    | serving unit =>
      rcases s.serveTurn_policy ⟨loader, n, .serving unit⟩ unit argument with h | ⟨time, e, h⟩
      · exact .inl h
      · exact .inr ⟨argument, time, e, rfl, h⟩
  · exact .inl ⟨rfl, hn⟩

/-! ## All lines -/

/-- **Many lines under both policies.** Either no call fails, and the courses are one, or the lines
split at a request whose call fails: in front of it the courses are one without a report, there one
reports and goes on and the other stops. -/
theorem course_policy (w : Worker κ υ) (ms : List (Option Inbound)) :
    let report := (s.withPolicy .report).course w
    let crash := (s.withPolicy .crash).course w ms
    (crash = report ms ∧ ∀ a ∈ (report ms).said, a.isError = false) ∨
    ∃ head argument tail time e after, ms = head ++ some (.request argument) :: tail ∧
      crash.said = (report head).said ++ logOf s.options argument time ∧
      (∀ a ∈ crash.said, a.isError = false) ∧
      crash.result = .error (.invocation e) ∧ crash.read = head.length + 1 ∧
      (report (head ++ [some (.request argument)])).said = crash.said ++ [.error e.message] ∧
      (report ms).said = crash.said ++ .error e.message :: after := by
  induction ms generalizing w with
  | nil => exact .inl ⟨rfl, fun a h => nomatch h⟩
  | cons m ms ih =>
    rcases s.turn_policy w m with ⟨ht, hm⟩ | ⟨argument, time, e, rfl, h1, h2, h3, h4⟩
    · cases hr : ((s.withPolicy .report).turn w m).result with
      | error f =>
        have hr' : ((s.withPolicy .crash).turn w m).result = .error f := by rw [ht, hr]
        simp only [course_cons_error _ hr, course_cons_error _ hr']
        exact .inl ⟨by rw [ht], hm⟩
      | ok _ =>
        have hr' : ((s.withPolicy .crash).turn w m).result = .ok () := by rw [ht, hr]
        simp only [course_cons_ok _ hr', ht]
        rcases ih ((s.withPolicy .report).turn w m).worker with
          ⟨i1, i2⟩ | ⟨head, argument, tail, time, e, after, rfl, i1, i2, i3, i4, i5, i6⟩
        · rw [course_cons_ok _ hr]
          refine .inl ⟨by rw [i1], fun a ha => ?_⟩
          rcases List.mem_append.1 ha with ha | ha
          · exact hm a ha
          · exact i2 a ha
        · refine .inr ⟨m :: head, argument, tail, time, e, after, rfl, ?_, fun a ha => ?_, i3,
            congrArg (· + 1) i4, ?_, ?_⟩
          · rw [course_cons_ok _ hr, Course.behind, Course.behind, i1, List.append_assoc]
          · rcases List.mem_append.1 ha with ha | ha
            · exact hm a ha
            · exact i2 a ha
          · rw [List.cons_append, course_cons_ok _ hr, Course.behind, i5, Course.behind,
              List.append_assoc]
          · rw [course_cons_ok _ hr, Course.behind, i6, Course.behind, List.append_assoc]
    · have hc := (s.withPolicy .crash).course_cons_error h4 ms
      have hr := (s.withPolicy .report).course_cons_ok h2
      refine .inr ⟨[], argument, ms, time, e,
        ((s.withPolicy .report).course
          ((s.withPolicy .report).turn w (some (.request argument))).worker ms).said, rfl, ?_⟩
      rw [hc, hr, List.nil_append, hr, h3]
      refine ⟨rfl, isError_logOf s.options argument time, rfl, rfl, ?_, ?_⟩
      · simp only [Course.behind, h1, course_nil, List.append_nil]
      · simp only [Course.behind, h1, List.append_assoc, List.singleton_append]

end Setup

/-! ## Runs -/

/-- Where the first element of a kind stands is one place only. -/
theorem first_unique {α : Type u} {p : α → Prop} {as as' bs bs' : List α} {a a' : α}
    (h : as ++ a :: bs = as' ++ a' :: bs') (ha : p a) (ha' : p a') (has : ∀ x ∈ as, ¬p x)
    (has' : ∀ x ∈ as', ¬p x) : as = as' ∧ a = a' ∧ bs = bs' := by
  induction as generalizing as' with
  | nil =>
    cases as' with
    | nil =>
      cases h
      exact ⟨rfl, rfl, rfl⟩
    | cons x as' =>
      cases h
      exact absurd ha (has' a List.mem_cons_self)
  | cons x as ih =>
    cases as' with
    | nil =>
      cases h
      exact absurd ha' (has a' List.mem_cons_self)
    | cons x' as' =>
      obtain ⟨rfl, ht⟩ := List.cons.inj h
      obtain ⟨rfl, h1, h2⟩ := ih ht (fun y hy => has y (List.mem_cons_of_mem _ hy))
        (fun y hy => has' y (List.mem_cons_of_mem _ hy))
      exact ⟨rfl, h1, h2⟩

/-- A text among lines of messages that are no errors is the line of no error. -/
theorem not_error_of_mem {ms : List Outbound} (h : ∀ m ∈ ms, m.isError = false) {line : String}
    (hl : line ∈ ms.map Outbound.line) (message : String) :
    line ≠ (Outbound.error message).line := by
  rintro rfl
  obtain ⟨m, hm, he⟩ := List.mem_map.1 hl
  have := h m hm
  rw [Outbound.isError_of_line he] at this
  cases this

/-- **Stopping is reporting, cut at the first report.** If the run that reports failures writes no
error line, the run that stops at failures writes the same lines and ends the same way. Otherwise
it writes the lines in front of the first error line; it ends with the failure that this line
reports; and it leaves unread what follows the line of the request that failed. That request is the
one with which the reporting run comes to its first error line, and its own log line is written by
both runs. -/
theorem run_crash (s : Setup κ υ) (k : κ) (input : List UInt8) :
    let report := fun input => (s.withPolicy .report).run k input none .none
    let r := report input
    let c := (s.withPolicy .crash).run k input none .none
    ((∀ message, (Outbound.error message).line ∉ r.2.outlets.sink.written) →
      c.2.outlets.sink.written = r.2.outlets.sink.written ∧ c.1 = r.1 ∧
        c.2.unread = r.2.unread) ∧
    ∀ before message after,
      r.2.outlets.sink.written = before ++ (Outbound.error message).line :: after →
      (∀ message', (Outbound.error message').line ∉ before) →
      c.2.outlets.sink.written = before ∧
        (∃ e, c.1 = .error (.invocation e) ∧
          (Failure.invocation e).message = "function invocation failed: " ++ message) ∧
        ∃ head seg tail argument time, segments input = head ++ seg :: tail ∧
          ofSegment? seg = some (.request argument) ∧ c.2.unread = tail.flatten ∧
          before = (report head.flatten).2.outlets.sink.written ++
            (logOf s.options argument time).map Outbound.line ∧
          (report (head ++ [seg]).flatten).2.outlets.sink.written =
            before ++ [(Outbound.error message).line] := by
  intro report r c
  obtain ⟨r1, r2, -, -⟩ := (s.withPolicy .report).run_course k input
  obtain ⟨c1, c2, -, -⟩ := (s.withPolicy .crash).run_course k input
  have hr := (s.withPolicy .report).run_written k input
  have hc := (s.withPolicy .crash).run_written k input
  have hstarted : ∀ {ms : List Outbound}, (∀ m ∈ ms, m.isError = false) →
      ∀ m ∈ .started :: ms, m.isError = false := by
    intro ms h m hm
    rcases List.mem_cons.1 hm with rfl | hm
    · rfl
    · exact h m hm
  rcases s.course_policy (.fresh k) (inbox input) with
    ⟨h, hn⟩ | ⟨head, argument, tail, time, e, after, hms, h1, h2, h3, h4, h5, h6⟩
  · refine ⟨fun _ => ⟨by rw [hc, h, hr], by rw [c1, h, r1], by rw [c2, h, r2]⟩, ?_⟩
    intro before message after hw
    have hm : (Outbound.error message).line ∈ r.2.outlets.sink.written := by
      rw [hw]
      exact List.mem_append_right _ List.mem_cons_self
    rw [hr] at hm
    exact absurd rfl (not_error_of_mem (hstarted hn) hm message)
  · -- both lists of lines are cut at their first error line, so the cuts are one
    have hw : r.2.outlets.sink.written = c.2.outlets.sink.written ++
        (Outbound.error e.message).line :: after.map Outbound.line := by
      rw [hr, h6, hc]
      simp only [List.map_cons, List.map_append, List.cons_append]
    refine ⟨fun hn => absurd ?_ (hn e.message), fun before message after' hb hbn => ?_⟩
    · rw [hw]
      exact List.mem_append_right _ List.mem_cons_self
    · obtain ⟨rfl, hm, -⟩ := first_unique (p := fun t => ∃ m, t = (Outbound.error m).line)
        (hw.symm.trans hb) ⟨_, rfl⟩ ⟨_, rfl⟩
        (fun t ht ⟨m, he⟩ => not_error_of_mem (hstarted h2) (hc ▸ ht) m he)
        (fun t ht ⟨m, he⟩ => hbn m (he ▸ ht))
      obtain rfl := Outbound.error_of_line hm
      obtain ⟨hs, rest, hseg, rfl, hrest⟩ := List.map_eq_append_iff.1 hms
      obtain ⟨seg, ts, rfl, ha, rfl⟩ := List.map_eq_cons_iff.1 hrest
      -- a part of the segments is cut into itself, so its lines are a part of the lines
      have hi : inbox hs.flatten = hs.map ofSegment? := by
        rw [inbox, segments_of_sublist (hseg ▸ List.sublist_append_left hs (seg :: ts))]
      have hi' : inbox (hs ++ [seg]).flatten = hs.map ofSegment? ++ [some (.request argument)] := by
        have hl : (hs ++ [seg]).Sublist (segments input) := by
          rw [hseg, List.append_cons hs seg ts]
          exact List.sublist_append_left _ ts
        rw [inbox, segments_of_sublist hl, List.map_append, List.map_singleton, ha]
      refine ⟨rfl, ⟨e, by rw [c1, h3], rfl⟩, hs, seg, ts, argument, time, hseg, ha, ?_, ?_, ?_⟩
      · rw [c2, h4, hseg, List.append_cons, List.drop_left' (by simp)]
      · rw [hc, h1, (s.withPolicy .report).run_written, hi, ← List.cons_append, List.map_append]
      · rw [hc, (s.withPolicy .report).run_written, hi', h5, ← List.cons_append, List.map_append,
          List.map_singleton]

end ScriptWorker.Worker

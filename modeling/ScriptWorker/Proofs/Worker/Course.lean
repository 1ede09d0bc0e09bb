import ScriptWorker.Proofs.Channel.Running
import ScriptWorker.Proofs.Channel.Segments
import ScriptWorker.Proofs.Worker.Turn

/-!
# The course of a run

A `Course` is what handing lines to a worker comes to where no message is refused: turn after turn
until one ends badly. `run_course` says that a run over streams that do not fail is the course of
its lines: it writes the course's messages behind `started`, ends as the course does, and leaves
unread what the course has not come to.
-/

set_option autoImplicit false

namespace ScriptWorker.Worker

open Channel Message

universe u v

variable {κ : Type u} {υ : Type v}

/-! ## Lines as messages -/

/-- The message in a segment of the input, if there is one. -/
def ofSegment? (segment : List UInt8) : Option Inbound :=
  Inbound.ofLine? (lineOf segment)

/-- The lines of an input, each as the message that it holds, if it holds one. -/
def inbox (input : List UInt8) : List (Option Inbound) := (segments input).map ofSegment?

/-- The lines of a part of an input's segments. -/
theorem inbox_of_sublist {input : List UInt8} {segs : List (List UInt8)}
    (h : segs.Sublist (segments input)) : inbox segs.flatten = segs.map ofSegment? := by
  rw [inbox, segments_of_sublist h]

/-! ## Courses -/

/-- What handing lines to a worker comes to. -/
structure Course (κ : Type u) (υ : Type v) where
  said : List Outbound
  result : Except Failure Unit
  worker : Worker κ υ
  /-- How many of the lines were handed over. -/
  read : Nat

namespace Course

/-- The course behind a turn that ended well. -/
def behind (t : Turn κ υ) (c : Course κ υ) : Course κ υ :=
  ⟨t.messages ++ c.said, c.result, c.worker, c.read + 1⟩

/-- A course behind one that ended well. -/
def followedBy (b c : Course κ υ) : Course κ υ :=
  ⟨b.said ++ c.said, c.result, c.worker, b.read + c.read⟩

/-- The course without the number of its lines. -/
def outcome (c : Course κ υ) : List Outbound × Except Failure Unit × Worker κ υ :=
  (c.said, c.result, c.worker)

end Course

namespace Setup

variable (s : Setup κ υ)

/-- The course of lines, from a state of the worker on. -/
def course (w : Worker κ υ) : List (Option Inbound) → Course κ υ
  | [] => ⟨[], .ok (), w, 0⟩
  | m :: ms =>
    match (s.turn w m).result with
    | .ok () => (course (s.turn w m).worker ms).behind (s.turn w m)
    | .error f => ⟨(s.turn w m).messages, .error f, (s.turn w m).worker, 1⟩

@[simp] theorem course_nil (w : Worker κ υ) : s.course w [] = ⟨[], .ok (), w, 0⟩ := rfl

theorem course_cons_ok {w : Worker κ υ} {m : Option Inbound} (h : (s.turn w m).result = .ok ())
    (ms : List (Option Inbound)) :
    s.course w (m :: ms) = (s.course (s.turn w m).worker ms).behind (s.turn w m) := by
  rw [course, h]

theorem course_cons_error {w : Worker κ υ} {m : Option Inbound} {f : Failure}
    (h : (s.turn w m).result = .error f) (ms : List (Option Inbound)) :
    s.course w (m :: ms) = ⟨(s.turn w m).messages, .error f, (s.turn w m).worker, 1⟩ := by
  rw [course, h]

/-- A line that is passed over counts as read and does nothing else. -/
theorem course_cons_silent {w : Worker κ υ} {m : Option Inbound} (h : s.turn w m = .silent w)
    (ms : List (Option Inbound)) :
    s.course w (m :: ms) = { s.course w ms with read := (s.course w ms).read + 1 } := by
  rw [course_cons_ok s (by rw [h]; rfl), h]
  rfl

/-- A course that ends well goes on with the lines behind it. -/
theorem course_append {w : Worker κ υ} {ms : List (Option Inbound)}
    (h : (s.course w ms).result = .ok ()) (ns : List (Option Inbound)) :
    s.course w (ms ++ ns) = (s.course w ms).followedBy (s.course (s.course w ms).worker ns) := by
  induction ms generalizing w with
  | nil => simp [Course.followedBy]
  | cons m ms ih =>
    cases ht : (s.turn w m).result with
    | error f => rw [course_cons_error s ht] at h; cases h
    | ok _ =>
      rw [course_cons_ok s ht] at h
      rw [List.cons_append, course_cons_ok s ht, course_cons_ok s ht, ih h]
      simp only [Course.behind, Course.followedBy, List.append_assoc]
      congr 1
      omega

/-- The course of one line more. -/
theorem course_concat {w : Worker κ υ} {ms : List (Option Inbound)}
    (h : (s.course w ms).result = .ok ()) (m : Option Inbound) :
    let t := s.turn (s.course w ms).worker m
    (s.course w (ms ++ [m])).said = (s.course w ms).said ++ t.messages ∧
      (s.course w (ms ++ [m])).result = t.result ∧ (s.course w (ms ++ [m])).worker = t.worker := by
  intro t
  rw [s.course_append h, Course.followedBy]
  cases hr : (s.turn (s.course w ms).worker m).result with
  | error f =>
    rw [s.course_cons_error hr]
    exact ⟨rfl, rfl, rfl⟩
  | ok _ =>
    rw [s.course_cons_ok hr, course_nil, Course.behind, List.append_nil]
    exact ⟨rfl, rfl, rfl⟩

/-! ## Runs follow courses -/

/-- Handling the line of a segment writes all messages of its turn, if the stream takes them. -/
theorem handleLine_takes (w : Worker κ υ) (seg : List UInt8) {o : Outlets}
    (ho : o.sink.Takes (s.turn w (ofSegment? seg)).messages.length) :
    Handled.seen (s.handleLine w (lineOf seg) o) =
      ((s.turn w (ofSegment? seg)).result, (s.turn w (ofSegment? seg)).worker,
        o.sink.takeAll (s.turn w (ofSegment? seg)).messages) := by
  rw [handleLine_perform]
  exact Turn.perform_takes _ ho

theorem runFrom_ok {w w' : Worker κ υ} {seg : List UInt8} {o o' : Outlets}
    (h : s.handleLine w (lineOf seg) o = (.ok (), w', o')) (segs : List (List UInt8)) :
    runFrom s.handler none (some w) o (seg :: segs) = runFrom s.handler none (some w') o' segs := by
  rw [runFrom_cons s.handler (.inl rfl)]
  simp only [handler, h]

theorem runFrom_error {w w' : Worker κ υ} {seg : List UInt8} {o o' : Outlets} {f : Failure}
    (h : s.handleLine w (lineOf seg) o = (.error f, w', o')) (segs : List (List UInt8)) :
    runFrom s.handler none (some w) o (seg :: segs) =
      (.error f, ⟨segs.flatten, none, o', some w'⟩) := by
  rw [runFrom_cons s.handler (.inl rfl)]
  simp only [handler, h]

/-- Delivering segments follows the course of their lines, if the stream takes its messages. -/
theorem runFrom_course (w : Worker κ υ) {o : Outlets} (segs : List (List UInt8))
    (ho : o.sink.Takes (s.course w (segs.map ofSegment?)).said.length) :
    let c := s.course w (segs.map ofSegment?)
    let r := runFrom s.handler none (some w) o segs
    r.1 = c.result.map (fun _ => .endOfInput) ∧ r.2.unread = (segs.drop c.read).flatten ∧
      r.2.outlets.sink = o.sink.takeAll c.said ∧ r.2.handler = some c.worker := by
  induction segs generalizing w o with
  | nil => exact ⟨rfl, rfl, rfl, rfl⟩
  | cons seg segs ih =>
    have ht : o.sink.Takes (s.turn w (ofSegment? seg)).messages.length := by
      refine ho.mono ?_
      rw [List.map_cons, course]
      split
      · simp only [Course.behind, List.length_append, Nat.le_add_right]
      · simp only [Nat.le_refl]
    have hp := s.handleLine_takes w seg ht
    rcases hl : s.handleLine w (lineOf seg) o with ⟨r, w', o'⟩
    simp only [hl, Handled.seen, Prod.mk.injEq] at hp
    obtain ⟨hr, rfl, ho'⟩ := hp
    cases r with
    | error f =>
      simp only [List.map_cons, course_cons_error s hr.symm, runFrom_error s hl]
      exact ⟨rfl, rfl, ho', trivial⟩
    | ok _ =>
      rw [List.map_cons, course_cons_ok s hr.symm] at ho
      simp only [Course.behind, List.length_append] at ho
      obtain ⟨h1, h2, h3, h4⟩ := ih (s.turn w (ofSegment? seg)).worker
        (o := o') (by rw [ho']; exact ho.takeAll)
      simp only [List.map_cons, course_cons_ok s hr.symm, runFrom_ok s hl, Course.behind,
        List.drop_succ_cons, Sink.takeAll_append, ← ho']
      exact ⟨h1, h2, h3, h4⟩

/-- The outlets of a run that has announced itself. -/
def announced (faults : Faults) : Outlets := ⟨(Sink.fresh faults).take .started, []⟩

/-- A run whose announcement is taken delivers its segments to a fresh worker. -/
theorem run_announced (k : κ) (input : List UInt8) {faults : Faults} {n : Nat}
    (h : (Sink.fresh faults).Takes (n + 1)) :
    let r := runFrom s.handler none (some (.fresh k)) (announced faults) (segments input)
    let c := s.run k input none faults
    c.1 = r.1.map (fun _ => ()) ∧ c.2.unread = r.2.unread ∧
      c.2.outlets.sink = r.2.outlets.sink ∧ c.2.handler = r.2.handler := by
  have he : (Outlets.fresh faults).emit .started = (.ok (), announced faults) := by
    rw [Outlets.emit_eq, Outlets.fresh_sink, h.emit]
    rfl
  simp only [Setup.run, open_, Channel.emit, he, Channel.subscribe, Channel.run]
  rcases runFrom s.handler none (some (fresh k)) (announced faults) (segments input) with ⟨_ | _, _⟩
  · exact ⟨rfl, rfl, rfl, rfl⟩
  · exact ⟨rfl, rfl, rfl, rfl⟩

/-- **A run follows the course of its lines** as far as the stream takes its messages. -/
theorem run_course_of_takes (k : κ) (input : List UInt8) {faults : Faults}
    (h : (Sink.fresh faults).Takes ((s.course (.fresh k) (inbox input)).said.length + 1)) :
    let c := s.course (.fresh k) (inbox input)
    let r := s.run k input none faults
    r.1 = c.result ∧ r.2.unread = ((segments input).drop c.read).flatten ∧
      r.2.outlets.sink = (Sink.fresh faults).takeAll (.started :: c.said) ∧
      r.2.handler = some c.worker := by
  obtain ⟨h1, h2, h3, h4⟩ := s.run_announced k input h
  obtain ⟨c1, c2, c3, c4⟩ := s.runFrom_course (.fresh k) (o := announced faults) (segments input)
    (h.take .started)
  refine ⟨?_, h2.trans c2, h3.trans c3, h4.trans c4⟩
  rw [h1, c1]
  show _ = (s.course (.fresh k) ((segments input).map ofSegment?)).result
  cases (s.course (.fresh k) ((segments input).map ofSegment?)).result <;> rfl

/-- **A run follows the course of its lines.** -/
theorem run_course (k : κ) (input : List UInt8) :
    let c := s.course (.fresh k) (inbox input)
    let r := s.run k input none .none
    r.1 = c.result ∧ r.2.unread = ((segments input).drop c.read).flatten ∧
      r.2.outlets.sink = (Sink.fresh .none).takeAll (.started :: c.said) ∧
      r.2.handler = some c.worker :=
  s.run_course_of_takes k input (Sink.takes_none _)

/-- The texts that a run writes. -/
theorem run_written (k : κ) (input : List UInt8) :
    (s.run k input none .none).2.outlets.sink.written =
      (.started :: (s.course (.fresh k) (inbox input)).said).map Outbound.line := by
  rw [(s.run_course k input).2.2.1, Sink.written_takeAll]
  rfl

end Setup

end ScriptWorker.Worker

import ScriptWorker.Proofs.Channel.Segments
import ScriptWorker.Proofs.Message.Lines
import ScriptWorker.Proofs.Worker.Calls

/-!
# Runs whose output is refused

A run stops at the first message that its stream refuses, in the middle of the turn that writes it
(`runFrom_refused`). So it is a run without faults that has been cut: `run_refused` says where the
output is cut, how much of the input has been read by then, and what has been called.
-/

set_option autoImplicit false

namespace ScriptWorker.Worker

open Channel Loading Message

universe u v

variable {κ : Type u} {υ : Type v}

/-! ## One line -/

/-- The turn writes its messages, none of them a log line, when all else has been done. -/
def Turn.Settled (t : Turn κ υ) : Prop :=
  ∀ p ∈ t.said, p.1.isLog = false ∧ t.result = .ok () ∧ p.2 = t.worker

theorem Turn.settled_silent (w : Worker κ υ) : (Turn.silent w).Settled := fun _ hp => nomatch hp

theorem Turn.settled_saying (w : Worker κ υ) {m : Outbound} (hm : m.isLog = false) :
    (Turn.saying w m).Settled := by
  intro p hp
  rw [List.mem_singleton.1 hp]
  exact ⟨hm, rfl, rfl⟩

namespace Setup

variable (s : Setup κ υ)

theorem settled_loadTurn (w : Worker κ υ) (source : Json.Value) :
    (s.loadTurn w source).Settled := by
  unfold loadTurn
  split
  · exact Turn.settled_saying _ rfl
  · exact Turn.settled_saying _ rfl

theorem settled_answerTurn (w : Worker κ υ) (unit : υ) (a : Json.Value) :
    (s.answerTurn w unit a).Settled := by
  obtain ⟨value, -, ht⟩ | ⟨e, -, -, ht⟩ | ⟨e, -, -, ht⟩ := s.answerTurn_cases w unit a
  · exact ht ▸ Turn.settled_saying _ rfl
  · exact ht ▸ fun _ hp => nomatch hp
  · exact ht ▸ Turn.settled_saying _ rfl

/-- A log line is written in front of the call, and every other message when all else of its turn
has been done. -/
theorem worker_of_said {w w' : Worker κ υ} {m : Option Inbound} {a : Outbound}
    (h : (a, w') ∈ (s.turn w m).said) :
    if a.isLog then w'.phase = w.phase
    else (s.turn w m).result = .ok () ∧ w' = (s.turn w m).worker := by
  have settled : ∀ {t : Turn κ υ}, t.Settled → (a, w') ∈ t.said →
      if a.isLog then w'.phase = w.phase else t.result = .ok () ∧ w' = t.worker := by
    intro t ht hm
    obtain ⟨hl, hr⟩ := ht _ hm
    rw [if_neg (Bool.eq_false_iff.1 hl)]
    exact hr
  obtain ⟨loader, n, phase⟩ := w
  rcases m with _ | (source | argument | kind)
  · exact settled (Turn.settled_silent _) h
  · cases phase with
    | serving unit => exact settled (Turn.settled_silent _) h
    | loading => exact settled (s.settled_loadTurn _ source) h
  · cases phase with
    | loading => exact settled (Turn.settled_silent _) h
    | serving unit =>
      simp only [turn] at h ⊢
      obtain ht | ⟨time, ht⟩ | ⟨cause, ht⟩ :=
        s.serveTurn_cases ⟨loader, n, .serving unit⟩ unit argument
      · rw [ht] at h ⊢
        exact settled (s.settled_answerTurn _ unit argument) h
      · rw [ht] at h ⊢
        rcases List.mem_cons.1 h with hm | hm
        · cases hm
          exact rfl
        · have := settled (s.settled_answerTurn _ unit argument) hm
          exact this
      · rw [ht] at h
        cases h
  · exact settled (Turn.settled_silent _) h

/-! ## All lines -/

/-- **A run stops at the first message that is refused.** The lines in front of the one whose turn
writes that message have been handled, and the worker is in the state in which it is written. -/
theorem runFrom_refused {w : Worker κ υ} {o : Outlets} {segs : List (List UInt8)}
    {front back : List Outbound} {a : Outbound} {e : Channel.Error} {sink : Sink}
    (hc : (s.course w (segs.map ofSegment?)).said = front ++ a :: back)
    (ho : o.sink.Takes front.length) (he : (o.sink.takeAll front).emit a = (.error e, sink)) :
    let r := runFrom s.handler none (some w) o segs
    ∃ head seg tail w' earlier, segs = head ++ seg :: tail ∧
      (s.course w (head.map ofSegment?)).result = .ok () ∧
      front = (s.course w (head.map ofSegment?)).said ++ earlier ∧
      (a, w') ∈ (s.turn (s.course w (head.map ofSegment?)).worker (ofSegment? seg)).said ∧
      (∃ later, (s.turn (s.course w (head.map ofSegment?)).worker (ofSegment? seg)).messages =
        earlier ++ a :: later) ∧
      r.1 = .error (.channel e) ∧ r.2.unread = tail.flatten ∧ r.2.outlets.sink = sink ∧
      r.2.handler = some w' := by
  induction segs generalizing w o front with
  | nil => simp at hc
  | cons seg segs ih =>
    intro r
    -- either this turn writes the message, or the turn ends well and a later one does
    by_cases hm : ∃ later, (s.turn w (ofSegment? seg)).messages = front ++ a :: later
    · obtain ⟨later, hm⟩ := hm
      obtain ⟨said, rest, hs, rfl, hrest⟩ := List.map_eq_append_iff.1 hm
      obtain ⟨⟨b, w'⟩, rest, rfl, rfl, rfl⟩ := List.map_eq_cons_iff.1 hrest
      have hp := s.handleLine_perform w (lineOf seg) o
      rw [Turn.perform, show (s.turn w (Inbound.ofLine? (lineOf seg))).said = _ from hs,
        Turn.performFrom_refused _ _ (by rwa [List.length_map] at ho) he] at hp
      rcases hl : s.handleLine w (lineOf seg) o with ⟨f, w'', o'⟩
      simp only [hl, Handled.seen, Prod.mk.injEq] at hp
      obtain ⟨rfl, rfl, rfl⟩ := hp
      have hr : r = _ := s.runFrom_error hl segs
      refine ⟨[], seg, segs, w'', said.map Prod.fst, rfl, rfl, rfl, ?_, ⟨_, hm⟩, ?_⟩
      · exact hs ▸ List.mem_append_right _ List.mem_cons_self
      · rw [hr]
        exact ⟨rfl, rfl, rfl, rfl⟩
    · have hok : (s.turn w (ofSegment? seg)).result = .ok () := by
        cases hr : (s.turn w (ofSegment? seg)).result with
        | ok _ => rfl
        | error f =>
          rw [List.map_cons, s.course_cons_error hr] at hc
          dsimp only at hc
          exact absurd ⟨back, hc⟩ hm
      rw [List.map_cons, s.course_cons_ok hok] at hc
      simp only [Course.behind] at hc
      obtain ⟨front', hfront, hc'⟩ : ∃ front', front = (s.turn w (ofSegment? seg)).messages ++ front' ∧
          (s.course (s.turn w (ofSegment? seg)).worker (segs.map ofSegment?)).said =
            front' ++ a :: back := by
        rcases append_eq_append_cons hc with ⟨rest, h, -⟩ | ⟨front', h1, h2⟩
        · exact absurd ⟨rest, h⟩ hm
        · exact ⟨front', h1, h2⟩
      rw [hfront] at ho he ⊢
      rw [List.length_append] at ho
      have hp := s.handleLine_takes w seg (ho.mono (Nat.le_add_right _ _))
      rcases hl : s.handleLine w (lineOf seg) o with ⟨f, w'', o'⟩
      simp only [hl, Handled.seen, Prod.mk.injEq, hok] at hp
      obtain ⟨hf, hw, ho'⟩ := hp
      rw [hf, hw] at hl
      rw [Sink.takeAll_append, ← ho'] at he
      obtain ⟨head, seg', tail, w', earlier, rfl, h2, rfl, h4, h5, h6⟩ :=
        ih hc' (by rw [ho']; exact ho.takeAll) he
      have hr : r = _ := s.runFrom_ok hl _
      have hcourse := s.course_cons_ok hok (head.map ofSegment?)
      refine ⟨seg :: head, seg', tail, w', earlier, rfl, ?_⟩
      rw [List.map_cons, hcourse, hr]
      simp only [Course.behind, List.append_assoc]
      exact ⟨h2, trivial, h4, h5, h6⟩

/-! ## Runs -/

/-- A run whose announcement is refused reads nothing. -/
theorem run_refused_announcement (k : κ) (input : List UInt8) {faults : Faults} {e : Channel.Error}
    {sink : Sink} (he : (Sink.fresh faults).emit .started = (.error e, sink)) :
    s.run k input none faults = (.error (.channel e), ⟨input, none, ⟨sink, []⟩, none⟩) := by
  have ho : (Outlets.fresh faults).emit .started = (.error e, ⟨sink, []⟩) := by
    rw [Outlets.emit_eq, Outlets.fresh_sink, he]
    rfl
  simp only [Setup.run, open_, Channel.emit, ho]

/-- A run stops at the first message behind the announcement that is refused. -/
theorem run_refused_message (k : κ) (input : List UInt8) {faults : Faults}
    {front back : List Outbound} {a : Outbound} {n kept : Nat} {cause : String}
    (hc : (s.course (.fresh k) (inbox input)).said = front ++ a :: back) (hn : front.length + 1 = n)
    (ht : (Sink.fresh faults).Takes n)
    (hf : faults.write (n + 1) = some cause ∧ kept = n ∨
      faults.write (n + 1) = none ∧ faults.flush (n + 1) = some cause ∧ kept = n + 1) :
    let r := s.run k input none faults
    ∃ head seg tail w' earlier, segments input = head ++ seg :: tail ∧
      (s.course (.fresh k) (head.map ofSegment?)).result = .ok () ∧
      front = (s.course (.fresh k) (head.map ofSegment?)).said ++ earlier ∧
      (a, w') ∈ (s.turn (s.course (.fresh k) (head.map ofSegment?)).worker (ofSegment? seg)).said ∧
      (∃ later, (s.turn (s.course (.fresh k) (head.map ofSegment?)).worker
        (ofSegment? seg)).messages = earlier ++ a :: later) ∧
      r.1 = .error (.channel (.write cause)) ∧ r.2.unread = tail.flatten ∧
      r.2.outlets.sink.written =
        (Outbound.started :: front).map Outbound.line ++ [a.line].take (kept - n) ∧
      r.2.handler = some w' := by
  intro r
  subst hn
  obtain ⟨a1, a2, a3, a4⟩ := s.run_announced k input ht
  have hn : (Sink.fresh faults).writes + (Outbound.started :: front).length = front.length + 1 :=
    Nat.zero_add _
  obtain ⟨sink, he, hw⟩ := Sink.emit_refused
    ((Sink.fresh faults).takeAll (.started :: front))
    ((Sink.takeAll_writes _ _).trans hn) ((Sink.takeAll_flushes _ _).trans hn)
    (by rwa [Sink.takeAll_faults]) a
  obtain ⟨head, seg, tail, w', earlier, h1, h2, h3, h4, h5, h6, h7, h8, h9⟩ :=
    s.runFrom_refused (o := announced faults) hc (ht.take .started) he
  refine ⟨head, seg, tail, w', earlier, h1, h2, h3, h4, h5, ?_, a2.trans h7, ?_, a4.trans h9⟩
  · rw [a1, h6]
    rfl
  · rw [a3, h8, hw, Sink.written_takeAll]
    rfl

/-- A run that writes no more lines than its stream takes is the same without faults. -/
theorem run_of_takes (k : κ) (input : List UInt8) {faults : Faults} {n : Nat}
    (ht : (Sink.fresh faults).Takes n) :
    let free := s.run k input none .none
    let r := s.run k input none faults
    free.2.outlets.sink.written.length ≤ n →
      r.1 = free.1 ∧ r.2.outlets.sink.written = free.2.outlets.sink.written ∧
        r.2.unread = free.2.unread ∧ r.2.handler = free.2.handler := by
  intro free r hn
  rw [show free.2.outlets.sink.written = _ from s.run_written k input] at hn ⊢
  rw [List.length_map, List.length_cons] at hn
  obtain ⟨r1, r2, r3, r4⟩ := s.run_course_of_takes k input (ht.mono hn)
  obtain ⟨f1, f2, -, f4⟩ := s.run_course k input
  refine ⟨r1.trans f1.symm, ?_, r2.trans f2.symm, r4.trans f4.symm⟩
  exact (congrArg Sink.written r3).trans (Sink.written_takeAll _ _)

/-- A run without faults through the course of the worker with records. -/
theorem run_recorded_course (k : κ) (input : List UInt8) :
    let free := s.run k input none .none
    let c := s.recorded.course (.fresh (k, [])) (inbox input)
    free.1 = c.result ∧
      free.2.outlets.sink.written = (.started :: c.said).map Outbound.line := by
  intro free c
  have hf : free = _ := s.forget_run k input none .none
  refine ⟨by rw [hf, (s.recorded.run_course (k, []) input).1], ?_⟩
  rw [← s.recorded.run_written, hf]
  rfl

/-- The calls when a message is written: the request at hand is among them unless the message is its
log line. -/
theorem calls_of_said {k : κ} {ms : List (Option Inbound)} {m : Option Inbound} {a : Outbound}
    {w : Worker (κ × List String) (υ × List Json.Value)}
    (hok : (s.recorded.course (.fresh (k, [])) ms).result = .ok ())
    (ha : (a, w) ∈ (s.recorded.turn (s.recorded.course (.fresh (k, [])) ms).worker m).said) :
    w.calls = s.strategy.honoured k (if a.isLog then ms else ms ++ [m]) := by
  have hw := s.recorded.worker_of_said ha
  cases hl : a.isLog with
  | true =>
    rw [hl, if_pos rfl] at hw
    rw [if_pos rfl, ← s.calls_course hok]
    simp only [calls, hw]
  | false =>
    rw [hl, if_neg Bool.false_ne_true] at hw
    obtain ⟨hok', hw⟩ := hw
    obtain ⟨-, c2, c3⟩ := s.recorded.course_concat hok m
    rw [if_neg Bool.false_ne_true, ← s.calls_course (c2.trans hok'), c3, hw]

end Setup

/-- A list split at one of its elements. -/
theorem split_at {α : Type u} {l : List α} {n : Nat} {a : α} (h : l[n]? = some a) :
    ∃ front back, l = front ++ a :: back ∧ front.length = n := by
  obtain ⟨hn, rfl⟩ := List.getElem?_eq_some_iff.1 h
  refine ⟨l.take n, l.drop (n + 1), ?_, List.length_take_of_le (Nat.le_of_lt hn)⟩
  rw [List.append_cons, List.take_append_getElem hn, List.take_append_drop]

/-- A list cut in front of one of its elements or behind it. -/
theorem take_around {α : Type u} {as bs : List α} {a : α} {n kept : Nat} (hn : as.length = n)
    (h : kept = n ∨ kept = n + 1) : (as ++ a :: bs).take kept = as ++ [a].take (kept - n) := by
  subst hn
  rcases h with rfl | rfl
  · rw [List.take_left, Nat.sub_self, List.take_zero, List.append_nil]
  · rw [List.take_length_add_append, Nat.add_sub_cancel_left]
    rfl

/-- **Refusals cut the output and never change it.** Let the stream take `n` messages. If a run
without faults writes no more lines than that, the run is the same. Otherwise let the next message
be refused, when it is written or when it is flushed. Then the run ends with that failure of the
stream, and it has written the lines in front of the message, and the line of the message as well if
only the flush failed. Nothing has been read if the message is the announcement; else what follows
the line that the message answers has not been read, that is the line at which the run without
faults comes to it. The unit has been called once for each request honoured up to there, that line
included unless the message is its log line. -/
theorem run_refused (s : Setup κ υ) (k : κ) (input : List UInt8) (faults : Faults) (n : Nat) :
    let free := fun input => s.run k input none .none
    let lines := fun input => (free input).2.outlets.sink.written
    let recorded := s.recorded.run (k, []) input none faults
    let r := s.run k input none faults
    r = (recorded.1, recorded.2.map forget) ∧
    ((Sink.fresh faults).Takes n →
      ((lines input).length ≤ n →
        r.1 = (free input).1 ∧ r.2.outlets.sink.written = lines input ∧
          r.2.unread = (free input).2.unread ∧ r.2.handler = (free input).2.handler) ∧
      ∀ line cause kept, (lines input)[n]? = some line →
        faults.write (n + 1) = some cause ∧ kept = n ∨
          faults.write (n + 1) = none ∧ faults.flush (n + 1) = some cause ∧ kept = n + 1 →
        r.1 = .error (.channel (.write cause)) ∧
        r.2.outlets.sink.written = (lines input).take kept ∧
        (n = 0 → r.2.unread = input ∧ recorded.2.handler = none) ∧
        (0 < n → ∃ head seg tail w, segments input = head ++ seg :: tail ∧
          r.2.unread = tail.flatten ∧
          (free head.flatten).1 = .ok () ∧ (lines head.flatten).length ≤ n ∧
          n < (lines (head ++ [seg]).flatten).length ∧
          recorded.2.handler = some w ∧
          w.calls = s.strategy.honoured k
            ((if Outbound.isLogLine line then head else head ++ [seg]).map ofSegment?))) := by
  intro free lines recorded r
  have hr : r = (recorded.1, recorded.2.map forget) := s.forget_run k input none faults
  have hfree : ∀ input,
      (free input).1 = (s.recorded.course (.fresh (k, [])) (inbox input)).result ∧
        lines input = (.started ::
          (s.recorded.course (.fresh (k, [])) (inbox input)).said).map Outbound.line :=
    s.run_recorded_course k
  refine ⟨hr, fun ht => ⟨s.run_of_takes k input ht, fun line cause kept hline hfault => ?_⟩⟩
  rw [(hfree input).2] at hline ⊢
  cases n with
  | zero =>
    obtain ⟨sink, he, hw⟩ := Sink.emit_refused (.fresh faults) rfl rfl hfault .started
    have hrec : recorded = _ := s.recorded.run_refused_announcement (k, []) input he
    rw [hr, hrec]
    refine ⟨rfl, ?_, fun _ => ⟨rfl, rfl⟩, fun h => absurd h (Nat.lt_irrefl 0)⟩
    rcases hfault with ⟨-, rfl⟩ | ⟨-, -, rfl⟩
    · exact hw
    · exact hw
  | succ n =>
    rw [List.map_cons, List.getElem?_cons_succ, List.getElem?_map] at hline
    obtain ⟨a, ha, rfl⟩ := Option.map_eq_some_iff.1 hline
    obtain ⟨front, back, hc, rfl⟩ := split_at ha
    obtain ⟨head, seg, tail, w', earlier, h1, h2, h3, h4, ⟨later, h5⟩, h6, h7, h8, h9⟩ :=
      s.recorded.run_refused_message (k, []) input hc rfl ht hfault
    have hin : inbox head.flatten = head.map ofSegment? :=
      inbox_of_sublist (h1 ▸ List.sublist_append_left head (seg :: tail))
    have hin' : inbox (head ++ [seg]).flatten = head.map ofSegment? ++ [ofSegment? seg] := by
      have hs : (head ++ [seg]).Sublist (segments input) := by
        rw [h1, List.append_cons head seg tail]
        exact List.sublist_append_left _ tail
      rw [inbox_of_sublist hs, List.map_append, List.map_singleton]
    obtain ⟨c1, -⟩ := s.recorded.course_concat h2 (ofSegment? seg)
    have hfront := congrArg List.length h3
    rw [List.length_append] at hfront
    rw [hr]
    refine ⟨h6, ?_, fun h => absurd h (Nat.succ_ne_zero _),
      fun _ => ⟨head, seg, tail, w', h1, h7, ?_, ?_, ?_, h9, ?_⟩⟩
    · have hk : kept = front.length + 1 ∨ kept = front.length + 1 + 1 :=
        hfault.imp (·.2) (·.2.2)
      refine h8.trans ?_
      rw [hc, ← List.cons_append, List.map_append, List.map_cons, List.map_cons,
        take_around (by rw [List.length_cons, List.length_map]) hk]
    · rw [(hfree _).1, hin, h2]
    · rw [(hfree _).2, hin, List.length_map, List.length_cons]
      omega
    · rw [(hfree _).2, hin', c1, h5, List.length_map, List.length_cons, List.length_append,
        List.length_append, List.length_cons]
      omega
    · rw [Outbound.isLogLine_line, s.calls_of_said h2 h4]
      simp only [apply_ite (List.map ofSegment?), List.map_append, List.map_singleton]

end ScriptWorker.Worker

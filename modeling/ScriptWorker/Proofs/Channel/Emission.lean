import ScriptWorker.Channel.Sink

/-!
# What an output stream takes

A stream *takes* some messages if it refuses no call that writes or flushes one of them; a stream
without faults takes any number (`Sink.takes_none`). Emitting a message that the stream takes
succeeds and leaves the stream with it (`Sink.Takes.emit`), so in the end the stream holds the lines
of the messages in order (`Sink.written_takeAll`), each flushed before the next is written. A
message that is refused may still be written, if it is the flush that fails
(`Sink.emit_write_fault`, `Sink.emit_flush_fault`).
-/

set_option autoImplicit false

namespace ScriptWorker.Channel

open Message

namespace Sink

/-- The stream after one more message that it did not refuse. -/
def take (sink : Sink) (m : Outbound) : Sink :=
  { sink with
    writes := sink.writes + 1
    flushes := sink.flushes + 1
    calls := .flushed :: .wrote m.line :: sink.calls }

/-- The stream after messages that it did not refuse. -/
def takeAll (sink : Sink) (ms : List Outbound) : Sink := ms.foldl take sink

/-- The stream takes the next `n` messages. -/
def Takes (sink : Sink) (n : Nat) : Prop :=
  ∀ i < n, sink.faults.write (sink.writes + i + 1) = none ∧
    sink.faults.flush (sink.flushes + i + 1) = none

theorem takes_none (n : Nat) : (fresh .none).Takes n := fun _ _ => ⟨rfl, rfl⟩

theorem Takes.mono {sink : Sink} {n m : Nat} (h : sink.Takes n) (hm : m ≤ n) : sink.Takes m :=
  fun i hi => h i (Nat.lt_of_lt_of_le hi hm)

theorem Takes.emit {sink : Sink} {n : Nat} (h : sink.Takes (n + 1)) (m : Outbound) :
    sink.emit m = (.ok (), sink.take m) := by
  obtain ⟨hw, hf⟩ := h 0 (Nat.succ_pos n)
  rw [Nat.add_zero] at hw hf
  simp only [Sink.emit, Sink.write, Sink.flush, hw, hf, take]

theorem Takes.take {sink : Sink} {n : Nat} (h : sink.Takes (n + 1)) (m : Outbound) :
    (sink.take m).Takes n := by
  intro i hi
  have := h (i + 1) (Nat.succ_lt_succ hi)
  rwa [← Nat.add_assoc, ← Nat.add_assoc, Nat.add_right_comm sink.writes,
    Nat.add_right_comm sink.flushes] at this

@[simp] theorem takeAll_nil (sink : Sink) : sink.takeAll [] = sink := rfl

@[simp] theorem takeAll_cons (sink : Sink) (m : Outbound) (ms : List Outbound) :
    sink.takeAll (m :: ms) = (sink.take m).takeAll ms := rfl

theorem takeAll_append (sink : Sink) (ms ns : List Outbound) :
    sink.takeAll (ms ++ ns) = (sink.takeAll ms).takeAll ns :=
  List.foldl_append

theorem Takes.takeAll {sink : Sink} {n : Nat} {ms : List Outbound}
    (h : sink.Takes (ms.length + n)) : (sink.takeAll ms).Takes n := by
  induction ms generalizing sink with
  | nil => rwa [List.length_nil, Nat.zero_add] at h
  | cons m ms ih =>
    rw [List.length_cons, Nat.add_right_comm] at h
    exact ih (h.take m)

@[simp] theorem takeAll_faults (sink : Sink) (ms : List Outbound) :
    (sink.takeAll ms).faults = sink.faults := by
  induction ms generalizing sink with
  | nil => rfl
  | cons m ms ih => exact ih (sink.take m)

@[simp] theorem takeAll_writes (sink : Sink) (ms : List Outbound) :
    (sink.takeAll ms).writes = sink.writes + ms.length := by
  induction ms generalizing sink with
  | nil => rfl
  | cons m ms ih =>
    rw [takeAll_cons, ih, List.length_cons]
    exact Nat.succ_add_eq_add_succ _ _

@[simp] theorem takeAll_flushes (sink : Sink) (ms : List Outbound) :
    (sink.takeAll ms).flushes = sink.flushes + ms.length := by
  induction ms generalizing sink with
  | nil => rfl
  | cons m ms ih =>
    rw [takeAll_cons, ih, List.length_cons]
    exact Nat.succ_add_eq_add_succ _ _

theorem written_take (sink : Sink) (m : Outbound) :
    (sink.take m).written = sink.written ++ [m.line] := by
  simp [written, take]

/-- What a stream holds after messages that it did not refuse. -/
theorem written_takeAll (sink : Sink) (ms : List Outbound) :
    (sink.takeAll ms).written = sink.written ++ ms.map Outbound.line := by
  induction ms generalizing sink with
  | nil => simp
  | cons m ms ih => rw [takeAll_cons, ih, written_take]; simp

/-! ## Refusals -/

/-- A message whose write fails leaves nothing. -/
theorem emit_write_fault {sink : Sink} {cause : String}
    (h : sink.faults.write (sink.writes + 1) = some cause) (m : Outbound) :
    (sink.emit m).1 = .error (.write cause) ∧ (sink.emit m).2.written = sink.written := by
  simp only [Sink.emit, Sink.write, h, true_and]
  rfl

/-- A message whose flush fails has been written. -/
theorem emit_flush_fault {sink : Sink} {cause : String}
    (hw : sink.faults.write (sink.writes + 1) = none)
    (hf : sink.faults.flush (sink.flushes + 1) = some cause) (m : Outbound) :
    (sink.emit m).1 = .error (.write cause) ∧
      (sink.emit m).2.written = sink.written ++ [m.line] := by
  simp only [Sink.emit, Sink.write, Sink.flush, hw, hf, true_and]
  simp [written]

/-- A message that is refused: what the stream holds then depends on which call failed. -/
theorem emit_refused (sink : Sink) {n kept : Nat} {cause : String}
    (hw : sink.writes = n) (hf : sink.flushes = n)
    (h : sink.faults.write (n + 1) = some cause ∧ kept = n ∨
      sink.faults.write (n + 1) = none ∧ sink.faults.flush (n + 1) = some cause ∧ kept = n + 1)
    (m : Outbound) :
    ∃ sink', sink.emit m = (.error (.write cause), sink') ∧
      sink'.written = sink.written ++ [m.line].take (kept - n) := by
  subst hw
  rcases h with ⟨h, rfl⟩ | ⟨hw, h, rfl⟩
  · obtain ⟨h1, h2⟩ := emit_write_fault h m
    exact ⟨_, Prod.ext h1 rfl, by rw [h2, Nat.sub_self, List.take_zero, List.append_nil]⟩
  · obtain ⟨h1, h2⟩ := emit_flush_fault hw (by rwa [hf]) m
    exact ⟨_, Prod.ext h1 rfl, by rw [h2, Nat.add_sub_cancel_left]; rfl⟩

end Sink

namespace Outlets

@[simp] theorem fresh_sink (faults : Faults) : (fresh faults).sink = .fresh faults := rfl

/-- Emitting is up to the stream alone. -/
theorem emit_eq (o : Outlets) (m : Outbound) :
    o.emit m = ((o.sink.emit m).1, ⟨(o.sink.emit m).2, o.trace⟩) := rfl

end Outlets

end ScriptWorker.Channel

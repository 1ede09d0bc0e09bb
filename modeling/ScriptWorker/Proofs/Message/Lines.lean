import ScriptWorker.Message.Outbound
import ScriptWorker.Proofs.Json.Texts

/-!
# The lines of outbound messages

A line begins with its message's tag, so lines of different kinds are different
(`Outbound.kind_of_line`) and a log line can be told by its beginning (`Outbound.isLogLine_line`).
The line of an error tells its message (`Outbound.error_of_line`).
-/

set_option autoImplicit false

namespace ScriptWorker.Message

open Json

/-- The end of an envelope's text, behind the payload. -/
def Envelope.ending (e : Envelope) : String :=
  match e.time with
  | none => "\x7d"
  | some time => ",\"time\":" ++ stringText time ++ "\x7d"

theorem Envelope.render_eq (e : Envelope) :
    e.render = "\x7b\"type\":" ++ (stringText e.kind ++ (",\"data\":" ++
      (e.data.render ++ e.ending))) := by
  simp only [Envelope.render, Envelope.ending, Value.write_eq]
  cases e.time <;> simp only [String.append_assoc]

namespace Outbound

/-- The text of a line behind its tag. -/
def behindTag (m : Outbound) : List Char :=
  ",\"data\":".toList ++
    (m.envelope.data.render.toList ++ (m.envelope.ending.toList ++ "\n".toList))

theorem kind_envelope (m : Outbound) : m.envelope.kind = m.kind := by
  cases m <;> rfl

theorem toList_line (m : Outbound) :
    m.line.toList = "\x7b\"type\":".toList ++ ((stringText m.kind).toList ++ m.behindTag) := by
  have h : ∀ a b c d e f : String, (a ++ (b ++ (c ++ (d ++ e))) ++ f).toList =
      a.toList ++ (b.toList ++ (c.toList ++ (d.toList ++ (e.toList ++ f.toList)))) := by
    simp only [String.toList_append, List.append_assoc, implies_true]
  rw [line, Envelope.render_eq, kind_envelope, h]
  unfold behindTag
  exact rfl

theorem line_inj {m m' : Outbound} (h : m.line = m'.line) :
    m.kind = m'.kind ∧ m.behindTag = m'.behindTag := by
  have h' := congrArg String.toList h
  rw [toList_line, toList_line] at h'
  exact stringText_append_inj (List.append_cancel_left h')

/-- **The line tells the kind of its message.** -/
theorem kind_of_line {m m' : Outbound} (h : m.line = m'.line) : m.kind = m'.kind :=
  (line_inj h).1

/-- Whether the message reports a failed request. -/
def isError : Outbound → Bool
  | .error _ => true
  | _ => false

theorem isError_eq (m : Outbound) : m.isError = (m.kind == "error") := by
  cases m <;> rfl

theorem isError_of_line {m m' : Outbound} (h : m.line = m'.line) : m.isError = m'.isError := by
  rw [isError_eq, isError_eq, kind_of_line h]

/-- **The line of an error tells its message.** -/
theorem error_of_line {a b : String} (h : (Outbound.error a).line = (Outbound.error b).line) :
    a = b := by
  have hd := List.append_cancel_left (line_inj h).2
  have hr : ∀ s : String, (Json.Value.string s).render = stringText s := fun s => by
    rw [Json.Value.render, Json.Value.write, String.empty_append]
  simp only [envelope, hr] at hd
  exact (stringText_append_inj hd).1

/-- Whether the message is the trace of a request. -/
def isLog : Outbound → Bool
  | .log .. => true
  | _ => false

/-- What a log line begins with. -/
def logMark : List Char := "\x7b\"type\":".toList ++ (stringText "log").toList

/-- Whether a line of output is a log line. -/
def isLogLine (line : String) : Bool := logMark.isPrefixOf line.toList

theorem logMark_prefix_iff (m : Outbound) : logMark <+: m.line.toList ↔ m.kind = "log" := by
  refine ⟨fun hp => ?_, fun h => ⟨m.behindTag, ?_⟩⟩
  · obtain ⟨rest, h⟩ := hp
    rw [toList_line] at h
    unfold logMark at h
    rw [List.append_assoc] at h
    have hs := List.append_cancel_left h
    exact (stringText_append_inj hs).1.symm
  · rw [toList_line, h]
    unfold logMark
    exact List.append_assoc _ _ _

/-- **A log line is told by its beginning.** -/
theorem isLogLine_line (m : Outbound) : isLogLine m.line = m.isLog := by
  have hk : m.isLog = (m.kind == "log") := by cases m <;> rfl
  rw [hk, Bool.eq_iff_iff, isLogLine, List.isPrefixOf_iff_prefix, logMark_prefix_iff, beq_iff_eq]

end Outbound

end ScriptWorker.Message

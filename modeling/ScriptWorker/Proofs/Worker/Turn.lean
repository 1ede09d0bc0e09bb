import ScriptWorker.Proofs.Channel.Emission
import ScriptWorker.Worker.Protocol

/-!
# What one line makes of a worker

A `Turn` says what a worker does about a line without mentioning streams: the messages that it
writes, each with the state in which it writes it, and how it ends. `handleLine_perform` is the
bridge: handling a line on *any* stream is performing the line's turn on it, where the first
message that is refused ends the turn in the state it was written in. So a fact about every turn
is a fact about every fault (`Turn.perform_worker`), and on a stream that takes them all messages of
the turn are written (`Turn.perform_takes`).
-/

set_option autoImplicit false

namespace ScriptWorker.Message

/-- The message on a line, if the line holds one. -/
def Inbound.ofLine? (line : String) : Option Inbound := (Inbound.parse line).toOption

end ScriptWorker.Message

namespace ScriptWorker.Worker

open Channel Loading Message

universe u v

variable {κ : Type u} {υ : Type v}

/-! ## Turns -/

/-- What a worker does about a line. -/
structure Turn (κ : Type u) (υ : Type v) where
  /-- The messages in order, each with the worker as it is while the message is written. -/
  said : List (Outbound × Worker κ υ)
  result : Except Failure Unit
  /-- The worker after the turn. -/
  worker : Worker κ υ

namespace Turn

/-- The turn of a line that is passed over. -/
def silent (w : Worker κ υ) : Turn κ υ := ⟨[], .ok (), w⟩

/-- The turn that writes one message. -/
def saying (w : Worker κ υ) (m : Outbound) : Turn κ υ := ⟨[(m, w)], .ok (), w⟩

/-- The turn with a message in front. -/
def behind (m : Outbound) (w : Worker κ υ) (t : Turn κ υ) : Turn κ υ :=
  { t with said := (m, w) :: t.said }

/-- The messages of a turn. -/
def messages (t : Turn κ υ) : List Outbound := t.said.map (·.1)

/-- Writes messages and ends as given, or at the first message that is refused. -/
def performFrom (result : Except Failure Unit) (w : Worker κ υ) :
    List (Outbound × Worker κ υ) → Sink → Except Failure Unit × Worker κ υ × Sink
  | [], sink => (result, w, sink)
  | (m, w') :: rest, sink =>
    match sink.emit m with
    | (.ok (), sink) => performFrom result w rest sink
    | (.error e, sink) => (.error (.channel e), w', sink)

/-- Performs the turn on a stream. -/
def perform (t : Turn κ υ) (sink : Sink) : Except Failure Unit × Worker κ υ × Sink :=
  performFrom t.result t.worker t.said sink

theorem performFrom_takes (result : Except Failure Unit) (w : Worker κ υ) {sink : Sink}
    {said : List (Outbound × Worker κ υ)} (h : sink.Takes said.length) :
    performFrom result w said sink = (result, w, sink.takeAll (said.map (·.1))) := by
  induction said generalizing sink with
  | nil => rfl
  | cons p said ih =>
    simp only [performFrom, h.emit, List.map_cons, Sink.takeAll_cons]
    exact ih (h.take p.1)

/-- On a stream that takes them every message of the turn is written. -/
theorem perform_takes (t : Turn κ υ) {sink : Sink} (h : sink.Takes t.messages.length) :
    t.perform sink = (t.result, t.worker, sink.takeAll t.messages) :=
  performFrom_takes t.result t.worker (by rwa [messages, List.length_map] at h)

/-- The first message that is refused ends the turn, in the state it was written in. -/
theorem performFrom_refused (result : Except Failure Unit) (w : Worker κ υ) {sink sink' : Sink}
    {said rest : List (Outbound × Worker κ υ)} {m : Outbound} {w' : Worker κ υ} {e : Channel.Error}
    (h : sink.Takes said.length)
    (he : (sink.takeAll (said.map (·.1))).emit m = (.error e, sink')) :
    performFrom result w (said ++ (m, w') :: rest) sink = (.error (.channel e), w', sink') := by
  induction said generalizing sink with
  | nil =>
    rw [List.map_nil, Sink.takeAll_nil] at he
    simp only [List.nil_append, performFrom, he]
  | cons p said ih =>
    simp only [List.cons_append, performFrom, h.emit]
    exact ih (h.take p.1) he

theorem performFrom_worker {P : Worker κ υ → Prop} {result : Except Failure Unit}
    {w : Worker κ υ} (hw : P w) {said : List (Outbound × Worker κ υ)} (hs : ∀ p ∈ said, P p.2)
    (sink : Sink) : P (performFrom result w said sink).2.1 := by
  induction said generalizing sink with
  | nil => exact hw
  | cons p said ih =>
    unfold performFrom
    split
    · exact ih (fun q hq => hs q (List.mem_cons_of_mem _ hq)) _
    · exact hs p List.mem_cons_self

/-- Whatever is refused, the turn leaves the worker in a state that occurs in it. -/
theorem perform_worker {P : Worker κ υ → Prop} {t : Turn κ υ} (ht : P t.worker)
    (hs : ∀ p ∈ t.said, P p.2) (sink : Sink) : P (t.perform sink).2.1 :=
  performFrom_worker ht hs sink

end Turn

/-! ## The turns of messages -/

/-- The loader's verdict on a payload, and its memory after. Only text reaches the loader. -/
def Strategy.offer (st : Strategy κ υ) (k : κ) : Json.Value → Except ConversionError υ × κ
  | .string text => ((st.load k text).1, (st.load k text).2.1)
  | source => (.error (.ofPayload source), k)

namespace Setup

variable (s : Setup κ υ)

/-- The turn of a source. -/
def loadTurn (w : Worker κ υ) (source : Json.Value) : Turn κ υ :=
  match s.strategy.offer w.loader source with
  | (.ok unit, loader) => .saying ⟨loader, w.asked, .serving unit⟩ (.functionLoaded true)
  | (.error _, loader) => .saying { w with loader } (.functionLoaded false)

/-- The turn of calling the unit. -/
def answerTurn (w : Worker κ υ) (unit : υ) (argument : Json.Value) : Turn κ υ :=
  let w' := { w with phase := .serving (s.strategy.invoke unit argument).2.1 }
  match (s.strategy.invoke unit argument).1 with
  | .ok value => .saying w' (.response value)
  | .error e =>
    match s.options.onInvokeError with
    | .crash => ⟨[], .error (.invocation e), w'⟩
    | .report => .saying w' (.error e.message)

/-- The turn of a request. -/
def serveTurn (w : Worker κ υ) (unit : υ) (argument : Json.Value) : Turn κ υ :=
  if s.options.requestLogging then
    let w' := { w with asked := w.asked + 1 }
    match s.clock (w.asked + 1) with
    | .error cause => ⟨[], .error (.timestamp cause), w'⟩
    | .ok time =>
      .behind (.log ("received request: " ++ argument.render) time) w'
        (s.answerTurn w' unit argument)
  else s.answerTurn w unit argument

/-- The turn of a line, given the message on it. -/
def turn (w : Worker κ υ) : Option Inbound → Turn κ υ
  | some (.function source) =>
    match w.phase with
    | .loading => s.loadTurn w source
    | .serving _ => .silent w
  | some (.request argument) =>
    match w.phase with
    | .loading => .silent w
    | .serving unit => s.serveTurn w unit argument
  | some (.other _) => .silent w
  | none => .silent w

end Setup

/-! ## Handling is performing -/

/-- What is left of handling a line when the trace is not looked at. -/
def Handled.seen (h : Handled κ υ) : Except Failure Unit × Worker κ υ × Sink :=
  (h.1, h.2.1, h.2.2.sink)

theorem seen_reply (w : Worker κ υ) (o : Outlets) (m : Outbound) :
    Handled.seen (reply w o m) = (Turn.saying w m).perform o.sink := by
  simp only [reply, Outlets.emit_eq, Turn.perform, Turn.saying, Turn.performFrom]
  rcases o.sink.emit m with ⟨_ | _, _⟩ <;> rfl

namespace Setup

variable (s : Setup κ υ)

theorem seen_load (w : Worker κ υ) (source : Json.Value) (o : Outlets) :
    Handled.seen (s.load w source o) = (s.loadTurn w source).perform o.sink := by
  cases source with
  | string text =>
    simp only [load, loadTurn, Strategy.offer]
    cases (s.strategy.load w.loader text).1 <;> exact seen_reply _ _ _
  | _ => exact seen_reply _ _ _

theorem seen_answer (w : Worker κ υ) (unit : υ) (argument : Json.Value) (o : Outlets) :
    Handled.seen (s.answer w unit argument o) = (s.answerTurn w unit argument).perform o.sink := by
  simp only [answer, answerTurn]
  cases (s.strategy.invoke unit argument).1 with
  | ok value => exact seen_reply _ _ _
  | error e =>
    cases s.options.onInvokeError with
    | crash => rfl
    | report => exact seen_reply _ _ _

theorem seen_serve (w : Worker κ υ) (unit : υ) (argument : Json.Value) (o : Outlets) :
    Handled.seen (s.serve w unit argument o) = (s.serveTurn w unit argument).perform o.sink := by
  simp only [serve, serveTurn]
  split
  · cases s.clock (w.asked + 1) with
    | error cause => rfl
    | ok time =>
      simp only [Outlets.emit_eq, Turn.perform, Turn.behind, Turn.performFrom]
      rcases o.sink.emit (.log ("received request: " ++ argument.render) time) with ⟨_ | _, sink⟩
      · rfl
      · exact s.seen_answer _ unit argument ⟨sink, o.trace⟩
  · exact s.seen_answer w unit argument o

/-- **Handling a line is performing its turn**, on any stream and with any faults. -/
theorem handleLine_perform (w : Worker κ υ) (line : String) (o : Outlets) :
    Handled.seen (s.handleLine w line o) =
      (s.turn w (Inbound.ofLine? line)).perform o.sink := by
  unfold handleLine Inbound.ofLine?
  cases Inbound.parse line with
  | error e => rfl
  | ok m =>
    obtain ⟨loader, asked, phase⟩ := w
    cases m with
    | function source =>
      cases phase with
      | loading => exact s.seen_load _ source o
      | serving unit => rfl
    | request argument =>
      cases phase with
      | loading => rfl
      | serving unit => exact s.seen_serve _ unit argument o
    | other kind => cases phase <;> rfl

end Setup

end ScriptWorker.Worker

import ScriptWorker.Proofs.Channel.Conservation
import ScriptWorker.Proofs.Channel.Emission
import ScriptWorker.Proofs.Json.Printable
import ScriptWorker.Proofs.Message.Lines
import ScriptWorker.Proofs.Text.Utf8

/-!
# A line for each message

A message is written as a line: its one newline stands at the end, and no other byte of it is that
of a control character (`bytes_line`). So the bytes of messages are cut up into just their lines,
and a run of a channel whose handler goes on hands over just the texts of the messages (`framing`).
-/

set_option autoImplicit false

namespace ScriptWorker.Message

open Json

/-- **The text of an envelope holds no control character**, whatever its strings and doubles are. -/
theorem Envelope.printable_render (e : Envelope) : Printable e.render.toList := by
  have hkind := printable_stringText e.kind
  have hdata := Json.printable_render e.data
  rw [render_eq, ending]
  cases e.time with
  | none => simp [hkind, hdata]
  | some time =>
    have htime := printable_stringText time
    simp [hkind, hdata, htime]

end ScriptWorker.Message

namespace ScriptWorker.Channel

open Message Text.Utf8

universe u

variable {η : Type u} {ε : Type}

/-! ## Emitting -/

namespace Sink

/-- Emits messages in order, up to the first that is refused. -/
def emitAll (sink : Sink) : List Outbound → Except Error Unit × Sink
  | [] => (.ok (), sink)
  | m :: ms =>
    match sink.emit m with
    | (.error e, sink) => (.error e, sink)
    | (.ok (), sink) => sink.emitAll ms

/-- A stream takes messages one by one. -/
theorem Takes.emitAll {sink : Sink} {n : Nat} {ms : List Outbound}
    (h : sink.Takes (ms.length + n)) : sink.emitAll ms = (.ok (), sink.takeAll ms) := by
  induction ms generalizing sink with
  | nil => rfl
  | cons m ms ih =>
    rw [List.length_cons, Nat.add_right_comm] at h
    rw [Sink.emitAll, h.emit m]
    exact ih (h.take m)

/-- The calls that a stream gets: a write and a flush for each message. -/
theorem calls_takeAll (sink : Sink) (ms : List Outbound) :
    (sink.takeAll ms).calls.reverse =
      sink.calls.reverse ++ ms.flatMap fun m => [.wrote m.line, .flushed] := by
  induction ms generalizing sink with
  | nil => simp
  | cons m ms ih =>
    rw [takeAll_cons, ih]
    simp [take]

end Sink

/-! ## Lines -/

/-- The bytes of a message's line: one newline, at the end, and no other control character. -/
theorem bytes_line (m : Outbound) :
    ∃ body, encode m.line = body ++ [newline] ∧ ∀ b ∈ body, 0x20 ≤ b := by
  refine ⟨encode m.envelope.render, encode_append _ "\n", fun b hb => ?_⟩
  obtain ⟨c, hc, hb⟩ := List.mem_flatMap.1 hb
  exact le_of_mem_encodeChar (m.envelope.printable_render c hc) hb

theorem closed_line (m : Outbound) : Closed (encode m.line) := by
  obtain ⟨body, he, hb⟩ := bytes_line m
  refine ⟨body, fun hn => ?_, he⟩
  exact absurd (hb newline hn) (by decide)

theorem dropEnd_concat (c : Char) (s : List Char) : dropEnd c (s ++ [c]) = s := by
  simp [dropEnd]

theorem dropEnd_of_printable {c : Char} (hc : c.toNat < 0x20) {s : List Char} (hs : Printable s) :
    dropEnd c s = s := by
  refine if_neg fun hl => ?_
  have := hs c (List.mem_of_getLast? hl)
  omega

/-- **A message's line is read as the message's text.** -/
theorem lineOf_line (m : Outbound) : lineOf (encode m.line) = m.envelope.render := by
  have htext : m.line.toList = m.envelope.render.toList ++ ['\n'] := String.toList_append
  rw [lineOf, decodeLossy_encode, stripTerminator, htext, dropEnd_concat,
    dropEnd_of_printable (by decide) m.envelope.printable_render, String.ofList_toList]

/-! ## Delivering -/

/-- The handler goes on after every line. -/
def Handler.GoesOn (h : Handler η ε) : Prop :=
  ∀ w line o, ∃ w' o', h.onLine w line o = (.ok .goOn, w', o')

/-- A handler that goes on gets every segment of an input that ends. -/
theorem runs_split {h : Handler η ε} (hgo : h.GoesOn) {segs : List (List UInt8)} (hs : Split segs)
    (w : η) (o : Outlets) :
    ∃ ds c', Runs h ⟨segs.flatten, none, o, some w⟩ ds (.ok .endOfInput) c' ∧
      ds.map (·.segment) = segs := by
  induction segs generalizing w o with
  | nil => exact ⟨[], _, .ended rfl rfl rfl, rfl⟩
  | cons seg segs ih =>
    have hnext : Complete none seg segs.flatten := by
      rcases hs.each seg List.mem_cons_self with hc | hc
      · exact .inl hc
      · exact .inr ⟨hc, by rw [hs.nil_of_cutOff hc]; rfl, rfl⟩
    obtain ⟨w', o', hl⟩ := hgo w (lineOf seg) o
    obtain ⟨ds, c', hr, hd⟩ := ih (hs.sublist (List.sublist_cons_self _ _)) w' o'
    exact ⟨⟨w, seg, segs.flatten⟩ :: ds, c', .went rfl ⟨rfl, hnext⟩ hl hr, by
      rw [List.map_cons, hd]⟩

theorem runs_closed {h : Handler η ε} (hgo : h.GoesOn) {segs : List (List UInt8)}
    (hs : ∀ seg ∈ segs, Closed seg) (w : η) (o : Outlets) :
    ∃ ds c', Runs h ⟨segs.flatten, none, o, some w⟩ ds (.ok .endOfInput) c' ∧
      ds.map (·.segment) = segs :=
  runs_split hgo (.of_closed hs) w o

/-- **A line for each message.** A stream that refuses nothing gets, for each message emitted, one
write and then one flush. What is written ends with its one newline and has no other control
character, whatever the strings and doubles of the message are. Read from a channel whose handler
goes on, the bytes are handed over as just the texts of the messages, in order. -/
theorem framing (h : Handler η ε) (hgo : h.GoesOn) (w : η) (o : Outlets) (ms : List Outbound) :
    let emitted := (Sink.fresh .none).emitAll ms
    let c : Channel η := ⟨emitted.2.written.flatMap encode, none, o, some w⟩
    emitted.1 = .ok () ∧
      emitted.2.calls.reverse = ms.flatMap (fun m => [.wrote m.line, .flushed]) ∧
      (∀ m ∈ ms, ∃ body, encode m.line = body ++ [newline] ∧ ∀ b ∈ body, 0x20 ≤ b) ∧
      ∃ ds, Runs h c ds (c.run h).1 (c.run h).2 ∧
        (∀ ds' r c', Runs h c ds' r c' → ds' = ds) ∧
        (c.run h).1 = .ok .endOfInput ∧
        ds.map (fun d => lineOf d.segment) = ms.map fun m => m.envelope.render := by
  intro emitted c
  have hemit : emitted = (.ok (), (Sink.fresh .none).takeAll ms) :=
    (Sink.takes_none (ms.length + 0)).emitAll
  have hunread : c.unread = (ms.map fun m => encode m.line).flatten := by
    show emitted.2.written.flatMap encode = _
    rw [hemit, Sink.written_takeAll, ← List.flatMap_def]
    simp [Sink.written, Sink.fresh, List.flatMap_map]
  have hclosed : ∀ seg ∈ ms.map fun m => encode m.line, Closed seg := by
    intro seg hseg
    obtain ⟨m, -, rfl⟩ := List.mem_map.1 hseg
    exact closed_line m
  obtain ⟨ds, c', hr, hd⟩ := runs_closed hgo hclosed w o
  rw [← hunread] at hr
  obtain ⟨ds₀, hr₀⟩ := runs_run h c
  obtain ⟨rfl, hexit, -⟩ := hr₀.unique hr
  refine ⟨by rw [hemit], ?_, fun m _ => bytes_line m, ds₀, hr₀,
    fun ds' r c' hr' => (hr'.unique hr₀).1, hexit, ?_⟩
  · rw [hemit, Sink.calls_takeAll]
    rfl
  · calc ds₀.map (fun d => lineOf d.segment)
        = (ds₀.map (·.segment)).map lineOf := by
          rw [List.map_map]
          rfl
      _ = (ms.map fun m => encode m.line).map lineOf := by rw [hd]
      _ = ms.map fun m => lineOf (encode m.line) := List.map_map
      _ = ms.map fun m => m.envelope.render := List.map_congr_left fun m _ => lineOf_line m

/-- The handler that keeps the lines. -/
def collector : Handler (List String) Error :=
  ⟨id, fun seen line o => (.ok .goOn, seen ++ [line], o)⟩

/-- Line ends, control characters, a double and characters of several bytes on their way. -/
theorem framing_collector :
    let ms := [.response (.array [.string "a\r\n\x00", .float 0.1]), .log "é\u2028" "\n",
      .error "\x1f\"\\"]
    let c : Channel (List String) :=
      ⟨((Sink.fresh .none).emitAll ms).2.written.flatMap encode, none, .fresh .none, some []⟩
    collector.GoesOn ∧ ∃ ds, Runs collector c ds (.ok .endOfInput) (c.run collector).2 ∧
      ds.map (fun d => lineOf d.segment) =
        ["\x7b\"type\":\"response\",\"data\":[\"a\\r\\n\\u0000\",0.1]\x7d",
          "\x7b\"type\":\"log\",\"data\":\"é\u2028\",\"time\":\"\\n\"\x7d",
          "\x7b\"type\":\"error\",\"data\":\"\\u001f\\\"\\\\\"\x7d"] := by
  intro ms c
  have hgo : collector.GoesOn := fun w line o => ⟨w ++ [line], o, rfl⟩
  obtain ⟨-, -, -, ds, hr, -, hexit, hlines⟩ := framing collector hgo [] (.fresh .none) ms
  refine ⟨hgo, ds, hexit ▸ hr, hlines.trans ?_⟩
  decide +kernel

end ScriptWorker.Channel

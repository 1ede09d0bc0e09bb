import ScriptWorker.Message.Inbound
import ScriptWorker.Proofs.Json.RoundTrip
import ScriptWorker.Proofs.Message.Lines
import ScriptWorker.Proofs.Text.Trimming

/-!
# Envelopes read back

An envelope's text is that of its fields as members of an object (`Envelope.toList_render`), and
each field is read where its member stands (`readMember_kind`, `readMember_data`,
`readMember_time`). So an envelope without doubles is read back from its text
(`Envelope.parse_render`), and blanks around the text change nothing (`Inbound.parse_around`).
-/

set_option autoImplicit false

namespace ScriptWorker.Message

open Json

namespace Envelope

/-! ## The text -/

theorem toList_render (e : Envelope) :
    e.render.toList = '\x7b' :: ((stringText "type").toList ++ ':' :: ((stringText e.kind).toList ++
      ',' :: ((stringText "data").toList ++ ':' :: (e.data.render.toList ++ e.ending.toList)))) := by
  rw [render_eq]
  simp only [String.toList_append]
  rfl

theorem toList_ending (e : Envelope) :
    e.ending.toList = match e.time with
      | none => ['\x7d']
      | some time => ',' :: ((stringText "time").toList ++ ':' :: ((stringText time).toList ++
          ['\x7d'])) := by
  unfold ending
  cases e.time with
  | none => rfl
  | some time =>
    simp only [String.toList_append]
    rfl

/-! ## Reading the members -/

theorem readText_stringText {size : Nat} {s : String} (hs : s.length < size) (wanted : String)
    (rest : List Char) : readText size wanted ((stringText s).toList ++ rest) = .ok (s, rest) := by
  obtain ⟨he, hr⟩ := readString_stringText hs rest
  rw [he, readText, skipGap_of_not_gap (show isGap '"' = false by decide)]
  exact hr

theorem readTextOrNull_stringText {size : Nat} {s : String} (hs : s.length < size)
    (rest : List Char) :
    readTextOrNull size ((stringText s).toList ++ rest) = .ok (some s, rest) := by
  obtain ⟨he, -⟩ := readString_stringText hs rest
  have hr := readText_stringText hs "a string" rest
  rw [he] at hr ⊢
  rw [readTextOrNull, skipGap_of_not_gap (show isGap '"' = false by decide)]
  show (readText size "a string" _).bind _ = _
  rw [hr]
  rfl

/-- A member of a field that has not been read yet is read as the field is. -/
theorem readMember_field {σ α : Type} {r : Record σ α} {field : Json.Field σ} {key : String} {state : σ}
    (hf : r.fields.find? (·.name == key) = some field) (hs : field.isSet state = false)
    (size depth : Nat) (rest : List Char) :
    r.readMember size depth state key (':' :: rest) = field.read size depth state rest := by
  rw [Record.readMember, hf]
  simp only [hs, readColon_colon, Bool.false_eq_true, if_false]
  rfl

section Members

variable {size : Nat} (depth : Nat) (time : Option (Option String))

theorem readMember_kind {kind : String} (hs : kind.length < size) (data : Option Value)
    (rest : List Char) :
    layout.readMember size depth ⟨none, data, time⟩ "type"
      (':' :: ((stringText kind).toList ++ rest)) = .ok (⟨some kind, data, time⟩, rest) := by
  rw [readMember_field (by rfl) (by rfl)]
  simp only [readText_stringText hs]
  rfl

theorem readMember_data {v : Value} {s rest : List Char} (h : readValue size depth s = .ok (v, rest))
    (kind : Option String) :
    layout.readMember size depth ⟨kind, none, time⟩ "data" (':' :: s) =
      .ok (⟨kind, some v, time⟩, rest) := by
  rw [readMember_field (by rfl) (by rfl)]
  simp only [h]
  rfl

theorem readMember_time {text : String} (hs : text.length < size) (kind : Option String)
    (data : Option Value) (rest : List Char) :
    layout.readMember size depth ⟨kind, data, none⟩ "time"
      (':' :: ((stringText text).toList ++ rest)) = .ok (⟨kind, data, some (some text)⟩, rest) := by
  rw [readMember_field (by rfl) (by rfl)]
  simp only [readTextOrNull_stringText hs]
  rfl

end Members

/-! ## Whole envelopes -/

/-- Envelopes without doubles that nest no deeper than a reader goes. -/
structure Readable (e : Envelope) : Prop where
  exact : e.data.Exact
  shallow : e.data.depth + 1 < depthLimit

/-- Reading goes on from the payload to the end of the object. -/
theorem foldMembers_ending (e : Envelope) {size depth fuel : Nat}
    (hs : e.ending.toList.length < size) (hf : e.ending.toList.length < fuel) :
    foldMembers size (layout.readMember size depth) fuel false ⟨some e.kind, some e.data, none⟩
      e.ending.toList = .ok (⟨some e.kind, some e.data, e.time.map some⟩, ['\x7d']) := by
  rw [toList_ending] at hs hf ⊢
  obtain ⟨kind, data, time⟩ := e
  cases time with
  | none =>
    obtain ⟨fuel, rfl⟩ : ∃ n, fuel = n + 1 := ⟨fuel - 1, by omega⟩
    exact foldMembers_end _ _ _ _
  | some time =>
    simp only [List.length_cons, List.length_append] at hs hf
    obtain ⟨fuel, rfl⟩ : ∃ n, fuel = n + 2 := ⟨fuel - 2, by omega⟩
    have hkey := length_lt_stringText "time"
    have htime := length_lt_stringText time
    rw [foldMembers_next (by omega) (readMember_time depth (by omega) _ _ _)]
    exact foldMembers_end _ _ _ _

/-- Reading goes through the members of an envelope's text and keeps each field. -/
theorem foldMembers_render (e : Envelope) (he : e.data.Exact) (size depth : Nat)
    (hd : e.data.depth < depth) {s : List Char} (ht : e.render.toList = '\x7b' :: s)
    (hs : e.render.toList.length < size) :
    foldMembers size (layout.readMember size depth) size true layout.start s =
      .ok (⟨some e.kind, some e.data, e.time.map some⟩, ['\x7d']) := by
  have hends : EndsNumber e.ending.toList := by
    rw [toList_ending]
    cases e.time with
    | none => exact .cons (by decide) _
    | some time => exact .cons (by decide) _
  have htype := length_lt_stringText "type"
  have hkind := length_lt_stringText e.kind
  have hdata := length_lt_stringText "data"
  rw [toList_render] at ht hs
  obtain rfl := (List.cons.inj ht).2
  simp only [List.length_cons, List.length_append] at hs
  obtain ⟨fuel, rfl⟩ : ∃ n, size = n + 2 := ⟨size - 2, by omega⟩
  have hvalue := readValue_render e.data he (fuel + 2) depth hd (by omega) hends
  show foldMembers _ _ (fuel + 2) true (⟨none, none, none⟩ : Draft) _ = _
  rw [foldMembers_first (by omega) (readMember_kind depth none (by omega) none _),
    foldMembers_next (by omega) (readMember_data depth none hvalue _),
    foldMembers_ending e (by omega) (by omega)]

/-- **An envelope without doubles is read back from its text.** -/
theorem parse_render {e : Envelope} (h : e.Readable) : parse e.render.toList = .ok e := by
  obtain ⟨s, hs⟩ : ∃ s, e.render.toList = '\x7b' :: s := by
    rw [toList_render]
    exact ⟨_, rfl⟩
  have hfold := foldMembers_render e h.exact _ (depthLimit - 1) (Nat.lt_sub_of_add_lt h.shallow) hs
    (Nat.lt_succ_self _)
  rw [hs] at hfold ⊢
  unfold parse Record.parse
  refine readAll_of_read ?_
  rw [Record.read, skipGap_of_not_gap (show isGap '\x7b' = false by decide)]
  show (Record.readObject _ _ _ _).mapError _ = _
  rw [Record.readObject, hfold]
  obtain ⟨kind, data, time⟩ := e
  cases time <;> rfl

/-! ## Members -/

/-- The members of an envelope's text, in order. -/
def members (e : Envelope) : List (String × Value) :=
  ("type", .string e.kind) :: ("data", e.data) ::
    (e.time.map fun time => ("time", Value.string time)).toList

/-- The members of an envelope, sorted by key. -/
def sortedMembers (e : Envelope) : List (String × Value) :=
  ("data", e.data) :: ((e.time.map fun time => ("time", Value.string time)).toList ++
    [("type", .string e.kind)])

theorem render_eq_members (e : Envelope) : e.render = (Value.object e.members).render := by
  have hstring : ∀ s : String, (Value.string s).render = stringText s := by
    intro s
    rw [Value.render, Value.write, String.empty_append]
  rw [← String.toList_inj, toList_render, toList_ending, members, Value.toList_render_object]
  cases e.time with
  | none => simp [memberText, hstring]
  | some time => simp [memberText, hstring]

theorem ofMembers_members (e : Envelope) : Value.ofMembers e.members = .object e.sortedMembers := by
  have hsorted : Value.Sorted e.sortedMembers := by
    refine Value.sorted_of_keys ?_
    unfold sortedMembers
    cases e.time with
    | none =>
      show ["data", "type"].Pairwise (· < ·)
      decide
    | some time =>
      show ["data", "time", "type"].Pairwise (· < ·)
      decide
  exact Value.ofMembers_of_perm (List.perm_append_singleton _ _).symm hsorted

/-- The text of an envelope without doubles is an object with its members and no others. -/
theorem parse_value {e : Envelope} (h : e.Readable) :
    Json.parse e.render = .ok (.object e.sortedMembers) := by
  have hexact : Value.MembersExact e.members := by
    unfold members
    cases e.time with
    | none => exact ⟨trivial, h.exact, trivial⟩
    | some time => exact ⟨trivial, h.exact, trivial, trivial⟩
  have hdepth : (Value.object e.members).depth = e.data.depth + 1 := by
    unfold members
    cases e.time <;> simp [Value.depth, Value.membersDepth]
  rw [render_eq_members, parse_members hexact (hdepth ▸ h.shallow), ofMembers_members]

theorem time_mem_sortedMembers (e : Envelope) :
    (∃ v, ("time", v) ∈ e.sortedMembers) ↔ e.time.isSome = true := by
  unfold sortedMembers
  cases e.time with
  | none => simp
  | some time => simp

end Envelope

/-! ## Lines -/

/-- **Blanks around an envelope's text change nothing.** -/
theorem Inbound.parse_around {e : Envelope} (h : e.Readable) {front back : List Char}
    (hf : ∀ c ∈ front, Text.isBlank c = true) (hb : ∀ c ∈ back, Text.isBlank c = true) :
    Inbound.parse (String.ofList (front ++ e.render.toList ++ back)) = .ok (.ofEnvelope e) := by
  have hhead : e.render.toList.head? = some '\x7b' := by
    rw [Envelope.toList_render, List.head?_cons]
  have hlast : e.render.toList.getLast? = some '\x7d' := by
    rw [Envelope.render_eq_members, Envelope.members, Value.toList_render_object]
    simp only [← List.cons_append, ← List.append_assoc, List.getLast?_concat]
  have hends : Text.Trimmed e.render.toList := by
    constructor
    · rw [hhead]
      rintro _ ⟨⟩
      decide
    · rw [hlast]
      rintro _ ⟨⟩
      decide
  have htrim := Text.trim_around hf hb hends
  rw [Inbound.parse, String.toList_ofList, htrim]
  split
  case h_1 hnil => rw [hnil] at hhead; cases hhead
  case h_2 => simp only [Envelope.parse_render h]

theorem Outbound.readable_envelope {m : Outbound}
    (h : ∀ data, m = .response data → data.Exact ∧ data.depth + 1 < depthLimit) :
    m.envelope.Readable := by
  cases m with
  | response data => exact ⟨(h data rfl).1, (h data rfl).2⟩
  | started | functionLoaded | error | log => exact ⟨trivial, show 0 + 1 < depthLimit by decide⟩

theorem Outbound.isSome_time (m : Outbound) : m.envelope.time.isSome = m.isLog := by
  cases m <;> rfl

/-- **What is written is read back.** An envelope without doubles is decoded from its text, which
is also the text of what was decoded, and a line with that text, with or without blanks around it,
is the message of that envelope. So every message without doubles is decoded as its envelope, and
just the traces have a member `time`. -/
theorem envelope_roundTrip :
    (∀ e : Envelope, e.Readable →
      Envelope.parse e.render.toList = .ok e ∧
      (∀ e', Envelope.parse e.render.toList = .ok e' → e'.render = e.render) ∧
      ∀ front back : List Char, (∀ c ∈ front, Text.isBlank c = true) →
        (∀ c ∈ back, Text.isBlank c = true) →
        Inbound.parse (String.ofList (front ++ e.render.toList ++ back)) = .ok (.ofEnvelope e)) ∧
    ∀ m : Outbound, (∀ data, m = .response data → data.Exact ∧ data.depth + 1 < depthLimit) →
      Envelope.parse m.envelope.render.toList = .ok m.envelope ∧
      ∃ members, Json.parse m.envelope.render = .ok (.object members) ∧
        ((∃ v, ("time", v) ∈ members) ↔ m.isLog = true) := by
  constructor
  · intro e he
    refine ⟨Envelope.parse_render he, ?_, fun front back hf hb => Inbound.parse_around he hf hb⟩
    intro e' hread
    rw [Envelope.parse_render he] at hread
    cases hread
    rfl
  · intro m hm
    have he := Outbound.readable_envelope hm
    refine ⟨Envelope.parse_render he, _, Envelope.parse_value he, ?_⟩
    rw [Envelope.time_mem_sortedMembers, Outbound.isSome_time]

/-- An envelope with every kind of escape, the least and the greatest whole number and characters
outside the basic plane, on a line between blanks. -/
theorem envelope_roundTrip_escapes :
    let e : Envelope := ⟨"re\"quest\\", .object [
      ("", .array [.int (-0x8000000000000000), .int 0xFFFFFFFFFFFFFFFF, .null, .array []]),
      ("\x01\n\r\t\x08\x0c\x7f", .object [("😀", .string "é\u2028\x1f/"), ("😁", .bool false)])],
      some "0\x00"⟩
    e.Readable ∧ Envelope.parse e.render.toList = .ok e ∧
      Inbound.parse (String.ofList (['\u3000', '\n'] ++ e.render.toList ++ ['\u0085'])) =
        .ok (.other "re\"quest\\") := by
  intro e
  have he : e.Readable := by
    refine ⟨⟨Value.sorted_of_keys (by decide), ?_, ?_, trivial⟩, by decide⟩
    · exact ⟨⟨by decide, by decide⟩, ⟨by decide, by decide⟩, trivial, trivial, trivial⟩
    · exact ⟨Value.sorted_of_keys (by decide), trivial, trivial, trivial⟩
  obtain ⟨hparse, -, haround⟩ := envelope_roundTrip.1 e he
  refine ⟨he, hparse, haround _ _ ?_ ?_⟩
  · simp [Text.isBlank]
  · simp [Text.isBlank]

end ScriptWorker.Message

import ScriptWorker.Proofs.Json.Records
import ScriptWorker.Proofs.Message.Acceptance
import ScriptWorker.Proofs.Text.Trimming
import ScriptWorker.Worker.Protocol

/-!
# Lines that hold no object

An envelope is read from an array of its fields' values too, so a line that holds no object is a
message if it holds such an array (`Envelope.IsTuple`), and is refused otherwise: then the worker
takes note of it and stays as it is (`nonObject_message_iff`).
-/

set_option autoImplicit false

universe u v

namespace ScriptWorker.Message

open Json

namespace Envelope

/-- The items of an array in which the fields of an envelope stand in order: the tag, the payload,
which nests no deeper than the reader goes, and a time if there is a third item. -/
inductive IsTuple (depth : Nat) : List (Item Written) → Envelope → Prop where
  | untimed {kind data : Item Written} {k : String} {d : Value} (hkind : kind.value.text? = some k)
      (hdata : data.value.value? = some d) (hdepth : data.value.depth < depth) :
      IsTuple depth [kind, data] ⟨k, d, none⟩
  | timed {kind data time : Item Written} {k : String} {d : Value} {t : Option String}
      (hkind : kind.value.text? = some k) (hdata : data.value.value? = some d)
      (hdepth : data.value.depth < depth) (htime : time.value.textOrNull? = some t) :
      IsTuple depth [kind, data, time] ⟨k, d, t⟩

theorem readValue_zero (size : Nat) (s : List Char) : readValue size 0 s = readValue size 1 s := by
  unfold readValue
  rfl

theorem takesValue_layout : ∀ f ∈ layout.fields, f.TakesValue := by
  intro f hf size depth d d' s rest h
  rw [layout] at hf
  simp only [List.mem_cons, List.not_mem_nil, or_false] at hf
  rcases hf with rfl | rfl | rfl
  · obtain ⟨⟨kind, rest'⟩, hread, hdone⟩ := bind_eq_ok h
    cases hdone
    obtain ⟨w, hw, -⟩ := of_readText hread
    exact ⟨w, hw⟩
  · obtain ⟨⟨data, rest'⟩, hread, hdone⟩ := bind_eq_ok h
    cases hdone
    obtain ⟨depth, hread⟩ : ∃ n, readValue size (n + 1) s = .ok (data, rest') := by
      cases depth with
      | zero => exact ⟨0, (readValue_zero size s).symm.trans hread⟩
      | succ depth => exact ⟨depth, hread⟩
    obtain ⟨w, hw, -⟩ := of_readValue size depth hread
    exact ⟨w, hw⟩
  · obtain ⟨⟨time, rest'⟩, hread, hdone⟩ := bind_eq_ok h
    cases hdone
    obtain ⟨w, hw, -⟩ := of_readTextOrNull hread
    exact ⟨w, hw⟩

/-- An array that is read as an envelope has its fields for items. -/
theorem of_readArray {size depth : Nat} {s rest : List Char} {e : Envelope}
    (h : layout.readArray size (depth + 1) s = .ok (e, rest)) :
    ∃ (inside : Gap) (items : List (Item Written)),
      InFront (.array inside items) ('[' :: s) rest ∧ IsTuple (depth + 1) items e := by
  obtain ⟨⟨⟨d, fields⟩, t⟩, hfold, hbuild⟩ := bind_eq_ok h
  obtain ⟨g₁, ⟨-, -, hstart⟩ | ⟨n, _, s₁, -, rfl, rfl, hthen⟩⟩ := of_foldItems hfold
  · cases hstart
    cases hbuild
  obtain ⟨d₁, rest₁, hfirst, hmore⟩ := hthen.of_recordItem
  obtain ⟨⟨k, rest'⟩, hkind, hdone⟩ := bind_eq_ok hfirst
  cases hdone
  obtain ⟨w₁, hw₁, hk⟩ := of_readText hkind
  obtain ⟨g₂, ⟨-, -, hend⟩ | ⟨n, _, s₂, -, rfl, ⟨f₂, rfl⟩, hthen⟩⟩ := of_foldItems hmore
  · cases hend
    cases hbuild
  obtain ⟨d₂, rest₂, hsecond, hmore⟩ := hthen.of_recordItem
  obtain ⟨⟨v, rest'⟩, hdata, hdone⟩ := bind_eq_ok hsecond
  cases hdone
  obtain ⟨w₂, hw₂, hdepth, hv⟩ := of_readValue size depth hdata
  obtain ⟨g₃, ⟨⟨r, rfl⟩, rfl, hend⟩ | ⟨n, _, s₃, -, rfl, ⟨f₃, rfl⟩, hthen⟩⟩ :=
    of_foldItems hmore
  · cases hend
    obtain ⟨rfl, rfl⟩ := Prod.mk.inj (Except.ok.inj
      (show Except.ok ((⟨k, v, none⟩ : Envelope), r) = Except.ok (e, rest) from hbuild))
    obtain ⟨before₂, htext⟩ := (hw₂.gap f₂).lastItem
    rw [htext] at hw₁
    obtain ⟨before₁, harray⟩ := (hw₁.gap g₁).items
    have hends : EndsNumber (g₃.1 ++ ']' :: r) := (endsNumber_moreItems [] r).gap g₃
    exact ⟨_, _, harray, .untimed hk (hv hends) (Nat.lt_succ_of_le hdepth)⟩
  obtain ⟨d₃, rest₃, hthird, hmore⟩ := hthen.of_recordItem
  obtain ⟨⟨o, rest'⟩, htime, hdone⟩ := bind_eq_ok hthird
  cases hdone
  obtain ⟨w₃, hw₃, ho⟩ := of_readTextOrNull htime
  obtain ⟨hlast, rfl⟩ := hmore
  cases hlast
  obtain ⟨r, hclose, hdone⟩ := bind_eq_ok
    (show ((closeItems t).bind fun rest => .ok ((⟨k, v, o⟩ : Envelope), rest)) =
      .ok (e, rest) from hbuild)
  cases hdone
  obtain ⟨g₄, rfl⟩ := of_closeItems hclose
  obtain ⟨before₃, htext₃⟩ := (hw₃.gap f₃).lastItem
  have hends := (endsNumber_moreItems [⟨before₃, w₃, g₄⟩] rest).gap g₃
  rw [← htext₃] at hends
  rw [htext₃] at hw₂
  obtain ⟨before₂, htext₂⟩ := (hw₂.gap f₂).moreItems
  rw [htext₂] at hw₁
  obtain ⟨before₁, harray⟩ := (hw₁.gap g₁).items
  exact ⟨_, _, harray, .timed hk (hv hends) (Nat.lt_succ_of_le hdepth) ho⟩

/-! ## Arrays that are read -/

theorem exists_value?_of_text? {w : Written} {str : String} (h : w.text? = some str) :
    ∃ v, w.value? = some v := by
  cases w with
  | string gs => exact ⟨.string str, congrArg (Option.map Value.string) h⟩
  | _ => cases h

theorem exists_value?_of_textOrNull? {w : Written} {o : Option String}
    (h : w.textOrNull? = some o) : ∃ v, w.value? = some v := by
  cases w with
  | null => exact ⟨.null, rfl⟩
  | string gs =>
    obtain ⟨str, hstr, -⟩ := Option.map_eq_some_iff.1 h
    exact exists_value?_of_text? hstr
  | _ => cases h

theorem itemText_append (item : Item Written) (rest : List Char) :
    Written.itemText item ++ rest =
      item.before.1 ++ (item.value.text ++ (item.after.1 ++ rest)) := by
  obtain ⟨before, value, after⟩ := item
  simp [Written.itemText]

theorem length_le_itemText (item : Item Written) :
    item.value.text.length ≤ (Written.itemText item).length := by
  have h := congrArg List.length (itemText_append item [])
  simp only [List.length_append] at h
  omega

section

variable {size depth : Nat} {w : Written}

/-- The tag is read where a string stands. -/
theorem readItem_kind {k : String} (h : w.text? = some k) (hsize : w.text.length < size)
    (rest : List Char) :
    Record.readItem size depth (layout.start, layout.fields) (w.text ++ rest) =
      .ok (((⟨some k, none, none⟩, layout.fields.drop 1), true), rest) := by
  obtain ⟨x, hx⟩ := exists_value?_of_text? h
  have hread := gives_readText hx hsize Gap.empty rest "a string"
  rw [h] at hread
  show ((readText size "a string" (w.text ++ rest)).bind _).bind _ = _
  rw [show readText size "a string" (w.text ++ rest) = .ok (k, rest) from hread]
  rfl

/-- The payload is read where a value stands. -/
theorem readItem_data {v : Value} (h : w.value? = some v) (hdepth : w.depth < depth)
    (hsize : w.text.length < size) (k : String) {rest : List Char} (hends : EndsNumber rest) :
    Record.readItem size depth (⟨some k, none, none⟩, layout.fields.drop 1) (w.text ++ rest) =
      .ok (((⟨some k, some v, none⟩, layout.fields.drop 2), true), rest) := by
  have hread := readValue_text w h size depth hdepth hsize hends
  show ((readValue size depth (w.text ++ rest)).bind _).bind _ = _
  rw [hread]
  rfl

/-- The time is read where a string or `null` stands, and nothing is wanted behind it. -/
theorem readItem_time {t : Option String} (h : w.textOrNull? = some t)
    (hsize : w.text.length < size) (k : String) (v : Value) (rest : List Char) :
    Record.readItem size depth (⟨some k, some v, none⟩, layout.fields.drop 2) (w.text ++ rest) =
      .ok (((⟨some k, some v, some t⟩, []), false), rest) := by
  obtain ⟨x, hx⟩ := exists_value?_of_textOrNull? h
  have hread := gives_readTextOrNull hx hsize Gap.empty rest
  rw [h] at hread
  show ((readTextOrNull size (w.text ++ rest)).bind _).bind _ = _
  rw [show readTextOrNull size (w.text ++ rest) = .ok (t, rest) from hread]
  rfl

/-- The tag and the payload are read from the first two items. -/
theorem foldItems_twoFields {kind data : Item Written} {k : String} {v : Value}
    (hkind : kind.value.text? = some k) (hdata : data.value.value? = some v)
    (hdepth : data.value.depth < depth) (hkindSize : kind.value.text.length < size)
    (hdataSize : data.value.text.length < size) (fuel : Nat) {rest : List Char}
    (hends : EndsNumber rest) :
    foldItems (Record.readItem size depth) (fuel + 3) true (layout.start, layout.fields)
        (Written.itemText kind ++ ',' :: (Written.itemText data ++ rest)) =
      foldItems (Record.readItem size depth) (fuel + 1) false
        (⟨some k, some v, none⟩, layout.fields.drop 2) rest := by
  have hsecond := readItem_data hdata hdepth hdataSize k (hends.gap data.after)
  rw [itemText_append, itemText_append, foldItems_gap,
    foldItems_first (startsValue_text kind.value _) (readItem_kind hkind hkindSize _),
    foldItems_gap, foldItems_comma, foldItems_next (startsValue_text data.value _) hsecond,
    foldItems_gap]

theorem read_array {s : List Char} {e : Envelope}
    (h : layout.readArray size (depth + 1) s = .ok (e, [])) :
    layout.read size (depth + 2) ('[' :: s) = .ok (e, []) := by
  rw [Record.read, skipGap_of_not_gap (show isGap '[' = false by decide)]
  show (layout.readArray size (depth + 1) s).mapError _ = _
  rw [h]
  rfl

end

/-- **An array of an envelope's fields is read as the envelope.** -/
theorem read_tuple {size depth : Nat} {inside : Gap} {items : List (Item Written)} {e : Envelope}
    (h : IsTuple (depth + 1) items e) (hsize : (Written.array inside items).text.length < size) :
    layout.read size (depth + 2) (Written.array inside items).text = .ok (e, []) := by
  cases h with
  | @untimed kind data k d hkind hdata hdepth =>
    have htext : (Written.array inside [kind, data]).text =
        '[' :: (Written.itemText kind ++ ',' :: (Written.itemText data ++ [']'])) := by
      simp [Written.text, Written.moreItems]
    have hkindSize := length_le_itemText kind
    have hdataSize := length_le_itemText data
    rw [htext] at hsize ⊢
    simp only [List.length_append, List.length_cons] at hsize
    obtain ⟨fuel, rfl⟩ : ∃ n, size = n + 3 := ⟨size - 3, by omega⟩
    apply read_array
    rw [Record.readArray, foldItems_twoFields hkind hdata hdepth (by omega) (by omega) fuel
      (.cons (by decide) _), foldItems_end]
    rfl
  | @timed kind data time k d t hkind hdata hdepth htime =>
    have htext : (Written.array inside [kind, data, time]).text =
        '[' :: (Written.itemText kind ++ ',' :: (Written.itemText data ++
          ',' :: (Written.itemText time ++ [']']))) := by
      simp [Written.text, Written.moreItems]
    have hkindSize := length_le_itemText kind
    have hdataSize := length_le_itemText data
    have htimeSize := length_le_itemText time
    rw [htext] at hsize ⊢
    simp only [List.length_append, List.length_cons] at hsize
    obtain ⟨fuel, rfl⟩ : ∃ n, size = n + 3 := ⟨size - 3, by omega⟩
    apply read_array
    rw [Record.readArray, foldItems_twoFields hkind hdata hdepth (by omega) (by omega) fuel
      (.cons (by decide) _), itemText_append time, foldItems_comma,
      foldItems_last (startsValue_text time.value _) (readItem_time htime (by omega) k d _)]
    show (closeItems (time.after.1 ++ [']'])).bind _ = _
    rw [closeItems, skipGap_append]
    rfl

end Envelope

namespace Inbound

/-- Blanks between tokens are blanks. -/
theorem isBlank_of_isGap {c : Char} (h : isGap c = true) : Text.isBlank c = true := by
  simp only [isGap, Bool.or_eq_true, beq_iff_eq] at h
  rcases h with ((rfl | rfl) | rfl) | rfl <;> decide

/-- A value in a trimmed text is all of it. -/
theorem eq_text_of_inFront {w : Written} {s : List Char} {g : Gap}
    (h : InFront w (Text.trim s) g.1) : Text.trim s = w.text := by
  obtain ⟨⟨front, hfront⟩, hs⟩ := h
  obtain ⟨back, hback⟩ := g
  have hno : ∀ {c : Char}, isGap c = true → Text.isBlank c ≠ false := fun hc hblank => by
    rw [isBlank_of_isGap hc] at hblank
    cases hblank
  have hfirst := Text.head?_trim s
  have hlast := Text.getLast?_trim s
  rw [hs] at hfirst hlast ⊢
  cases front with
  | cons c front => exact absurd (hfirst c rfl) (hno (hfront c List.mem_cons_self))
  | nil =>
    rcases List.eq_nil_or_concat back with rfl | ⟨back, c, rfl⟩
    · exact List.append_nil _
    · refine absurd (hlast c ?_) (hno (hback c (by simp)))
      simp [← List.append_assoc]

/-- What is read as an envelope is an object or an array of its fields. -/
theorem of_parse_trim {s : List Char} {e : Envelope} (h : Envelope.parse (Text.trim s) = .ok e) :
    (∃ inside members, Text.trim s = (Written.object inside members).text) ∨
      ∃ inside items, Text.trim s = (Written.array inside items).text ∧
        Envelope.IsTuple (depthLimit - 1) items e := by
  obtain ⟨g, hread⟩ := @of_readAll _ (fun size => Envelope.layout.read size depthLimit) _ _ h
  rcases Record.of_read Envelope.takesValue_layout hread with
    ⟨inside, members, hobject⟩ | ⟨front, t, ht, harray⟩
  · exact .inl ⟨inside, members, eq_text_of_inFront hobject⟩
  · obtain ⟨inside, items, hitems, htuple⟩ := Envelope.of_readArray harray
    exact .inr ⟨inside, items, eq_text_of_inFront (ht ▸ hitems.gap front), htuple⟩

/-- An array of an envelope's fields is decoded as the envelope. -/
theorem parse_tuple {line : String} {inside : Gap} {items : List (Item Written)} {e : Envelope}
    (hline : Text.trim line.toList = (Written.array inside items).text)
    (h : Envelope.IsTuple (depthLimit - 1) items e) : parse line = .ok (ofEnvelope e) := by
  have hread : Envelope.parse (Written.array inside items).text = .ok e :=
    @readAll_of_read _ (fun size => Envelope.layout.read size depthLimit) _ _
      (Envelope.read_tuple h (Nat.lt_succ_self _))
  rw [parse_text hline, hread]

/-- A line is decoded as an envelope or not at all. -/
theorem exists_of_parse {line : String} {m : Inbound} (h : parse line = .ok m) :
    ∃ e, Envelope.parse (Text.trim line.toList) = .ok e ∧ m = ofEnvelope e := by
  unfold parse at h
  split at h
  next => cases h
  next =>
    split at h
    next e he =>
      cases h
      exact ⟨e, he, rfl⟩
    next => cases h

end Inbound

/-- A line that cannot be decoded is noted in the trace, and that is all. -/
theorem handleLine_of_error {κ : Type u} {υ : Type v} {line : String} {fault : LineError}
    (h : Inbound.parse line = .error fault) (s : Worker.Setup κ υ) (w : Worker κ υ)
    (o : Channel.Outlets) :
    s.handleLine w line o = (.ok (), w, o.note (Worker.event .warn "ignoring malformed line"
      [("state", .text w.phase.name), ("error", .shown fault.message)])) := by
  rw [Worker.Setup.handleLine, h]

/-- **Which lines that hold no object are messages**: those that hold an array of an envelope's
fields, in their order. Any other one is an error, and a worker in whatever state takes note of it
and stays as it is: it loads nothing, calls nothing and writes nothing. -/
theorem nonObject_message_iff {line : String}
    (hline : ∀ inside members, Text.trim line.toList ≠ (Written.object inside members).text) :
    (∀ m, Inbound.parse line = .ok m ↔ ∃ inside items e,
      Text.trim line.toList = (Written.array inside items).text ∧
      Envelope.IsTuple (depthLimit - 1) items e ∧ m = Inbound.ofEnvelope e) ∧
    ((∀ inside items e, Text.trim line.toList = (Written.array inside items).text →
        ¬Envelope.IsTuple (depthLimit - 1) items e) →
      ∃ fault, Inbound.parse line = .error fault ∧
        ∀ {κ : Type u} {υ : Type v} (s : Worker.Setup κ υ) (w : Worker κ υ) (o : Channel.Outlets),
          s.handleLine w line o = (.ok (), w, o.note (Worker.event .warn "ignoring malformed line"
            [("state", .text w.phase.name), ("error", .shown fault.message)]))) := by
  have hiff : ∀ m, Inbound.parse line = .ok m ↔ ∃ inside items e,
      Text.trim line.toList = (Written.array inside items).text ∧
      Envelope.IsTuple (depthLimit - 1) items e ∧ m = Inbound.ofEnvelope e := by
    intro m
    constructor
    · intro hm
      obtain ⟨e, he, rfl⟩ := Inbound.exists_of_parse hm
      rcases Inbound.of_parse_trim he with ⟨inside, members, hobject⟩ | ⟨inside, items, ha, ht⟩
      · exact absurd hobject (hline inside members)
      · exact ⟨inside, items, e, ha, ht, rfl⟩
    · rintro ⟨inside, items, e, ha, ht, rfl⟩
      exact Inbound.parse_tuple ha ht
  refine ⟨hiff, fun hno => ?_⟩
  cases hp : Inbound.parse line with
  | ok m =>
    obtain ⟨inside, items, e, ha, ht, -⟩ := (hiff m).1 hp
    exact absurd ht (hno inside items e ha)
  | error fault => exact ⟨fault, rfl, handleLine_of_error hp⟩

theorem head?_array (inside : Gap) (items : List (Item Written)) :
    (Written.array inside items).text.head? = some '[' := by
  cases items <;> rfl

theorem head?_object (inside : Gap) (members : List (Member Written)) :
    (Written.object inside members).text.head? = some '\x7b' := by
  cases members <;> rfl

/-- The characters of a string that stand for themselves. -/
def plainGlyphs (s : String) : List Glyph :=
  s.toList.filterMap fun c =>
    if h : c ≠ '"' ∧ c ≠ '\\' ∧ 0x20 ≤ c.toNat then some (.plain c h) else none

/-- An array with a time and blanks is a message, and an object with something behind it is none. -/
theorem nonObject_message_iff_timed :
    let line := "\u3000[\"request\", null ,\"now\"]\n"
    let line' := "\x7b\"type\":\"request\",\"data\":1\x7d x"
    (∀ inside members, Text.trim line.toList ≠ (Written.object inside members).text) ∧
    Inbound.parse line = .ok (.request .null) ∧
    (∀ inside members, Text.trim line'.toList ≠ (Written.object inside members).text) ∧
    ∃ fault, Inbound.parse line' = .error fault ∧
      ∀ (s : Worker.Setup Nat Nat) (w : Worker Nat Nat) (o : Channel.Outlets),
        s.handleLine w line' o = (.ok (), w, o.note (Worker.event .warn "ignoring malformed line"
          [("state", .text w.phase.name), ("error", .shown fault.message)])) := by
  intro line line'
  have hline : ∀ inside members, Text.trim line.toList ≠ (Written.object inside members).text := by
    intro inside members h
    exact absurd ((congrArg List.head? h).trans (head?_object inside members)) (by decide)
  have hline' : ∀ inside members,
      Text.trim line'.toList ≠ (Written.object inside members).text := by
    intro inside members h
    -- an object would be skipped to the end
    have hskip := skipValue_text (.object inside members) (Nat.le_refl _) Gap.empty .nil
    rw [List.append_nil, ← h] at hskip
    have hstop : (skipValue (Text.trim line'.toList).length (Text.trim line'.toList)).toOption =
        some [' ', 'x'] := by decide +kernel
    cases hstop.symm.trans (congrArg Except.toOption hskip)
  let space : Gap := ⟨[' '], List.all_eq_true.1 rfl⟩
  have htuple : Envelope.IsTuple (depthLimit - 1)
      [⟨.empty, .string (plainGlyphs "request"), .empty⟩, ⟨space, .null, space⟩,
        ⟨.empty, .string (plainGlyphs "now"), .empty⟩]
      ⟨"request", .null, some "now"⟩ := .timed (by decide) rfl (by decide) (by decide)
  refine ⟨hline, ?_, hline', ?_⟩
  · exact ((nonObject_message_iff.{0, 0} hline).1 _).2 ⟨.empty, _, _, by decide, htuple, rfl⟩
  · obtain ⟨fault, hfault, hhandled⟩ := (nonObject_message_iff hline').2 fun inside items e h _ =>
      absurd ((congrArg List.head? h).trans (head?_array inside items)) (by decide)
    exact ⟨fault, hfault, hhandled⟩

/-- An array is taken for an envelope. -/
theorem array_is_message :
    (∀ inside members,
      Text.trim "[\"request\",null]".toList ≠ (Written.object inside members).text) ∧
    Inbound.parse "[\"request\",null]" = .ok (.request .null) := by
  constructor
  · intro inside members h
    exact absurd ((congrArg List.head? h).trans (head?_object inside members)) (by decide)
  · have htuple : Envelope.IsTuple (depthLimit - 1)
        [⟨.empty, .string (plainGlyphs "request"), .empty⟩, ⟨.empty, .null, .empty⟩]
        ⟨"request", .null, none⟩ := .untimed (by decide) rfl (by decide)
    have hline : Text.trim "[\"request\",null]".toList = (Written.array .empty
        [⟨.empty, .string (plainGlyphs "request"), .empty⟩, ⟨.empty, .null, .empty⟩]).text := by
      decide
    exact Inbound.parse_tuple hline htuple

end ScriptWorker.Message

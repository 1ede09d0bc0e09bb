import Mathlib.Data.List.TakeWhile
import ScriptWorker.Message.Inbound
import ScriptWorker.Proofs.Json.Fields

/-!
# Which lines are messages

An object is read member by member into a draft of an envelope. `Draft.take` says what a member does
to the draft, from what is written and not from how it is read (`gives_readMember`); a run over all
members follows by induction (`gives_members`). Each field takes only the members of its name
(`takeAll_eq`) and is given once, so an object is a message just if it has one type, one payload and
at most one time (`isMessage_iff`). Other members are skipped whatever their values are.
-/

set_option autoImplicit false

namespace ScriptWorker.Message

open Json

namespace Envelope

/-! ## Drafts -/

/-- A field that is given once: a value goes into it if it is empty and the value is of its kind. -/
def fill {α : Type} (read : Written → Option α) (slot : Option α) (w : Written) :
    Option (Option α) :=
  match slot with
  | none => (read w).map some
  | some _ => none

/-- What a draft becomes by a member. -/
def Draft.take (d : Draft) (key : String) (w : Written) : Option Draft :=
  if key = "type" then (fill Written.text? d.kind w).map fun kind => { d with kind }
  else if key = "data" then (fill Written.value? d.data w).map fun data => { d with data }
  else if key = "time" then (fill Written.textOrNull? d.time w).map fun time => { d with time }
  else some d

/-- What a draft becomes by members in order. -/
def Draft.takeAll : Draft → List (Member Written) → Option Draft
  | d, [] => some d
  | d, m :: members =>
    (Glyph.string? m.name).bind fun key => (d.take key m.value).bind fun d => d.takeAll members

/-- Whether a member can be read as far as that matters: any value does where it is skipped. -/
def Legible (depth : Nat) (key : String) (w : Written) : Prop :=
  key ∈ ["type", "data", "time"] → ∃ v, w.value? = some v ∧ w.depth < depth

/-- A field is read if it is empty, and refused otherwise. -/
theorem gives_fill {α : Type} {read : Written → Option α} {w : Written} {rest : List Char}
    {r : Reading (α × List Char)} (h : Gives (read w) rest r) (slot : Option α)
    (put : Option α → Draft) (stop : Stop) :
    Gives ((fill read slot w).map put) rest (if slot.isSome = true then .error stop
      else r.bind fun found => .ok (put (some found.1), found.2)) := by
  cases slot with
  | some x => exact ⟨stop, rfl⟩
  | none =>
    have hput := h.map fun x => put (some x)
    rwa [fill, Option.map_map]

/-- **A member is read as what it does to the draft.** -/
theorem gives_readMember {size depth : Nat} {d : Draft} {key : String} {m : Member Written}
    (hm : Legible depth key m.value) (hsize : m.value.text.length < size) {rest : List Char}
    (hr : EndsNumber rest) :
    Gives (d.take key m.value) (m.after.1 ++ rest)
      (layout.readMember size depth d key (behindName m rest)) := by
  have hends := hr.gap m.after
  have hcolon := readColon_gap m.behind (m.front.1 ++ (m.value.text ++ (m.after.1 ++ rest)))
  rw [Draft.take, Record.readMember, behindName]
  by_cases htype : key = "type"
  · subst htype
    obtain ⟨v, hv, -⟩ := hm (by decide)
    have hread := gives_readText hv hsize m.front (m.after.1 ++ rest) "a string"
    simp only [if_true, hcolon]
    exact gives_fill hread d.kind (fun kind => { d with kind }) _
  by_cases hdata : key = "data"
  · subst hdata
    obtain ⟨v, hv, hd⟩ := hm (by decide)
    have hread : Gives m.value.value? (m.after.1 ++ rest)
        (readValue size depth (m.front.1 ++ (m.value.text ++ (m.after.1 ++ rest)))) := by
      rw [hv, readValue_gap]
      exact readValue_text m.value hv size depth hd hsize hends
    simp only [if_neg htype, if_true, hcolon]
    exact gives_fill hread d.data (fun data => { d with data }) _
  by_cases htime : key = "time"
  · subst htime
    obtain ⟨v, hv, -⟩ := hm (by decide)
    have hread := gives_readTextOrNull hv hsize m.front (m.after.1 ++ rest)
    simp only [if_neg htype, if_neg hdata, if_true, hcolon]
    exact gives_fill hread d.time (fun time => { d with time }) _
  · have hfield : layout.fields.find? (·.name == key) = none := by
      simp [layout, Ne.symm htype, Ne.symm hdata, Ne.symm htime]
    simp only [if_neg htype, if_neg hdata, if_neg htime, hfield, hcolon]
    show (skipValue _ _).bind _ = _
    rw [skipValue_text m.value (by omega) m.front hends]
    rfl

/-! ## Whole objects -/

/-- Names that can be decoded, of members that can be read as far as that matters. -/
def AllLegible (depth : Nat) (members : List (Member Written)) : Prop :=
  ∀ m ∈ members, ∃ key, Glyph.string? m.name = some key ∧ Legible depth key m.value

/-- Members behind others are read as what they do to the draft. -/
theorem gives_moreMembers {size depth : Nat} : {members : List (Member Written)} →
    AllLegible depth members → ∀ {fuel : Nat}, (Written.moreMembers members).length < size →
    (Written.moreMembers members).length < fuel → ∀ (d : Draft) (rest : List Char),
    Gives (d.takeAll members) ('\x7d' :: rest)
      (foldMembers size (layout.readMember size depth) fuel false d
        (Written.moreMembers members ++ '\x7d' :: rest))
  | [], _, fuel, _, hf, d, rest => by
    obtain ⟨fuel, rfl⟩ := Nat.exists_eq_add_of_lt hf
    exact foldMembers_end _ _ _ _
  | m :: members, hall, fuel, hs, hf, d, rest => by
    obtain ⟨⟨key, hkey, hm⟩, hall⟩ := List.forall_mem_cons.1 hall
    obtain ⟨hname, hvalue⟩ := length_lt_memberText m
    simp only [Written.moreMembers, List.length_cons, List.length_append] at hs hf
    obtain ⟨fuel, rfl⟩ : ∃ n, fuel = n + 2 := ⟨fuel - 2, by omega⟩
    rw [Written.moreMembers, List.cons_append, List.append_assoc,
      foldMembers_nextMember hkey (by omega), Draft.takeAll, hkey]
    refine (gives_readMember hm (by omega) (endsNumber_moreMembers members rest)).bind fun d => ?_
    show Gives _ _ (foldMembers _ _ (fuel + 1) false d _)
    rw [foldMembers_gap]
    exact gives_moreMembers hall (by omega) (by omega) d rest

/-- The envelope of a draft, if nothing is missing. -/
def Draft.envelope? (d : Draft) : Option Envelope :=
  match d.kind, d.data with
  | some kind, some data => some ⟨kind, data, d.time.join⟩
  | _, _ => none

/-- What the members of an object make up, if anything. -/
def ofMembers? (members : List (Member Written)) : Option Envelope :=
  (layout.start.takeAll members).bind Draft.envelope?

/-- The members of an object are read as what they do to an empty draft. -/
theorem gives_members {size depth : Nat} (inside : Gap) {members : List (Member Written)}
    (hall : AllLegible depth members) (hsize : (Written.object inside members).text.length < size) :
    ∃ s, (Written.object inside members).text = '\x7b' :: s ∧
      Gives (layout.start.takeAll members) ['\x7d']
        (foldMembers size (layout.readMember size depth) size true layout.start s) := by
  cases members with
  | nil =>
    obtain ⟨size, rfl⟩ := Nat.exists_eq_add_of_lt hsize
    refine ⟨_, rfl, ?_⟩
    rw [foldMembers_gap]
    exact foldMembers_end _ _ _ _
  | cons m members =>
    obtain ⟨⟨key, hkey, hm⟩, hall⟩ := List.forall_mem_cons.1 hall
    obtain ⟨hname, hvalue⟩ := length_lt_memberText m
    simp only [Written.text, List.length_cons, List.length_append] at hsize
    obtain ⟨size, rfl⟩ : ∃ n, size = n + 2 := ⟨size - 2, by omega⟩
    refine ⟨_, rfl, ?_⟩
    rw [foldMembers_member hkey (by omega), Draft.takeAll, hkey]
    refine (gives_readMember hm (by omega) (endsNumber_moreMembers members [])).bind fun d => ?_
    show Gives _ _ (foldMembers _ _ (size + 1) false d _)
    rw [foldMembers_gap]
    exact gives_moreMembers hall (by omega) (by omega) d []

/-- **An object is read as the envelope of its members.** -/
theorem gives_read (inside : Gap) {members : List (Member Written)} {size depth : Nat}
    (hall : AllLegible (depth + 1) members)
    (hsize : (Written.object inside members).text.length < size) :
    Gives (ofMembers? members) []
      (layout.read size (depth + 2) (Written.object inside members).text) := by
  obtain ⟨s, hs, hfold⟩ := gives_members inside hall hsize
  rw [hs, Record.read, skipGap_of_not_gap (show isGap '\x7b' = false by decide)]
  refine Gives.mapError (hfold.bind fun d => ?_) _
  obtain ⟨kind, data, time⟩ := d
  cases kind with
  | none => exact ⟨_, rfl⟩
  | some kind =>
    cases data with
    | none => exact ⟨_, rfl⟩
    | some data => rfl

end Envelope

/-! ## Members by their names -/

/-- The values of the members with a name, in order. Names are compared after decoding them. -/
def named (members : List (Member Written)) (name : String) : List Written :=
  (members.filter fun m => Glyph.string? m.name == some name).map (·.value)

theorem named_cons {m : Member Written} {key : String} (h : Glyph.string? m.name = some key)
    (members : List (Member Written)) (name : String) :
    named (m :: members) name =
      if key = name then m.value :: named members name else named members name := by
  by_cases hkey : key = name
  · simp [named, h, hkey]
  · simp [named, h, hkey]

namespace Envelope

section Slots

variable {α : Type} {read : Written → Option α}

/-- Values for one field, in order. -/
def fillAll (read : Written → Option α) : Option α → List Written → Option (Option α)
  | slot, [] => some slot
  | slot, w :: ws => (fill read slot w).bind fun slot => fillAll read slot ws

/-- A field that is empty at first takes no value or one. -/
theorem fillAll_eq_some_iff {ws : List Written} {slot : Option α} :
    fillAll read none ws = some slot ↔
      (ws = [] ∧ slot = none) ∨ ∃ w x, ws = [w] ∧ read w = some x ∧ slot = some x := by
  match ws with
  | [] => simp [fillAll, eq_comm]
  | [w] => cases hw : read w <;> simp [fillAll, fill, hw, eq_comm]
  | w :: w' :: ws => cases hw : read w <;> simp [fillAll, fill, hw]

end Slots

/-- **Each field takes the members of its name**, whatever stands between them. -/
theorem takeAll_eq {members : List (Member Written)}
    (h : ∀ m ∈ members, ∃ key, Glyph.string? m.name = some key) (d : Draft) :
    d.takeAll members =
      (fillAll Written.text? d.kind (named members "type")).bind fun kind =>
      (fillAll Written.value? d.data (named members "data")).bind fun data =>
      (fillAll Written.textOrNull? d.time (named members "time")).map fun time =>
        ⟨kind, data, time⟩ := by
  induction members generalizing d with
  | nil => rfl
  | cons m members ih =>
    obtain ⟨⟨key, hkey⟩, h⟩ := List.forall_mem_cons.1 h
    have hnamed := named_cons hkey members
    rw [Draft.takeAll, hkey, hnamed, hnamed, hnamed]
    unfold Draft.take
    by_cases htype : key = "type"
    · subst htype
      cases hfill : fill Written.text? d.kind m.value with
      | none => simp [fillAll, hfill]
      | some kind => simp [fillAll, hfill, ih h]
    by_cases hdata : key = "data"
    · subst hdata
      cases hfill : fill Written.value? d.data m.value with
      | none => simp [fillAll, hfill]
      | some data => simp [fillAll, hfill, ih h]
    by_cases htime : key = "time"
    · subst htime
      cases hfill : fill Written.textOrNull? d.time m.value with
      | none => simp [fillAll, hfill]
      | some time => simp [fillAll, hfill, ih h]
    simp [htype, hdata, htime, ih h]

/-- What stands in the fields of an envelope stands in the members of their names, one for each
field, and the time may be missing. -/
theorem ofMembers?_eq_some_iff {members : List (Member Written)} {e : Envelope}
    (h : ∀ m ∈ members, ∃ key, Glyph.string? m.name = some key) :
    ofMembers? members = some e ↔
      (∃ w, named members "type" = [w] ∧ w.text? = some e.kind) ∧
      (∃ w, named members "data" = [w] ∧ w.value? = some e.data) ∧
      ((named members "time" = [] ∧ e.time = none) ∨
        ∃ w, named members "time" = [w] ∧ w.textOrNull? = some e.time) := by
  obtain ⟨kind, data, time⟩ := e
  rw [ofMembers?, takeAll_eq h]
  simp only [Option.bind_eq_some_iff, Option.map_eq_some_iff, layout, fillAll_eq_some_iff]
  constructor
  · rintro ⟨d, ⟨kind', hkind, data', hdata, time', htime, rfl⟩, he⟩
    rcases hkind with ⟨-, rfl⟩ | ⟨w, k, hw, hk, rfl⟩
    · cases he
    rcases hdata with ⟨-, rfl⟩ | ⟨v, x, hv, hx, rfl⟩
    · cases he
    obtain ⟨rfl, rfl, rfl⟩ := Envelope.mk.inj (Option.some.inj he)
    refine ⟨⟨w, hw, hk⟩, ⟨v, hv, hx⟩, ?_⟩
    rcases htime with ⟨hnone, rfl⟩ | ⟨u, t, hu, ht, rfl⟩
    · exact .inl ⟨hnone, rfl⟩
    · exact .inr ⟨u, hu, ht⟩
  · rintro ⟨⟨w, hw, hkind⟩, ⟨v, hv, hdata⟩, htime⟩
    have htime' : ∃ t, (named members "time" = [] ∧ t = none ∨
        ∃ u x, named members "time" = [u] ∧ u.textOrNull? = some x ∧ t = some x) ∧
        t.join = time := by
      rcases htime with ⟨hnone, rfl⟩ | ⟨u, hu, ht⟩
      · exact ⟨none, .inl ⟨hnone, rfl⟩, rfl⟩
      · exact ⟨some time, .inr ⟨u, time, hu, ht, rfl⟩, rfl⟩
    obtain ⟨t, ht, rfl⟩ := htime'
    exact ⟨_, ⟨_, .inr ⟨w, kind, hw, hkind, rfl⟩, _, .inr ⟨v, data, hv, hdata, rfl⟩, t, ht, rfl⟩,
      rfl⟩

end Envelope

/-- The members that make an object a message: one type, which is a string, one payload, and at
most one time, which is a string or `null`. -/
structure IsMessage (members : List (Member Written)) : Prop where
  oneType : ∃ gs, named members "type" = [.string gs]
  oneData : ∃ w, named members "data" = [w]
  oneTime : named members "time" = [] ∨ named members "time" = [.null] ∨
    ∃ gs, named members "time" = [.string gs]

theorem value?_of_named {depth : Nat} {members : List (Member Written)}
    (h : Envelope.AllLegible depth members) {name : String}
    (hname : name ∈ ["type", "data", "time"]) {w : Written} (hw : w ∈ named members name) :
    ∃ v, w.value? = some v := by
  obtain ⟨m, hm, rfl⟩ := List.mem_map.1 hw
  obtain ⟨hmem, hkey⟩ := List.mem_filter.1 hm
  obtain ⟨key, hkey', hlegible⟩ := h m hmem
  obtain rfl : key = name := by simpa [hkey'] using hkey
  obtain ⟨v, hv, -⟩ := hlegible hname
  exact ⟨v, hv⟩

/-- The members of a message are those that make up an envelope. -/
theorem isMessage_iff {depth : Nat} {members : List (Member Written)}
    (h : Envelope.AllLegible depth members) :
    IsMessage members ↔ ∃ e, Envelope.ofMembers? members = some e := by
  have hnames : ∀ m ∈ members, ∃ key, Glyph.string? m.name = some key := fun m hm =>
    (h m hm).imp fun _ hkey => hkey.1
  have hstring : ∀ {name gs}, name ∈ ["type", "data", "time"] →
      named members name = [.string gs] → ∃ s, Glyph.string? gs = some s := by
    intro name gs hname hnamed
    obtain ⟨v, hv⟩ := value?_of_named h hname (hnamed ▸ List.mem_singleton_self _)
    obtain ⟨s, hs, -⟩ := Option.map_eq_some_iff.1 hv
    exact ⟨s, hs⟩
  simp only [Envelope.ofMembers?_eq_some_iff hnames]
  constructor
  · rintro ⟨⟨gs, hgs⟩, ⟨w, hw⟩, htime⟩
    obtain ⟨kind, hkind⟩ := hstring (by decide) hgs
    obtain ⟨data, hdata⟩ := value?_of_named h (by decide) (hw ▸ List.mem_singleton_self _)
    have htime' : ∃ time, (named members "time" = [] ∧ time = none) ∨
        ∃ w, named members "time" = [w] ∧ w.textOrNull? = some time := by
      rcases htime with hnone | hnull | ⟨ts, hts⟩
      · exact ⟨none, .inl ⟨hnone, rfl⟩⟩
      · exact ⟨none, .inr ⟨.null, hnull, rfl⟩⟩
      · obtain ⟨time, ht⟩ := hstring (by decide) hts
        exact ⟨some time, .inr ⟨_, hts, by rw [Written.textOrNull?, ht]; rfl⟩⟩
    obtain ⟨time, htime⟩ := htime'
    exact ⟨⟨kind, data, time⟩, ⟨_, hgs, hkind⟩, ⟨w, hw, hdata⟩, htime⟩
  · rintro ⟨e, ⟨w, hw, hkind⟩, ⟨v, hv, -⟩, htime⟩
    refine ⟨?_, ⟨v, hv⟩, ?_⟩
    · cases w with
      | string gs => exact ⟨gs, hw⟩
      | _ => cases hkind
    · rcases htime with ⟨hnone, -⟩ | ⟨u, hu, ht⟩
      · exact .inl hnone
      · cases u with
        | null => exact .inr (.inl hu)
        | string gs => exact .inr (.inr ⟨gs, hu⟩)
        | _ => cases ht

namespace Inbound

/-- A value is decoded as it stands, without the blanks around it. -/
theorem parse_text {line : String} {w : Written} (hline : Text.trim line.toList = w.text) :
    parse line =
      match Envelope.parse w.text with
      | .ok e => .ok (ofEnvelope e)
      | .error fault => .error (.invalid fault) := by
  obtain ⟨c, t, htext, -⟩ := startsValue_text w []
  rw [List.append_nil] at htext
  rw [htext] at hline ⊢
  cases he : Envelope.parse (c :: t) <;> simp only [parse, hline, he]

section

variable {line : String} {inside : Gap} {members : List (Member Written)}
  (hline : Text.trim line.toList = (Written.object inside members).text)
  (hall : Envelope.AllLegible (depthLimit - 1) members)

include hline hall

/-- An object is decoded as the envelope that its members make up. -/
theorem parse_of_members {e : Envelope} (he : Envelope.ofMembers? members = some e) :
    parse line = .ok (ofEnvelope e) := by
  have hread := Envelope.gives_read inside hall (Nat.lt_succ_self _)
  rw [he] at hread
  have hparse : Envelope.parse (Written.object inside members).text = .ok e :=
    @readAll_of_read _ (fun size => Envelope.layout.read size depthLimit) _ _ hread
  rw [parse_text hline, hparse]

/-- An object whose members make up no envelope is refused. -/
theorem parse_of_no_members (he : Envelope.ofMembers? members = none) :
    ∃ fault, parse line = .error (.invalid fault) := by
  have hread := Envelope.gives_read inside hall (Nat.lt_succ_self _)
  rw [he] at hread
  obtain ⟨fault, hfault⟩ : ∃ fault,
      Envelope.parse (Written.object inside members).text = .error fault :=
    @readAll_of_stop _ (fun size => Envelope.layout.read size depthLimit) _ hread
  exact ⟨fault, by rw [parse_text hline, hfault]⟩

end

theorem parse_blank {line : String} (h : Text.allBlank line = true) :
    parse line = .error .blank := by
  have htrim : Text.trim line.toList = [] := by
    rw [Text.trim, List.dropWhile_eq_nil_iff.2 (List.all_eq_true.1 h)]
    rfl
  rw [parse, htrim]

/-- **Which lines are messages.** A line of blanks is none. An object is one if it has one type,
which is a string, one payload, and at most one time, which is a string or `null`; then the type
and the payload tell the message. Neither the order of the members nor any others matter. -/
theorem parse_accepts (line : String) :
    (Text.allBlank line = true → parse line = .error .blank) ∧
    ∀ (inside : Gap) (members : List (Member Written)),
      Text.trim line.toList = (Written.object inside members).text →
      Envelope.AllLegible (depthLimit - 1) members →
      ((∃ message, parse line = .ok message) ↔ IsMessage members) ∧
      (IsMessage members → ∃ gs kind w data,
        named members "type" = [.string gs] ∧ Glyph.string? gs = some kind ∧
        named members "data" = [w] ∧ w.value? = some data ∧
        parse line = .ok (if kind = "function" then .function data
          else if kind = "request" then .request data else .other kind)) ∧
      (¬IsMessage members → ∃ fault, parse line = .error (.invalid fault)) := by
  refine ⟨parse_blank, fun inside members hline hall => ?_⟩
  have hrefused : ¬IsMessage members → ∃ fault, parse line = .error (.invalid fault) := by
    intro hno
    refine parse_of_no_members hline hall ?_
    exact Option.eq_none_iff_forall_ne_some.2 fun e he => hno ((isMessage_iff hall).2 ⟨e, he⟩)
  have haccepted : IsMessage members → ∃ gs kind w data,
      named members "type" = [.string gs] ∧ Glyph.string? gs = some kind ∧
      named members "data" = [w] ∧ w.value? = some data ∧
      parse line = .ok (if kind = "function" then .function data
        else if kind = "request" then .request data else .other kind) := by
    intro hmessage
    obtain ⟨e, he⟩ := (isMessage_iff hall).1 hmessage
    have hnames : ∀ m ∈ members, ∃ key, Glyph.string? m.name = some key := fun m hm =>
      (hall m hm).imp fun _ hkey => hkey.1
    obtain ⟨⟨w, hw, hkind⟩, ⟨v, hv, hdata⟩, -⟩ := (Envelope.ofMembers?_eq_some_iff hnames).1 he
    obtain ⟨gs, hgs⟩ := hmessage.oneType
    obtain rfl : Written.string gs = w := List.singleton_inj.1 (hgs.symm.trans hw)
    refine ⟨gs, e.kind, v, e.data, hgs, hkind, hv, hdata, ?_⟩
    rw [parse_of_members hline hall he]
    unfold ofEnvelope
    split
    · rfl
    · split <;> rfl
  refine ⟨⟨?_, fun hmessage => ?_⟩, haccepted, hrefused⟩
  · rintro ⟨message, hmessage⟩
    apply Classical.byContradiction
    intro hno
    obtain ⟨fault, hfault⟩ := hrefused hno
    rw [hmessage] at hfault
    cases hfault
  · obtain ⟨_, _, _, _, -, -, -, -, hparse⟩ := haccepted hmessage
    exact ⟨_, hparse⟩

/-- A request between blanks, with an escape in a name and a member that is skipped although its
number is out of range. -/
theorem parse_accepts_escaped :
    let empty : Gap := ⟨[], nofun⟩
    let space : Gap := ⟨[' '], List.all_eq_true.1 rfl⟩
    let word (s : List Char)
        (h : (s.all fun c => decide (c ≠ '"' ∧ c ≠ '\\' ∧ 0x20 ≤ c.toNat)) = true) : List Glyph :=
      s.attach.map fun c => .plain c.1 (of_decide_eq_true (List.all_eq_true.1 h c.1 c.2))
    let great : Numeral := ⟨true, ⟨['1'], by decide, List.all_eq_true.1 rfl⟩, none,
      some ⟨true, some false, ⟨['9', '9', '9'], by decide, List.all_eq_true.1 rfl⟩⟩, by decide⟩
    let escaped : Glyph :=
      .code ⟨'0', by decide⟩ ⟨'0', by decide⟩ ⟨'6', by decide⟩ ⟨'1', by decide⟩
    let members : List (Member Written) := [
      ⟨space, word ['x'] (by decide), space, empty, .array empty [⟨empty, .object space [], empty⟩,
        ⟨space, .number great, space⟩], empty⟩,
      ⟨empty, word ['d'] (by decide) ++ escaped :: word ['t', 'a'] (by decide), empty, empty, .null,
        empty⟩,
      ⟨empty, word ['t', 'y', 'p', 'e'] (by decide), empty, space,
        .string (word ['r', 'e', 'q', 'u', 'e', 's', 't'] (by decide)), space⟩]
    let line := "\u3000\x7b \"x\" :[\x7b \x7d, -1E+999 ],\"d\\u0061ta\":null," ++
      "\"type\": \"request\" \x7d\n"
    Text.trim line.toList = (Written.object empty members).text ∧
      Envelope.AllLegible (depthLimit - 1) members ∧ IsMessage members ∧
      parse line = .ok (.request .null) ∧
      Text.allBlank "\u3000\n" = true ∧ parse "\u3000\n" = .error .blank := by
  intro empty space word great escaped members line
  have hline : Text.trim line.toList = (Written.object empty members).text := by decide
  have hall : Envelope.AllLegible (depthLimit - 1) members :=
    List.forall_mem_cons.2 ⟨⟨"x", rfl, (absurd · (by decide))⟩,
      List.forall_mem_cons.2 ⟨⟨"data", rfl, fun _ => ⟨.null, rfl, by decide⟩⟩,
        List.forall_mem_cons.2 ⟨⟨"type", rfl, fun _ => ⟨.string "request", rfl, by decide⟩⟩,
          nofun⟩⟩⟩
  have hmessage : IsMessage members := ⟨⟨_, rfl⟩, ⟨_, rfl⟩, .inl rfl⟩
  obtain ⟨gs, kind, w, data, hgs, hkind, hw, hdata, hparse⟩ :=
    ((parse_accepts line).2 empty members hline hall).2.1 hmessage
  have hblank : Text.allBlank "\u3000\n" = true := by decide
  obtain rfl : _ = gs := Written.string.inj (List.singleton_inj.1 hgs)
  obtain rfl : Written.null = w := List.singleton_inj.1 hw
  obtain rfl : "request" = kind := Option.some.inj hkind
  obtain rfl : Value.null = data := Option.some.inj hdata
  exact ⟨hline, hall, hmessage, hparse, hblank, (parse_accepts _).1 hblank⟩

end Inbound

end ScriptWorker.Message

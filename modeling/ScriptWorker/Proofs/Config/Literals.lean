import ScriptWorker.Proofs.Config.Scalars
import ScriptWorker.Proofs.Text.Trimming

/-!
# Values in variables

The values that a text can spell: truth values, numbers, strings in quotes, lists and tables, with
blanks around them, and bare texts (`Spelled`). A value is read just where it is spelled
(`readValue_eq_some_iff`). One induction on the fuel carries values, items and members at once, in
each of the two directions (`Takes`, `Reads`).

So the text of a variable, without the blanks around it, is a list by its commas (`Listed`), or the
value that it writes as a literal (`Literal`), or a string, which is the text itself
(`valueOf_listed`, `valueOf_literal`, `valueOf_other`).
-/

set_option autoImplicit false

namespace ScriptWorker.Config.Variables

open Loading.Signature (span_append)

/-! ## Spellings -/

/-- Nothing but ASCII blanks. -/
def Blanks (s : List Char) : Prop := ∀ c ∈ s, isBlank c = true

/-- A text that is read as a bare one: no value starts with it, and no character in it ends it. -/
structure Bare (s : List Char) : Prop where
  plain : ∀ c ∈ s, isSeparator c = false
  head : ∀ c ∈ s.head?, isBlank c = false ∧ c ≠ '"' ∧ c ≠ '\''
  notTrue : ¬"true".toList <+: s
  notFalse : ¬"false".toList <+: s

/-- A key of a table with the blanks around it, and the sign behind it. -/
inductive Label : List Char → List Char → Prop
  | mk {front back name key : List Char} (hf : Blanks front) (hb : Blanks back)
      (hk : Key name key) : Label name (front ++ (key ++ (back ++ ['='])))

mutual

/-- A text that shows itself where it ends, and the value that it spells. -/
inductive Closed : Json.Value → List Char → Prop
  | yes : Closed (.bool true) "true".toList
  | no : Closed (.bool false) "false".toList
  | quoted {t s : List Char} (h : Quoted t s) :
      Closed (.string (String.ofList t)) ('"' :: (s ++ ['"']))
  | single (c : Char) : Closed (.string (String.ofList [c])) ['\'', c, '\'']
  | list {vs : List Json.Value} {s : List Char} (h : Items vs s) :
      Closed (.array vs) ('[' :: (s ++ [']']))
  | table {ms : List (String × Json.Value)} {s : List Char} (h : Members ms s) :
      Closed (.ofMembers ms) ('\x7b' :: (s ++ ['\x7d']))

/-- A text and the value that it spells, with the blanks around. -/
inductive Spelled : Json.Value → List Char → Prop
  | closed {v : Json.Value} {front back s : List Char} (hf : Blanks front) (hb : Blanks back)
      (h : Closed v s) : Spelled v (front ++ (s ++ back))
  | bare {v : Json.Value} {front s : List Char} (hf : Blanks front) (hs : Bare s)
      (h : Word v (Text.trim s)) : Spelled v (front ++ s)

/-- The inside of a list. A comma may stand behind the last item. -/
inductive Items : List Json.Value → List Char → Prop
  | nil : Items [] []
  | last {v : Json.Value} {s : List Char} (h : Spelled v s) (hne : s ≠ []) : Items [v] s
  | more {v : Json.Value} {vs : List Json.Value} {s rest : List Char} (h : Spelled v s)
      (hrest : Items vs rest) : Items (v :: vs) (s ++ ',' :: rest)

/-- The inside of a table. A comma may stand behind the last member. -/
inductive Members : List (String × Json.Value) → List Char → Prop
  | nil : Members [] []
  | last {v : Json.Value} {name label s : List Char} (hl : Label name label) (h : Spelled v s) :
      Members [(String.ofList name, v)] (label ++ s)
  | more {v : Json.Value} {ms : List (String × Json.Value)} {name label s rest : List Char}
      (hl : Label name label) (h : Spelled v s) (hrest : Members ms rest) :
      Members ((String.ofList name, v) :: ms) (label ++ (s ++ ',' :: rest))

end

/-! ## What is spelled is read -/

/-- What may follow an item: what separates or closes items, or the end. -/
def Ended (rest : List Char) : Prop := ∀ c ∈ rest.head?, c = ',' ∨ c = ']' ∨ c = '\x7d'

theorem Ended.not_blank {rest : List Char} (h : Ended rest) :
    ∀ c ∈ rest.head?, isBlank c = false := by
  intro c hc
  rcases h c hc with rfl | rfl | rfl <;> rfl

theorem Ended.separator {rest : List Char} (h : Ended rest) :
    ∀ c ∈ rest.head?, isSeparator c = true := by
  intro c hc
  rcases h c hc with rfl | rfl | rfl <;> rfl

theorem readValue_blanks {front : List Char} (hf : Blanks front) (fuel : Nat) (s : List Char) :
    readValue fuel (front ++ s) = readValue fuel s := by
  cases fuel with
  | zero => rfl
  | succ fuel => rw [readValue, readValue, List.dropWhile_append_of_pos hf]

/-- A text with a word in front, if none of the word's characters stands behind the text. -/
theorem prefix_of_append {p s rest : List Char} (h : p <+: s ++ rest)
    (hp : ∀ c ∈ rest.head?, c ∉ p) : p <+: s := by
  obtain ⟨t, ht⟩ := h
  rcases List.append_eq_append_iff.1 ht with ⟨more, hs, -⟩ | ⟨more, hs, hrest⟩
  · exact ⟨more, hs.symm⟩
  · cases more with
    | nil => exact ⟨[], by rw [hs, List.append_nil, List.append_nil]⟩
    | cons c more =>
      refine absurd ?_ (hp c (by rw [hrest]; rfl))
      rw [hs]
      simp

theorem Ended.not_prefix {rest : List Char} (h : Ended rest) {p s : List Char}
    (hp : ',' ∉ p ∧ ']' ∉ p ∧ '\x7d' ∉ p) (hno : ¬p <+: s) : ¬p <+: s ++ rest := by
  refine fun hs => hno (prefix_of_append hs fun c hc => ?_)
  rcases h c hc with rfl | rfl | rfl
  exacts [hp.1, hp.2.1, hp.2.2]

/-- No value starts where a bare text starts. -/
theorem Bare.head_append {s rest : List Char} (hs : Bare s) (hrest : Ended rest) :
    ∀ c ∈ (s ++ rest).head?, isBlank c = false ∧ c ∉ ['\x7b', '[', '"', '\''] := by
  intro c hc
  cases s with
  | nil => rcases hrest c hc with rfl | rfl | rfl <;> decide
  | cons d s =>
    cases hc
    obtain ⟨hblank, hquote, hsingle⟩ := hs.head c rfl
    have hplain := hs.plain c List.mem_cons_self
    refine ⟨hblank, fun hm => ?_⟩
    simp only [List.mem_cons, List.not_mem_nil, or_false] at hm
    rcases hm with rfl | rfl | rfl | rfl
    exacts [(nomatch hplain), (nomatch hplain), hquote rfl, hsingle rfl]

theorem readValue_bare {s rest : List Char} (hs : Bare s) (hrest : Ended rest) (fuel : Nat) :
    readValue (fuel + 1) (s ++ rest) = some (bareValue (Text.trim s), rest) := by
  have hhead := hs.head_append hrest
  have hyes := hrest.not_prefix (by decide) hs.notTrue
  have hno := hrest.not_prefix (by decide) hs.notFalse
  have hdrop : (s ++ rest).dropWhile isBlank = s ++ rest :=
    Text.dropWhile_eq_self fun c hc => (hhead c hc).1
  have hspan : (s ++ rest).span (!isSeparator ·) = (s, rest) :=
    span_append (fun c hc => by simp [hs.plain c hc]) fun c hc => by simp [hrest.separator c hc]
  have hback : rest.dropWhile isBlank = rest := Text.dropWhile_eq_self hrest.not_blank
  unfold readValue
  rw [hdrop]
  split
  case h_1 t heq => exact absurd ⟨t, heq.symm⟩ hyes
  case h_2 t heq => exact absurd ⟨t, heq.symm⟩ hno
  case h_3 heq | h_4 heq | h_5 heq | h_6 heq | h_7 heq =>
    refine absurd ?_ (hhead _ (by rw [heq]; rfl)).2
    decide
  case h_8 =>
    rw [hspan]
    change some (bareValue (Text.trim s), rest.dropWhile isBlank) = _
    rw [hback]

/-- With this fuel, all that is spelled is read. Items and members need one step more, for what
closes them. -/
structure Takes (fuel : Nat) : Prop where
  value : ∀ {v : Json.Value} {s rest : List Char}, Spelled v s → Ended rest → s.length < fuel →
    readValue fuel (s ++ rest) = some (v, rest)
  items : ∀ {vs : List Json.Value} {s : List Char} (done : List Json.Value) (rest : List Char),
    Items vs s → s.length + 1 < fuel →
    readItems fuel done (s ++ ']' :: rest) = some (done.reverse ++ vs, rest)
  members : ∀ {ms : List (String × Json.Value)} {s : List Char}
    (done : List (String × Json.Value)) (rest : List Char),
    Members ms s → s.length + 1 < fuel →
    readMembers fuel done (s ++ '\x7d' :: rest) = some (done.reverse ++ ms, rest)

theorem Closed.not_blank {v : Json.Value} {s : List Char} (h : Closed v s) (rest : List Char) :
    ∀ c ∈ (s ++ rest).head?, isBlank c = false := by
  cases h <;> · rintro c ⟨⟩; rfl

/-- A value that shows where it ends is read up to there. -/
theorem Takes.closed {fuel : Nat} (ih : Takes fuel) {v : Json.Value} {s rest : List Char}
    (h : Closed v s) (hfuel : s.length < fuel + 1) :
    readValue (fuel + 1) (s ++ rest) = some (v, rest.dropWhile isBlank) := by
  have hdrop : (s ++ rest).dropWhile isBlank = s ++ rest :=
    Text.dropWhile_eq_self (h.not_blank rest)
  rw [readValue, hdrop]
  cases h with
  | yes | no => rfl
  | @quoted t s h =>
    have hread : readQuoted (s ++ '"' :: rest) = some (String.ofList t, rest) :=
      readQuoted_eq_some_iff.2 ⟨t, s, h, rfl, rfl⟩
    simp [hread]
  | single c => rfl
  | @list vs s h =>
    have hlen : s.length + 1 < fuel := by
      rw [List.length_cons, List.length_append, List.length_singleton] at hfuel
      omega
    simp [ih.items [] rest h hlen]
  | @table ms s h =>
    have hlen : s.length + 1 < fuel := by
      rw [List.length_cons, List.length_append, List.length_singleton] at hfuel
      omega
    simp [ih.members [] rest h hlen]

/-- A text that spells a value does not close the list that it stands in. -/
theorem Spelled.not_close {v : Json.Value} {s : List Char} (h : Spelled v s) :
    ∀ c ∈ s.head?, c ≠ ']' := by
  have blank : ∀ {front : List Char}, Blanks front → ∀ c ∈ front.head?, c ≠ ']' := by
    rintro front hf _ hc rfl
    cases hf ']' (List.mem_of_head? hc)
  intro c hc
  cases h with
  | @closed v front back s hf hb h =>
    cases front with
    | nil => cases h <;> · cases hc; decide
    | cons d front => exact blank hf c hc
  | @bare v front s hf hs h =>
    cases front with
    | nil =>
      rintro rfl
      cases hs.plain ']' (List.mem_of_head? hc)
    | cons d front => exact blank hf c hc

theorem isKeyChar_of_isBlank {c : Char} (h : isBlank c = true) : isKeyChar c = false := by
  simp only [isBlank, Bool.or_eq_true, decide_eq_true_eq] at h
  rcases h with (((rfl | rfl) | rfl) | rfl) | rfl <;> rfl

theorem Key.exists_head {name key : List Char} (h : Key name key) :
    ∃ c rest, key = c :: rest ∧ isBlank c = false ∧ c ≠ '\x7d' := by
  cases h with
  | quoted h => exact ⟨_, _, rfl, rfl, by decide⟩
  | bare hne hs =>
    obtain ⟨c, rest, rfl⟩ := List.exists_cons_of_ne_nil hne
    have hc := hs c List.mem_cons_self
    refine ⟨c, rest, rfl, ?_, ?_⟩
    · by_contra hblank
      rw [isKeyChar_of_isBlank (by simpa using hblank)] at hc
      cases hc
    · rintro rfl
      cases hc

/-- A key with its sign does not close the table that it stands in. -/
theorem Label.not_close {name label : List Char} (h : Label name label) :
    ∀ c ∈ label.head?, c ≠ '\x7d' := by
  obtain @⟨front, back, name, key, hf, hb, hk⟩ := h
  intro c hc
  cases front with
  | cons d front =>
    cases hc
    rintro rfl
    cases hf '\x7d' List.mem_cons_self
  | nil =>
    obtain ⟨d, rest, rfl, -, hd⟩ := hk.exists_head
    cases hc
    exact hd

theorem Label.ne_nil {name label : List Char} (h : Label name label) : label ≠ [] := by
  cases h
  simp

/-- A key is read, and the sign behind it follows. -/
theorem readLabel {name label : List Char} (h : Label name label) (rest : List Char) :
    ∃ behind, readKey ((label ++ rest).dropWhile isBlank) = some (String.ofList name, behind) ∧
      behind.dropWhile isBlank = '=' :: rest := by
  obtain @⟨front, back, name, key, hf, hb, hk⟩ := h
  have hend : ∀ c ∈ (back ++ '=' :: rest).head?, isKeyChar c = false := by
    intro c hc
    cases back with
    | nil =>
      cases hc
      rfl
    | cons d back =>
      cases hc
      exact isKeyChar_of_isBlank (hb c List.mem_cons_self)
  have hstart : ∀ c ∈ (key ++ (back ++ '=' :: rest)).head?, isBlank c = false := by
    obtain ⟨c, more, rfl, hc, -⟩ := hk.exists_head
    rintro _ ⟨⟩
    exact hc
  have hsplit : front ++ (key ++ (back ++ ['='])) ++ rest =
      front ++ (key ++ (back ++ '=' :: rest)) := by simp
  refine ⟨back ++ '=' :: rest, ?_, Text.dropWhile_around hb (by rintro _ ⟨⟩; rfl)⟩
  rw [hsplit, Text.dropWhile_around hf hstart]
  exact readKey_of_key hk hend

section

variable {fuel : Nat} {s rest : List Char} {v : Json.Value}

theorem readItems_open (hs : ∀ c ∈ s.head?, c ≠ ']') (done : List Json.Value) :
    readItems (fuel + 1) done s = (readValue fuel s).bind fun r =>
      match r.2 with
      | ',' :: rest => readItems fuel (r.1 :: done) rest
      | ']' :: rest => some ((r.1 :: done).reverse, rest)
      | _ => none := by
  rw [readItems]
  · rfl
  · rintro rest rfl
    exact hs _ rfl rfl

theorem readMembers_label {name label : List Char} (hl : Label name label)
    (done : List (String × Json.Value)) :
    readMembers (fuel + 1) done (label ++ s) = (readValue fuel s).bind fun r =>
      match r.2 with
      | ',' :: rest => readMembers fuel ((String.ofList name, r.1) :: done) rest
      | '\x7d' :: rest => some (((String.ofList name, r.1) :: done).reverse, rest)
      | _ => none := by
  obtain ⟨rest, hkey, hsign⟩ := readLabel hl s
  rw [readMembers]
  · simp only [hkey, Option.bind_eq_bind, Option.bind_some, hsign]
    rfl
  · intro rest heq
    obtain ⟨c, label, rfl⟩ := List.exists_cons_of_ne_nil hl.ne_nil
    exact hl.not_close c rfl (List.cons.inj heq).1

end

theorem Takes.succ {fuel : Nat} (ih : Takes fuel) : Takes (fuel + 1) where
  value := by
    intro v s rest h hrest hfuel
    cases h with
    | @closed v front back s hf hb h =>
      have hlen : s.length < fuel + 1 := by
        rw [List.length_append, List.length_append] at hfuel
        omega
      rw [List.append_assoc, readValue_blanks hf, List.append_assoc, ih.closed h hlen,
        Text.dropWhile_around hb hrest.not_blank]
    | @bare v front s hf hs h =>
      rw [List.append_assoc, readValue_blanks hf, readValue_bare hs hrest, word_iff.1 h]
  items := by
    intro vs s done rest h hfuel
    cases h with
    | nil =>
      rw [List.append_nil]
      rfl
    | @last v s h hne =>
      have hread : readValue fuel (s ++ ']' :: rest) = some (v, ']' :: rest) :=
        ih.value h (by rintro _ ⟨⟩; decide) (by omega)
      have hopen : ∀ c ∈ (s ++ ']' :: rest).head?, c ≠ ']' := by
        obtain ⟨c, s, rfl⟩ := List.exists_cons_of_ne_nil hne
        exact h.not_close
      rw [readItems_open hopen, hread]
      simp
    | @more v vs s more h hmore =>
      rw [List.length_append, List.length_cons] at hfuel
      have hread : readValue fuel (s ++ ',' :: (more ++ ']' :: rest)) =
          some (v, ',' :: (more ++ ']' :: rest)) :=
        ih.value h (by rintro _ ⟨⟩; decide) (by omega)
      -- an item may be empty, but a comma does not close the list either
      have hopen : ∀ c ∈ (s ++ ',' :: (more ++ ']' :: rest)).head?, c ≠ ']' := by
        cases s with
        | nil => rintro _ ⟨⟩; decide
        | cons c s => exact h.not_close
      rw [List.append_assoc, List.cons_append, readItems_open hopen, hread]
      simp [ih.items _ _ hmore (by omega)]
  members := by
    intro ms s done rest h hfuel
    cases h with
    | nil =>
      rw [List.append_nil]
      rfl
    | @last v name label s hl h =>
      have hlen : s.length < fuel := by
        rw [List.length_append] at hfuel
        omega
      have hread : readValue fuel (s ++ '\x7d' :: rest) = some (v, '\x7d' :: rest) :=
        ih.value h (by rintro _ ⟨⟩; decide) hlen
      rw [List.append_assoc, readMembers_label hl, hread]
      simp
    | @more v ms name label s more hl h hmore =>
      rw [List.length_append, List.length_append, List.length_cons] at hfuel
      have hread : readValue fuel (s ++ ',' :: (more ++ '\x7d' :: rest)) =
          some (v, ',' :: (more ++ '\x7d' :: rest)) :=
        ih.value h (by rintro _ ⟨⟩; decide) (by omega)
      rw [List.append_assoc, List.append_assoc, List.cons_append, readMembers_label hl, hread]
      simp [ih.members _ _ hmore (by omega)]

theorem takes (fuel : Nat) : Takes fuel := by
  induction fuel with
  | zero => exact ⟨nofun, nofun, nofun⟩
  | succ fuel ih => exact ih.succ

/-! ## What is read is spelled -/

/-- What is read with this fuel is spelled there. -/
structure Reads (fuel : Nat) : Prop where
  value : ∀ {s rest : List Char} {v : Json.Value}, readValue fuel s = some (v, rest) →
    ∃ w, s = w ++ rest ∧ Spelled v w
  items : ∀ {s rest : List Char} {done vs : List Json.Value},
    readItems fuel done s = some (vs, rest) →
      ∃ w more, s = w ++ ']' :: rest ∧ vs = done.reverse ++ more ∧ Items more w
  members : ∀ {s rest : List Char} {done ms : List (String × Json.Value)},
    readMembers fuel done s = some (ms, rest) →
      ∃ w more, s = w ++ '\x7d' :: rest ∧ ms = done.reverse ++ more ∧ Members more w

theorem exists_blanks (s : List Char) : ∃ front, Blanks front ∧ s = front ++ s.dropWhile isBlank :=
  ⟨s.takeWhile isBlank, fun _ => List.mem_takeWhile_imp, List.takeWhile_append_dropWhile.symm⟩

/-- A bare text goes on to the next separator. -/
theorem exists_bare {s : List Char} (hhead : ∀ c ∈ s.head?, isBlank c = false ∧ c ≠ '"' ∧ c ≠ '\'')
    (hyes : ¬"true".toList <+: s) (hno : ¬"false".toList <+: s) :
    ∃ w rest, s.span (!isSeparator ·) = (w, rest) ∧ s = w ++ rest ∧ Bare w ∧
      rest.dropWhile isBlank = rest := by
  refine ⟨_, _, List.span_eq_takeWhile_dropWhile _ s, List.takeWhile_append_dropWhile.symm,
    ⟨fun c hc => ?_, fun c hc => ?_, fun h => ?_, fun h => ?_⟩, ?_⟩
  · simpa using List.mem_takeWhile_imp hc
  · refine hhead c ?_
    cases s with
    | nil => cases hc
    | cons d s =>
      rw [List.takeWhile_cons] at hc
      split at hc
      · exact hc
      · cases hc
  · exact hyes (h.trans (List.takeWhile_prefix _))
  · exact hno (h.trans (List.takeWhile_prefix _))
  · refine Text.dropWhile_eq_self fun c hc => ?_
    have hsep : isSeparator c = true := by simpa using Text.head?_dropWhile _ s c hc
    by_contra hblank
    simp only [isSeparator, Bool.or_eq_true, decide_eq_true_eq] at hsep
    rcases hsep with (((rfl | rfl) | rfl) | rfl) | rfl <;> exact hblank rfl

theorem Reads.value_succ {fuel : Nat} (ih : Reads fuel) {s rest : List Char} {v : Json.Value}
    (h : readValue (fuel + 1) s = some (v, rest)) : ∃ w, s = w ++ rest ∧ Spelled v w := by
  obtain ⟨front, hfront, hs⟩ := exists_blanks s
  have closed : ∀ {w behind : List Char}, s.dropWhile isBlank = w ++ behind → Closed v w →
      behind.dropWhile isBlank = rest → ∃ w, s = w ++ rest ∧ Spelled v w := by
    rintro w behind hw hv rfl
    obtain ⟨back, hback, hbehind⟩ := exists_blanks behind
    refine ⟨_, ?_, .closed hfront hback hv⟩
    rw [List.append_assoc, List.append_assoc, ← hbehind, ← hw, ← hs]
  rw [readValue, Option.map_eq_some_iff] at h
  obtain ⟨⟨v', behind⟩, hfound, hpair⟩ := h
  obtain ⟨rfl, hrest⟩ := Prod.mk.inj hpair
  split at hfound
  case h_1 heq =>
    cases hfound
    exact closed heq .yes hrest
  case h_2 heq =>
    cases hfound
    exact closed heq .no hrest
  case h_3 heq =>
    obtain ⟨⟨ms, r⟩, hms, h⟩ := Option.map_eq_some_iff.1 hfound
    cases h
    obtain ⟨w, more, rfl, rfl, hw⟩ := ih.members hms
    exact closed (by simp [heq]) (.table hw) hrest
  case h_4 heq =>
    obtain ⟨⟨vs, r⟩, hvs, h⟩ := Option.map_eq_some_iff.1 hfound
    cases h
    obtain ⟨w, more, rfl, rfl, hw⟩ := ih.items hvs
    exact closed (by simp [heq]) (.list hw) hrest
  case h_5 heq =>
    obtain ⟨⟨text, r⟩, htext, h⟩ := Option.map_eq_some_iff.1 hfound
    cases h
    obtain ⟨t, body, hq, rfl, rfl⟩ := readQuoted_eq_some_iff.1 htext
    exact closed (by simp [heq]) (.quoted hq) hrest
  case h_6 heq =>
    cases hfound
    exact closed heq (.single _) hrest
  case h_7 => cases hfound
  case h_8 hyes hno _ _ hquote _ hsingle =>
    have hhead : ∀ c ∈ (s.dropWhile isBlank).head?, isBlank c = false ∧ c ≠ '"' ∧ c ≠ '\'' := by
      intro c hc
      obtain ⟨t, ht⟩ := List.head?_eq_some_iff.1 hc
      refine ⟨Text.head?_dropWhile _ s c hc, ?_, ?_⟩
      · rintro rfl
        exact hquote t ht
      · rintro rfl
        exact hsingle t ht
    obtain ⟨w, r, hspan, hw, hbare, hback⟩ := exists_bare hhead
      (fun ⟨t, ht⟩ => hyes t ht.symm) (fun ⟨t, ht⟩ => hno t ht.symm)
    rw [hspan] at hfound
    cases hfound
    rw [hback] at hrest
    subst hrest
    refine ⟨front ++ w, ?_, .bare hfront hbare (word_iff.2 rfl)⟩
    rw [List.append_assoc, ← hw, ← hs]

/-- A key with the sign behind it is read off the text. -/
theorem exists_label {s after rest : List Char} {key : String}
    (hkey : readKey (s.dropWhile isBlank) = some (key, after))
    (hsign : after.dropWhile isBlank = '=' :: rest) :
    ∃ name label, Label name label ∧ s = label ++ rest ∧ key = String.ofList name := by
  obtain ⟨front, hfront, hs⟩ := exists_blanks s
  obtain ⟨back, hback, hafter⟩ := exists_blanks after
  obtain ⟨name, w, hname, hw, rfl⟩ := exists_of_readKey hkey
  rw [hsign] at hafter
  rw [hw, hafter] at hs
  exact ⟨name, _, ⟨hfront, hback, hname⟩, by simp [hs], rfl⟩

theorem Reads.items_succ {fuel : Nat} (ih : Reads fuel) {s rest : List Char}
    {done vs : List Json.Value} (h : readItems (fuel + 1) done s = some (vs, rest)) :
    ∃ w more, s = w ++ ']' :: rest ∧ vs = done.reverse ++ more ∧ Items more w := by
  by_cases hclose : ∃ t, s = ']' :: t
  · obtain ⟨t, rfl⟩ := hclose
    cases h
    exact ⟨[], [], rfl, (List.append_nil _).symm, .nil⟩
  · have hopen : ∀ c ∈ s.head?, c ≠ ']' := by
      rintro _ hc rfl
      exact hclose (List.head?_eq_some_iff.1 hc)
    rw [readItems_open hopen] at h
    obtain ⟨⟨v, behind⟩, hv, hrest⟩ := Option.bind_eq_some_iff.1 h
    obtain ⟨w, rfl, hw⟩ := ih.value hv
    split at hrest
    case h_1 t heq =>
      cases heq
      obtain ⟨w', more, rfl, rfl, hmore⟩ := ih.items hrest
      exact ⟨w ++ ',' :: w', v :: more, by simp, by simp, .more hw hmore⟩
    case h_2 t heq =>
      cases heq
      cases hrest
      -- an empty last item would have closed the list
      refine ⟨w, [v], rfl, List.reverse_cons, .last hw ?_⟩
      rintro rfl
      exact hclose ⟨_, rfl⟩
    case h_3 => cases hrest

theorem Reads.members_succ {fuel : Nat} (ih : Reads fuel) {s rest : List Char}
    {done ms : List (String × Json.Value)} (h : readMembers (fuel + 1) done s = some (ms, rest)) :
    ∃ w more, s = w ++ '\x7d' :: rest ∧ ms = done.reverse ++ more ∧ Members more w := by
  by_cases hclose : ∃ t, s = '\x7d' :: t
  · obtain ⟨t, rfl⟩ := hclose
    cases h
    exact ⟨[], [], rfl, (List.append_nil _).symm, .nil⟩
  · have hlabel : ∃ name label t, Label name label ∧ s = label ++ t := by
      rw [readMembers] at h
      · obtain ⟨⟨key, after⟩, hkey, h⟩ := Option.bind_eq_some_iff.1 h
        dsimp only at h
        split at h
        case h_1 t hsign =>
          obtain ⟨name, label, hl, hs, -⟩ := exists_label hkey hsign
          exact ⟨name, label, t, hl, hs⟩
        case h_2 => cases h
      · exact fun t ht => hclose ⟨t, ht⟩
    obtain ⟨name, label, t, hl, rfl⟩ := hlabel
    rw [readMembers_label hl] at h
    obtain ⟨⟨v, behind⟩, hv, hrest⟩ := Option.bind_eq_some_iff.1 h
    obtain ⟨w, rfl, hw⟩ := ih.value hv
    split at hrest
    case h_1 t heq =>
      cases heq
      obtain ⟨w', more, rfl, rfl, hmore⟩ := ih.members hrest
      exact ⟨label ++ (w ++ ',' :: w'), (String.ofList name, v) :: more, by simp, by simp,
        .more hl hw hmore⟩
    case h_2 t heq =>
      cases heq
      cases hrest
      exact ⟨label ++ w, [(String.ofList name, v)], by simp, List.reverse_cons, .last hl hw⟩
    case h_3 => cases hrest

theorem reads (fuel : Nat) : Reads fuel := by
  induction fuel with
  | zero => exact ⟨nofun, nofun, nofun⟩
  | succ fuel ih => exact ⟨ih.value_succ, ih.items_succ, ih.members_succ⟩

/-- **A whole text is read as a value just if it spells that value.** -/
theorem readValue_eq_some_iff {s : List Char} {v : Json.Value} {fuel : Nat}
    (hfuel : s.length < fuel) : readValue fuel s = some (v, []) ↔ Spelled v s := by
  constructor
  · intro h
    obtain ⟨w, rfl, hw⟩ := (reads fuel).value h
    rwa [List.append_nil]
  · intro h
    have hread : readValue fuel (s ++ []) = some (v, []) := (takes fuel).value h nofun hfuel
    rwa [List.append_nil] at hread

/-! ## Texts with no blanks around them -/

/-- A literal: a value that shows where it ends, or a number. -/
inductive Literal : Json.Value → List Char → Prop
  | closed {v : Json.Value} {s : List Char} (h : Closed v s) : Literal v s
  | number {v : Json.Value} {s : List Char} (h : Numeral v s) : Literal v s

theorem blank_of_isBlank {c : Char} (h : isBlank c = true) : Text.isBlank c = true := by
  simp only [isBlank, Bool.or_eq_true, decide_eq_true_eq] at h
  rcases h with (((rfl | rfl) | rfl) | rfl) | rfl <;> rfl

/-- A numeral is a bare text with no blanks around it. -/
theorem Numeral.bare {v : Json.Value} {s : List Char} (h : Numeral v s) :
    Bare s ∧ Text.Trimmed s := by
  have hplain : ∀ c ∈ s, _ := fun c hc => (h.chars c hc).plain
  have hblank : ∀ c ∈ s, Text.isBlank c = false := fun c hc => (hplain c hc).2.1
  have hstart : ∀ p : List Char, 't' ∈ p ∨ 'f' ∈ p → ¬p <+: s := by
    rintro p (hp | hp) hs
    · exact (hplain _ (hs.subset hp)).2.2.2.2.1 rfl
    · exact (hplain _ (hs.subset hp)).2.2.2.2.2 rfl
  refine ⟨⟨fun c hc => (hplain c hc).1, fun c hc => ?_, hstart _ (by decide), hstart _ (by decide)⟩,
    fun c hc => hblank c (List.mem_of_head? hc), fun c hc => hblank c (List.mem_of_getLast? hc)⟩
  obtain ⟨-, hb, hq, hsq, -⟩ := hplain c (List.mem_of_head? hc)
  refine ⟨?_, hq, hsq⟩
  by_contra hne
  rw [blank_of_isBlank (by simpa using hne)] at hb
  cases hb

theorem Literal.spelled {v : Json.Value} {s : List Char} (h : Literal v s) : Spelled v s := by
  cases h with
  | closed h =>
    have hs : Spelled v ([] ++ (s ++ [])) := .closed (List.forall_mem_nil _) (List.forall_mem_nil _) h
    rwa [List.nil_append, List.append_nil] at hs
  | number h =>
    obtain ⟨hbare, htrim⟩ := h.bare
    have hs : Spelled v ([] ++ s) :=
      .bare (List.forall_mem_nil _) hbare (.number (htrim.trim_eq.symm ▸ h))
    exact hs

/-- **A text with no blanks around it** spells the value that it writes as a literal, or else
itself. -/
theorem Spelled.literal_or_self {v : Json.Value} {s : List Char} (h : Spelled v s)
    (ht : Text.Trimmed s) : Literal v s ∨ v = .string (String.ofList s) := by
  have nofront : ∀ {front w : List Char}, Blanks front → s = front ++ w → front = [] := by
    rintro (_ | ⟨c, front⟩) w hf rfl
    · rfl
    · have hc := ht.head c rfl
      rw [blank_of_isBlank (hf c List.mem_cons_self)] at hc
      cases hc
  cases h with
  | @closed _ front back w hf hb h =>
    obtain rfl := nofront hf rfl
    have hback : back = [] := by
      rcases List.eq_nil_or_concat back with rfl | ⟨init, c, rfl⟩
      · rfl
      · have hc := ht.last c (by simp)
        rw [blank_of_isBlank (hb c (by simp))] at hc
        cases hc
    rw [hback, List.nil_append, List.append_nil]
    exact .inl (.closed h)
  | @bare _ front w hf hs h =>
    obtain rfl := nofront hf rfl
    rw [List.nil_append] at ht ⊢
    rw [ht.trim_eq] at h
    cases h with
    | number h => exact .inl (.number h)
    | text h => exact .inr rfl

/-- A string is shorter than a literal for it. -/
theorem Literal.length_lt {t : String} {s : List Char} (h : Literal (.string t) s) :
    t.length < s.length := by
  cases h with
  | number h => exact absurd rfl (h.ne_string t)
  | closed h =>
    cases h with
    | quoted h =>
      have := h.length_le
      simp only [String.length_ofList, List.length_cons, List.length_append, List.length_nil]
      omega
    | single c => simp

/-! ## The values of variables -/

/-- A list by its commas: it has some, and opens no value that could hold them. -/
def Listed (s : List Char) : Prop :=
  ',' ∈ s ∧ ∀ c ∈ s.head?, c ≠ '[' ∧ c ≠ '\x7b' ∧ c ≠ '"' ∧ c ≠ '\''

theorem listed_iff {s : List Char} : (s.contains ',' && !opensValue s) = true ↔ Listed s := by
  rw [Bool.and_eq_true, List.contains_iff_mem, Listed]
  cases s with
  | nil => simp
  | cons c s => simp [opensValue, and_assoc]

theorem valueOf_of_not_listed {text : String} (h : ¬Listed (Text.trim text.toList)) :
    valueOf text =
      match readValue ((Text.trim text.toList).length + 1) (Text.trim text.toList) with
      | some (v, []) => v
      | _ => .string (String.ofList (Text.trim text.toList)) :=
  if_neg (mt listed_iff.1 h)

theorem valueOf_listed {text : String} (h : Listed (Text.trim text.toList)) :
    ∃ items, valueOf text = .array items :=
  ⟨_, if_pos (listed_iff.2 h)⟩

theorem valueOf_literal {text : String} {v : Json.Value} (h : ¬Listed (Text.trim text.toList))
    (hv : Literal v (Text.trim text.toList)) : valueOf text = v := by
  rw [valueOf_of_not_listed h, (readValue_eq_some_iff (Nat.lt_succ_self _)).2 hv.spelled]

theorem valueOf_other {text : String} (h : ¬Listed (Text.trim text.toList))
    (hn : ∀ v, ¬Literal v (Text.trim text.toList)) :
    valueOf text = .string (String.ofList (Text.trim text.toList)) := by
  rw [valueOf_of_not_listed h]
  split
  next v hv =>
    have hs := (readValue_eq_some_iff (Nat.lt_succ_self _)).1 hv
    exact (hs.literal_or_self (Text.trimmed_trim _)).resolve_left (hn v)
  next => rfl

end ScriptWorker.Config.Variables

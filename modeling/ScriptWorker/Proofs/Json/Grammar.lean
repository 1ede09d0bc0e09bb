import ScriptWorker.Proofs.Json.Fields
import ScriptWorker.Proofs.Json.Tokens

/-!
# What is read is written

A text that is read or skipped as a value is that of one, with blanks in front of it
(`of_readValue`, `of_skipValue`). With `readValue_text` and `skipValue_text` this makes the readers
of values readers of the grammar: nothing that is no JSON passes, not where it is skipped either.
Containers are read by going on from item to item and from member to member, so what one step takes
off the text (`of_foldItems`, `of_foldMembers`) is put in front of what the others take.
-/

set_option autoImplicit false

namespace ScriptWorker.Json

/-! ## Values in front of a text -/

/-- No blanks. -/
def Gap.empty : Gap := ⟨[], List.forall_mem_nil _⟩

/-- Blanks behind blanks. -/
def Gap.append (g g' : Gap) : Gap := ⟨g.1 ++ g'.1, List.forall_mem_append.2 ⟨g.2, g'.2⟩⟩

/-- A value stands in front of the rest of a text, behind blanks. -/
def InFront (w : Written) (s rest : List Char) : Prop := ∃ g : Gap, s = g.1 ++ (w.text ++ rest)

namespace InFront

variable {w : Written} {s rest : List Char}

theorem of_text (h : s = w.text ++ rest) : InFront w s rest := ⟨.empty, h⟩

theorem gap (h : InFront w s rest) (g : Gap) : InFront w (g.1 ++ s) rest := by
  obtain ⟨g', rfl⟩ := h
  exact ⟨g.append g', by rw [Gap.append, List.append_assoc]⟩

/-- A numeral behind its sign. -/
theorem negative {n : Numeral} (hn : n.negative = true) :
    InFront (.number n) ('-' :: (n.magnitude ++ rest)) rest :=
  .of_text (by rw [Written.text, Numeral.text, if_pos hn, List.cons_append])

/-- A numeral without a sign. -/
theorem unsigned {n : Numeral} (hn : n.negative = false) :
    InFront (.number n) (n.magnitude ++ rest) rest :=
  .of_text (by rw [Written.text, Numeral.text, if_neg (by rw [hn]; decide)])

/-- An array with nothing in it. -/
theorem noItems (inside : Gap) (rest : List Char) :
    InFront (.array inside []) ('[' :: (inside.1 ++ ']' :: rest)) rest :=
  .of_text (by simp [Written.text])

/-- An array by its first item. -/
theorem items {after : Gap} {items : List (Item Written)}
    (h : InFront w s (after.1 ++ (Written.moreItems items ++ ']' :: rest))) :
    ∃ before : Gap, InFront (.array .empty (⟨before, w, after⟩ :: items)) ('[' :: s) rest := by
  obtain ⟨before, rfl⟩ := h
  exact ⟨before, .of_text (by simp [Written.text, Written.itemText])⟩

/-- An object with nothing in it. -/
theorem noMembers (inside : Gap) (rest : List Char) :
    InFront (.object inside []) ('\x7b' :: (inside.1 ++ '\x7d' :: rest)) rest :=
  .of_text (by simp [Written.text])

/-- An object by its first member. -/
theorem members {after : Gap} {members : List (Member Written)}
    (h : InFront w s (after.1 ++ (Written.moreMembers members ++ '\x7d' :: rest)))
    (before behind : Gap) (name : List Glyph) :
    ∃ front : Gap, InFront (.object .empty (⟨before, name, behind, front, w, after⟩ :: members))
      ('\x7b' :: (before.1 ++ (Written.quoted name ++ (behind.1 ++ ':' :: s)))) rest := by
  obtain ⟨front, rfl⟩ := h
  exact ⟨front, .of_text (by simp [Written.text, Written.memberText])⟩

/-- An item in front of others. -/
theorem moreItems {after : Gap} {items : List (Item Written)}
    (h : InFront w s (after.1 ++ (Written.moreItems items ++ rest))) :
    ∃ before : Gap, ',' :: s = Written.moreItems (⟨before, w, after⟩ :: items) ++ rest := by
  obtain ⟨before, rfl⟩ := h
  exact ⟨before, by simp [Written.moreItems, Written.itemText]⟩

/-- An item with none behind it. -/
theorem lastItem {after : Gap} (h : InFront w s (after.1 ++ rest)) :
    ∃ before : Gap, ',' :: s = Written.moreItems [⟨before, w, after⟩] ++ rest :=
  h.moreItems

/-- A member in front of others. -/
theorem moreMembers {after : Gap} {members : List (Member Written)}
    (h : InFront w s (after.1 ++ (Written.moreMembers members ++ rest)))
    (before behind : Gap) (name : List Glyph) :
    ∃ front : Gap,
      ',' :: (before.1 ++ (Written.quoted name ++ (behind.1 ++ ':' :: s))) =
        Written.moreMembers (⟨before, name, behind, front, w, after⟩ :: members) ++ rest := by
  obtain ⟨front, rfl⟩ := h
  exact ⟨front, by simp [Written.moreMembers, Written.memberText]⟩

end InFront

theorem of_readColon {s rest : List Char} (h : readColon s = .ok rest) :
    ∃ g : Gap, s = g.1 ++ ':' :: rest := by
  unfold readColon at h
  split at h
  next => cases h
  next t hs =>
    cases h
    exact exists_gap_of_skipGap hs
  next => cases h

theorem of_closeItems {s rest : List Char} (h : closeItems s = .ok rest) :
    ∃ g : Gap, s = g.1 ++ ']' :: rest := by
  unfold closeItems at h
  split at h
  next => cases h
  next t hs =>
    cases h
    exact exists_gap_of_skipGap hs
  next => split at h <;> cases h
  next => cases h

/-- The text of an item or a member with what parts it from those in front of it: a comma and
blanks, and nothing if it is the first. -/
def Parted (first : Bool) (s s' : List Char) : Prop :=
  match first with
  | true => s = s'
  | false => ∃ front : Gap, s = ',' :: (front.1 ++ s')

/-! ## Items -/

section Items

variable {σ : Type} {item : σ → List Char → Reading ((σ × Bool) × List Char)} {fuel : Nat}
  {state final : σ} {s t : List Char}

/-- An item is read, and so are those behind it unless it is the last one wanted. -/
def ItemThen (item : σ → List Char → Reading ((σ × Bool) × List Char)) (fuel : Nat) (state : σ)
    (s : List Char) (final : σ) (t : List Char) : Prop :=
  ∃ state' more rest, item state s = .ok ((state', more), rest) ∧
    if more = true then foldItems item fuel false state' rest = .ok (final, t)
    else final = state' ∧ t = rest

theorem ItemThen.of_bind
    (h : ((item state s).bind fun found =>
      if found.1.2 = true then foldItems item fuel false found.1.1 found.2
      else .ok (found.1.1, found.2)) = .ok (final, t)) :
    ItemThen item fuel state s final t := by
  obtain ⟨⟨⟨state', more⟩, rest⟩, hitem, h⟩ := bind_eq_ok h
  refine ⟨state', more, rest, hitem, ?_⟩
  cases more with
  | true => exact h
  | false =>
    obtain ⟨rfl, rfl⟩ := Prod.mk.inj (Except.ok.inj h)
    exact ⟨rfl, rfl⟩

/-- **The items end, or one more is read**, behind a comma if it is not the first. -/
theorem of_foldItems {first : Bool} (h : foldItems item fuel first state s = .ok (final, t)) :
    ∃ g : Gap, ((∃ r, t = ']' :: r) ∧ s = g.1 ++ t ∧ final = state) ∨
      ∃ n s' s'', fuel = n + 1 ∧ s = g.1 ++ s' ∧ Parted first s' s'' ∧
        ItemThen item n state s'' final t := by
  cases fuel with
  | zero => cases h
  | succ fuel =>
    obtain ⟨g, hs⟩ := exists_gap s
    refine ⟨g, ?_⟩
    rw [foldItems] at h
    split at h
    next => cases h
    next c rest hgap =>
      rw [hgap] at hs
      split at h
      next hc =>
        obtain ⟨rfl, rfl⟩ := Prod.mk.inj (Except.ok.inj h)
        exact .inl ⟨⟨rest, by rw [hc]⟩, hs, rfl⟩
      next =>
        cases first with
        | true => exact .inr ⟨fuel, c :: rest, c :: rest, rfl, hs, rfl, .of_bind h⟩
        | false =>
          simp only [Bool.false_eq_true, if_false] at h
          split at h
          next hc =>
            obtain ⟨front, hrest⟩ := exists_gap rest
            split at h
            next => cases h
            next d after hafter =>
              split at h
              next => cases h
              next =>
                exact .inr ⟨fuel, c :: rest, d :: after, rfl, hs,
                  ⟨front, by rw [hc, hrest, hafter]⟩, .of_bind h⟩
          next => cases h

end Items

/-! ## Members -/

section Members

variable {σ : Type} {size : Nat} {member : σ → String → List Char → Reading (σ × List Char)}
  {fuel : Nat} {state final : σ} {s t : List Char}

/-- A member is read, and so are those behind it. -/
def MemberThen (size : Nat) (member : σ → String → List Char → Reading (σ × List Char))
    (fuel : Nat) (state : σ) (s : List Char) (final : σ) (t : List Char) : Prop :=
  ∃ name key rest state' rest', Glyph.string? name = some key ∧
    s = Written.quoted name ++ rest ∧ member state key rest = .ok (state', rest') ∧
    foldMembers size member fuel false state' rest' = .ok (final, t)

theorem MemberThen.of_bind
    (h : ((readStringFrom size [] s).bind fun found =>
      (member state found.1 found.2).bind fun found =>
        foldMembers size member fuel false found.1 found.2) = .ok (final, t)) :
    MemberThen size member fuel state ('"' :: s) final t := by
  obtain ⟨⟨key, rest⟩, hname, hthen⟩ := bind_eq_ok h
  obtain ⟨⟨state', rest'⟩, hmember, hmore⟩ := bind_eq_ok hthen
  obtain ⟨name, cs, hcs, rfl, rfl⟩ := Glyph.exists_of_readStringFrom hname
  refine ⟨name, String.ofList cs, rest, state', rest', ?_, ?_, hmember, hmore⟩
  · rw [Glyph.string?, hcs, Option.map_some]
  · rw [Written.quoted_append]

/-- **The members end, or one more is read**, behind a comma if it is not the first. -/
theorem of_foldMembers {first : Bool}
    (h : foldMembers size member fuel first state s = .ok (final, t)) :
    ∃ g : Gap, ((∃ r, t = '\x7d' :: r) ∧ s = g.1 ++ t ∧ final = state) ∨
      ∃ n s' s'', fuel = n + 1 ∧ s = g.1 ++ s' ∧ Parted first s' s'' ∧
        MemberThen size member n state s'' final t := by
  cases fuel with
  | zero => cases h
  | succ fuel =>
    obtain ⟨g, hs⟩ := exists_gap s
    refine ⟨g, ?_⟩
    rw [foldMembers] at h
    split at h
    next => cases h
    next c rest hgap =>
      rw [hgap] at hs
      split at h
      next hc =>
        obtain ⟨rfl, rfl⟩ := Prod.mk.inj (Except.ok.inj h)
        exact .inl ⟨⟨rest, by rw [hc]⟩, hs, rfl⟩
      next =>
        cases first with
        | true =>
          simp only [if_true] at h
          split at h
          next hc =>
            subst hc
            exact .inr ⟨fuel, '"' :: rest, '"' :: rest, rfl, hs, rfl, .of_bind h⟩
          next => cases h
        | false =>
          simp only [Bool.false_eq_true, if_false] at h
          split at h
          next hc =>
            obtain ⟨before, hrest⟩ := exists_gap rest
            split at h
            next => cases h
            next after hafter =>
              exact .inr ⟨fuel, c :: rest, '"' :: after, rfl, hs,
                ⟨before, by rw [hc, hrest, hafter]⟩, .of_bind h⟩
            next => cases h
            next => cases h
          next => cases h

/-- What is read of a member, from the colon on, is the rest of one, and what the members behind it
do to the state can be said with this one in front of them. -/
def ReadsMembers (member : σ → String → List Char → Reading (σ × List Char))
    (M : σ → List (Member Written) → σ → Prop) : Prop :=
  ∀ {state state' : σ} {key : String} {s rest : List Char},
    member state key s = .ok (state', rest) →
    ∃ (behind : Gap) (w : Written) (t : List Char), s = behind.1 ++ ':' :: t ∧ InFront w t rest ∧
      ∀ {before front after : Gap} {name : List Glyph} {members : List (Member Written)}
        {final : σ}, Glyph.string? name = some key → EndsNumber rest → M state' members final →
        M state (⟨before, name, behind, front, w, after⟩ :: members) final

section

variable {M : σ → List (Member Written) → σ → Prop} (hnil : ∀ state, M state [] state)
  (hcons : ReadsMembers member M)

include hnil hcons

/-- Members behind others are read as what each of them does to the state. -/
theorem of_moreMembers (h : foldMembers size member fuel false state s = .ok (final, t)) :
    ∃ (g : Gap) (members : List (Member Written)) (r : List Char), t = '\x7d' :: r ∧
      s = g.1 ++ (Written.moreMembers members ++ t) ∧ M state members final := by
  induction fuel generalizing state s with
  | zero => cases h
  | succ fuel ih =>
    obtain ⟨g, ⟨⟨r, hr⟩, hs, rfl⟩ | ⟨n, _, s', hn, hs, ⟨before, rfl⟩, hthen⟩⟩ := of_foldMembers h
    · exact ⟨g, [], r, hr, hs, hnil _⟩
    · obtain rfl := Nat.succ.inj hn
      obtain ⟨name, key, rest, state', rest', hname, rfl, hmember, hmore⟩ := hthen
      obtain ⟨behind, w, u, rfl, hw, hM⟩ := hcons hmember
      obtain ⟨after, members, r, rfl, rfl, hall⟩ := ih hmore
      obtain ⟨front, htext⟩ := hw.moreMembers before behind name
      rw [htext] at hs
      exact ⟨g, _, r, rfl, hs,
        hM hname ((endsNumber_moreMembers members r).gap after) hall⟩

/-- What is read as members is the inside of an object. -/
theorem of_allMembers (h : foldMembers size member fuel true state s = .ok (final, t)) :
    ∃ (inside : Gap) (members : List (Member Written)) (r : List Char), t = '\x7d' :: r ∧
      InFront (.object inside members) ('\x7b' :: s) r ∧ M state members final := by
  obtain ⟨g, ⟨⟨r, rfl⟩, rfl, rfl⟩ | ⟨n, _, s', -, rfl, rfl, hthen⟩⟩ := of_foldMembers h
  · exact ⟨g, [], r, rfl, .noMembers g r, hnil _⟩
  · obtain ⟨name, key, rest, state', rest', hname, rfl, hmember, hmore⟩ := hthen
    obtain ⟨behind, w, u, rfl, hw, hM⟩ := hcons hmember
    obtain ⟨after, members, r, rfl, rfl, hall⟩ := of_moreMembers hnil hcons hmore
    obtain ⟨front, htext⟩ := hw.members g behind name
    exact ⟨_, _, r, rfl, htext, hM hname ((endsNumber_moreMembers members r).gap after) hall⟩

end

end Members

/-! ## Values that are read -/

/-- In front of the rest stands a value that nests containers at most so deep. Where a number ends
in front of the rest, the value stands for `v`. -/
def ReadAs (depth : Nat) (v : Value) (s rest : List Char) : Prop :=
  ∃ w, InFront w s rest ∧ w.depth ≤ depth ∧ (EndsNumber rest → w.value? = some v)

/-- What is read as a value is one. -/
def ReadsWritten (size depth : Nat) : Prop :=
  ∀ {s rest : List Char} {v : Value}, readValue size (depth + 1) s = .ok (v, rest) →
    ReadAs depth v s rest

section Values

variable {size depth : Nat}

theorem readAs_word {w : Written} {x v : Value} {c : Char} {word s rest : List Char}
    (h : ((readWord word s).bind fun rest => .ok (x, rest)) = .ok (v, rest))
    (htext : w.text = c :: word) (hdepth : w.depth = 0) (hvalue : w.value? = some x) :
    ReadAs depth v (c :: s) rest := by
  obtain ⟨t, hword, hdone⟩ := bind_eq_ok h
  cases hdone
  refine ⟨w, .of_text ?_, hdepth ▸ Nat.zero_le depth, fun _ => hvalue⟩
  rw [htext, of_readWord hword, List.cons_append]

theorem readAs_string {v : Value} {s rest : List Char}
    (h : ((readStringFrom size [] s).bind fun found => .ok (.string found.1, found.2)) =
      .ok (v, rest)) : ReadAs depth v ('"' :: s) rest := by
  obtain ⟨⟨str, t⟩, hstring, hdone⟩ := bind_eq_ok h
  cases hdone
  obtain ⟨gs, cs, hcs, rfl, rfl⟩ := Glyph.exists_of_readStringFrom hstring
  refine ⟨.string gs, .of_text (Written.quoted_append gs _).symm, Nat.zero_le depth, fun _ => ?_⟩
  rw [Written.value?, Glyph.string?, hcs]
  rfl

theorem ItemThen.of_readItem {fuel : Nat} {done vs : List Value} {s t : List Char}
    (h : ItemThen (readItem size depth) fuel done s vs t) :
    ∃ v rest, readValue size depth s = .ok (v, rest) ∧
      foldItems (readItem size depth) fuel false (v :: done) rest = .ok (vs, t) := by
  obtain ⟨done', more, rest, hitem, hmore⟩ := h
  obtain ⟨⟨v, rest'⟩, hv, hdone⟩ := bind_eq_ok hitem
  cases hdone
  exact ⟨v, rest, hv, hmore⟩

theorem of_readMember {members members' : List (String × Value)} {key : String}
    {s rest : List Char} (h : readMember size depth members key s = .ok (members', rest)) :
    ∃ (behind : Gap) (t : List Char) (v : Value), s = behind.1 ++ ':' :: t ∧
      readValue size depth t = .ok (v, rest) ∧ members' = (key, v) :: members := by
  obtain ⟨t, hcolon, hvalue⟩ := bind_eq_ok h
  obtain ⟨⟨v, rest'⟩, hv, hdone⟩ := bind_eq_ok hvalue
  obtain ⟨behind, hs⟩ := of_readColon hcolon
  cases hdone
  exact ⟨behind, t, v, hs, hv, rfl⟩

variable (hread : ReadsWritten size depth)

include hread

/-- Items behind others are read as what they stand for. -/
theorem of_moreItems {fuel : Nat} {done vs : List Value} {s t : List Char}
    (h : foldItems (readItem size (depth + 1)) fuel false done s = .ok (vs, t)) :
    ∃ (g : Gap) (items : List (Item Written)) (r : List Char), t = ']' :: r ∧
      s = g.1 ++ (Written.moreItems items ++ t) ∧ Written.itemsDepth items ≤ depth ∧
      ∃ vs', Written.itemValues? items = some vs' ∧ vs = vs'.reverse ++ done := by
  induction fuel generalizing done s with
  | zero => cases h
  | succ fuel ih =>
    obtain ⟨g, ⟨⟨r, hr⟩, hs, rfl⟩ | ⟨n, _, s', hn, hs, ⟨front, rfl⟩, hthen⟩⟩ := of_foldItems h
    · exact ⟨g, [], r, hr, hs, Nat.zero_le depth, [], rfl, rfl⟩
    · obtain rfl := Nat.succ.inj hn
      obtain ⟨v, rest, hv, hmore⟩ := hthen.of_readItem
      obtain ⟨w, hw, hdepth, hvalue⟩ := hread hv
      obtain ⟨after, items, r, rfl, rfl, hdepths, vs', hvs, rfl⟩ := ih hmore
      obtain ⟨before, htext⟩ := (hw.gap front).moreItems
      rw [htext] at hs
      have hwv := hvalue ((endsNumber_moreItems items r).gap after)
      refine ⟨g, _, r, rfl, hs, Nat.max_le.2 ⟨hdepth, hdepths⟩, v :: vs', ?_, ?_⟩
      · simp only [Written.itemValues?, hwv, hvs]
      · rw [List.reverse_cons, List.append_assoc, List.singleton_append]

/-- What is read as an array is one of the items read. -/
theorem readAs_array {fuel : Nat} {v : Value} {s rest : List Char}
    (h : ((foldItems (readItem size (depth + 1)) fuel true [] s).bind fun found =>
      (closeItems found.2).bind fun rest => .ok (.array found.1.reverse, rest)) = .ok (v, rest)) :
    ReadAs (depth + 1) v ('[' :: s) rest := by
  obtain ⟨⟨vs, t⟩, hfold, hclose⟩ := bind_eq_ok h
  obtain ⟨g, ⟨⟨r, rfl⟩, rfl, rfl⟩ | ⟨n, _, s', -, rfl, rfl, hthen⟩⟩ := of_foldItems hfold
  · cases hclose
    exact ⟨_, .noItems g rest, Nat.succ_le_succ (Nat.zero_le depth), fun _ => rfl⟩
  · obtain ⟨x, rest', hx, hmore⟩ := hthen.of_readItem
    obtain ⟨w, hw, hdepth, hvalue⟩ := hread hx
    obtain ⟨after, items, r, rfl, rfl, hdepths, vs', hvs, rfl⟩ := of_moreItems hread hmore
    obtain ⟨before, htext⟩ := (hw.gap g).items
    have hwx := hvalue ((endsNumber_moreItems items r).gap after)
    cases hclose
    refine ⟨_, htext, Nat.succ_le_succ (Nat.max_le.2 ⟨hdepth, hdepths⟩), fun _ => ?_⟩
    simp only [Written.value?, Written.itemValues?, hwx, hvs]
    simp

/-- What is read as an object is one of the members read. -/
theorem readAs_object {fuel : Nat} {v : Value} {s rest : List Char}
    (h : ((foldMembers size (readMember size (depth + 1)) fuel true [] s).bind fun found =>
      (closeMembers found.2).bind fun rest => .ok (.ofMembers found.1.reverse, rest)) =
        .ok (v, rest)) : ReadAs (depth + 1) v ('\x7b' :: s) rest := by
  -- what is read is kept, last first
  let M (done : List (String × Value)) (members : List (Member Written))
      (ms : List (String × Value)) : Prop :=
    Written.membersDepth members ≤ depth ∧
      ∃ ms', Written.memberValues? members = some ms' ∧ ms = ms'.reverse ++ done
  have hnil : ∀ done, M done [] done := fun done => ⟨Nat.zero_le depth, [], rfl, rfl⟩
  have hcons : ReadsMembers (readMember size (depth + 1)) M := by
    intro done done' key s rest hmember
    obtain ⟨behind, u, x, rfl, hx, rfl⟩ := of_readMember hmember
    obtain ⟨w, hw, hdepth, hvalue⟩ := hread hx
    refine ⟨behind, w, u, rfl, hw, ?_⟩
    rintro before front after name members _ hname hends ⟨hdepths, ms', hms, rfl⟩
    refine ⟨Nat.max_le.2 ⟨hdepth, hdepths⟩, (key, x) :: ms', ?_, ?_⟩
    · simp only [Written.memberValues?, hname, hvalue hends, hms]
    · rw [List.reverse_cons, List.append_assoc, List.singleton_append]
  obtain ⟨⟨ms, t⟩, hfold, hclose⟩ := bind_eq_ok h
  obtain ⟨inside, members, r, rfl, htext, hdepth, ms', hms, rfl⟩ :=
    of_allMembers hnil hcons hfold
  cases hclose
  refine ⟨_, htext, Nat.succ_le_succ hdepth, fun _ => ?_⟩
  simp [Written.value?, hms]

end Values

/-- **What is read as a value is the text of one**, which nests no deeper than the reader goes, and
the value is what it stands for wherever a number ends in front of the rest. -/
theorem of_readValue (size depth : Nat) : ReadsWritten size depth := by
  induction depth using Nat.strong_induction_on with
  | _ depth ih =>
    intro s rest v h
    obtain ⟨g, hs⟩ := exists_gap s
    unfold readValue at h
    split at h
    next => cases h
    next c t hgap =>
      rw [hgap] at hs
      obtain ⟨w, hw, hdepth, hvalue⟩ : ReadAs depth v (c :: t) rest := by
        split at h
        next => exact readAs_word (w := .null) h rfl rfl rfl
        next => exact readAs_word (w := .bool true) h rfl rfl rfl
        next => exact readAs_word (w := .bool false) h rfl rfl rfl
        next =>
          obtain ⟨n, hn, rfl, hvalue⟩ := Numeral.exists_value_of_read h
          exact ⟨.number n, .negative hn, Nat.zero_le _, hvalue⟩
        next => exact readAs_string h
        next =>
          cases depth with
          | zero => cases h
          | succ depth => exact readAs_array (ih depth (Nat.lt_succ_self _)) h
        next =>
          cases depth with
          | zero => cases h
          | succ depth => exact readAs_object (ih depth (Nat.lt_succ_self _)) h
        next =>
          split at h
          next =>
            obtain ⟨n, hn, ht, hvalue⟩ := Numeral.exists_value_of_read h
            exact ⟨.number n, ht ▸ .unsigned hn, Nat.zero_le _, hvalue⟩
          next => cases h
      exact ⟨w, hs ▸ hw.gap g, hdepth, hvalue⟩

/-! ## Values that are skipped -/

/-- What is left of the containers that are open, where a value has just ended: each goes on with
further items or members up to its closing bracket. -/
def Closes : List Bracket → List Char → List Char → Prop
  | [], s, rest => s = rest
  | .list :: outer, s, rest => ∃ (g : Gap) (items : List (Item Written)) (t : List Char),
    s = g.1 ++ (Written.moreItems items ++ ']' :: t) ∧ Closes outer t rest
  | .object :: outer, s, rest => ∃ (g : Gap) (members : List (Member Written)) (t : List Char),
    s = g.1 ++ (Written.moreMembers members ++ '\x7d' :: t) ∧ Closes outer t rest

/-- The opening bracket. -/
def Bracket.opening : Bracket → Char
  | .list => '['
  | .object => '\x7b'

/-- A value is skipped, and then what is left of the open containers. -/
def SkipsValues (size fuel : Nat) : Prop :=
  ∀ {open_ : List Bracket} {s rest : List Char}, skipValueFrom size fuel open_ s = .ok rest →
    ∃ w t, InFront w s t ∧ Closes open_ t rest

/-- What is left of the open containers is skipped behind a value. -/
def SkipsRests (size fuel : Nat) : Prop :=
  ∀ {open_ : List Bracket} {s rest : List Char}, skipCloseFrom size fuel open_ true s = .ok rest →
    Closes open_ s rest

/-- A container is skipped from behind its opening bracket. -/
def SkipsContainers (size fuel : Nat) : Prop :=
  ∀ {b : Bracket} {outer : List Bracket} {s rest : List Char},
    skipCloseFrom size fuel (b :: outer) false s = .ok rest →
    ∃ w t, InFront w (b.opening :: s) t ∧ Closes outer t rest

section Skipping

variable {size fuel : Nat}

theorem skipsValues_succ (hrest : SkipsRests size fuel) (hcontainer : SkipsContainers size fuel) :
    SkipsValues size (fuel + 1) := by
  intro open_ s rest h
  obtain ⟨g, hs⟩ := exists_gap s
  unfold skipValueFrom at h
  split at h
  next => cases h
  next c t hgap =>
    rw [hgap] at hs
    obtain ⟨w, u, hw, hcloses⟩ : ∃ w u, InFront w (c :: t) u ∧ Closes open_ u rest := by
      split at h
      next =>
        obtain ⟨u, hword, hmore⟩ := bind_eq_ok h
        exact ⟨.null, u, .of_text (congrArg _ (of_readWord hword)), hrest hmore⟩
      next =>
        obtain ⟨u, hword, hmore⟩ := bind_eq_ok h
        exact ⟨.bool true, u, .of_text (congrArg _ (of_readWord hword)), hrest hmore⟩
      next =>
        obtain ⟨u, hword, hmore⟩ := bind_eq_ok h
        exact ⟨.bool false, u, .of_text (congrArg _ (of_readWord hword)), hrest hmore⟩
      next =>
        obtain ⟨u, hnumber, hmore⟩ := bind_eq_ok h
        obtain ⟨n, hn, rfl⟩ := Numeral.exists_of_skip hnumber true
        exact ⟨.number n, u, .negative hn, hrest hmore⟩
      next =>
        obtain ⟨u, hstring, hmore⟩ := bind_eq_ok h
        obtain ⟨gs, rfl⟩ := Glyph.exists_of_skipStringFrom hstring
        exact ⟨.string gs, u, .of_text (Written.quoted_append gs u).symm, hrest hmore⟩
      next => exact hcontainer h
      next => exact hcontainer h
      next =>
        split at h
        next =>
          obtain ⟨u, hnumber, hmore⟩ := bind_eq_ok h
          obtain ⟨n, hn, ht⟩ := Numeral.exists_of_skip hnumber false
          exact ⟨.number n, u, ht ▸ .unsigned hn, hrest hmore⟩
        next => cases h
    exact ⟨w, u, hs ▸ hw.gap g, hcloses⟩

/-- A member is skipped up to its value. -/
theorem of_skipMember {outer : List Bracket} {s rest : List Char}
    (h : (match skipGap s with
      | [] => stopAt .endInObject []
      | '"' :: rest => do
        skipValueFrom size fuel (.object :: outer) (← readColon (← skipStringFrom size rest))
      | rest => stopAt .keyNotString rest) = .ok rest) :
    ∃ (before : Gap) (name : List Glyph) (behind : Gap) (t : List Char),
      s = before.1 ++ (Written.quoted name ++ (behind.1 ++ ':' :: t)) ∧
      skipValueFrom size fuel (.object :: outer) t = .ok rest := by
  obtain ⟨before, hs⟩ := exists_gap s
  split at h
  next => cases h
  next t hgap =>
    obtain ⟨u, hname, hmember⟩ := bind_eq_ok h
    obtain ⟨t', hcolon, hvalue⟩ := bind_eq_ok hmember
    obtain ⟨name, rfl⟩ := Glyph.exists_of_skipStringFrom hname
    obtain ⟨behind, rfl⟩ := of_readColon hcolon
    exact ⟨before, name, behind, t', by rw [hs, hgap, Written.quoted_append], hvalue⟩
  next => cases h

theorem skipsRests_succ (hvalue : SkipsValues size fuel) (hrest : SkipsRests size fuel) :
    SkipsRests size (fuel + 1) := by
  intro open_ s rest h
  cases open_ with
  | nil => exact Except.ok.inj h
  | cons b outer =>
    obtain ⟨g, hs⟩ := exists_gap s
    cases b with
    | list =>
      unfold skipCloseFrom at h
      split at h
      next => cases h
      next t hgap => exact ⟨g, [], t, by rw [hs, hgap]; rfl, hrest h⟩
      next c t _ hgap =>
        rw [hgap] at hs
        simp only [if_true] at h
        split at h
        next hc =>
          obtain ⟨w, u, hw, after, items, t', rfl, hcloses⟩ := hvalue h
          obtain ⟨before, htext⟩ := hw.moreItems
          exact ⟨g, _, t', by rw [hs, hc, htext], hcloses⟩
        next => cases h
    | object =>
      unfold skipCloseFrom at h
      split at h
      next => cases h
      next t hgap => exact ⟨g, [], t, by rw [hs, hgap]; rfl, hrest h⟩
      next c t _ hgap =>
        rw [hgap] at hs
        simp only [if_true] at h
        split at h
        next hc =>
          obtain ⟨before, name, behind, t, rfl, hnext⟩ := of_skipMember h
          obtain ⟨w, u, hw, after, members, t', rfl, hcloses⟩ := hvalue hnext
          obtain ⟨front, htext⟩ := hw.moreMembers before behind name
          exact ⟨g, _, t', by rw [hs, hc, htext], hcloses⟩
        next => cases h

theorem skipsContainers_succ (hvalue : SkipsValues size fuel) (hrest : SkipsRests size fuel) :
    SkipsContainers size (fuel + 1) := by
  intro b outer s rest h
  obtain ⟨g, hs⟩ := exists_gap s
  cases b with
  | list =>
    unfold skipCloseFrom at h
    split at h
    next => cases h
    next t hgap =>
      rw [hs, hgap]
      exact ⟨_, t, .noItems g t, hrest h⟩
    next c t _ hgap =>
      obtain ⟨w, u, hw, after, items, t', rfl, hcloses⟩ := hvalue h
      obtain ⟨before, htext⟩ := (hw.gap g).items
      rw [hs, hgap]
      exact ⟨_, t', htext, hcloses⟩
  | object =>
    unfold skipCloseFrom at h
    split at h
    next => cases h
    next t hgap =>
      rw [hs, hgap]
      exact ⟨_, t, .noMembers g t, hrest h⟩
    next c t _ hgap =>
      obtain ⟨before, name, behind, t, hmember, hnext⟩ := of_skipMember h
      obtain ⟨w, u, hw, after, members, t', rfl, hcloses⟩ := hvalue hnext
      obtain ⟨front, htext⟩ := hw.members (g.append before) behind name
      rw [hs, hgap, hmember, ← List.append_assoc g.1 before.1]
      exact ⟨_, t', htext, hcloses⟩

end Skipping

theorem skips (size fuel : Nat) :
    SkipsValues size fuel ∧ SkipsRests size fuel ∧ SkipsContainers size fuel := by
  induction fuel with
  | zero => exact ⟨nofun, nofun, nofun⟩
  | succ fuel ih =>
    obtain ⟨hvalue, hrest, hcontainer⟩ := ih
    exact ⟨skipsValues_succ hrest hcontainer, skipsRests_succ hvalue hrest,
      skipsContainers_succ hvalue hrest⟩

/-- **What is skipped as a value is the text of one**, however deep it nests. -/
theorem of_skipValue {size : Nat} {s rest : List Char} (h : skipValue size s = .ok rest) :
    ∃ w, InFront w s rest := by
  obtain ⟨w, t, hw, rfl⟩ := (skips size (2 * size + 2)).1 h
  exact ⟨w, hw⟩

end ScriptWorker.Json

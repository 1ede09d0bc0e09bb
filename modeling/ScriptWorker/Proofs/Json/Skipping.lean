import ScriptWorker.Proofs.Json.RoundTrip
import ScriptWorker.Proofs.Json.Syntax

/-!
# Skipping values

A value that no one asks for is skipped whatever it is: numerals of any size, any code units, and
containers however deep they nest (`skipValue_text`).
-/

set_option autoImplicit false

namespace ScriptWorker.Json

/-! ## Blanks -/

theorem skipGap_append (g : Gap) (s : List Char) : skipGap (g.1 ++ s) = skipGap s :=
  List.dropWhile_append_of_pos g.2

theorem EndsNumber.gap {s : List Char} (h : EndsNumber s) (g : Gap) : EndsNumber (g.1 ++ s) := by
  obtain ⟨g, hg⟩ := g
  cases g with
  | nil => exact h
  | cons c g =>
    have hc := hg c List.mem_cons_self
    simp only [isGap, Bool.or_eq_true, beq_iff_eq] at hc
    rcases hc with ((rfl | rfl) | rfl) | rfl <;> exact .cons (by decide) _

/-! ## Strings -/

namespace Glyph

theorem readHex4_code (w x y z : HexDigit) (rest : List Char) :
    readHex4 (w.1 :: x.1 :: y.1 :: z.1 :: rest) = .ok (unit w x y z, rest) := by
  obtain ⟨w, hw⟩ := w
  obtain ⟨x, hx⟩ := x
  obtain ⟨y, hy⟩ := y
  obtain ⟨z, hz⟩ := z
  obtain ⟨a, ha⟩ := Option.isSome_iff_exists.1 hw
  obtain ⟨b, hb⟩ := Option.isSome_iff_exists.1 hx
  obtain ⟨c, hc⟩ := Option.isSome_iff_exists.1 hy
  obtain ⟨d, hd⟩ := Option.isSome_iff_exists.1 hz
  simp only [readHex4, unit, ha, hb, hc, hd, Option.get_some]

theorem ne_of_shortEscape {e : Char} (h : (shortEscape? e).isSome = true) : e ≠ 'u' := by
  rintro rfl
  cases h

/-- A string is skipped up to its closing quote. -/
theorem skipStringFrom_glyphs {gs : List Glyph} {fuel : Nat} (h : gs.length < fuel)
    (rest : List Char) :
    skipStringFrom fuel (gs.flatMap text ++ '"' :: rest) = .ok rest := by
  induction gs generalizing fuel with
  | nil =>
    obtain ⟨fuel, rfl⟩ := Nat.exists_eq_add_of_lt h
    rfl
  | cons g gs ih =>
    rw [List.length_cons] at h
    obtain ⟨fuel, rfl⟩ : ∃ n, fuel = n + 1 := ⟨fuel - 1, by omega⟩
    have hgs := @ih fuel (by omega)
    rw [List.flatMap_cons, List.append_assoc]
    cases g with
    | plain c hc =>
      obtain ⟨hq, hb, hle⟩ := hc
      rw [text, List.singleton_append, skipStringFrom, if_neg (Nat.not_lt.2 hle), hgs]
      · exact hq
      · exact hb
    | short e he =>
      rw [text, List.cons_append, List.singleton_append, skipStringFrom, if_pos he, hgs]
      exact ne_of_shortEscape he
    | code w x y z =>
      simp only [text, List.cons_append, List.nil_append, skipStringFrom, readHex4_code, hgs]

end Glyph

/-! ## Numerals -/

theorem digitNext_digits (ds : Digits) (rest : List Char) : digitNext (ds.1 ++ rest) = true := by
  obtain ⟨ds, hne, hds⟩ := ds
  obtain ⟨c, cs, rfl⟩ := List.exists_cons_of_ne_nil hne
  exact hds c List.mem_cons_self

/-- Digits with others behind them go up to the next character that is none. -/
theorem dropWhile_digits {ds : List Char} (hds : ∀ c ∈ ds, c.isDigit = true) {rest : List Char}
    (h : digitNext rest = false) : (ds ++ rest).dropWhile Char.isDigit = rest := by
  rw [List.dropWhile_append_of_pos hds]
  cases rest with
  | nil => rfl
  | cons c rest => exact List.dropWhile_cons_of_neg (by simpa [digitNext] using h)

/-- The first one of some digits. -/
theorem exists_cons_digits (ds : Digits) :
    ∃ c cs, ds.1 = c :: cs ∧ c.isDigit = true ∧ ∀ d ∈ cs, d.isDigit = true := by
  obtain ⟨ds, hne, hds⟩ := ds
  obtain ⟨c, cs, rfl⟩ := List.exists_cons_of_ne_nil hne
  exact ⟨c, cs, rfl, hds c List.mem_cons_self, fun d hd => hds d (List.mem_cons_of_mem _ hd)⟩

theorem ne_sign {c : Char} (h : c.isDigit = true) : c ≠ '+' ∧ c ≠ '-' := by
  constructor <;> (rintro rfl; revert h; decide)

/-- The text does not go on with the digits of a number that ends in front of it or with its
fraction. -/
def EndsDecimal (rest : List Char) : Prop := ∀ c ∈ rest.head?, c.isDigit = false ∧ c ≠ '.'

theorem EndsDecimal.digitNext {rest : List Char} (h : EndsDecimal rest) :
    Json.digitNext rest = false := by
  cases rest with
  | nil => rfl
  | cons c rest => exact (h c rfl).1

namespace Numeral

theorem endsDecimal_exponentText (e : Option Exponent) {rest : List Char} (hr : EndsNumber rest) :
    EndsDecimal (exponentText e ++ rest) := by
  cases e with
  | none => exact fun c hc => ⟨(hr c hc).1, (hr c hc).2.1⟩
  | some e =>
    obtain ⟨capital, sign, digits⟩ := e
    cases capital with
    | false => rintro c ⟨⟩; exact (by decide : 'e'.isDigit = false ∧ 'e' ≠ '.')
    | true => rintro c ⟨⟩; exact (by decide : 'E'.isDigit = false ∧ 'E' ≠ '.')

theorem digitNext_fractionText (f : Option Digits) {rest : List Char}
    (hr : digitNext rest = false) : digitNext (fractionText f ++ rest) = false := by
  cases f with
  | none => exact hr
  | some ds => rfl

theorem exponentSign_text (sign : Option Bool) (ds : Digits) (rest : List Char) :
    exponentSign (Exponent.signText sign ++ (ds.1 ++ rest)) =
      (!sign.getD false, ds.1 ++ rest) := by
  match sign with
  | some true => rfl
  | some false => rfl
  | none =>
    obtain ⟨c, cs, hcs, hc, -⟩ := exists_cons_digits ds
    obtain ⟨hplus, hminus⟩ := ne_sign hc
    rw [hcs, Exponent.signText, List.nil_append, exponentSign]
    · rfl
    · exact fun _ h => hplus (List.cons.inj h).1
    · exact fun _ h => hminus (List.cons.inj h).1

theorem skipPower_text (sign : Option Bool) (ds : Digits) {rest : List Char}
    (hr : EndsNumber rest) : skipPower (Exponent.signText sign ++ (ds.1 ++ rest)) = .ok rest := by
  have hd := dropWhile_digits ds.2.2 hr.digitNext
  obtain ⟨c, cs, hcs, hc, -⟩ := exists_cons_digits ds
  rw [hcs, List.cons_append, List.dropWhile_cons_of_pos hc] at hd
  rw [skipPower, exponentSign_text, hcs, List.cons_append]
  simp only [if_pos hc, hd]

theorem skipExponent_text (e : Option Exponent) {rest : List Char} (hr : EndsNumber rest) :
    skipExponent (exponentText e ++ rest) = .ok rest := by
  cases e with
  | none =>
    cases rest with
    | nil => rfl
    | cons c rest =>
      obtain ⟨-, -, he, hE⟩ := hr c rfl
      rw [exponentText, Option.map_none, Option.getD_none, List.nil_append, skipExponent]
      · exact fun _ h => he (List.cons.inj h).1
      · exact fun _ h => hE (List.cons.inj h).1
  | some e =>
    obtain ⟨capital, sign, digits⟩ := e
    have h := skipPower_text sign digits hr
    rw [← List.append_assoc] at h
    cases capital <;> exact h

theorem skipFraction_text (f : Option Digits) {rest : List Char} (hr : EndsDecimal rest) :
    skipFraction (fractionText f ++ rest) = .ok rest := by
  cases f with
  | none =>
    cases rest with
    | nil => rfl
    | cons c rest =>
      rw [fractionText, Option.map_none, Option.getD_none, List.nil_append, skipFraction]
      exact fun _ h => (hr c rfl).2 (List.cons.inj h).1
  | some ds =>
    show (if digitNext (ds.1 ++ rest) = true then .ok ((ds.1 ++ rest).dropWhile Char.isDigit)
      else stopAt .badNumber (ds.1 ++ rest)) = (.ok rest : Reading (List Char))
    rw [if_pos (digitNext_digits ds rest), dropWhile_digits ds.2.2 hr.digitNext]

theorem skipWhole_text (n : Numeral) {rest : List Char} (hr : digitNext rest = false) :
    skipWhole (n.whole.1 ++ rest) = .ok rest := by
  have hd := dropWhile_digits n.whole.2.2 hr
  obtain ⟨c, cs, hcs, hc, -⟩ := exists_cons_digits n.whole
  by_cases h0 : c = '0'
  · have h := n.noLeadingZero (by rw [hcs, h0]; rfl)
    rw [h, List.singleton_append, skipWhole, if_neg (by simp [hr])]
  · rw [hcs, List.cons_append, List.dropWhile_cons_of_pos hc] at hd
    rw [hcs, List.cons_append, skipWhole, if_pos hc, hd]
    exact h0

/-- A numeral is skipped, of whatever size. -/
theorem skipNumber_magnitude (n : Numeral) {rest : List Char} (hr : EndsNumber rest) :
    skipNumber (n.magnitude ++ rest) = .ok rest := by
  have he := endsDecimal_exponentText n.exponent hr
  rw [magnitude, List.append_assoc, List.append_assoc, skipNumber,
    skipWhole_text n (digitNext_fractionText n.fraction he.digitNext)]
  show (skipFraction _).bind _ = _
  rw [skipFraction_text n.fraction he]
  exact skipExponent_text n.exponent hr

/-- The text of a numeral starts with a minus or a digit. -/
theorem text_cases (n : Numeral) :
    (n.negative = true ∧ n.text = '-' :: n.magnitude) ∨
      (n.negative = false ∧ n.text = n.magnitude ∧
        ∃ c s, n.magnitude = c :: s ∧ c.isDigit = true) := by
  obtain ⟨c, cs, hcs, hc, -⟩ := exists_cons_digits n.whole
  cases hn : n.negative with
  | true => exact .inl ⟨rfl, by rw [text, if_pos hn]⟩
  | false =>
    refine .inr ⟨rfl, by rw [text, if_neg (by rw [hn]; decide)], c,
      cs ++ (fractionText n.fraction ++ exponentText n.exponent), ?_, hc⟩
    rw [magnitude, hcs, List.cons_append]

end Numeral

/-! ## Values -/

theorem skipCloseFrom_gap (size fuel : Nat) (b : Bracket) (outer : List Bracket) (comma : Bool)
    (g : Gap) (s : List Char) :
    skipCloseFrom size (fuel + 1) (b :: outer) comma (g.1 ++ s) =
      skipCloseFrom size (fuel + 1) (b :: outer) comma s := by
  cases b <;> rw [skipCloseFrom, skipCloseFrom, skipGap_append]

theorem skipValueFrom_gap (size fuel : Nat) (open_ : List Bracket) (g : Gap) (s : List Char) :
    skipValueFrom size (fuel + 1) open_ (g.1 ++ s) = skipValueFrom size (fuel + 1) open_ s := by
  rw [skipValueFrom, skipValueFrom, skipGap_append]

theorem skipValueFrom_digit (size fuel : Nat) (open_ : List Bracket) {c : Char}
    (hc : c.isDigit = true) (s : List Char) :
    skipValueFrom size (fuel + 1) open_ (c :: s) =
      (skipNumber (c :: s)).bind (skipCloseFrom size fuel open_ true) := by
  rw [skipValueFrom, skipGap_of_not_gap (isGap_of_isDigit hc)]
  simp only
  split
  all_goals first | exact absurd hc (by decide) | exact if_pos hc

/-! ## Containers -/

/-- What a value's text starts with: a quote only if it is a string, and an `n` only if it is
`null`. -/
theorem text_starts : (v : Written) → ∀ rest, ∃ c t, v.text ++ rest = c :: t ∧
    isGap c = false ∧ c ≠ ']' ∧ ((∃ gs, v = .string gs) ∨ c ≠ '"') ∧ (v = .null ∨ c ≠ 'n')
  | .null, rest => ⟨'n', _, rfl, rfl, by decide, .inr (by decide), .inl rfl⟩
  | .bool true, rest => ⟨'t', _, rfl, rfl, by decide, .inr (by decide), .inr (by decide)⟩
  | .bool false, rest => ⟨'f', _, rfl, rfl, by decide, .inr (by decide), .inr (by decide)⟩
  | .number n, rest => by
    rw [Written.text]
    rcases n.text_cases with ⟨-, ht⟩ | ⟨-, ht, c, s, hs, hc⟩
    · exact ⟨'-', _, by rw [ht]; rfl, rfl, by decide, .inr (by decide), .inr (by decide)⟩
    · have hne : ∀ d : Char, d.isDigit = false → c ≠ d := by
        rintro d hd rfl
        rw [hd] at hc
        cases hc
      exact ⟨c, _, by rw [ht, hs]; rfl, isGap_of_isDigit hc, hne _ (by decide),
        .inr (hne _ (by decide)), .inr (hne _ (by decide))⟩
  | .string gs, rest => ⟨'"', _, rfl, rfl, by decide, .inl ⟨gs, rfl⟩, .inr (by decide)⟩
  | .array _ [], rest => ⟨'[', _, rfl, rfl, by decide, .inr (by decide), .inr (by decide)⟩
  | .array _ (_ :: _), rest => ⟨'[', _, rfl, rfl, by decide, .inr (by decide), .inr (by decide)⟩
  | .object _ [], rest => ⟨'\x7b', _, rfl, rfl, by decide, .inr (by decide), .inr (by decide)⟩
  | .object _ (_ :: _), rest =>
    ⟨'\x7b', _, rfl, rfl, by decide, .inr (by decide), .inr (by decide)⟩

theorem startsValue_text (v : Written) (rest : List Char) : StartsValue (v.text ++ rest) := by
  obtain ⟨c, t, h, hg, hc, -⟩ := text_starts v rest
  exact ⟨c, t, h, hg, hc⟩

theorem length_text_pos (v : Written) : 0 < v.text.length := by
  obtain ⟨c, t, h, -⟩ := startsValue_text v []
  rw [← List.append_nil v.text, h]
  exact Nat.succ_pos _

/-- Behind an item the text goes on so that a number ends. -/
theorem endsNumber_moreItems (items : List (Item Written)) (rest : List Char) :
    EndsNumber (Written.moreItems items ++ ']' :: rest) := by
  cases items with
  | nil => exact .cons (by decide) _
  | cons item items => exact .cons (by decide) _

/-- Behind a member the text goes on so that a number ends. -/
theorem endsNumber_moreMembers (members : List (Member Written)) (rest : List Char) :
    EndsNumber (Written.moreMembers members ++ '\x7d' :: rest) := by
  cases members with
  | nil => exact .cons (by decide) _
  | cons member members => exact .cons (by decide) _

/-- The first item of a list is skipped as a value. -/
theorem skipCloseFrom_item (size fuel : Nat) (outer : List Bracket) {s : List Char}
    (hs : StartsValue s) :
    skipCloseFrom size (fuel + 1) (.list :: outer) false s =
      skipValueFrom size fuel (.list :: outer) s := by
  obtain ⟨c, t, rfl, hg, hc⟩ := hs
  rw [skipCloseFrom, skipGap_of_not_gap hg]
  split
  case h_1 heq => cases heq
  case h_2 heq => exact absurd (List.cons.inj heq).1 hc
  case h_3 heq =>
    obtain ⟨rfl, rfl⟩ := List.cons.inj heq
    rfl

theorem readColon_gap (g : Gap) (rest : List Char) : readColon (g.1 ++ ':' :: rest) = .ok rest := by
  rw [readColon, skipGap_append]
  rfl

/-- What stands behind the name of a member. -/
def behindName (m : Member Written) (rest : List Char) : List Char :=
  m.behind.1 ++ ':' :: (m.front.1 ++ (m.value.text ++ (m.after.1 ++ rest)))

theorem memberText_append (m : Member Written) (rest : List Char) :
    Written.memberText m ++ rest =
      m.before.1 ++ '"' :: (m.name.flatMap Glyph.text ++ '"' :: behindName m rest) := by
  obtain ⟨before, name, behind, front, value, after⟩ := m
  simp [Written.memberText, Written.quoted, behindName]

theorem skipGap_memberText (m : Member Written) (rest : List Char) :
    skipGap (Written.memberText m ++ rest) =
      '"' :: (m.name.flatMap Glyph.text ++ '"' :: behindName m rest) := by
  rw [memberText_append, skipGap_append, skipGap_of_not_gap (by decide)]

theorem length_lt_memberText (m : Member Written) :
    m.name.length < (Written.memberText m).length ∧
      m.value.text.length < (Written.memberText m).length := by
  have hname := Glyph.length_le_flatMap m.name
  have htext := congrArg List.length (memberText_append m [])
  simp only [behindName, List.append_nil, List.length_append, List.length_cons] at htext
  omega

section Members

variable {size : Nat} (fuel : Nat) (outer : List Bracket) {m : Member Written}
  (hsize : (Written.memberText m).length ≤ size) (rest : List Char)

include hsize

/-- The name of a member is skipped, and its value is next. -/
theorem skipName_bind :
    ((skipStringFrom size (m.name.flatMap Glyph.text ++ '"' :: behindName m rest)).bind fun s =>
      (readColon s).bind (skipValueFrom size fuel (.object :: outer))) =
    skipValueFrom size fuel (.object :: outer)
      (m.front.1 ++ (m.value.text ++ (m.after.1 ++ rest))) := by
  have hname := (length_lt_memberText m).1
  rw [Glyph.skipStringFrom_glyphs (by omega)]
  show (readColon (behindName m rest)).bind _ = _
  rw [behindName, readColon_gap]
  rfl

theorem skipCloseFrom_member :
    skipCloseFrom size (fuel + 1) (.object :: outer) false (Written.memberText m ++ rest) =
      skipValueFrom size fuel (.object :: outer)
        (m.front.1 ++ (m.value.text ++ (m.after.1 ++ rest))) := by
  rw [skipCloseFrom, skipGap_memberText]
  exact skipName_bind fuel outer hsize rest

theorem skipCloseFrom_nextMember :
    skipCloseFrom size (fuel + 1) (.object :: outer) true (',' :: (Written.memberText m ++ rest)) =
      skipValueFrom size fuel (.object :: outer)
        (m.front.1 ++ (m.value.text ++ (m.after.1 ++ rest))) := by
  rw [skipCloseFrom, skipGap_of_not_gap (show isGap ',' = false by decide)]
  split
  case h_1 heq => cases heq
  case h_2 heq => exact absurd (List.cons.inj heq).1 (by decide)
  case h_3 heq =>
    obtain ⟨rfl, rfl⟩ := List.cons.inj heq
    simp only [if_true, skipGap_memberText]
    exact skipName_bind fuel outer hsize rest

end Members

/-- A value is skipped in at most two steps for each of its characters: there is a number of steps
after which reading stands behind it. -/
def Skipped (v : Written) : Prop :=
  ∃ k, k < 2 * v.text.length ∧ ∀ {size fuel : Nat} {open_ : List Bracket} {rest : List Char},
    v.text.length ≤ size → EndsNumber rest →
    skipValueFrom size (fuel + (k + 1)) open_ (v.text ++ rest) =
      skipCloseFrom size fuel open_ true rest

/-- A value that is no container is skipped in one step. -/
theorem Skipped.of_step {v : Written}
    (h : ∀ {size fuel : Nat} {open_ : List Bracket} {rest : List Char}, v.text.length ≤ size →
      EndsNumber rest → skipValueFrom size (fuel + 1) open_ (v.text ++ rest) =
        skipCloseFrom size fuel open_ true rest) : Skipped v :=
  ⟨0, Nat.mul_pos Nat.two_pos (length_text_pos v), h⟩

theorem skipped_number (n : Numeral) : Skipped (.number n) := by
  refine .of_step fun {size fuel open_ rest} _ hr => ?_
  have hskip := n.skipNumber_magnitude hr
  rcases n.text_cases with ⟨-, ht⟩ | ⟨-, ht, c, s, hs, hc⟩
  · rw [Written.text, ht, List.cons_append, skipValueFrom,
      skipGap_of_not_gap (show isGap '-' = false by decide)]
    show (skipNumber _).bind _ = _
    rw [hskip]
    rfl
  · rw [Written.text, ht, hs, List.cons_append, skipValueFrom_digit _ _ _ hc,
      ← List.cons_append, ← hs, hskip]
    rfl

theorem skipped_string (gs : List Glyph) : Skipped (.string gs) := by
  refine .of_step fun {size fuel open_ rest} hsize _ => ?_
  rw [Written.text] at hsize ⊢
  have hlt := Written.length_lt_quoted gs
  rw [Written.quoted_append, skipValueFrom, skipGap_of_not_gap (show isGap '"' = false by decide)]
  show (skipStringFrom size _).bind _ = _
  rw [Glyph.skipStringFrom_glyphs (by omega)]
  rfl

/-- A value is skipped with the blanks behind it, in a container that goes on behind them. -/
theorem Skipped.behind {v : Written} (h : Skipped v) :
    ∃ k, k < 2 * v.text.length ∧ ∀ {size fuel : Nat} {b : Bracket} {outer : List Bracket}
      {rest : List Char} (after : Gap), v.text.length ≤ size → EndsNumber rest →
      skipValueFrom size (fuel + k + 2) (b :: outer) (v.text ++ (after.1 ++ rest)) =
        skipCloseFrom size (fuel + 1) (b :: outer) true rest := by
  obtain ⟨k, hk, hskip⟩ := h
  refine ⟨k, hk, fun {size fuel b outer rest} after hsize hr => ?_⟩
  rw [show fuel + k + 2 = fuel + 1 + (k + 1) by omega, hskip hsize (hr.gap after),
    skipCloseFrom_gap]

/-- The rest of a container, of the given length, is skipped up to the next one around it. -/
def SkippedRest (b : Bracket) (text : List Char) (closing : Char) : Prop :=
  ∃ k, k ≤ 2 * text.length ∧ ∀ {size fuel : Nat} {outer : List Bracket} {rest : List Char},
    text.length ≤ size →
    skipCloseFrom size (fuel + k + 1) (b :: outer) true (text ++ closing :: rest) =
      skipCloseFrom size fuel outer true rest

mutual

/-- **Values of any depth are skipped.** -/
theorem skipped : (v : Written) → Skipped v
  | .null | .bool true | .bool false => .of_step fun _ _ => rfl
  | .number n => skipped_number n
  | .string gs => skipped_string gs
  | .array inside [] => by
    refine ⟨1, ?_, fun {size fuel open_ rest} _ _ => ?_⟩
    · simp only [Written.text, List.length_cons, List.length_append]
      omega
    · rw [Written.text, List.cons_append, List.append_assoc]
      exact skipCloseFrom_gap size fuel .list open_ false inside (']' :: rest)
  | .array _ (⟨before, v, after⟩ :: items) => by
    obtain ⟨k, hk, hv⟩ := (skipped v).behind
    obtain ⟨n, hn, hmore⟩ := skipped_items items
    refine ⟨n + k + 3, ?_, fun {size fuel open_ rest} hsize _ => ?_⟩
    · simp only [Written.text, Written.itemText, List.length_cons, List.length_append]
      omega
    · simp only [Written.text, Written.itemText, List.length_cons, List.length_append] at hsize
      simp only [Written.text, Written.itemText, List.cons_append, List.append_assoc,
        List.nil_append]
      show skipCloseFrom size (fuel + (n + k) + 3) (.list :: open_) false _ = _
      rw [← Nat.add_assoc fuel n k, skipCloseFrom_gap,
        skipCloseFrom_item _ _ _ (startsValue_text v _),
        hv after (by omega) (endsNumber_moreItems items rest), hmore (by omega)]
  | .object inside [] => by
    refine ⟨1, ?_, fun {size fuel open_ rest} _ _ => ?_⟩
    · simp only [Written.text, List.length_cons, List.length_append]
      omega
    · rw [Written.text, List.cons_append, List.append_assoc]
      exact skipCloseFrom_gap size fuel .object open_ false inside ('\x7d' :: rest)
  | .object _ (⟨before, name, behind, front, v, after⟩ :: members) => by
    obtain ⟨k, hk, hv⟩ := (skipped v).behind
    obtain ⟨n, hn, hmore⟩ := skipped_members members
    have hlt := (length_lt_memberText ⟨before, name, behind, front, v, after⟩).2
    simp only at hlt
    refine ⟨n + k + 3, ?_, fun {size fuel open_ rest} hsize _ => ?_⟩
    · simp only [Written.text, List.length_cons, List.length_append]
      omega
    · simp only [Written.text, List.length_cons, List.length_append] at hsize
      simp only [Written.text, List.cons_append, List.append_assoc, List.nil_append]
      show skipCloseFrom size (fuel + (n + k) + 3) (.object :: open_) false _ = _
      rw [← Nat.add_assoc fuel n k, skipCloseFrom_member _ _ (by omega), skipValueFrom_gap,
        hv after (by omega) (endsNumber_moreMembers members rest), hmore (by omega)]

theorem skipped_items : (items : List (Item Written)) →
    SkippedRest .list (Written.moreItems items) ']'
  | [] => ⟨0, Nat.le_refl _, fun _ => rfl⟩
  | ⟨before, v, after⟩ :: items => by
    obtain ⟨k, hk, hv⟩ := (skipped v).behind
    obtain ⟨n, hn, hmore⟩ := skipped_items items
    refine ⟨n + k + 2, ?_, fun {size fuel outer rest} hsize => ?_⟩
    · simp only [Written.moreItems, Written.itemText, List.length_cons, List.length_append]
      omega
    · simp only [Written.moreItems, Written.itemText, List.length_cons, List.length_append]
        at hsize
      simp only [Written.moreItems, Written.itemText, List.cons_append, List.append_assoc]
      show skipValueFrom size (fuel + (n + k) + 2) (.list :: outer) _ = _
      rw [← Nat.add_assoc fuel n k, skipValueFrom_gap,
        hv after (by omega) (endsNumber_moreItems items rest), hmore (by omega)]

theorem skipped_members : (members : List (Member Written)) →
    SkippedRest .object (Written.moreMembers members) '\x7d'
  | [] => ⟨0, Nat.le_refl _, fun _ => rfl⟩
  | ⟨before, name, behind, front, v, after⟩ :: members => by
    obtain ⟨k, hk, hv⟩ := (skipped v).behind
    obtain ⟨n, hn, hmore⟩ := skipped_members members
    have hlt := (length_lt_memberText ⟨before, name, behind, front, v, after⟩).2
    simp only at hlt
    refine ⟨n + k + 2, ?_, fun {size fuel outer rest} hsize => ?_⟩
    · simp only [Written.moreMembers, List.length_cons, List.length_append]
      omega
    · simp only [Written.moreMembers, List.length_cons, List.length_append] at hsize
      simp only [Written.moreMembers, List.cons_append, List.append_assoc]
      show skipCloseFrom size (fuel + (n + k) + 3) (.object :: outer) true _ = _
      rw [← Nat.add_assoc fuel n k, skipCloseFrom_nextMember _ _ (by omega), skipValueFrom_gap,
        hv after (by omega) (endsNumber_moreMembers members rest), hmore (by omega)]

end

/-- **A value that no one asks for** is skipped, whatever it is. -/
theorem skipValue_text (v : Written) {size : Nat} (hsize : v.text.length ≤ size)
    (g : Gap) {rest : List Char} (hr : EndsNumber rest) :
    skipValue size (g.1 ++ (v.text ++ rest)) = .ok rest := by
  obtain ⟨k, hk, hskip⟩ := skipped v
  obtain ⟨fuel, hfuel⟩ : ∃ fuel, 2 * size + 2 = fuel + 1 + (k + 1) :=
    ⟨2 * size - k, by omega⟩
  rw [skipValue, skipValueFrom_gap, hfuel, hskip hsize hr]
  rfl

end ScriptWorker.Json

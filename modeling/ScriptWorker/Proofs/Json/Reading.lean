import ScriptWorker.Proofs.Json.Skipping

/-!
# Reading values

What is written is read as what it stands for, in front of anything that may follow it: strings
with their escapes decoded (`Glyph.readStringFrom_glyphs`), numerals as one number or none
(`Numeral.settled_readNumber`), and values whose containers nest no deeper than the reader goes
(`readValue_text`). Which number a numeral is does not matter here, only that it does not depend on
what follows.
-/

set_option autoImplicit false

namespace ScriptWorker.Json

open Numeric

/-! ## Strings -/

namespace Glyph

theorem readUnicode_code {w x y z : HexDigit} (ht : ¬IsTrailing (unit w x y z))
    (hl : ¬IsLeading (unit w x y z)) (rest : List Char) :
    readUnicode (w.1 :: x.1 :: y.1 :: z.1 :: rest) = .ok (Char.ofNat (unit w x y z), rest) := by
  unfold IsTrailing at ht
  have hplain : unit w x y z < 0xD800 ∨ 0xDBFF < unit w x y z := by
    unfold IsLeading at hl
    omega
  simp only [readUnicode, readHex4_code, Except.bind, bind, if_neg ht, if_pos hplain]
  rfl

theorem readUnicode_pair {w x y z w' x' y' z' : HexDigit} (hl : IsLeading (unit w x y z))
    (ht : IsTrailing (unit w' x' y' z')) (rest : List Char) :
    readUnicode (w.1 :: x.1 :: y.1 :: z.1 :: '\\' :: 'u' :: w'.1 :: x'.1 :: y'.1 :: z'.1 :: rest) =
      .ok (joined (unit w x y z) (unit w' x' y' z'), rest) := by
  unfold IsLeading at hl
  unfold IsTrailing at ht
  have h1 : ¬(0xDC00 ≤ unit w x y z ∧ unit w x y z ≤ 0xDFFF) := by omega
  have h2 : ¬(unit w x y z < 0xD800 ∨ 0xDBFF < unit w x y z) := by omega
  have h3 : ¬(unit w' x' y' z' < 0xDC00 ∨ 0xDFFF < unit w' x' y' z') := by omega
  simp only [readUnicode, readHex4_code, Except.bind, bind, if_neg h1, if_neg h2, if_neg h3]
  rfl

/-- Reading goes on behind a character of the string. -/
theorem readStringFrom_plain {c : Char} (h : c ≠ '"' ∧ c ≠ '\\' ∧ 0x20 ≤ c.toNat) (fuel : Nat)
    (out rest : List Char) :
    readStringFrom (fuel + 1) out (c :: rest) = readStringFrom fuel (c :: out) rest := by
  obtain ⟨hq, hb, hle⟩ := h
  rw [readStringFrom, if_neg (Nat.not_lt.2 hle)]
  · exact hq
  · exact hb

theorem readStringFrom_short {e : Char} (h : (shortEscape? e).isSome = true) (fuel : Nat)
    (out rest : List Char) :
    readStringFrom (fuel + 1) out ('\\' :: e :: rest) =
      readStringFrom fuel ((shortEscape? e).get h :: out) rest := by
  obtain ⟨c, hc⟩ := Option.isSome_iff_exists.1 h
  rw [readStringFrom]
  · simp only [hc, Option.get_some]
  · exact ne_of_shortEscape h

theorem readStringFrom_unicode {s rest : List Char} {c : Char}
    (h : readUnicode s = .ok (c, rest)) (fuel : Nat) (out : List Char) :
    readStringFrom (fuel + 1) out ('\\' :: 'u' :: s) = readStringFrom fuel (c :: out) rest := by
  simp only [readStringFrom, h]

/-- **A written string is read as what it stands for**, whatever follows it. -/
theorem readStringFrom_glyphs {gs : List Glyph} {cs : List Char} (h : decode gs = some cs)
    {fuel : Nat} (hfuel : gs.length < fuel) (out rest : List Char) :
    readStringFrom fuel out (gs.flatMap text ++ '"' :: rest) =
      .ok (String.ofList (out.reverse ++ cs), rest) := by
  -- a glyph, or a pair of them, gives one character, and reading goes on behind it
  have step : ∀ {gs : List Glyph} {c : Char} {cs out s : List Char} {fuel : Nat},
      (decode gs).map (c :: ·) = some cs → gs.length + 1 < fuel →
      (∀ fuel, readStringFrom (fuel + 1) out s =
        readStringFrom fuel (c :: out) (gs.flatMap text ++ '"' :: rest)) →
      (∀ {cs}, decode gs = some cs → ∀ {fuel}, gs.length < fuel → ∀ out,
        readStringFrom fuel out (gs.flatMap text ++ '"' :: rest) =
          .ok (String.ofList (out.reverse ++ cs), rest)) →
      readStringFrom fuel out s = .ok (String.ofList (out.reverse ++ cs), rest) := by
    intro gs c cs out s fuel h hfuel hs ih
    obtain ⟨fuel, rfl⟩ : ∃ n, fuel = n + 1 := ⟨fuel - 1, by omega⟩
    obtain ⟨cs, hcs, rfl⟩ := Option.map_eq_some_iff.1 h
    rw [hs, ih hcs (by omega), List.reverse_cons, List.append_assoc, List.singleton_append]
  fun_induction decode gs generalizing cs fuel out with
  | case1 =>
    obtain ⟨fuel, rfl⟩ := Nat.exists_eq_add_of_lt hfuel
    obtain rfl := Option.some.inj h
    rw [List.append_nil]
    rfl
  | case2 c hc gs ih => exact step h hfuel (fun fuel => readStringFrom_plain hc fuel out _) ih
  | case3 e he gs ih => exact step h hfuel (fun fuel => readStringFrom_short he fuel out _) ih
  | case5 w x y z ht hl w' x' y' z' gs ht' ih =>
    exact step h (Nat.lt_of_succ_lt hfuel)
      (fun fuel => readStringFrom_unicode (readUnicode_pair hl ht' _) fuel out) ih
  | case8 w x y z gs ht hl ih =>
    exact step h hfuel (fun fuel => readStringFrom_unicode (readUnicode_code ht hl _) fuel out) ih
  | case4 | case6 | case7 => cases h

/-- A written string is read from behind its opening quote to behind its closing one. -/
theorem readString_glyphs {gs : List Glyph} {s : String} (h : string? gs = some s) {size : Nat}
    (hsize : gs.length < size) (rest : List Char) :
    readStringFrom size [] (gs.flatMap text ++ '"' :: rest) = .ok (s, rest) := by
  obtain ⟨cs, hcs, rfl⟩ := Option.map_eq_some_iff.1 h
  exact readStringFrom_glyphs hcs hsize [] rest

end Glyph

/-! ## Numerals -/

/-- The reader gives this value and leaves this text, or it stops where there is no value. -/
def Gives {α : Type} (value? : Option α) (rest : List Char) (result : Reading (α × List Char)) :
    Prop :=
  match value? with
  | some value => result = .ok (value, rest)
  | none => ∃ stop, result = .error stop

/-- The reader takes the text as one number, or refuses it, whatever follows that ends a number. -/
def Settled (read : List Char → Reading (Value × List Char)) (text : List Char) : Prop :=
  ∃ v?, ∀ {rest}, EndsNumber rest → Gives v? rest (read (text ++ rest))

theorem Settled.of_eq {read read' : List Char → Reading (Value × List Char)}
    {text text' : List Char} (h : Settled read' text')
    (heq : ∀ {rest}, EndsNumber rest → read (text ++ rest) = read' (text' ++ rest)) :
    Settled read text := by
  obtain ⟨v?, hv⟩ := h
  refine ⟨v?, fun hr => ?_⟩
  rw [heq hr]
  exact hv hr

theorem settled_makeFloat (negative : Bool) (significand : Nat) (e : Int) :
    Settled (makeFloat negative significand e) [] := by
  cases hf : scaleBy 5 (nearest false significand 1) e with
  | none => exact ⟨none, fun _ => ⟨_, by rw [makeFloat, hf]; rfl⟩⟩
  | some f =>
    exact ⟨some (.float (if negative then -f else f)), fun _ => by rw [makeFloat, hf]; rfl⟩

/-- Gathering goes through digits as far as the number fits, whatever follows them. -/
theorem gather_split {ds : List Char} (hds : ∀ c ∈ ds, c.isDigit = true) (limit n count : Nat) :
    ∃ m k left, (∀ c ∈ left, c.isDigit = true) ∧ k + left.length = count + ds.length ∧
      ∀ {rest}, digitNext rest = false →
        gather limit n count (ds ++ rest) = (m, k, left ++ rest) := by
  induction ds generalizing n count with
  | nil =>
    refine ⟨n, count, [], nofun, rfl, fun {rest} hr => ?_⟩
    cases rest with
    | nil => rfl
    | cons c rest =>
      have hc : c.isDigit = false := hr
      simp [gather, hc]
  | cons c ds ih =>
    obtain ⟨hc, hds⟩ := List.forall_mem_cons.1 hds
    by_cases hl : n * 10 + digitValue c ≤ limit
    · obtain ⟨m, k, left, hleft, hk, hg⟩ := ih hds (n * 10 + digitValue c) (count + 1)
      refine ⟨m, k, left, hleft, by rw [List.length_cons]; omega, fun hr => ?_⟩
      rw [List.cons_append, gather, if_pos ⟨hc, hl⟩, hg hr]
    · refine ⟨n, count, c :: ds, List.forall_mem_cons.2 ⟨hc, hds⟩, rfl, fun hr => ?_⟩
      rw [List.cons_append, gather, if_neg fun h => hl h.2]

theorem digitNext_append {left : List Char} (h : ∀ c ∈ left, c.isDigit = true) {rest : List Char}
    (hr : digitNext rest = false) : digitNext (left ++ rest) = !left.isEmpty := by
  cases left with
  | nil => exact hr
  | cons c left => exact h c List.mem_cons_self

namespace Numeral

theorem settled_readExponent (negative : Bool) (significand : Nat) (start : Int)
    (sign : Option Bool) (ds : Digits) :
    Settled (readExponent negative significand start) (Exponent.signText sign ++ ds.1) := by
  obtain ⟨c, cs, hcs, hc, hds⟩ := exists_cons_digits ds
  obtain ⟨e, k, left, hleft, -, hg⟩ := gather_split hds greatestExponent (digitValue c) 0
  have hread : ∀ {rest}, EndsNumber rest →
      readExponent negative significand start (Exponent.signText sign ++ ds.1 ++ rest) =
        if (!left.isEmpty) = true then
          if significand ≠ 0 ∧ (!sign.getD false) = true then
            stopBefore .numberOutOfRange ((left ++ rest).drop 1)
          else .ok (.float (if negative then -0.0 else 0.0), rest)
        else makeFloat negative significand (if !sign.getD false then start + e else start - e)
          (left ++ rest) := by
    intro rest hr
    rw [List.append_assoc, readExponent, exponentSign_text, hcs, List.cons_append]
    simp only [readPower, if_pos hc, hg hr.digitNext, digitNext_append hleft hr.digitNext,
      dropWhile_digits hleft hr.digitNext]
  cases left with
  | nil => exact (settled_makeFloat ..).of_eq hread
  | cons d left =>
    by_cases h : significand ≠ 0 ∧ (!sign.getD false) = true
    · exact ⟨none, fun hr => ⟨_, (hread hr).trans (if_pos h)⟩⟩
    · exact ⟨some (.float (if negative then -0.0 else 0.0)), fun hr =>
        (hread hr).trans (if_neg h)⟩

theorem settled_readFloatEnd (negative : Bool) (significand : Nat) (start : Int)
    (e : Option Exponent) :
    Settled (readFloatEnd negative significand start) (exponentText e) := by
  cases e with
  | none =>
    refine (settled_makeFloat negative significand start).of_eq fun {rest} hr => ?_
    cases rest with
    | nil => rfl
    | cons c rest =>
      obtain ⟨-, -, he, hE⟩ := hr c rfl
      rw [exponentText, Option.map_none, Option.getD_none, List.nil_append, readFloatEnd]
      · exact fun _ h => he (List.cons.inj h).1
      · exact fun _ h => hE (List.cons.inj h).1
  | some e =>
    obtain ⟨capital, sign, ds⟩ := e
    refine (settled_readExponent negative significand start sign ds).of_eq fun _ => ?_
    cases capital <;> rfl

theorem settled_readFraction (negative : Bool) (significand : Nat) (start : Int) (ds : Digits)
    (e : Option Exponent) :
    Settled (readFraction negative significand start) (ds.1 ++ exponentText e) := by
  obtain ⟨m, k, left, hleft, hk, hg⟩ := gather_split ds.2.2 greatestSignificand significand 0
  refine (settled_readFloatEnd negative m (start - k) e).of_eq fun {rest} hr => ?_
  have hnext := (endsDecimal_exponentText e hr).digitNext
  rw [List.append_assoc, readFraction]
  simp only [hg hnext, digitNext_append hleft hnext, dropWhile_digits hleft hnext]
  cases left with
  | nil =>
    have hpos : k ≠ 0 := by
      have := List.length_pos_iff.2 ds.2.1
      simp only [List.length_nil] at hk
      omega
    exact if_neg hpos
  | cons d left => rfl

theorem settled_readIntEnd (negative : Bool) (significand : Nat) (f : Option Digits)
    (e : Option Exponent) :
    Settled (readIntEnd negative significand) (fractionText f ++ exponentText e) := by
  cases f with
  | some ds => exact (settled_readFraction negative significand 0 ds e).of_eq fun _ => rfl
  | none =>
    cases e with
    | none =>
      exact ⟨some (makeInt negative significand), fun hr => readIntEnd_of_ends negative _ hr⟩
    | some e =>
      obtain ⟨capital, sign, ds⟩ := e
      refine (settled_readExponent negative significand 0 sign ds).of_eq fun _ => ?_
      cases capital <;> rfl

theorem settled_readLargeEnd (negative : Bool) (significand : Nat) (skipped : Int)
    (f : Option Digits) (e : Option Exponent) :
    Settled (readLargeEnd negative significand skipped) (fractionText f ++ exponentText e) := by
  cases f with
  | some ds => exact (settled_readFraction negative significand skipped ds e).of_eq fun _ => rfl
  | none =>
    refine (settled_readFloatEnd negative significand skipped e).of_eq fun {rest} hr => ?_
    have hdecimal := endsDecimal_exponentText e hr
    show readLargeEnd negative significand skipped (exponentText e ++ rest) = _
    cases hs : exponentText e ++ rest with
    | nil => rfl
    | cons c s =>
      rw [hs] at hdecimal
      rw [readLargeEnd]
      exact fun _ h => (hdecimal c rfl).2 (List.cons.inj h).1

/-- **A numeral is read as one number or refused**, whatever follows it that ends a number. -/
theorem settled_readNumber (n : Numeral) : Settled (readNumber n.negative) n.magnitude := by
  obtain ⟨c, cs, hcs, hc, hds⟩ := exists_cons_digits n.whole
  have hnext : ∀ {rest}, EndsNumber rest →
      digitNext (fractionText n.fraction ++ exponentText n.exponent ++ rest) = false := by
    intro rest hr
    rw [List.append_assoc]
    exact digitNext_fractionText n.fraction (endsDecimal_exponentText n.exponent hr).digitNext
  by_cases h0 : c = '0'
  · refine (settled_readIntEnd n.negative 0 n.fraction n.exponent).of_eq fun hr => ?_
    rw [magnitude, n.noLeadingZero (by rw [hcs, h0]; rfl), List.append_assoc,
      List.singleton_append, readNumber, hnext hr]
    rfl
  · obtain ⟨m, k, left, hleft, -, hg⟩ := gather_split hds greatestSignificand (digitValue c) 0
    -- digits that do not fit the significand count for the exponent
    have hread : ∀ {rest}, EndsNumber rest → readNumber n.negative (n.magnitude ++ rest) =
        if (!left.isEmpty) = true then
          readLargeEnd n.negative m left.length
            (fractionText n.fraction ++ exponentText n.exponent ++ rest)
        else readIntEnd n.negative m
          (left ++ (fractionText n.fraction ++ exponentText n.exponent ++ rest)) := by
      intro rest hr
      rw [magnitude, hcs, List.append_assoc, List.cons_append, readNumber]
      · have hlen : ∀ tail : List Char,
            ((left ++ tail).length : Int) - tail.length = left.length := by
          intro tail
          rw [List.length_append]
          omega
        simp only [if_pos hc, hg (hnext hr), digitNext_append hleft (hnext hr),
          dropWhile_digits hleft (hnext hr), hlen]
      · exact h0
    cases left with
    | nil => exact (settled_readIntEnd n.negative m n.fraction n.exponent).of_eq hread
    | cons d left =>
      exact (settled_readLargeEnd n.negative m _ n.fraction n.exponent).of_eq hread

theorem readNumber_magnitude {n : Numeral} {v : Value} (h : n.value? = some v) {rest : List Char}
    (hr : EndsNumber rest) : readNumber n.negative (n.magnitude ++ rest) = .ok (v, rest) := by
  obtain ⟨v?, hv⟩ := n.settled_readNumber
  have hown := hv .nil
  rw [List.append_nil] at hown
  obtain rfl : v? = some v := by
    cases v? with
    | none =>
      obtain ⟨stop, hstop⟩ := hown
      rw [value?, hstop] at h
      cases h
    | some w =>
      rw [value?, show readNumber n.negative n.magnitude = .ok (w, []) from hown] at h
      exact h
  exact hv hr

end Numeral

theorem readValue_gap (size depth : Nat) (g : Gap) (s : List Char) :
    readValue size depth (g.1 ++ s) = readValue size depth s := by
  unfold readValue
  rw [skipGap_append]

theorem readValue_number {n : Numeral} {v : Value} (h : n.value? = some v) (size depth : Nat)
    {rest : List Char} (hr : EndsNumber rest) :
    readValue size depth (n.text ++ rest) = .ok (v, rest) := by
  have hread := Numeral.readNumber_magnitude h hr
  rcases n.text_cases with ⟨hn, ht⟩ | ⟨hn, ht, c, s, hs, hc⟩
  · rw [hn] at hread
    rw [ht, ← hread]
    unfold readValue
    rfl
  · rw [hn] at hread
    rw [ht, ← hread, hs]
    exact readValue_digit size depth hc _

theorem readValue_string {gs : List Glyph} {s : String} (h : Glyph.string? gs = some s)
    {size : Nat} (hsize : gs.length < size) (depth : Nat) (rest : List Char) :
    readValue size depth (Written.quoted gs ++ rest) = .ok (.string s, rest) := by
  rw [Written.quoted_append]
  unfold readValue
  show (readStringFrom size [] _).bind _ = _
  rw [Glyph.readString_glyphs h hsize]
  rfl

/-! ## Containers -/

section Items

variable {σ : Type} {item : σ → List Char → Reading ((σ × Bool) × List Char)}

theorem foldItems_gap (fuel : Nat) (first : Bool) (state : σ) (g : Gap) (s : List Char) :
    foldItems item (fuel + 1) first state (g.1 ++ s) = foldItems item (fuel + 1) first state s := by
  rw [foldItems, foldItems, skipGap_append]

theorem foldItems_comma (fuel : Nat) (state : σ) (g : Gap) (s : List Char) :
    foldItems item (fuel + 1) false state (',' :: (g.1 ++ s)) =
      foldItems item (fuel + 1) false state (',' :: s) := by
  have hcomma : ∀ s, skipGap (',' :: s) = ',' :: s := skipGap_of_not_gap (by decide)
  rw [foldItems, foldItems, hcomma, hcomma]
  simp only [skipGap_append, show ¬(',' = ']') by decide, if_false, Bool.false_eq_true, if_true]

end Items

section Members

variable {σ : Type} {size : Nat} {member : σ → String → List Char → Reading (σ × List Char)}
  {m : Member Written} {key : String} (hkey : Glyph.string? m.name = some key)
  (hsize : m.name.length < size)

theorem foldMembers_gap (fuel : Nat) (first : Bool) (state : σ) (g : Gap) (s : List Char) :
    foldMembers size member (fuel + 1) first state (g.1 ++ s) =
      foldMembers size member (fuel + 1) first state s := by
  rw [foldMembers, foldMembers, skipGap_append]

include hkey hsize

/-- The first member is read, and reading goes on behind it. -/
theorem foldMembers_member (fuel : Nat) (state : σ) (rest : List Char) :
    foldMembers size member (fuel + 1) true state (Written.memberText m ++ rest) =
      (member state key (behindName m rest)).bind fun found =>
        foldMembers size member fuel false found.1 found.2 :=
  foldMembers_named (skipGap_memberText m rest) (Glyph.readString_glyphs hkey hsize _) fuel state

/-- A member behind a comma is read, and reading goes on behind it. -/
theorem foldMembers_nextMember (fuel : Nat) (state : σ) (rest : List Char) :
    foldMembers size member (fuel + 1) false state (',' :: (Written.memberText m ++ rest)) =
      (member state key (behindName m rest)).bind fun found =>
        foldMembers size member fuel false found.1 found.2 :=
  foldMembers_nextNamed (skipGap_memberText m rest) (Glyph.readString_glyphs hkey hsize _) fuel
    state

end Members

section Values

variable {size depth : Nat} {w : Written} {v : Value}

/-- The first item is read with the blanks around it. -/
theorem foldItems_firstItem (before : Gap) {after : Gap} {rest : List Char}
    (h : readValue size depth (w.text ++ (after.1 ++ rest)) = .ok (v, after.1 ++ rest))
    (fuel : Nat) (done : List Value) :
    foldItems (readItem size depth) (fuel + 2) true done
        (before.1 ++ (w.text ++ (after.1 ++ rest))) =
      foldItems (readItem size depth) (fuel + 1) false (v :: done) rest := by
  rw [foldItems_gap, foldItems_first (startsValue_text w _) (readItem_ok h done), foldItems_gap]

/-- An item behind a comma is read with the blanks around it. -/
theorem foldItems_nextItem (before : Gap) {after : Gap} {rest : List Char}
    (h : readValue size depth (w.text ++ (after.1 ++ rest)) = .ok (v, after.1 ++ rest))
    (fuel : Nat) (done : List Value) :
    foldItems (readItem size depth) (fuel + 2) false done
        (',' :: (before.1 ++ (w.text ++ (after.1 ++ rest)))) =
      foldItems (readItem size depth) (fuel + 1) false (v :: done) rest := by
  rw [foldItems_comma, foldItems_next (startsValue_text w _) (readItem_ok h done), foldItems_gap]

theorem readMember_text {m : Member Written} {rest rest' : List Char}
    (h : readValue size depth (m.value.text ++ (m.after.1 ++ rest)) = .ok (v, rest'))
    (members : List (String × Value)) (key : String) :
    readMember size depth members key (behindName m rest) = .ok ((key, v) :: members, rest') := by
  rw [readMember, behindName, readColon_gap]
  show (readValue size depth _).bind _ = _
  rw [readValue_gap, h]
  rfl

section Members

variable {m : Member Written} {key : String} {rest : List Char}
  (hkey : Glyph.string? m.name = some key) (hsize : m.name.length < size)
  (h : readValue size depth (m.value.text ++ (m.after.1 ++ rest)) = .ok (v, m.after.1 ++ rest))

include hkey hsize h

/-- The first member is read with the blanks around it. -/
theorem foldMembers_firstMember (fuel : Nat) (done : List (String × Value)) :
    foldMembers size (readMember size depth) (fuel + 2) true done (Written.memberText m ++ rest) =
      foldMembers size (readMember size depth) (fuel + 1) false ((key, v) :: done) rest := by
  rw [foldMembers_member hkey hsize, readMember_text h]
  exact foldMembers_gap ..

/-- A member behind a comma is read with the blanks around it. -/
theorem foldMembers_behindComma (fuel : Nat) (done : List (String × Value)) :
    foldMembers size (readMember size depth) (fuel + 2) false done
        (',' :: (Written.memberText m ++ rest)) =
      foldMembers size (readMember size depth) (fuel + 1) false ((key, v) :: done) rest := by
  rw [foldMembers_nextMember hkey hsize, readMember_text h]
  exact foldMembers_gap ..

end Members

end Values

mutual

/-- **A written value is read as what it stands for**, whatever follows it that ends a number. -/
theorem readValue_text : (w : Written) → ∀ {v : Value}, w.value? = some v →
    ∀ (size depth : Nat), w.depth < depth → w.text.length < size → ∀ {rest : List Char},
    EndsNumber rest → readValue size depth (w.text ++ rest) = .ok (v, rest)
  | .null, _, h, _, _, _, _, _, _ => by
    obtain rfl := Option.some.inj h
    unfold readValue
    rfl
  | .bool true, _, h, _, _, _, _, _, _ => by
    obtain rfl := Option.some.inj h
    unfold readValue
    rfl
  | .bool false, _, h, _, _, _, _, _, _ => by
    obtain rfl := Option.some.inj h
    unfold readValue
    rfl
  | .number n, _, h, size, depth, _, _, _, hr => readValue_number h size depth hr
  | .string gs, _, h, _, depth, _, hs, rest, _ => by
    obtain ⟨s, hs', rfl⟩ := Option.map_eq_some_iff.1 h
    exact readValue_string hs' (Nat.lt_trans (Written.length_lt_quoted gs) hs) depth rest
  | .array inside [], _, h, size, depth, hd, hs, rest, _ => by
    obtain rfl := Option.some.inj h
    simp only [Written.depth] at hd
    obtain ⟨depth, rfl⟩ : ∃ n, depth = n + 2 := ⟨depth - 2, by omega⟩
    obtain ⟨size, rfl⟩ : ∃ n, size = n + 1 := ⟨size - 1, by omega⟩
    rw [Written.text, List.cons_append, List.append_assoc]
    have hread : foldItems (readItem (size + 1) (depth + 1)) (size + 1) true []
        (inside.1 ++ ']' :: rest) = .ok ([], ']' :: rest) := by
      rw [foldItems_gap, foldItems_end]
    exact readValue_array hread
  | .array _ (⟨before, w, after⟩ :: items), _, h, size, depth, hd, hs, rest, _ => by
    obtain ⟨vs, hitems, rfl⟩ := Option.map_eq_some_iff.1 h
    obtain ⟨v, vs, hv, hvs, rfl⟩ := Written.of_itemValues? hitems
    simp only [Written.depth, Written.itemsDepth] at hd
    simp only [Written.text, Written.itemText, List.length_cons, List.length_append] at hs
    obtain ⟨depth, rfl⟩ : ∃ n, depth = n + 2 := ⟨depth - 2, by omega⟩
    obtain ⟨size, rfl⟩ : ∃ n, size = n + 2 := ⟨size - 2, by omega⟩
    have hfirst := readValue_text w hv (size + 2) (depth + 1) (by omega) (by omega)
      ((endsNumber_moreItems items rest).gap after)
    have hmore := foldItems_moreItems items hvs (size + 2) (depth + 1) (size + 1) (by omega)
      (by omega) (by omega) [v] rest
    rw [← foldItems_firstItem before hfirst] at hmore
    simp only [Written.text, Written.itemText, List.cons_append, List.append_assoc, List.nil_append]
    rw [readValue_array hmore]
    simp
  | .object inside [], _, h, size, depth, hd, hs, rest, _ => by
    obtain rfl := Option.some.inj h
    simp only [Written.depth] at hd
    obtain ⟨depth, rfl⟩ : ∃ n, depth = n + 2 := ⟨depth - 2, by omega⟩
    obtain ⟨size, rfl⟩ : ∃ n, size = n + 1 := ⟨size - 1, by omega⟩
    rw [Written.text, List.cons_append, List.append_assoc]
    have hread : foldMembers (size + 1) (readMember (size + 1) (depth + 1)) (size + 1) true []
        (inside.1 ++ '\x7d' :: rest) = .ok ([], '\x7d' :: rest) := by
      rw [foldMembers_gap, foldMembers_end]
    exact readValue_object hread
  | .object _ (⟨before, name, behind, front, w, after⟩ :: members), _, h, size, depth, hd, hs,
      rest, _ => by
    obtain ⟨vs, hmembers, rfl⟩ := Option.map_eq_some_iff.1 h
    obtain ⟨key, v, vs, hkey, hv, hvs, rfl⟩ := Written.of_memberValues? hmembers
    obtain ⟨hname, hvalue⟩ := length_lt_memberText ⟨before, name, behind, front, w, after⟩
    simp only at hname hvalue
    simp only [Written.depth, Written.membersDepth] at hd
    simp only [Written.text, List.length_cons, List.length_append] at hs
    obtain ⟨depth, rfl⟩ : ∃ n, depth = n + 2 := ⟨depth - 2, by omega⟩
    obtain ⟨size, rfl⟩ : ∃ n, size = n + 2 := ⟨size - 2, by omega⟩
    have hfirst := readValue_text w hv (size + 2) (depth + 1) (by omega) (by omega)
      ((endsNumber_moreMembers members rest).gap after)
    have hmore := foldMembers_moreMembers members hvs (size + 2) (depth + 1) (size + 1)
      (by omega) (by omega) (by omega) [(key, v)] rest
    rw [← foldMembers_firstMember (m := ⟨before, name, behind, front, w, after⟩) hkey
      (by simp only; omega) hfirst] at hmore
    simp only [Written.text, List.cons_append, List.append_assoc, List.nil_append]
    rw [readValue_object hmore]
    simp

theorem foldItems_moreItems : (items : List (Item Written)) → ∀ {vs : List Value},
    Written.itemValues? items = some vs → ∀ (size depth fuel : Nat),
    Written.itemsDepth items < depth → (Written.moreItems items).length < size →
    (Written.moreItems items).length < fuel → ∀ (done : List Value) (rest : List Char),
    foldItems (readItem size depth) fuel false done (Written.moreItems items ++ ']' :: rest) =
      .ok (vs.reverse ++ done, ']' :: rest)
  | [], _, h, _, _, fuel, _, _, hf, done, rest => by
    obtain rfl := Option.some.inj h
    obtain ⟨fuel, rfl⟩ := Nat.exists_eq_add_of_lt hf
    exact foldItems_end _ _ _ _
  | ⟨before, w, after⟩ :: items, _, h, size, depth, fuel, hd, hs, hf, done, rest => by
    obtain ⟨v, vs, hv, hvs, rfl⟩ := Written.of_itemValues? h
    have hpos := length_text_pos w
    simp only [Written.itemsDepth] at hd
    simp only [Written.moreItems, Written.itemText, List.length_cons, List.length_append] at hs hf
    obtain ⟨fuel, rfl⟩ : ∃ n, fuel = n + 2 := ⟨fuel - 2, by omega⟩
    have hfirst := readValue_text w hv size depth (by omega) (by omega)
      ((endsNumber_moreItems items rest).gap after)
    simp only [Written.moreItems, Written.itemText, List.cons_append, List.append_assoc]
    rw [foldItems_nextItem before hfirst,
      foldItems_moreItems items hvs size depth _ (by omega) (by omega) (by omega)]
    simp

theorem foldMembers_moreMembers : (members : List (Member Written)) →
    ∀ {vs : List (String × Value)}, Written.memberValues? members = some vs →
    ∀ (size depth fuel : Nat), Written.membersDepth members < depth →
    (Written.moreMembers members).length < size → (Written.moreMembers members).length < fuel →
    ∀ (done : List (String × Value)) (rest : List Char),
    foldMembers size (readMember size depth) fuel false done
        (Written.moreMembers members ++ '\x7d' :: rest) =
      .ok (vs.reverse ++ done, '\x7d' :: rest)
  | [], _, h, _, _, fuel, _, _, hf, done, rest => by
    obtain rfl := Option.some.inj h
    obtain ⟨fuel, rfl⟩ := Nat.exists_eq_add_of_lt hf
    exact foldMembers_end _ _ _ _
  | ⟨before, name, behind, front, w, after⟩ :: members, _, h, size, depth, fuel, hd, hs, hf, done,
      rest => by
    obtain ⟨key, v, vs, hkey, hv, hvs, rfl⟩ := Written.of_memberValues? h
    obtain ⟨hname, hvalue⟩ := length_lt_memberText ⟨before, name, behind, front, w, after⟩
    simp only at hname hvalue
    simp only [Written.membersDepth] at hd
    simp only [Written.moreMembers, List.length_cons, List.length_append] at hs hf
    obtain ⟨fuel, rfl⟩ : ∃ n, fuel = n + 2 := ⟨fuel - 2, by omega⟩
    have hfirst := readValue_text w hv size depth (by omega) (by omega)
      ((endsNumber_moreMembers members rest).gap after)
    rw [Written.moreMembers, List.cons_append, List.append_assoc,
      foldMembers_behindComma (m := ⟨before, name, behind, front, w, after⟩) hkey
        (by simp only; omega) hfirst,
      foldMembers_moreMembers members hvs size depth _ (by omega) (by omega) (by omega)]
    simp

end

end ScriptWorker.Json

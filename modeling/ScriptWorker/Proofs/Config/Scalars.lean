import ScriptWorker.Config.Variables
import ScriptWorker.Proofs.Loading.Declarations

/-!
# Numbers and quoted strings in variables

A bare text is the number that it writes as a numeral, and itself if it is no numeral (`word_iff`).
What is read behind a quote is the string between that quote and the first one that is not escaped
(`readQuoted_eq_some_iff`); a key is such a string or a run of key characters (`Key`).
-/

set_option autoImplicit false

namespace ScriptWorker.Config.Variables

open Loading.Signature (span_append exists_span)

/-! ## Numerals -/

/-- A sign, or none, and whether it is that of negative numbers. -/
inductive Sign : Bool → List Char → Prop
  | none : Sign false []
  | plus : Sign false ['+']
  | minus : Sign true ['-']

/-- Nothing but decimal digits. -/
def AllDigits (s : List Char) : Prop := ∀ c ∈ s, c.isDigit = true

/-- A number with a sign. -/
def signed (negative : Bool) (n : Nat) : Int := if negative then -(n : Int) else n

/-- The power of ten at the end of a numeral, or none. -/
inductive Power : Int → List Char → Prop
  | none : Power 0 []
  | some {mark : Char} {sign digits : List Char} {negative : Bool} (hm : mark = 'e' ∨ mark = 'E')
      (hs : Sign negative sign) (hne : digits ≠ []) (hd : AllDigits digits) :
      Power (signed negative (Toml.inBase 10 digits)) (mark :: (sign ++ digits))

/-- A double as a value; one that is not finite is none. -/
def ofDouble (x : Float) : Json.Value := if x.isFinite then .float x else .null

/-- The text writes a number: a whole one that is in range, or a double, which has a point. -/
inductive Numeral : Json.Value → List Char → Prop
  | whole {sign digits : List Char} {negative : Bool} (hs : Sign negative sign) (hne : digits ≠ [])
      (hd : AllDigits digits)
      (hr : Json.Value.leastInt ≤ signed negative (Toml.inBase 10 digits) ∧
        signed negative (Toml.inBase 10 digits) ≤ Json.Value.greatestInt) :
      Numeral (.int (signed negative (Toml.inBase 10 digits))) (sign ++ digits)
  | real {sign whole fraction power : List Char} {negative : Bool} {e : Int}
      (hs : Sign negative sign) (hw : AllDigits whole) (hf : AllDigits fraction)
      (hne : whole ≠ [] ∨ fraction ≠ []) (hp : Power e power) :
      Numeral
        (ofDouble (Numeric.nearestDecimal negative (Toml.inBase 10 (whole ++ fraction))
          (e - fraction.length)))
        (sign ++ (whole ++ '.' :: (fraction ++ power)))

theorem readSign_append {sign s : List Char} {negative : Bool} (hs : Sign negative sign)
    (h : ∀ c ∈ s.head?, c ≠ '+' ∧ c ≠ '-') : readSign (sign ++ s) = (negative, s) := by
  cases hs with
  | plus | minus => rfl
  | none =>
    rw [List.nil_append]
    unfold readSign
    split
    · exact absurd rfl (h _ rfl).2
    · exact absurd rfl (h _ rfl).1
    · rfl

theorem exists_sign (s : List Char) :
    ∃ sign, Sign (readSign s).1 sign ∧ s = sign ++ (readSign s).2 := by
  unfold readSign
  split
  · exact ⟨_, .minus, rfl⟩
  · exact ⟨_, .plus, rfl⟩
  · exact ⟨_, .none, rfl⟩

theorem AllDigits.not_sign {s : List Char} (hd : AllDigits s) :
    ∀ c ∈ s.head?, c ≠ '+' ∧ c ≠ '-' := by
  intro c hc
  have hdigit := hd c (List.mem_of_head? hc)
  constructor <;> rintro rfl <;> cases hdigit

/-- What a check in front of a step that may fail says. -/
theorem guard_bind_eq_some_iff {α : Type} {p : Prop} [Decidable p] {x : Option α} {a : α} :
    (guard p >>= fun _ => x) = some a ↔ p ∧ x = some a := by
  unfold guard
  split
  next hp => exact (and_iff_right hp).symm
  next hp => exact ⟨fun h => (nomatch h), fun h => absurd h.1 hp⟩

theorem digits_iff {s : List Char} :
    (!s.isEmpty && s.all Char.isDigit) = true ↔ s ≠ [] ∧ AllDigits s := by
  simp [AllDigits]

theorem whole?_eq_some_iff {s : List Char} {n : Int} :
    whole? s = some n ↔ ∃ sign digits negative, Sign negative sign ∧ digits ≠ [] ∧
      AllDigits digits ∧ s = sign ++ digits ∧ n = signed negative (Toml.inBase 10 digits) ∧
      Json.Value.leastInt ≤ n ∧ n ≤ Json.Value.greatestInt := by
  have hread : whole? s = some n ↔ ((readSign s).2 ≠ [] ∧ AllDigits (readSign s).2) ∧
      n = signed (readSign s).1 (Toml.inBase 10 (readSign s).2) ∧
      Json.Value.leastInt ≤ n ∧ n ≤ Json.Value.greatestInt := by
    unfold whole?
    refine guard_bind_eq_some_iff.trans (and_congr digits_iff ?_)
    refine guard_bind_eq_some_iff.trans ?_
    rw [Bool.and_eq_true, decide_eq_true_iff, decide_eq_true_iff]
    constructor
    · rintro ⟨hr, ⟨⟩⟩
      exact ⟨rfl, hr⟩
    · rintro ⟨rfl, hr⟩
      exact ⟨hr, rfl⟩
  rw [hread]
  constructor
  · rintro ⟨⟨hne, hd⟩, hn⟩
    obtain ⟨sign, hs, hsplit⟩ := exists_sign s
    exact ⟨sign, _, _, hs, hne, hd, hsplit, hn⟩
  · rintro ⟨sign, digits, negative, hs, hne, hd, rfl, hn⟩
    rw [readSign_append hs hd.not_sign]
    exact ⟨⟨hne, hd⟩, hn⟩

theorem power_nil_iff {e : Int} : Power e [] ↔ e = 0 := by
  constructor
  · rintro ⟨⟩
    rfl
  · rintro rfl
    exact .none

theorem power_cons_iff {mark : Char} {s : List Char} {e : Int} :
    Power e (mark :: s) ↔ (mark = 'e' ∨ mark = 'E') ∧
      ((readSign s).2 ≠ [] ∧ AllDigits (readSign s).2) ∧
      e = signed (readSign s).1 (Toml.inBase 10 (readSign s).2) := by
  constructor
  · intro hp
    cases hp with
    | some hm hs hne hd =>
      rw [readSign_append hs hd.not_sign]
      exact ⟨hm, ⟨hne, hd⟩, rfl⟩
  · rintro ⟨hm, ⟨hne, hd⟩, rfl⟩
    obtain ⟨sign, hs, hsplit⟩ := exists_sign s
    have hp := Power.some hm hs hne hd
    rwa [← hsplit] at hp

/-- What is made of the power of ten behind the digits of a numeral. -/
theorem power_bind_eq_some_iff {α : Type} (f : Int → α) (s : List Char) (a : α) :
    (match s with
      | [] => some (f 0)
      | mark :: rest => do
        guard (mark = 'e' || mark = 'E')
        guard (!(readSign rest).2.isEmpty && (readSign rest).2.all Char.isDigit)
        some (f (signed (readSign rest).1 (Toml.inBase 10 (readSign rest).2)))) = some a ↔
      ∃ e, Power e s ∧ a = f e := by
  cases s with
  | nil =>
    simp only [power_nil_iff, exists_eq_left]
    exact Option.some_inj.trans eq_comm
  | cons mark s =>
    refine guard_bind_eq_some_iff.trans ?_
    rw [guard_bind_eq_some_iff, digits_iff]
    simp only [power_cons_iff]
    constructor
    · rintro ⟨hm, hd, ⟨⟩⟩
      exact ⟨_, ⟨by simpa using hm, hd, rfl⟩, rfl⟩
    · rintro ⟨_, ⟨hm, hd, rfl⟩, rfl⟩
      exact ⟨by simpa using hm, hd, rfl⟩

/-- The digits behind a point, if one stands here, and what follows them. -/
def afterPoint : List Char → List Char × List Char
  | '.' :: rest => rest.span Char.isDigit
  | s => ([], s)

/-- A double is read in parts: a sign, digits, perhaps a point with digits, and a power of ten. -/
theorem float?_of_span {s whole rest : List Char}
    (hw : (readSign s).2.span Char.isDigit = (whole, rest)) (x : Float) :
    float? s = some x ↔ (whole ≠ [] ∨ (afterPoint rest).1 ≠ []) ∧
      ∃ e, Power e (afterPoint rest).2 ∧
        x = Numeric.nearestDecimal (readSign s).1 (Toml.inBase 10 (whole ++ (afterPoint rest).1))
          (e - (afterPoint rest).1.length) := by
  unfold float?
  dsimp only
  rw [hw]
  refine guard_bind_eq_some_iff.trans (and_congr ?_ ?_)
  · change (!whole.isEmpty || !(afterPoint rest).1.isEmpty) = true ↔ _
    simp
  · exact power_bind_eq_some_iff (fun e => Numeric.nearestDecimal (readSign s).1
      (Toml.inBase 10 (whole ++ (afterPoint rest).1)) (e - (afterPoint rest).1.length)) _ x

theorem Sign.point_not_mem {sign : List Char} {negative : Bool} (hs : Sign negative sign) :
    '.' ∉ sign := by
  cases hs <;> decide

theorem AllDigits.point_not_mem {s : List Char} (hd : AllDigits s) : '.' ∉ s := fun h => by
  cases hd '.' h

theorem Power.point_not_mem {e : Int} {s : List Char} (hp : Power e s) : '.' ∉ s := by
  cases hp with
  | none => exact List.not_mem_nil
  | some hm hs hne hd =>
    rw [List.mem_cons, List.mem_append]
    rintro (rfl | h | h)
    · exact absurd hm (by decide)
    · exact hs.point_not_mem h
    · exact hd.point_not_mem h

/-- Digits do not go on in a power of ten. -/
theorem Power.not_digit {e : Int} {s : List Char} (hp : Power e s) :
    ∀ c ∈ s.head?, c.isDigit = false := by
  cases hp with
  | none => exact nofun
  | some hm hs hne hd =>
    rintro c ⟨⟩
    rcases hm with rfl | rfl <;> rfl

theorem float?_eq_some_iff {s : List Char} (hpoint : '.' ∈ s) {x : Float} :
    float? s = some x ↔ ∃ sign whole fraction power negative e, Sign negative sign ∧
      AllDigits whole ∧ AllDigits fraction ∧ (whole ≠ [] ∨ fraction ≠ []) ∧ Power e power ∧
      s = sign ++ (whole ++ '.' :: (fraction ++ power)) ∧
      x = Numeric.nearestDecimal negative (Toml.inBase 10 (whole ++ fraction))
        (e - fraction.length) := by
  constructor
  · intro h
    obtain ⟨sign, hs, hsplit⟩ := exists_sign s
    obtain ⟨whole, rest, hspan, hrest, hw⟩ := exists_span Char.isDigit (readSign s).2
    rw [hrest] at hsplit
    by_cases hp : ∃ t, rest = '.' :: t
    · obtain ⟨t, rfl⟩ := hp
      obtain ⟨fraction, power, hspan', rfl, hf⟩ := exists_span Char.isDigit t
      rw [float?_of_span hspan, afterPoint, hspan'] at h
      obtain ⟨hne, e, hpower, hx⟩ := h
      exact ⟨sign, whole, fraction, power, _, e, hs, hw, hf, hne, hpower, hsplit, hx⟩
    · -- without a point behind the first digits there is none
      have hother : afterPoint rest = ([], rest) := by
        unfold afterPoint
        split
        · exact absurd ⟨_, rfl⟩ hp
        · rfl
      rw [float?_of_span hspan, hother] at h
      obtain ⟨-, e, hpower, -⟩ := h
      rw [hsplit, List.mem_append, List.mem_append] at hpoint
      rcases hpoint with h | h | h
      · exact absurd h hs.point_not_mem
      · exact absurd h (AllDigits.point_not_mem hw)
      · exact absurd h hpower.point_not_mem
  · rintro ⟨sign, whole, fraction, power, negative, e, hs, hw, hf, hne, hp, rfl, rfl⟩
    have hsign : readSign (sign ++ (whole ++ '.' :: (fraction ++ power))) =
        (negative, whole ++ '.' :: (fraction ++ power)) := by
      refine readSign_append hs fun c hc => ?_
      cases whole with
      | nil =>
        cases hc
        decide
      | cons d whole => exact hw.not_sign c hc
    have hspan : (readSign (sign ++ (whole ++ '.' :: (fraction ++ power)))).2.span Char.isDigit =
        (whole, '.' :: (fraction ++ power)) := by
      rw [hsign]
      exact span_append hw (by rintro _ ⟨⟩; rfl)
    rw [float?_of_span hspan, afterPoint, span_append hf hp.not_digit, hsign]
    exact ⟨hne, e, hp, rfl⟩

/-- A character of numerals. -/
def NumeralChar (c : Char) : Prop := c.isDigit = true ∨ c ∈ ['+', '-', '.', 'e', 'E']

instance : DecidablePred NumeralChar := fun _ => inferInstanceAs (Decidable (_ ∨ _))

theorem Sign.chars {sign : List Char} {negative : Bool} (hs : Sign negative sign) :
    ∀ c ∈ sign, NumeralChar c := by
  cases hs <;> simp [NumeralChar]

theorem Power.chars {e : Int} {s : List Char} (hp : Power e s) : ∀ c ∈ s, NumeralChar c := by
  cases hp with
  | none => exact List.forall_mem_nil _
  | some hm hs hne hd =>
    simp only [List.mem_cons, List.mem_append]
    rintro c (rfl | hc | hc)
    · rcases hm with rfl | rfl <;> exact .inr (by decide)
    · exact hs.chars c hc
    · exact .inl (hd c hc)

theorem Numeral.chars {v : Json.Value} {s : List Char} (h : Numeral v s) :
    ∀ c ∈ s, NumeralChar c := by
  cases h with
  | whole hs hne hd hr =>
    simp only [List.mem_append]
    rintro c (hc | hc)
    · exact hs.chars c hc
    · exact .inl (hd c hc)
  | real hs hw hf hne hp =>
    simp only [List.mem_append, List.mem_cons]
    rintro c (hc | hc | rfl | hc | hc)
    · exact hs.chars c hc
    · exact .inl (hw c hc)
    · exact .inr (by decide)
    · exact .inl (hf c hc)
    · exact hp.chars c hc

/-- A numeral writes no string. -/
theorem Numeral.ne_string {v : Json.Value} {s : List Char} (h : Numeral v s) (t : String) :
    v ≠ .string t := by
  cases h with
  | whole => exact nofun
  | real =>
    rw [ofDouble]
    split <;> exact nofun

theorem NumeralChar.plain {c : Char} (h : NumeralChar c) :
    isSeparator c = false ∧ Text.isBlank c = false ∧ c ≠ '"' ∧ c ≠ '\'' ∧ c ≠ 't' ∧ c ≠ 'f' := by
  rcases h with h | h
  · have hrange : 48 ≤ c.toNat ∧ c.toNat < 58 := by
      simp only [Char.isDigit, Bool.and_eq_true, decide_eq_true_eq] at h
      exact ⟨h.1, Nat.lt_succ_of_le h.2⟩
    have digits : ∀ n < 58, 48 ≤ n → isSeparator (Char.ofNat n) = false ∧
        Text.isBlank (Char.ofNat n) = false ∧ Char.ofNat n ≠ '"' ∧ Char.ofNat n ≠ '\'' ∧
        Char.ofNat n ≠ 't' ∧ Char.ofNat n ≠ 'f' := by decide
    rw [← Char.ofNat_toNat c]
    exact digits _ hrange.2 hrange.1
  · simp only [List.mem_cons, List.not_mem_nil, or_false] at h
    rcases h with rfl | rfl | rfl | rfl | rfl <;> decide

/-! ## Bare texts -/

/-- A bare text and its value: the number that it writes, or else the text. -/
inductive Word : Json.Value → List Char → Prop
  | number {v : Json.Value} {s : List Char} (h : Numeral v s) : Word v s
  | text {s : List Char} (h : ∀ v, ¬Numeral v s) : Word (.string (String.ofList s)) s

theorem bareValue_of_numeral {v : Json.Value} {s : List Char} (h : Numeral v s) :
    bareValue s = v := by
  cases h with
  | @whole sign digits negative hs hne hd hr =>
    have hpoint : '.' ∉ sign ++ digits := by
      rw [List.mem_append, not_or]
      exact ⟨hs.point_not_mem, hd.point_not_mem⟩
    have hread := whole?_eq_some_iff.2 ⟨sign, digits, negative, hs, hne, hd, rfl, rfl, hr⟩
    simp [bareValue, hpoint, hread]
  | @real sign whole fraction power negative e hs hw hf hne hp =>
    have hpoint : '.' ∈ sign ++ (whole ++ '.' :: (fraction ++ power)) := by simp
    have hread := (float?_eq_some_iff hpoint).2
      ⟨sign, whole, fraction, power, negative, e, hs, hw, hf, hne, hp, rfl, rfl⟩
    simp [bareValue, hread, ofDouble]

theorem bareValue_of_not_numeral {s : List Char} (h : ∀ v, ¬Numeral v s) :
    bareValue s = .string (String.ofList s) := by
  have hwhole : whole? s = none := by
    rw [Option.eq_none_iff_forall_ne_some]
    intro n hn
    obtain ⟨sign, digits, negative, hs, hne, hd, rfl, rfl, hr⟩ := whole?_eq_some_iff.1 hn
    exact h _ (.whole hs hne hd hr)
  have hfloat : (if s.contains '.' then float? s else none) = none := by
    split
    next hpoint =>
      rw [Option.eq_none_iff_forall_ne_some]
      intro x hx
      obtain ⟨sign, whole, fraction, power, negative, e, hs, hw, hf, hne, hp, rfl, rfl⟩ :=
        (float?_eq_some_iff (by simpa using hpoint)).1 hx
      exact h _ (.real hs hw hf hne hp)
    next => rfl
  simp only [bareValue, hfloat, hwhole, Option.map_none, Option.getD_none]

/-- **The value of a bare text.** -/
theorem word_iff {v : Json.Value} {s : List Char} : Word v s ↔ bareValue s = v := by
  constructor
  · rintro (h | h)
    · exact bareValue_of_numeral h
    · exact bareValue_of_not_numeral h
  · rintro rfl
    by_cases hn : ∃ v, Numeral v s
    · obtain ⟨v, hv⟩ := hn
      rw [bareValue_of_numeral hv]
      exact .number hv
    · rw [bareValue_of_not_numeral (not_exists.1 hn)]
      exact .text (not_exists.1 hn)

/-! ## Quoted strings -/

/-- The letters of short escapes, and what they stand for. -/
def shortEscapes : List (Char × Char) :=
  [('b', '\x08'), ('t', '\t'), ('n', '\n'), ('f', '\x0c'), ('r', '\r'), ('"', '"'), ('\\', '\\')]

/-- The marks of code points, and how many hexadecimal digits follow them. -/
def pointMarks : List (Char × Nat) := [('u', 4), ('U', 8)]

/-- What an escape stands for, and what stands behind its backslash. -/
inductive Escape : Char → List Char → Prop
  | short {mark c : Char} (hm : (mark, c) ∈ shortEscapes) : Escape c [mark]
  | point {mark : Char} {count n : Nat} {code : List Char} {digits : List Nat}
      (hm : (mark, count) ∈ pointMarks) (hl : code.length = count)
      (hd : code.mapM Toml.hexDigit? = some digits)
      (hn : digits.foldl (fun n d => 16 * n + d) 0 = n) (hv : n.isValidChar) :
      Escape (Char.ofNat n) (mark :: code)

/-- A text and how it is written between quotes. -/
inductive Quoted : List Char → List Char → Prop
  | nil : Quoted [] []
  | char {c : Char} {text s : List Char} (hq : c ≠ '"') (hb : c ≠ '\\') (h : Quoted text s) :
      Quoted (c :: text) (c :: s)
  | escape {c : Char} {e text s : List Char} (he : Escape c e) (h : Quoted text s) :
      Quoted (c :: text) ('\\' :: (e ++ s))

theorem length_of_mapM {α β : Type} {f : α → Option β} {l : List α} {r : List β}
    (h : l.mapM f = some r) : r.length = l.length := by
  induction l generalizing r with
  | nil =>
    cases h
    rfl
  | cons a l ih =>
    rw [List.mapM_cons] at h
    obtain ⟨b, -, h⟩ := Option.bind_eq_some_iff.1 h
    obtain ⟨r', hr, h⟩ := Option.bind_eq_some_iff.1 h
    cases h
    exact congrArg (· + 1) (ih hr)

theorem readCodePoint_eq_ok_iff {count : Nat} {s rest : List Char} {c : Char} :
    Toml.readCodePoint count s = .ok (c, rest) ↔ ∃ code digits n, code.length = count ∧
      s = code ++ rest ∧ code.mapM Toml.hexDigit? = some digits ∧
      digits.foldl (fun n d => 16 * n + d) 0 = n ∧ n.isValidChar ∧ c = Char.ofNat n := by
  constructor
  · intro h
    unfold Toml.readCodePoint at h
    split at h
    case h_2 => cases h
    next digits hd =>
      dsimp only at h
      split at h
      case isFalse => cases h
      next hc =>
        cases h
        refine ⟨_, digits, _, ?_, (List.take_append_drop count s).symm, hd, rfl, hc.2, rfl⟩
        rw [← length_of_mapM hd, hc.1]
  · rintro ⟨code, digits, n, rfl, rfl, hd, rfl, hv, rfl⟩
    rw [Toml.readCodePoint, List.take_left, hd]
    dsimp only
    rw [if_pos ⟨length_of_mapM hd, hv⟩, List.drop_left]

/-- An escape is read as what it stands for. -/
theorem readEscape_eq_ok_iff {s rest : List Char} {c : Char} :
    Toml.readEscape s = .ok (c, rest) ↔ ∃ e, Escape c e ∧ s = e ++ rest := by
  constructor
  · intro h
    unfold Toml.readEscape at h
    split at h
    case h_8 | h_9 =>
      obtain ⟨code, digits, n, hl, rfl, hd, hn, hv, rfl⟩ := readCodePoint_eq_ok_iff.1 h
      exact ⟨_, .point (by decide) hl hd hn hv, rfl⟩
    case h_10 => cases h
    all_goals
      cases h
      exact ⟨_, .short (by decide), rfl⟩
  · rintro ⟨e, he, rfl⟩
    cases he with
    | @short mark c hm =>
      have read : ∀ m ∈ shortEscapes, Toml.readEscape (m.1 :: rest) = .ok (m.2, rest) := by
        simp [shortEscapes, Toml.readEscape]
      exact read _ hm
    | @point mark count n code digits hm hl hd hn hv =>
      have read : ∀ m ∈ pointMarks, Toml.readEscape (m.1 :: (code ++ rest)) =
          Toml.readCodePoint m.2 (code ++ rest) := by
        simp [pointMarks, Toml.readEscape]
      exact (read _ hm).trans
        (readCodePoint_eq_ok_iff.2 ⟨code, digits, n, hl, rfl, hd, hn, hv, rfl⟩)

theorem Quoted.length_le {text s : List Char} (h : Quoted text s) : text.length ≤ s.length := by
  induction h with
  | nil => exact Nat.le_refl 0
  | char hq hb h ih => exact Nat.succ_le_succ ih
  | escape he h ih =>
    rw [List.length_cons, List.length_cons, List.length_append]
    omega

/-- The rest of a quoted string is read as what it writes. -/
theorem readQuoted_go_of_quoted {t s : List Char} (h : Quoted t s) (done rest : List Char) :
    ∀ fuel, s.length < fuel → readQuoted.go fuel done (s ++ '"' :: rest) =
      some (String.ofList (done.reverse ++ t), rest) := by
  induction h generalizing done with
  | nil =>
    rintro (_ | fuel) hfuel
    · cases hfuel
    · rw [List.nil_append, List.append_nil]
      rfl
  | @char c t s hq hb h ih =>
    rintro (_ | fuel) hfuel
    · cases hfuel
    · have hgo : readQuoted.go (fuel + 1) done (c :: (s ++ '"' :: rest)) =
          readQuoted.go fuel (c :: done) (s ++ '"' :: rest) := readQuoted.go.eq_5 _ _ _ _ hq hb
      rw [List.cons_append, hgo, ih _ _ (Nat.lt_of_succ_lt_succ hfuel)]
      simp
  | @escape c e t s he h ih =>
    rintro (_ | fuel) hfuel
    · cases hfuel
    · have hread : Toml.readEscape (e ++ (s ++ '"' :: rest)) = .ok (c, s ++ '"' :: rest) :=
        readEscape_eq_ok_iff.2 ⟨e, he, rfl⟩
      have hlen : s.length < fuel := by
        rw [List.length_cons, List.length_append] at hfuel
        omega
      rw [List.cons_append, List.append_assoc, readQuoted.go, hread]
      dsimp only
      rw [ih _ _ hlen]
      simp

theorem exists_of_readQuoted_go {fuel : Nat} {done s rest : List Char} {text : String}
    (h : readQuoted.go fuel done s = some (text, rest)) :
    ∃ t body, Quoted t body ∧ s = body ++ '"' :: rest ∧
      text = String.ofList (done.reverse ++ t) := by
  induction fuel generalizing done s with
  | zero => cases h
  | succ fuel ih =>
    unfold readQuoted.go at h
    split at h
    case h_1 | h_2 => cases h
    case h_3 =>
      cases h
      exact ⟨[], [], .nil, rfl, by rw [List.append_nil]⟩
    case h_4 hf =>
      cases hf
      split at h
      next c rest' he =>
        obtain ⟨e, hescape, rfl⟩ := readEscape_eq_ok_iff.1 he
        obtain ⟨t, body, hquoted, rfl, rfl⟩ := ih h
        exact ⟨c :: t, '\\' :: (e ++ body), .escape hescape hquoted, by simp, by simp⟩
      next => cases h
    case h_5 hq hb hf =>
      cases hf
      obtain ⟨t, body, hquoted, rfl, rfl⟩ := ih h
      exact ⟨_, _, .char hq hb hquoted, rfl, by simp⟩

/-- **A quoted string** goes on to the first quote that is not escaped. -/
theorem readQuoted_eq_some_iff {s rest : List Char} {text : String} :
    readQuoted s = some (text, rest) ↔
      ∃ t body, Quoted t body ∧ s = body ++ '"' :: rest ∧ text = String.ofList t := by
  constructor
  · exact exists_of_readQuoted_go
  · rintro ⟨t, body, h, rfl, rfl⟩
    refine readQuoted_go_of_quoted h [] rest _ ?_
    rw [List.length_append]
    omega

/-! ## Keys -/

/-- The name of a key and how it is written. -/
inductive Key : List Char → List Char → Prop
  | bare {s : List Char} (hne : s ≠ []) (hs : ∀ c ∈ s, isKeyChar c = true) : Key s s
  | quoted {name s : List Char} (h : Quoted name s) : Key name ('"' :: (s ++ ['"']))

theorem readKey_of_key {name s rest : List Char} (h : Key name s)
    (hrest : ∀ c ∈ rest.head?, isKeyChar c = false) :
    readKey (s ++ rest) = some (String.ofList name, rest) := by
  cases h with
  | bare hne hs =>
    obtain ⟨c, s', rfl⟩ := List.exists_cons_of_ne_nil hne
    have hquote : c ≠ '"' := by
      rintro rfl
      cases hs '"' List.mem_cons_self
    unfold readKey
    split
    case h_1 heq => exact absurd (List.cons.inj heq).1 hquote
    case h_2 =>
      rw [span_append hs hrest]
      rfl
  | @quoted body h =>
    rw [List.cons_append, List.append_assoc]
    exact readQuoted_eq_some_iff.2 ⟨name, body, h, rfl, rfl⟩

theorem exists_of_readKey {s rest : List Char} {key : String} (h : readKey s = some (key, rest)) :
    ∃ name w, Key name w ∧ s = w ++ rest ∧ key = String.ofList name := by
  unfold readKey at h
  split at h
  case h_1 =>
    obtain ⟨name, body, hq, rfl, rfl⟩ := readQuoted_eq_some_iff.1 h
    exact ⟨name, _, .quoted hq, by simp, rfl⟩
  case h_2 =>
    obtain ⟨w, rest', hspan, rfl, hw⟩ := exists_span isKeyChar s
    rw [hspan] at h
    dsimp only at h
    split at h
    case isTrue => cases h
    next hne =>
      cases h
      exact ⟨w, w, .bare (by simpa using hne) hw, rfl, rfl⟩

end ScriptWorker.Config.Variables

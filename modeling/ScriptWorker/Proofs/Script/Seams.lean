import ScriptWorker.Proofs.Script.Lexing

/-!
# Tokens of texts on lines of their own

`Lexes s ts` says that the bytes `s` are the tokens `ts` and nothing else, without the bounds and
line numbers of the program that finds them; `tokens` without an error finds just those
(`tokens_iff`). The tokens of two texts with a newline between them are the tokens of the one and
then those of the other, whatever the texts are (`Lexes.append`):

* a token of the first text is the first one there as well (`Onward.token`), because each reader
  reads the same in front of a line break;
* where the first text has no more tokens, it is blanks and comments, and the newline ends the
  comment, if there is one. It may go together with a carriage return at the end of the text, so
  that the second text starts with or without it (`Onward.end`); it does not matter which
  (`First.newline`).
-/

set_option autoImplicit false

namespace ScriptWorker.Script.Lexer

/-! ## The first token -/

/-- The first token of these bytes and what it leaves, whatever bounds the reading and wherever it
starts. The line of `t` does not matter. -/
def First (s : List UInt8) (t : Token) (r : List UInt8) : Prop :=
  ∀ size fuel line, s.length < size → s.length ≤ fuel →
    SameToken t r (next size fuel ⟨s, line⟩)

/-- The first token after `s` is the first one after `s'`. -/
def Skips (s s' : List UInt8) : Prop :=
  ∀ size fuel line, s.length < size → s.length ≤ fuel →
    ∃ fuel' line', s'.length < size ∧ s'.length ≤ fuel' ∧
      next size fuel ⟨s, line⟩ = next size fuel' ⟨s', line'⟩

theorem Skips.first {s s' r : List UInt8} {t : Token} (h : Skips s s') (hf : First s' t r) :
    First s t r := by
  intro size fuel line hsize hfuel
  obtain ⟨fuel', line', hsize', hfuel', he⟩ := h size fuel line hsize hfuel
  rw [he]
  exact hf size fuel' line' hsize' hfuel'

theorem Skips.of_next {b : UInt8} {rest s' : List UInt8} (hle : s'.length ≤ rest.length)
    (h : ∀ size fuel line, (b :: rest).length < size →
      ∃ line', next size (fuel + 1) ⟨b :: rest, line⟩ = next size fuel ⟨s', line'⟩) :
    Skips (b :: rest) s' := by
  intro size fuel line hsize hfuel
  rw [List.length_cons] at hfuel
  obtain ⟨fuel, rfl⟩ : ∃ n, fuel = n + 1 := ⟨fuel - 1, by omega⟩
  obtain ⟨line', he⟩ := h size fuel line hsize
  rw [List.length_cons] at hsize
  exact ⟨fuel, line', by omega, by omega, he⟩

theorem skips_break {b : UInt8} (hb : isLineBreak b = true) (rest : List UInt8) :
    Skips (b :: rest) (afterBreak b rest) :=
  .of_next (length_afterBreak b rest) fun size fuel line _ =>
    ⟨line + 1, by rw [next]; simp only [hb, if_true]⟩

theorem skips_blank {b : UInt8} (hn : isLineBreak b = false) (hb : isBlankByte b = true)
    (rest : List UInt8) : Skips (b :: rest) rest :=
  .of_next (Nat.le_refl _) fun size fuel line _ =>
    ⟨line, by rw [next]; simp only [hn, hb, if_true, Bool.false_eq_true, if_false]⟩

/-- What stands behind a line break at the end of a text, once a newline follows the text. -/
theorem afterBreak_end {b : UInt8} {rest : List UInt8} (h : afterBreak b rest = [])
    (tail : List UInt8) : afterBreak b (rest ++ 0x0A :: tail) = 0x0A :: tail ∨
      afterBreak b (rest ++ 0x0A :: tail) = tail := by
  cases rest with
  | nil =>
    simp only [List.nil_append, afterBreak]
    split
    · exact .inr rfl
    · exact .inl rfl
  | cons c rest => exact .inl (by rw [afterBreak_append b (.inl (List.cons_ne_nil c rest)), h]; rfl)

theorem First.nil {t : Token} (ht : t.kind = .eof ∧ t.spelling = .empty) : First [] t [] := by
  intro size fuel line _ _
  rw [SameToken, ht.1, ht.2]
  cases fuel <;> exact ⟨line, rfl⟩

/-- What reading these bytes says of reading them in front of a line break: either there is a token,
and it is the first one there as well, or there is none, and the first one there is what the line
break or what follows it starts with. -/
inductive Onward (s : List UInt8) (t : Token) (r : List UInt8) : Prop where
  | token (hk : t.kind ≠ .eof) (hr : r.length < s.length)
      (hext : ∀ {ext}, Follows ext → First (s ++ ext) t (r ++ ext))
  | end (ht : t.kind = .eof ∧ t.spelling = .empty) (hr : r = []) (hs : First s t [])
      (hext : ∀ {tail t' r'}, First (0x0A :: tail) t' r' → First tail t' r' →
        First (s ++ 0x0A :: tail) t' r')

theorem Onward.first {s r : List UInt8} {t : Token} (h : Onward s t r) : First s t r := by
  cases h with
  | token _ _ hext => simpa using hext .nil
  | «end» _ hr hs _ => exact hr ▸ hs

/-- Reading goes on behind what is skipped. -/
theorem Onward.skip {s s' r : List UInt8} {t : Token} (h : Onward s' t r)
    (hlen : s'.length < s.length)
    (hskip : ∀ {ext}, Follows ext → s' ≠ [] ∨ ext = [] → Skips (s ++ ext) (s' ++ ext))
    (hlast : s' = [] → ∀ tail, Skips (s ++ 0x0A :: tail) (0x0A :: tail) ∨
      Skips (s ++ 0x0A :: tail) tail) : Onward s t r := by
  have hs : Skips s s' := by simpa using hskip .nil (.inr rfl)
  cases h with
  | token hk hr hext =>
    have hne : s' ≠ [] := by
      rintro rfl
      exact absurd hr (Nat.not_lt_zero _)
    exact .token hk (Nat.lt_trans hr hlen) fun hf => (hskip hf (.inl hne)).first (hext hf)
  | «end» ht hr hsf hext =>
    refine .end ht hr (hs.first hsf) fun hn htail => ?_
    by_cases hne : s' = []
    · rcases hlast hne _ with h | h
      · exact h.first hn
      · exact h.first htail
    · exact (hskip (.cons _) (.inl hne)).first (hext hn htail)

theorem Onward.nil {t : Token} {r : List UInt8} (ht : t.kind = .eof ∧ t.spelling = .empty)
    (hr : r = []) : Onward [] t r :=
  .end ht hr (.nil ht) fun hn _ => hn

theorem Skips.comment {rest r : List UInt8} (hr : r.length ≤ rest.length)
    (h : ∀ size line, rest.length < size →
      ∃ line', skipComment size ⟨rest, line⟩ = .ok ⟨r, line'⟩) :
    Skips (0x2D :: 0x2D :: rest) r := by
  refine .of_next (Nat.le_succ_of_le hr) fun size fuel line hsize => ?_
  simp only [List.length_cons] at hsize
  obtain ⟨line', he⟩ := h size line (by omega)
  refine ⟨line', ?_⟩
  rw [next]
  simp only [he]
  rfl

theorem first_visible {b : UInt8} {rest r : List UInt8} {t : Token} (hl : isLineBreak b = false)
    (hb : isBlankByte b = false) (hd : b ≠ byte '-')
    (h : ∀ size line, rest.length < size → SameToken t r (readVisible size b rest line)) :
    First (b :: rest) t r := by
  intro size fuel line hsize hfuel
  rw [List.length_cons] at hsize hfuel
  obtain ⟨fuel, rfl⟩ : ∃ n, fuel = n + 1 := ⟨fuel - 1, by omega⟩
  rw [next]
  simp only [hl, hb, if_neg hd, Bool.false_eq_true, if_false]
  exact h size line (by omega)

theorem first_dash {rest : List UInt8} {t : Token} (hd : rest.head? ≠ some 0x2D)
    (h : ∀ line, SameToken t rest (charAt (byte '-') rest line)) :
    First (byte '-' :: rest) t rest := by
  intro size fuel line' hsize hfuel
  rw [List.length_cons] at hsize hfuel
  obtain ⟨fuel, rfl⟩ : ∃ n, fuel = n + 1 := ⟨fuel - 1, by omega⟩
  rw [next]
  simp only [show isLineBreak (byte '-') = false by decide,
    show isBlankByte (byte '-') = false by decide, Bool.false_eq_true, if_false, if_true]
  split
  · exact absurd rfl hd
  · exact h _

/-- **Reading the next token** is one of the two. -/
theorem onward_of_next {size fuel : Nat} {s : List UInt8} {line : Nat} {t : Token} {r : Rest}
    (h : next size fuel ⟨s, line⟩ = .ok (t, r)) (hsize : s.length < size)
    (hfuel : s.length ≤ fuel) : Onward s t r.bytes := by
  induction fuel generalizing s line with
  | zero =>
    obtain rfl := List.eq_nil_of_length_eq_zero (Nat.le_zero.1 hfuel)
    obtain ⟨rfl, rfl⟩ := Prod.mk.inj (Except.ok.inj h)
    exact .nil ⟨rfl, rfl⟩ rfl
  | succ fuel ih =>
    cases s with
    | nil =>
      obtain ⟨rfl, rfl⟩ := Prod.mk.inj (Except.ok.inj h)
      exact .nil ⟨rfl, rfl⟩ rfl
    | cons b rest =>
      rw [List.length_cons] at hsize hfuel
      rw [next] at h
      simp only at h
      by_cases hl : isLineBreak b = true
      · rw [if_pos hl] at h
        have hle := length_afterBreak b rest
        refine (ih h (by omega) (by omega)).skip (Nat.lt_succ_of_le hle) ?_ ?_
        · intro ext hf hne
          rw [List.cons_append, ← afterBreak_append b (hne.imp_left ne_nil_of_afterBreak)]
          exact skips_break hl _
        · intro hnil tail
          have hskip := skips_break hl (rest ++ 0x0A :: tail)
          rcases afterBreak_end hnil tail with he | he
          · rw [he] at hskip
            exact .inl hskip
          · rw [he] at hskip
            exact .inr hskip
      by_cases hb : isBlankByte b = true
      · rw [if_neg hl, if_pos hb] at h
        have hl := eq_false_of_ne_true hl
        exact (ih h (by omega) (by omega)).skip (Nat.lt_succ_self _)
          (fun _ _ => skips_blank hl hb _) (fun hnil tail => .inl (hnil ▸ skips_blank hl hb _))
      by_cases hd : b = byte '-'
      · rw [if_neg hl, if_neg hb, if_pos hd] at h
        subst hd
        split at h
        case h_1 more =>
          rw [List.length_cons] at hsize hfuel
          split at h
          case h_2 => cases h
          case h_1 s' hc =>
            obtain ⟨hle, hext⟩ := skipComment_append hc
            have hskip : ∀ {ext}, Follows ext →
                Skips (byte '-' :: 0x2D :: more ++ ext) (s'.bytes ++ ext) := by
              intro ext hf
              refine .comment ?_ fun size line hsize => hext hf size line hsize
              change (s'.bytes ++ ext).length ≤ (more ++ ext).length
              rw [List.length_append, List.length_append]
              omega
            refine (ih h (by omega) (by omega)).skip ?_ (fun hf _ => hskip hf)
              fun hnil tail => .inl ?_
            · simp only [List.length_cons]
              omega
            · simpa [hnil] using hskip (.cons tail)
        case h_2 hn =>
          obtain ⟨hk, hr, hc⟩ := charAt_eq h
          refine .token hk (by simp [hr]) fun {ext} hf => ?_
          rw [hr]
          refine first_dash ?_ fun line => hc _ line
          cases rest with
          | nil => rcases hf.cases with rfl | ⟨t, rfl⟩ <;> exact nofun
          | cons c more =>
            intro hc
            obtain rfl := Option.some.inj hc
            exact hn more rfl
      · rw [if_neg hl, if_neg hb, if_neg hd] at h
        obtain ⟨hk, hle, hext⟩ := readVisible_append (eq_false_of_ne_true hl) h (by omega)
        refine .token hk (Nat.lt_succ_of_le hle) fun {ext} hf => ?_
        exact first_visible (eq_false_of_ne_true hl) (eq_false_of_ne_true hb) hd
          fun size line hsize => hext hf size line hsize

/-- Any adequate bounds do. -/
theorem first_of_next {size fuel : Nat} {s : List UInt8} {line : Nat} {t : Token} {r : Rest}
    (h : next size fuel ⟨s, line⟩ = .ok (t, r)) (hsize : s.length < size)
    (hfuel : s.length ≤ fuel) : First s t r.bytes :=
  (onward_of_next h hsize hfuel).first

theorem First.onward {s r : List UInt8} {t : Token} (h : First s t r) : Onward s t r := by
  obtain ⟨line, he⟩ := h (s.length + 1) s.length 1 (Nat.lt_succ_self _) (Nat.le_refl _)
  -- the line of the token does not matter
  cases onward_of_next he (Nat.lt_succ_self _) (Nat.le_refl _) with
  | token hk hr hext => exact .token hk hr hext
  | «end» ht hr hs hext => exact .end ht hr hs hext

/-- What is first behind something skipped. -/
theorem First.of_skips {s s' r : List UInt8} {t : Token} (h : First s t r) (hs : Skips s s') :
    First s' t r := by
  obtain ⟨line, he⟩ := h (s.length + 1) s.length 1 (Nat.lt_succ_self _) (Nat.le_refl _)
  obtain ⟨fuel', line', hsize, hfuel, heq⟩ :=
    hs (s.length + 1) s.length 1 (Nat.lt_succ_self _) (Nat.le_refl _)
  rw [heq] at he
  exact first_of_next he hsize hfuel

theorem eq_of_isLineBreak {b : UInt8} (h : isLineBreak b = true) : b = 0x0A ∨ b = 0x0D := by
  simpa [isLineBreak] using h

/-- A newline in front changes nothing. -/
theorem First.newline {s r : List UInt8} {t : Token} (h : First s t r) :
    First (0x0A :: s) t r := by
  have hskip := skips_break (show isLineBreak 0x0A = true by decide) s
  cases s with
  | nil => exact hskip.first h
  | cons c rest =>
    by_cases hc : isLineBreak c = true ∧ c ≠ 0x0A
    · -- `c` goes with the newline, so that a newline behind `c` is left on its own
      rw [afterBreak, if_pos (by simpa using hc)] at hskip
      have hbehind := h.of_skips (skips_break hc.1 rest)
      cases rest with
      | nil => exact hskip.first hbehind
      | cons d more =>
        by_cases hd : isLineBreak d = true ∧ d ≠ c
        · rw [afterBreak, if_pos (by simpa using hd)] at hbehind
          obtain rfl := (eq_of_isLineBreak hc.1).resolve_left hc.2
          obtain rfl := (eq_of_isLineBreak hd.1).resolve_right hd.2
          exact hskip.first hbehind.newline
        · rw [afterBreak, if_neg (by simpa using hd)] at hbehind
          exact hskip.first hbehind
    · rw [afterBreak, if_neg (by simpa using hc)] at hskip
      exact hskip.first h
termination_by s.length

/-! ## All tokens -/

/-- What a token is, wherever it stands. -/
def lexeme (t : Token) : Kind × Bytes := (t.kind, t.spelling)

/-- The tokens of these bytes up to their end. -/
inductive Lexes : List UInt8 → List (Kind × Bytes) → Prop where
  | end {s : List UInt8} {t : Token} (ht : t.kind = .eof) (h : First s t []) : Lexes s []
  | next {s r : List UInt8} {t : Token} {ts : List (Kind × Bytes)} (ht : t.kind ≠ .eof)
      (h : First s t r) (hr : Lexes r ts) : Lexes s (lexeme t :: ts)

theorem Lexes.nil : Lexes [] [] := .end (t := ⟨.eof, 0, .empty⟩) rfl (.nil ⟨rfl, rfl⟩)

theorem Lexes.of_first {s s' : List UInt8} {ts : List (Kind × Bytes)}
    (h : ∀ {t r}, First s t r → First s' t r) (hs : Lexes s ts) : Lexes s' ts := by
  cases hs with
  | «end» ht hf => exact .end ht (h hf)
  | next ht hf hr => exact .next ht (h hf) hr

/-- **Texts on lines of their own.** The tokens of two texts with a newline between them are the
tokens of the one and then those of the other. -/
theorem Lexes.append {a b : List UInt8} {ts us : List (Kind × Bytes)} (ha : Lexes a ts)
    (hb : Lexes b us) : Lexes (a ++ 0x0A :: b) (ts ++ us) := by
  induction ha with
  | «end» ht h =>
    refine hb.of_first fun hf => ?_
    cases h.onward with
    | token hk => exact absurd ht hk
    | «end» _ _ _ hext => exact hext hf.newline hf
  | next ht h _ ih =>
    cases h.onward with
    | token _ _ hext => exact .next ht (hext (.cons b)) ih
    | «end» he => exact absurd he.1 ht

theorem tokensFrom_end {size fuel : Nat} {out : List Token} {s s' : Rest} {t : Token}
    (h : next size size s = .ok (t, s')) (ht : t.kind = .eof) :
    tokensFrom size (fuel + 1) out s = (out.reverse, none, s'.line) := by
  obtain ⟨kind, line, spelling⟩ := t
  obtain rfl : kind = .eof := ht
  rw [tokensFrom, h]

theorem tokensFrom_next {size fuel : Nat} {out : List Token} {s s' : Rest} {t : Token}
    (h : next size size s = .ok (t, s')) (ht : t.kind ≠ .eof) :
    tokensFrom size (fuel + 1) out s = tokensFrom size fuel (t :: out) s' := by
  rw [tokensFrom, h]
  split
  case h_1 heq => cases heq
  case h_2 heq =>
    obtain ⟨rfl, -⟩ := Prod.mk.inj (Except.ok.inj heq)
    exact absurd rfl ht
  case h_3 heq =>
    obtain ⟨rfl, rfl⟩ := Prod.mk.inj (Except.ok.inj heq)
    rfl

theorem First.shorter {s r : List UInt8} {t : Token} (h : First s t r) (ht : t.kind ≠ .eof) :
    r.length < s.length := by
  cases h.onward with
  | token _ hr _ => exact hr
  | «end» he => exact absurd he.1 ht

/-- The run finds the tokens that there are. -/
theorem tokensFrom_of_lexes {size fuel : Nat} {s : List UInt8} {ts : List (Kind × Bytes)}
    (h : Lexes s ts) (hsize : s.length < size) (hfuel : s.length < fuel) (out : List Token)
    (line : Nat) : (tokensFrom size fuel out ⟨s, line⟩).2.1 = none ∧
      (tokensFrom size fuel out ⟨s, line⟩).1.map lexeme = out.reverse.map lexeme ++ ts := by
  induction h generalizing fuel out line with
  | «end» ht h =>
    obtain ⟨fuel, rfl⟩ : ∃ n, fuel = n + 1 := ⟨fuel - 1, by omega⟩
    obtain ⟨line', he⟩ := h size size line hsize (by omega)
    rw [tokensFrom_end he ht]
    exact ⟨rfl, (List.append_nil _).symm⟩
  | next ht h _ ih =>
    obtain ⟨fuel, rfl⟩ : ∃ n, fuel = n + 1 := ⟨fuel - 1, by omega⟩
    obtain ⟨line', he⟩ := h size size line hsize (by omega)
    have hr := h.shorter ht
    rw [tokensFrom_next he ht]
    refine (ih (by omega) (by omega) _ line').imp id fun hmap => hmap.trans ?_
    simp [lexeme]

/-- The tokens that a run without an error finds are there. -/
theorem lexes_of_tokensFrom {size fuel : Nat} {s : List UInt8} {out : List Token} {line : Nat}
    (h : (tokensFrom size fuel out ⟨s, line⟩).2.1 = none) (hsize : s.length < size)
    (hfuel : s.length < fuel) : ∃ ts, Lexes s ts := by
  induction fuel generalizing s out line with
  | zero => omega
  | succ fuel ih =>
    cases hn : next size size ⟨s, line⟩ with
    | error e =>
      rw [tokensFrom, hn] at h
      cases h
    | ok found =>
      obtain ⟨t, s', line'⟩ := found
      have hf : First s t s' := first_of_next hn hsize (by omega)
      by_cases ht : t.kind = .eof
      · cases onward_of_next hn hsize (by omega) with
        | token hk => exact absurd ht hk
        | «end» _ hr hs => exact ⟨[], .end ht hs⟩
      · have hr := hf.shorter ht
        rw [tokensFrom_next hn ht] at h
        obtain ⟨ts, hts⟩ := ih h (by omega) (by omega)
        exact ⟨_, .next ht hf hts⟩

/-- **Tokens without an error** are those that are there. -/
theorem tokens_iff {s : List UInt8} {ts : List (Kind × Bytes)} :
    Lexes s ts ↔ (tokens s).2.1 = none ∧ (tokens s).1.map lexeme = ts := by
  have hrun : ∀ {ts}, Lexes s ts → (tokens s).2.1 = none ∧ (tokens s).1.map lexeme = ts :=
    fun h => tokensFrom_of_lexes h (Nat.lt_succ_self _) (Nat.lt_succ_self _) [] 1
  refine ⟨hrun, ?_⟩
  rintro ⟨hno, rfl⟩
  obtain ⟨ts, h⟩ := lexes_of_tokensFrom hno (Nat.lt_succ_self _) (Nat.lt_succ_self _)
  rwa [(hrun h).2]

/-! ## Words and single characters -/

/-- A decidable property of bytes holds of all of them if it holds of each number below 256. -/
theorem forall_byte {p : UInt8 → Prop} (h : ∀ n < 256, p n.toUInt8) (b : UInt8) : p b := by
  have := h b.toNat b.toNat_lt
  rwa [Nat.toUInt8, UInt8.ofNat_toNat] at this

theorem operator?_of_head {b : UInt8} (h : ∀ m ∈ Mark.operators, m.spelling.head? ≠ some b)
    (rest : List UInt8) : operator? (b :: rest) = none := by
  cases hop : operator? (b :: rest) with
  | none => rfl
  | some found =>
    obtain ⟨m, more⟩ := found
    obtain ⟨hm, he⟩ := operator?_eq_some hop
    refine absurd ?_ (h m hm)
    have hpos : ∀ m ∈ Mark.operators, m.spelling ≠ [] := by decide
    cases hs : m.spelling with
    | nil => exact absurd hs (hpos m hm)
    | cons c w =>
      rw [hs] at he
      exact congrArg some (List.cons.inj he).1.symm

/-- A blank in front changes nothing. -/
theorem Lexes.space {s : List UInt8} {ts : List (Kind × Bytes)} (h : Lexes s ts) :
    Lexes (0x20 :: s) ts :=
  h.of_first fun hf => (skips_blank (by decide) (by decide) s).first hf

/-- The token of a mark. -/
def markLexeme (m : Mark) : Kind × Bytes := (.mark m, Script.bytes m.text)

/-- The token of a name. -/
def nameLexeme (w : List UInt8) : Kind × Bytes := (.name w.toByteArray, w.toByteArray)

/-- The token of a single byte. -/
def charLexeme (b : UInt8) : Kind × Bytes := (.char (Char.ofNat b.toNat), [b].toByteArray)

/-- A byte that is a token of its own, whatever follows it. -/
def IsSingle (b : UInt8) : Prop :=
  isBlankByte b = false ∧ b ∉ [byte '-', byte '[', byte '"', byte '\'', byte '.'] ∧
    (∀ m ∈ Mark.operators, m.spelling.head? ≠ some b) ∧ isNameByte b = false

instance (b : UInt8) : Decidable (IsSingle b) := inferInstanceAs (Decidable (_ ∧ _ ∧ _ ∧ _))

theorem isLineBreak_of_blank {b : UInt8} (h : isBlankByte b = false) : isLineBreak b = false := by
  cases hl : isLineBreak b with
  | false => rfl
  | true => rcases eq_of_isLineBreak hl with rfl | rfl <;> cases h

theorem Lexes.single {b : UInt8} (hb : IsSingle b) {s : List UInt8} {ts : List (Kind × Bytes)}
    (h : Lexes s ts) : Lexes (b :: s) (charLexeme b :: ts) := by
  obtain ⟨hblank, hno, hop, hname⟩ := hb
  simp only [List.mem_cons, List.not_mem_nil, or_false, not_or] at hno
  obtain ⟨hdash, hbracket, hdouble, hquote, hpoint⟩ := hno
  obtain ⟨hstart, hdigit⟩ := Bool.or_eq_false_iff.1 hname
  refine .next (t := ⟨(charLexeme b).1, 0, (charLexeme b).2⟩) nofun ?_ h
  refine first_visible (isLineBreak_of_blank hblank) hblank hdash fun size line _ => ⟨line, ?_⟩
  rw [readVisible, if_neg hbracket, if_neg (not_or.2 ⟨hdouble, hquote⟩), operator?_of_head hop]
  simp only [hdigit, hstart, hpoint, false_and, Bool.false_eq_true, if_false]
  rfl

/-- The bytes of a name or a reserved word. -/
def IsWord (w : List UInt8) : Prop :=
  w.head?.any isNameStart = true ∧ ∀ b ∈ w, isNameByte b = true

instance (w : List UInt8) : Decidable (IsWord w) :=
  decidable_of_iff (w.head?.any isNameStart = true ∧ w.all isNameByte = true)
    (and_congr_right' List.all_eq_true)

/-- The token of a name or a reserved word. -/
def word (w : List UInt8) : Kind × Bytes :=
  match Mark.ofWord? w.toByteArray with
  | some m => markLexeme m
  | none => nameLexeme w

theorem span_word {w s : List UInt8} (hw : ∀ b ∈ w, isNameByte b = true)
    (hs : ∀ b ∈ s.head?, isNameByte b = false) : (w ++ s).span isNameByte = (w, s) := by
  have hstop : s.takeWhile isNameByte = [] ∧ s.dropWhile isNameByte = s := by
    cases s with
    | nil => exact ⟨rfl, rfl⟩
    | cons b s => simp [hs b rfl]
  rw [List.span_eq_takeWhile_dropWhile, List.takeWhile_append_of_pos hw,
    List.dropWhile_append_of_pos hw, hstop.1, hstop.2, List.append_nil]

theorem readName_word {w s : List UInt8} (hw : ∀ b ∈ w, isNameByte b = true)
    (hs : ∀ b ∈ s.head?, isNameByte b = false) (line : Nat) :
    readName (w ++ s) line = (⟨(word w).1, line, (word w).2⟩, ⟨s, line⟩) := by
  simp only [readName, span_word hw hs, word]
  cases Mark.ofWord? w.toByteArray <;> rfl

theorem word_ne_eof (w : List UInt8) : (word w).1 ≠ .eof := by
  rw [word]
  cases Mark.ofWord? w.toByteArray <;> exact nofun

/-- The bytes that start a name start nothing else. -/
theorem isNameStart_only : ∀ b, isNameStart b = true →
    isBlankByte b = false ∧ isDigitByte b = false ∧
      b ∉ [byte '-', byte '[', byte '"', byte '\'', byte '.'] ∧
      ∀ m ∈ Mark.operators, m.spelling.head? ≠ some b :=
  forall_byte (by decide +kernel)

theorem Lexes.word {w : List UInt8} (hw : IsWord w) {s : List UInt8}
    (hs : ∀ b ∈ s.head?, isNameByte b = false) {ts : List (Kind × Bytes)}
    (h : Lexes s ts) : Lexes (w ++ s) (word w :: ts) := by
  obtain ⟨hhead, hall⟩ := hw
  obtain ⟨b, hb, hstart⟩ := (Option.any_eq_true ..).1 hhead
  obtain ⟨hblank, hdigit, hno, hop⟩ := isNameStart_only b hstart
  simp only [List.mem_cons, List.not_mem_nil, or_false, not_or] at hno
  obtain ⟨hdash, hbracket, hdouble, hquote, hpoint⟩ := hno
  refine .next (t := ⟨(Lexer.word w).1, 0, (Lexer.word w).2⟩) (word_ne_eof w) ?_ h
  have hread := readName_word hall hs
  cases w with
  | nil => cases hb
  | cons c w =>
    obtain rfl : c = b := Option.some.inj hb
    rw [List.cons_append]
    refine first_visible (isLineBreak_of_blank hblank) hblank hdash fun size line _ => ⟨line, ?_⟩
    rw [← hread, readVisible, if_neg hbracket, if_neg (not_or.2 ⟨hdouble, hquote⟩),
      operator?_of_head hop]
    simp only [hdigit, hstart, hpoint, false_and, Bool.false_eq_true, if_false, if_true,
      List.cons_append]

end ScriptWorker.Script.Lexer

import Mathlib.Data.List.TakeDrop
import ScriptWorker.Script.Lexer

/-!
# Reading in front of a line break

A reader that succeeds on some bytes reads the same from them, on whatever line they stand, if
nothing or a line break and anything else follows: what it leaves is longer by just that. There is
one such lemma for each reader, and with it goes that a reader leaves no more than it gets. Only a
line break at the end needs care, because it goes together with a different one behind it.
-/

set_option autoImplicit false

namespace ScriptWorker.Script.Lexer

/-- What may follow the bytes that are read: nothing, or a newline and anything. -/
def Follows (ext : List UInt8) : Prop := ∀ b ∈ ext.head?, b = 0x0A

theorem Follows.nil : Follows [] := by
  rintro b ⟨⟩

theorem Follows.cons (rest : List UInt8) : Follows (0x0A :: rest) := by
  rintro b ⟨⟩
  rfl

theorem Follows.cases {ext : List UInt8} (h : Follows ext) : ext = [] ∨ ∃ t, ext = 0x0A :: t := by
  cases ext with
  | nil => exact .inl rfl
  | cons b t => exact .inr ⟨t, by rw [h b rfl]⟩

/-- A reader of tokens reads a token of the same kind and spelling, which ends on some line. -/
def SameToken (t : Token) (r : List UInt8) (result : Except SyntaxError (Token × Rest)) : Prop :=
  ∃ line, result = .ok (⟨t.kind, line, t.spelling⟩, ⟨r, line⟩)

section

variable {ext : List UInt8}

/-! ## Line breaks -/

theorem length_afterBreak (b : UInt8) (s : List UInt8) : (afterBreak b s).length ≤ s.length := by
  unfold afterBreak
  split
  · split <;> simp
  · exact Nat.le_refl _

/-- A line break in front of other bytes does not reach past them. -/
theorem afterBreak_append (b : UInt8) {s : List UInt8} (h : s ≠ [] ∨ ext = []) :
    afterBreak b (s ++ ext) = afterBreak b s ++ ext := by
  cases s with
  | nil =>
    obtain rfl := h.resolve_left (fun hn => hn rfl)
    rfl
  | cons c s =>
    simp only [afterBreak, List.cons_append]
    split <;> rfl

theorem ne_nil_of_afterBreak {b : UInt8} {s : List UInt8} (h : afterBreak b s ≠ []) : s ≠ [] := by
  rintro rfl
  exact h rfl

/-! ## Numerals -/

theorem length_numeralFrom (hex : Bool) (buffer : Buffer) (s : List UInt8) :
    (numeralFrom hex buffer s).2.length ≤ s.length := by
  fun_induction numeralFrom hex buffer s with
  | case1 | case4 | case6 => simp
  | case2 | case3 | case5 => simp only [List.length_cons] at *; omega

theorem numeralFrom_append (h : Follows ext) (hex : Bool) (buffer : Buffer) (s : List UInt8) :
    numeralFrom hex buffer (s ++ ext) =
      ((numeralFrom hex buffer s).1, (numeralFrom hex buffer s).2 ++ ext) := by
  have hends : ∀ buffer, numeralFrom hex buffer ext = (buffer, ext) := by
    intro buffer
    rcases h.cases with rfl | ⟨t, rfl⟩
    · rw [numeralFrom]
    · have hmark : isExponentMark hex 0x0A = false := by cases hex <;> decide
      have hbyte : (isHexByte 0x0A || 0x0A == byte '.') = false := by decide
      rw [numeralFrom.eq_def]
      simp only [hmark, hbyte, Bool.false_eq_true, if_false]
  fun_induction numeralFrom hex buffer s with
  | case1 buffer => exact hends buffer
  | case2 buffer b hb s more hs ih =>
    rw [List.cons_append, List.cons_append, numeralFrom, if_pos hb, if_pos hs]
    exact ih
  | case3 buffer b hb s more hs ih =>
    rw [List.cons_append, List.cons_append, numeralFrom, if_pos hb, if_neg hs]
    exact ih
  | case4 buffer b hb =>
    rcases h.cases with rfl | ⟨t, rfl⟩
    · rw [List.append_nil, numeralFrom, if_pos hb]
      rfl
    · rw [List.singleton_append, numeralFrom, if_pos hb, if_neg (by decide)]
      exact hends _
  | case5 buffer b rest hb hn ih =>
    rw [List.cons_append, numeralFrom.eq_def]
    simp only [hb, hn, if_true]
    exact ih
  | case6 buffer b rest hb hn =>
    rw [List.cons_append, numeralFrom.eq_def]
    simp only [hb, hn]
    rfl

theorem length_gatherNumeral (buffer : Buffer) (b : UInt8) (s : List UInt8) :
    (gatherNumeral buffer (b :: s)).2.length ≤ s.length := by
  unfold gatherNumeral
  split
  · rename_i x rest heq
    obtain ⟨rfl, rfl⟩ := List.cons.inj heq
    split
    · exact Nat.le_succ_of_le (length_numeralFrom ..)
    · exact length_numeralFrom ..
  · rename_i heq
    obtain ⟨rfl, rfl⟩ := List.cons.inj heq
    exact length_numeralFrom ..
  · rename_i heq
    cases heq

theorem gatherNumeral_single (buffer : Buffer) (b : UInt8) :
    gatherNumeral buffer [b] = numeralFrom false (b :: buffer) [] := by
  unfold gatherNumeral
  split
  · rename_i heq
    cases heq
  · rename_i heq
    obtain ⟨rfl, rfl⟩ := List.cons.inj heq
    rfl
  · rename_i heq
    cases heq

theorem gatherNumeral_of_ne {b : UInt8} (hb : b ≠ 48) (buffer : Buffer) (s : List UInt8) :
    gatherNumeral buffer (b :: s) = numeralFrom false (b :: buffer) s := by
  unfold gatherNumeral
  split
  · rename_i heq
    exact absurd (List.cons.inj heq).1 hb
  · rename_i heq
    obtain ⟨rfl, rfl⟩ := List.cons.inj heq
    rfl
  · rename_i heq
    cases heq

theorem gatherNumeral_append (h : Follows ext) (buffer : Buffer) (b : UInt8) (s : List UInt8) :
    gatherNumeral buffer (b :: s ++ ext) =
      ((gatherNumeral buffer (b :: s)).1, (gatherNumeral buffer (b :: s)).2 ++ ext) := by
  by_cases hb : b = 48
  · subst hb
    cases s with
    | cons x s =>
      simp only [gatherNumeral, List.cons_append]
      split
      · exact numeralFrom_append h ..
      · exact numeralFrom_append h false (48 :: buffer) (x :: s)
    | nil =>
      rw [gatherNumeral_single, ← numeralFrom_append h, List.nil_append]
      rcases h.cases with rfl | ⟨t, rfl⟩
      · exact gatherNumeral_single ..
      · rw [List.singleton_append, gatherNumeral, if_neg (by decide)]
  · rw [List.cons_append, gatherNumeral_of_ne hb, gatherNumeral_of_ne hb]
    exact numeralFrom_append h ..

theorem takeLetter_append (h : Follows ext) (buffer : Buffer) (s : List UInt8) :
    takeLetter (buffer, s ++ ext) =
      ((takeLetter (buffer, s)).1, (takeLetter (buffer, s)).2 ++ ext) := by
  have hn : isNameStart 0x0A = false := by decide
  cases s with
  | nil =>
    rcases h.cases with rfl | ⟨t, rfl⟩
    · rfl
    · simp [takeLetter, hn]
  | cons b s =>
    simp only [takeLetter, List.cons_append]
    split <;> rfl

theorem length_takeLetter (buffer : Buffer) (s : List UInt8) :
    (takeLetter (buffer, s)).2.length ≤ s.length := by
  cases s with
  | nil => exact Nat.le_refl _
  | cons b s =>
    simp only [takeLetter]
    split <;> simp

/-- **Numerals** end in front of a line break. -/
theorem readNumeral_append {buffer : Buffer} {b : UInt8} {s : List UInt8} {line : Nat} {t : Token}
    {r : Rest} (h : readNumeral buffer ⟨b :: s, line⟩ = .ok (t, r)) :
    t.kind ≠ .eof ∧ r.bytes.length ≤ s.length ∧ ∀ {ext}, Follows ext → ∀ line',
      SameToken t (r.bytes ++ ext) (readNumeral buffer ⟨b :: s ++ ext, line'⟩) := by
  simp only [readNumeral] at h
  split at h
  case h_2 => cases h
  case h_1 n hn =>
    obtain ⟨rfl, rfl⟩ := Prod.mk.inj (Except.ok.inj h)
    refine ⟨nofun, Nat.le_trans (length_takeLetter ..) (length_gatherNumeral ..), ?_⟩
    intro ext hext line'
    exact ⟨line', by simp only [readNumeral, gatherNumeral_append hext, takeLetter_append hext, hn]⟩

/-! ## Long brackets -/

theorem length_readLevel (bracket : UInt8) (buffer : Buffer) (count : Nat) (s : List UInt8) :
    (readLevel bracket buffer count s).2.2.2.length ≤ s.length := by
  fun_induction readLevel bracket buffer count s with
  | case1 | case3 | case4 => simp
  | case2 => simp only [List.length_cons] at *; omega

theorem readLevel_append (h : Follows ext) {bracket : UInt8} (hb : bracket ≠ 0x0A) (buffer : Buffer)
    (count : Nat) (s : List UInt8) :
    readLevel bracket buffer count (s ++ ext) =
      let found := readLevel bracket buffer count s
      (found.1, found.2.1, found.2.2.1, found.2.2.2 ++ ext) := by
  fun_induction readLevel bracket buffer count s with
  | case1 buffer count =>
    rcases h.cases with rfl | ⟨t, rfl⟩
    · rfl
    · rw [List.nil_append, readLevel, if_neg (by decide), if_neg hb.symm]
      rfl
  | case2 buffer count rest ih => rw [List.cons_append, readLevel, if_pos rfl, ih]
  | case3 buffer count rest hq =>
    rw [List.cons_append, readLevel, if_neg hq, if_pos rfl]
    rfl
  | case4 buffer count b rest hq hk =>
    rw [List.cons_append, readLevel, if_neg hq, if_neg hk]
    rfl

/-- Where there is a level, the bracket that ends it comes next. -/
theorem readLevel_some {bracket : UInt8} {buffer buffer' : Buffer} {count n n' : Nat}
    {s rest : List UInt8} (h : readLevel bracket buffer count s = (some n, n', buffer', rest)) :
    ∃ more, rest = bracket :: more := by
  fun_induction readLevel bracket buffer count s with
  | case1 | case4 => simp at h
  | case2 _ _ _ ih => exact ih h
  | case3 => simp only [Prod.mk.injEq] at h; exact ⟨_, h.2.2.2.symm⟩

/-- A long string or comment of this level, of which `text` and `buffer` have been read, goes on in
`s` up to `r`, whatever follows. -/
def LongEnds (level : Nat) (text buffer : Buffer) (s : List UInt8) (contents : Bytes)
    (spelling : Buffer) (r : List UInt8) : Prop :=
  r.length ≤ s.length ∧ ∀ {ext}, Follows ext → ∀ what start fuel line, (s ++ ext).length < fuel →
    ∃ line', readLong what start level fuel text buffer ⟨s ++ ext, line⟩ =
      .ok (contents, spelling, ⟨r ++ ext, line'⟩)

/-- One step of reading goes on with what is left of `rest`, and with the same in front of what
follows. -/
theorem LongEnds.step {level : Nat} {text buffer text' buffer' : Buffer} {b : UInt8}
    {rest s r : List UInt8} {contents : Bytes} {spelling : Buffer}
    (h : LongEnds level text' buffer' s contents spelling r) (hle : s.length ≤ rest.length)
    (hstep : ∀ {ext}, Follows ext → ∀ what start fuel line, ∃ line',
      readLong what start level (fuel + 1) text buffer ⟨b :: rest ++ ext, line⟩ =
        readLong what start level fuel text' buffer' ⟨s ++ ext, line'⟩) :
    LongEnds level text buffer (b :: rest) contents spelling r := by
  obtain ⟨hr, hext⟩ := h
  refine ⟨Nat.le_succ_of_le (Nat.le_trans hr hle), ?_⟩
  intro ext hf what start fuel line hfuel
  simp only [List.length_append, List.length_cons] at hfuel
  obtain ⟨fuel, rfl⟩ : ∃ n, fuel = n + 1 := ⟨fuel - 1, by omega⟩
  obtain ⟨line', he⟩ := hstep hf what start fuel line
  rw [he]
  refine hext hf _ _ _ _ ?_
  rw [List.length_append]
  omega

/-- **Long strings and comments** end at their own bracket. -/
theorem readLong_append {what : String} {start level fuel : Nat} {text buffer : Buffer}
    {s : List UInt8} {line : Nat} {contents : Bytes} {spelling : Buffer} {r : Rest}
    (h : readLong what start level fuel text buffer ⟨s, line⟩ = .ok (contents, spelling, r)) :
    LongEnds level text buffer s contents spelling r.bytes := by
  induction fuel generalizing text buffer s line with
  | zero => cases h
  | succ fuel ih =>
    cases s with
    | nil => cases h
    | cons b rest =>
      rw [readLong] at h
      simp only at h
      by_cases hb : b = byte ']'
      · rw [if_pos hb] at h
        have hle := length_readLevel (byte ']') (b :: buffer) 0 rest
        have happend : ∀ {ext}, Follows ext → _ := fun {ext} (hf : Follows ext) =>
          readLevel_append hf (show byte ']' ≠ 0x0A by decide) (b :: buffer) 0 rest
        rcases hlevel : readLevel (byte ']') (b :: buffer) 0 rest with ⟨found, n, buffer', more⟩
        rw [hlevel] at h hle
        simp only [hlevel] at happend
        cases found with
        | none =>
          refine (ih h).step hle fun hf what' start' fuel' line' => ⟨line', ?_⟩
          rw [List.cons_append, readLong]
          simp only [if_pos hb, happend hf]
        | some k =>
          simp only at h
          by_cases hk : k = level
          · rw [if_pos hk] at h
            obtain ⟨more, rfl⟩ := readLevel_some hlevel
            simp only [Except.ok.injEq, Prod.mk.injEq] at h
            obtain ⟨rfl, rfl, rfl⟩ := h
            simp only [List.length_cons] at hle
            refine ⟨?_, ?_⟩
            · simp only [List.length_cons, List.drop_one, List.tail_cons]
              omega
            intro ext hf what' start' fuel' line' hfuel
            obtain ⟨fuel', rfl⟩ : ∃ n, fuel' = n + 1 := ⟨fuel' - 1, by omega⟩
            refine ⟨line', ?_⟩
            rw [List.cons_append, readLong]
            simp only [if_pos hb, happend hf, if_pos hk, List.cons_append, List.drop_one,
              List.tail_cons]
          · rw [if_neg hk] at h
            refine (ih h).step hle fun hf what' start' fuel' line' => ⟨line', ?_⟩
            rw [List.cons_append, readLong]
            simp only [if_pos hb, happend hf, if_neg hk]
      · rw [if_neg hb] at h
        by_cases hl : isLineBreak b = true
        · rw [if_pos hl] at h
          have hne : rest ≠ [] := by
            rintro rfl
            cases fuel <;> cases h
          refine (ih h).step (length_afterBreak b rest)
            fun hf what' start' fuel' line' => ⟨line' + 1, ?_⟩
          rw [List.cons_append, readLong]
          simp only [if_neg hb, if_pos hl]
          rw [afterBreak_append b (.inl hne)]
        · rw [if_neg hl] at h
          refine (ih h).step (Nat.le_refl _) fun hf what' start' fuel' line' => ⟨line', ?_⟩
          rw [List.cons_append, readLong]
          simp only [if_neg hb, if_neg hl]

theorem readLongBody_append {size : Nat} {what : String} {level : Nat} {buffer : Buffer}
    {s : List UInt8} {line : Nat} {contents : Bytes} {spelling : Buffer} {r : Rest}
    (h : readLongBody size what level buffer ⟨s, line⟩ = .ok (contents, spelling, r)) :
    r.bytes.length ≤ s.length ∧ ∀ {ext}, Follows ext → ∀ size' line',
      (s ++ ext).length < size' →
      ∃ line'', readLongBody size' what level buffer ⟨s ++ ext, line'⟩ =
        .ok (contents, spelling, ⟨r.bytes ++ ext, line''⟩) := by
  cases s with
  | nil =>
    cases size <;> cases h
  | cons b rest =>
    simp only [readLongBody] at h ⊢
    by_cases hl : isLineBreak b = true
    · rw [if_pos hl] at h
      obtain ⟨hle, hext⟩ := readLong_append h
      have hb := length_afterBreak b rest
      have hne : rest ≠ [] := by
        rintro rfl
        cases size <;> cases h
      refine ⟨by rw [List.length_cons]; omega, fun hf size' line' hsize => ?_⟩
      rw [List.cons_append]
      simp only [if_pos hl]
      rw [afterBreak_append b (.inl hne)]
      refine hext hf _ _ _ _ ?_
      simp only [List.length_append, List.length_cons] at hsize ⊢
      omega
    · rw [if_neg hl] at h
      obtain ⟨hle, hext⟩ := readLong_append h
      refine ⟨hle, fun hf size' line' hsize => ?_⟩
      rw [List.cons_append]
      simp only [if_neg hl]
      exact hext hf _ _ _ _ hsize

/-! ## Short strings -/

theorem readDecimal_append (h : Follows ext) (n value : Nat) (buffer : Buffer) (s : List UInt8) :
    (readDecimal n value buffer s).2.2.length ≤ s.length ∧
    readDecimal n value buffer (s ++ ext) =
      ((readDecimal n value buffer s).1, (readDecimal n value buffer s).2.1,
        (readDecimal n value buffer s).2.2 ++ ext) := by
  induction n generalizing value buffer s with
  | zero => exact ⟨Nat.le_refl _, rfl⟩
  | succ n ih =>
    cases s with
    | nil =>
      refine ⟨Nat.le_refl _, ?_⟩
      rcases h.cases with rfl | ⟨t, rfl⟩ <;> rfl
    | cons b s =>
      simp only [readDecimal, List.cons_append]
      split
      · exact ⟨Nat.le_succ_of_le (ih ..).1, (ih ..).2⟩
      · exact ⟨Nat.le_refl _, rfl⟩

theorem readPoint_append {line value value' : Nat} {buffer buffer' : Buffer} {s rest : List UInt8}
    (h : readPoint line value buffer s = .ok (value', buffer', rest)) :
    rest.length ≤ s.length ∧ ∀ {ext}, Follows ext → ∀ line',
      readPoint line' value buffer (s ++ ext) = .ok (value', buffer', rest ++ ext) := by
  induction s generalizing value buffer with
  | nil =>
    simp only [readPoint, Except.ok.injEq, Prod.mk.injEq] at h
    obtain ⟨rfl, rfl, rfl⟩ := h
    refine ⟨Nat.le_refl _, fun hf line' => ?_⟩
    rcases hf.cases with rfl | ⟨t, rfl⟩
    · rfl
    · rw [List.nil_append, readPoint, if_neg (by decide)]
  | cons b s ih =>
    rw [readPoint] at h
    split at h
    case isTrue hb =>
      split at h
      case isTrue hv =>
        obtain ⟨hle, hext⟩ := ih h
        refine ⟨Nat.le_succ_of_le hle, fun hf line' => ?_⟩
        rw [List.cons_append, readPoint, if_pos hb, if_pos hv, hext hf]
      case isFalse => cases h
    case isFalse hb =>
      simp only [Except.ok.injEq, Prod.mk.injEq] at h
      obtain ⟨rfl, rfl, rfl⟩ := h
      refine ⟨Nat.le_refl _, fun hf line' => ?_⟩
      rw [List.cons_append, readPoint, if_neg hb]

theorem readByteEscape_append {buffer : Buffer} {s : List UInt8} {line : Nat}
    {contents : List UInt8} {r : Rest}
    (h : readByteEscape buffer ⟨s, line⟩ = .ok (contents, r)) :
    r.bytes.length ≤ s.length ∧ ∀ ext line',
      readByteEscape buffer ⟨s ++ ext, line'⟩ = .ok (contents, ⟨r.bytes ++ ext, line'⟩) := by
  match s with
  | [] => cases h
  | [a] =>
    simp only [readByteEscape] at h
    split at h <;> cases h
  | a :: b :: rest =>
    simp only [readByteEscape, List.cons_append] at h ⊢
    split at h
    case isFalse => cases h
    case isTrue ha =>
      split at h
      case isFalse => cases h
      case isTrue hb =>
        obtain ⟨rfl, rfl⟩ := Prod.mk.inj (Except.ok.inj h)
        refine ⟨?_, fun ext line' => by rw [if_pos ha, if_pos hb]⟩
        simp only [List.length_cons]
        omega

theorem readPointEscape_append {buffer : Buffer} {s : List UInt8} {line : Nat}
    {contents : List UInt8} {r : Rest}
    (h : readPointEscape buffer ⟨s, line⟩ = .ok (contents, r)) :
    r.bytes.length ≤ s.length ∧ ∀ {ext}, Follows ext → ∀ line',
      readPointEscape buffer ⟨s ++ ext, line'⟩ = .ok (contents, ⟨r.bytes ++ ext, line'⟩) := by
  unfold readPointEscape at h
  split at h
  case h_2 => cases h
  case h_1 rest hs =>
    obtain rfl : s = 0x7B :: rest := hs
    cases rest with
    | nil => cases h
    | cons d more =>
      simp only at h
      split at h
      case isFalse => cases h
      case isTrue hd =>
        split at h
        case h_1 => cases h
        case h_3 => cases h
        case h_2 value buffer' rest hp =>
          obtain ⟨rfl, rfl⟩ := Prod.mk.inj (Except.ok.inj h)
          obtain ⟨hle, hext⟩ := readPoint_append hp
          refine ⟨by simp only [List.length_cons] at hle ⊢; omega, fun hf line' => ?_⟩
          simp only [readPointEscape, List.cons_append, if_pos hd, hext hf]

theorem readDecimalEscape_append {buffer : Buffer} {s : List UInt8} {line : Nat}
    {contents : List UInt8} {r : Rest}
    (h : readDecimalEscape buffer ⟨s, line⟩ = .ok (contents, r)) :
    r.bytes.length ≤ s.length ∧ ∀ {ext}, Follows ext → ∀ line',
      readDecimalEscape buffer ⟨s ++ ext, line'⟩ = .ok (contents, ⟨r.bytes ++ ext, line'⟩) := by
  simp only [readDecimalEscape] at h
  split at h
  case isFalse => cases h
  case isTrue hv =>
    obtain ⟨rfl, rfl⟩ := Prod.mk.inj (Except.ok.inj h)
    refine ⟨(readDecimal_append .nil 3 0 buffer s).1, fun hf line' => ?_⟩
    simp only [readDecimalEscape, (readDecimal_append hf 3 0 buffer s).2, if_pos hv]

/-- **Escapes** end with themselves, a line break among them only where more follows it. -/
theorem readEscape_append {buffer : Buffer} {s : List UInt8} {line : Nat}
    {contents : List UInt8} {r : Rest}
    (h : readEscape buffer ⟨s, line⟩ = .ok (contents, r)) (hr : r.bytes ≠ []) :
    r.bytes.length ≤ s.length ∧ ∀ {ext}, Follows ext → ∀ line', ∃ line'',
      readEscape buffer ⟨s ++ ext, line'⟩ = .ok (contents, ⟨r.bytes ++ ext, line''⟩) := by
  cases s with
  | nil =>
    obtain ⟨-, rfl⟩ := Prod.mk.inj (Except.ok.inj h)
    exact absurd rfl hr
  | cons b rest =>
    simp only [readEscape, List.cons_append] at h ⊢
    cases hb : letterEscape? b with
    | some c =>
      rw [hb] at h
      obtain ⟨rfl, rfl⟩ := Prod.mk.inj (Except.ok.inj h)
      exact ⟨Nat.le_succ _, fun hf line' => ⟨line', rfl⟩⟩
    | none =>
      simp only [hb] at h ⊢
      split at h
      case isTrue hl =>
        obtain ⟨rfl, rfl⟩ := Prod.mk.inj (Except.ok.inj h)
        refine ⟨Nat.le_succ_of_le (length_afterBreak b rest), fun hf line' => ⟨line' + 1, ?_⟩⟩
        rw [if_pos hl, afterBreak_append b (.inl (ne_nil_of_afterBreak hr))]
      case isFalse hl =>
        split at h
        case isTrue hx =>
          obtain ⟨hle, hext⟩ := readByteEscape_append h
          refine ⟨Nat.le_succ_of_le hle, fun hf line' => ⟨line', ?_⟩⟩
          rw [if_neg hl, if_pos hx, hext]
        case isFalse hx =>
          split at h
          case isTrue hu =>
            obtain ⟨hle, hext⟩ := readPointEscape_append h
            refine ⟨Nat.le_succ_of_le hle, fun hf line' => ⟨line', ?_⟩⟩
            rw [if_neg hl, if_neg hx, if_pos hu, hext hf]
          case isFalse hu =>
            split at h
            case isFalse => cases h
            case isTrue hd =>
              obtain ⟨hle, hext⟩ := readDecimalEscape_append h
              refine ⟨hle, fun hf line' => ⟨line', ?_⟩⟩
              rw [if_neg hl, if_neg hx, if_neg hu, if_pos hd]
              exact hext hf line'

/-- Skipped blanks end in front of what is left, if anything is. -/
theorem skipBlanks_append {fuel : Nat} {s : List UInt8} {line : Nat} (hfuel : s.length ≤ fuel) :
    (skipBlanks fuel ⟨s, line⟩).bytes.length ≤ s.length ∧
    ((skipBlanks fuel ⟨s, line⟩).bytes ≠ [] → ∀ ext fuel' line', (s ++ ext).length ≤ fuel' →
      ∃ line'', skipBlanks fuel' ⟨s ++ ext, line'⟩ =
        ⟨(skipBlanks fuel ⟨s, line⟩).bytes ++ ext, line''⟩) := by
  induction fuel generalizing s line with
  | zero =>
    obtain rfl := List.eq_nil_of_length_eq_zero (Nat.le_zero.1 hfuel)
    exact ⟨Nat.le_refl _, fun h => absurd rfl h⟩
  | succ fuel ih =>
    cases s with
    | nil => exact ⟨Nat.le_refl _, fun h => absurd rfl h⟩
    | cons b rest =>
      rw [List.length_cons] at hfuel
      have hfuel' : ∀ {ext : List UInt8} {fuel' : Nat}, (b :: rest ++ ext).length ≤ fuel' →
          ∃ n, fuel' = n + 1 ∧ (rest ++ ext).length ≤ n := by
        intro ext fuel' h
        simp only [List.cons_append, List.length_cons] at h
        exact ⟨fuel' - 1, by omega, by omega⟩
      simp only [skipBlanks]
      by_cases hl : isLineBreak b = true
      · have hle := length_afterBreak b rest
        obtain ⟨hr, hext⟩ := @ih (afterBreak b rest) (line + 1) (by omega)
        rw [if_pos hl]
        refine ⟨by rw [List.length_cons]; omega, fun hne ext fuel' line' h => ?_⟩
        obtain ⟨n, rfl, hn⟩ := hfuel' h
        have hrest : rest ≠ [] := by
          rintro rfl
          cases fuel <;> exact hne rfl
        rw [List.cons_append, skipBlanks]
        simp only [if_pos hl]
        rw [afterBreak_append b (.inl hrest)]
        refine hext hne ext n _ ?_
        rw [List.length_append] at hn ⊢
        omega
      · rw [if_neg hl]
        by_cases hb : isBlankByte b = true
        · obtain ⟨hr, hext⟩ := @ih rest line (by omega)
          rw [if_pos hb]
          refine ⟨Nat.le_succ_of_le hr, fun hne ext fuel' line' h => ?_⟩
          obtain ⟨n, rfl, hn⟩ := hfuel' h
          rw [List.cons_append, skipBlanks]
          simp only [if_neg hl, if_pos hb]
          exact hext hne ext n _ hn
        · rw [if_neg hb]
          refine ⟨Nat.le_refl _, fun _ ext fuel' line' h => ⟨line', ?_⟩⟩
          obtain ⟨n, rfl, hn⟩ := hfuel' h
          rw [List.cons_append, skipBlanks]
          simp only [if_neg hl, if_neg hb]

/-- A string in quotes, of which `buffer` has been read, goes on in `s` up to `r`, whatever
follows. -/
def QuotedEnds (quote : UInt8) (buffer : Buffer) (s : List UInt8) (out : Buffer)
    (r : List UInt8) : Prop :=
  r.length ≤ s.length ∧ ∀ {ext}, Follows ext → ∀ fuel line, (s ++ ext).length < fuel →
    ∃ line', readString quote fuel buffer ⟨s ++ ext, line⟩ = .ok (out, ⟨r ++ ext, line'⟩)

/-- One step of reading goes on with what is left of `rest`, and with the same in front of what
follows. -/
theorem QuotedEnds.step {quote b : UInt8} {buffer buffer' out : Buffer} {rest s r : List UInt8}
    (h : QuotedEnds quote buffer' s out r) (hle : s.length ≤ rest.length)
    (hstep : ∀ {ext}, Follows ext → ∀ fuel line, (rest ++ ext).length < fuel → ∃ line',
      readString quote (fuel + 1) buffer ⟨b :: rest ++ ext, line⟩ =
        readString quote fuel buffer' ⟨s ++ ext, line'⟩) :
    QuotedEnds quote buffer (b :: rest) out r := by
  obtain ⟨hr, hext⟩ := h
  refine ⟨Nat.le_succ_of_le (Nat.le_trans hr hle), ?_⟩
  intro ext hf fuel line hfuel
  simp only [List.length_append, List.length_cons] at hfuel
  obtain ⟨fuel, rfl⟩ : ∃ n, fuel = n + 1 := ⟨fuel - 1, by omega⟩
  obtain ⟨line', he⟩ := hstep hf fuel line (by rw [List.length_append]; omega)
  rw [he]
  refine hext hf _ _ ?_
  rw [List.length_append]
  omega

/-- A string is not over where the text is. -/
theorem ne_nil_of_readString {quote : UInt8} {fuel : Nat} {buffer out : Buffer} {s : List UInt8}
    {line : Nat} {r : Rest} (h : readString quote fuel buffer ⟨s, line⟩ = .ok (out, r)) :
    s ≠ [] := by
  rintro rfl
  cases fuel <;> cases h

/-- **Strings in quotes** end at their quote. -/
theorem readString_append {quote : UInt8} {fuel : Nat} {buffer out : Buffer} {s : List UInt8}
    {line : Nat} {r : Rest} (h : readString quote fuel buffer ⟨s, line⟩ = .ok (out, r))
    (hfuel : s.length ≤ fuel) : QuotedEnds quote buffer s out r.bytes := by
  induction fuel generalizing buffer s line with
  | zero => cases h
  | succ fuel ih =>
    cases s with
    | nil => cases h
    | cons b rest =>
      rw [List.length_cons] at hfuel
      rw [readString] at h
      simp only at h
      by_cases hq : b = quote
      · rw [if_pos hq] at h
        obtain ⟨rfl, rfl⟩ := Prod.mk.inj (Except.ok.inj h)
        refine ⟨Nat.le_succ _, fun hf fuel' line' hfuel' => ⟨line', ?_⟩⟩
        obtain ⟨fuel', rfl⟩ : ∃ n, fuel' = n + 1 := ⟨fuel' - 1, by omega⟩
        rw [List.cons_append, readString]
        simp only [if_pos hq]
      · rw [if_neg hq] at h
        by_cases hl : isLineBreak b = true
        · rw [if_pos hl] at h
          cases h
        · rw [if_neg hl] at h
          by_cases hb : b = byte '\\'
          · rw [if_pos hb] at h
            split at h
            case h_1 more =>
              obtain ⟨hle, hext⟩ := @skipBlanks_append fuel more line
                (by simp only [List.length_cons] at hfuel; omega)
              have hle' := Nat.le_succ_of_le hle
              refine (ih h (Nat.le_trans hle' (Nat.le_of_succ_le_succ hfuel))).step hle'
                fun {ext} hf fuel' line' hfuel' => ?_
              obtain ⟨line'', he⟩ := hext (ne_nil_of_readString h) ext fuel' line'
                (by simp only [List.cons_append, List.length_cons] at hfuel'; omega)
              refine ⟨line'', ?_⟩
              rw [List.cons_append, List.cons_append, readString]
              simp only [if_neg hq, if_neg hl, if_pos hb, he]
            case h_2 hz =>
              cases hesc : readEscape (b :: buffer) ⟨rest, line⟩ with
              | error e => rw [hesc] at h; cases h
              | ok found =>
                obtain ⟨contents, s', line₁⟩ := found
                rw [hesc] at h
                change readString quote fuel (contents.reverse ++ buffer) ⟨s', line₁⟩ = _ at h
                have hne := ne_nil_of_readString h
                obtain ⟨hle, hext⟩ := readEscape_append hesc hne
                refine (ih h (Nat.le_trans hle (Nat.le_of_succ_le_succ hfuel))).step hle
                  fun {ext} hf fuel' line' hfuel' => ?_
                obtain ⟨line'', he⟩ := hext hf line'
                refine ⟨line'', ?_⟩
                rw [List.cons_append, readString]
                simp only [if_neg hq, if_neg hl, if_pos hb]
                cases rest with
                | nil => exact absurd (List.eq_nil_of_length_eq_zero (Nat.le_zero.1 hle)) hne
                | cons c more =>
                  split
                  case h_1 heq =>
                    exact absurd (congrArg (· :: more) (List.cons.inj heq).1) (hz more)
                  case h_2 =>
                    rw [he]
                    rfl
          · rw [if_neg hb] at h
            refine (ih h (Nat.le_of_succ_le_succ hfuel)).step (Nat.le_refl _)
              fun {ext} hf fuel' line' hfuel' => ⟨line', ?_⟩
            rw [List.cons_append, readString]
            simp only [if_neg hq, if_neg hl, if_neg hb]

/-! ## Tokens that start with a visible byte -/

theorem charAt_eq {b : UInt8} {rest : List UInt8} {line : Nat} {t : Token} {r : Rest}
    (h : charAt b rest line = .ok (t, r)) :
    t.kind ≠ .eof ∧ r.bytes = rest ∧ ∀ rest' line', SameToken t rest' (charAt b rest' line') := by
  obtain ⟨rfl, rfl⟩ := Prod.mk.inj (Except.ok.inj h)
  exact ⟨nofun, rfl, fun rest' line' => ⟨line', rfl⟩⟩

theorem readBracket_append {size : Nat} {b : UInt8} {rest : List UInt8} {line : Nat} {t : Token}
    {r : Rest} (hb : b ≠ 0x0A) (h : readBracket size b rest line = .ok (t, r)) :
    t.kind ≠ .eof ∧ r.bytes.length ≤ rest.length ∧ ∀ {ext}, Follows ext → ∀ size' line',
      (rest ++ ext).length < size' →
      SameToken t (r.bytes ++ ext) (readBracket size' b (rest ++ ext) line') := by
  have hle := length_readLevel b [b] 0 rest
  have happend := fun {ext} (hf : Follows ext) => readLevel_append hf hb [b] 0 rest
  rcases hlevel : readLevel b [b] 0 rest with ⟨found, n, buffer, more⟩
  rw [readBracket, hlevel] at h
  simp only [hlevel] at happend hle
  simp only [readBracket]
  cases found with
  | none =>
    cases n with
    | zero =>
      obtain ⟨hk, hr, hc⟩ := charAt_eq h
      refine ⟨hk, Nat.le_of_eq (congrArg _ hr), fun hf size' line' _ => ?_⟩
      rw [happend hf, hr]
      exact hc _ _
    | succ n => cases h
  | some level =>
    obtain ⟨more, rfl⟩ := readLevel_some hlevel
    simp only [List.drop_one, List.tail_cons, List.length_cons] at h hle
    split at h
    case h_1 => cases h
    case h_2 text spelling s hbody =>
      obtain ⟨rfl, rfl⟩ := Prod.mk.inj (Except.ok.inj h)
      obtain ⟨hs, hext⟩ := readLongBody_append hbody
      refine ⟨nofun, by omega, fun {ext} hf size' line' hsize => ?_⟩
      obtain ⟨line'', he⟩ := hext hf size' line'
        (by rw [List.length_append] at hsize ⊢; omega)
      refine ⟨line'', ?_⟩
      simp only [happend hf, List.cons_append, List.drop_one, List.tail_cons, he]

theorem readQuoted_append {size : Nat} {quote : UInt8} {rest : List UInt8} {line : Nat} {t : Token}
    {r : Rest} (h : readQuoted size quote rest line = .ok (t, r)) (hsize : rest.length ≤ size) :
    t.kind ≠ .eof ∧ r.bytes.length ≤ rest.length ∧ ∀ {ext}, Follows ext → ∀ size' line',
      (rest ++ ext).length < size' →
      SameToken t (r.bytes ++ ext) (readQuoted size' quote (rest ++ ext) line') := by
  simp only [readQuoted] at h
  split at h
  case h_1 => cases h
  case h_2 buffer s hs =>
    obtain ⟨rfl, rfl⟩ := Prod.mk.inj (Except.ok.inj h)
    obtain ⟨hle, hext⟩ := readString_append hs hsize
    refine ⟨nofun, hle, fun hf size' line' hsize' => ?_⟩
    obtain ⟨line'', he⟩ := hext hf size' line' hsize'
    exact ⟨line'', by simp only [readQuoted, he]⟩

theorem isPrefixOf_append (h : Follows ext) {w : List UInt8} (hw : 0x0A ∉ w) (s : List UInt8) :
    w.isPrefixOf (s ++ ext) = w.isPrefixOf s := by
  induction w generalizing s with
  | nil => cases s <;> cases ext <;> rfl
  | cons b w ih =>
    obtain ⟨hb, hw⟩ := not_or.1 (mt List.mem_cons.2 hw)
    cases s with
    | nil =>
      rcases h.cases with rfl | ⟨t, rfl⟩
      · rfl
      · simp [List.isPrefixOf, Ne.symm hb]
    | cons c s => simp only [List.cons_append, List.isPrefixOf, ih hw]

theorem operator?_eq_some {s r : List UInt8} {m : Mark} (h : operator? s = some (m, r)) :
    m ∈ Mark.operators ∧ s = m.spelling ++ r := by
  rw [operator?, Option.map_eq_some_iff] at h
  obtain ⟨m, hm, he⟩ := h
  obtain ⟨rfl, rfl⟩ := Prod.mk.inj he
  have hp : m.spelling <+: s := List.isPrefixOf_iff_prefix.1 (by simpa using List.find?_some hm)
  exact ⟨List.mem_of_find?_eq_some hm, (List.prefix_iff_eq_append.1 hp).symm⟩

theorem length_operator? {s r : List UInt8} {m : Mark} (h : operator? s = some (m, r)) :
    r.length < s.length := by
  have hpos : ∀ m ∈ Mark.operators, 0 < m.spelling.length := by decide
  obtain ⟨hm, rfl⟩ := operator?_eq_some h
  have := hpos m hm
  rw [List.length_append]
  omega

theorem operator?_append (h : Follows ext) (s : List UInt8) :
    operator? (s ++ ext) = (operator? s).map fun found => (found.1, found.2 ++ ext) := by
  have hno : ∀ m ∈ Mark.operators, (0x0A : UInt8) ∉ m.spelling := by decide
  have hfind : ∀ ms : List Mark, (∀ m ∈ ms, (0x0A : UInt8) ∉ m.spelling) →
      (ms.find? fun m => m.spelling.isPrefixOf (s ++ ext)) =
        ms.find? fun m => m.spelling.isPrefixOf s := by
    intro ms hms
    induction ms with
    | nil => rfl
    | cons m ms ih =>
      rw [List.find?_cons, List.find?_cons, isPrefixOf_append h (hms m List.mem_cons_self),
        ih fun m hm => hms m (List.mem_cons_of_mem _ hm)]
  rw [operator?, operator?, hfind _ hno]
  cases hm : Mark.operators.find? fun m => m.spelling.isPrefixOf s with
  | none => rfl
  | some m =>
    have hp : m.spelling <+: s := List.isPrefixOf_iff_prefix.1 (by simpa using List.find?_some hm)
    simp [List.drop_append_of_le_length hp.length_le]

theorem span_append (h : Follows ext) {p : UInt8 → Bool} (hp : p 0x0A = false) (s : List UInt8) :
    (s ++ ext).span p = ((s.span p).1, (s.span p).2 ++ ext) := by
  simp only [List.span_eq_takeWhile_dropWhile]
  induction s with
  | nil =>
    rcases h.cases with rfl | ⟨t, rfl⟩
    · rfl
    · simp [hp]
  | cons b s ih =>
    simp only [List.cons_append, List.takeWhile_cons, List.dropWhile_cons]
    split
    · obtain ⟨ht, hd⟩ := Prod.mk.inj ih
      rw [ht, hd]
    · rfl

theorem readName_append {b : UInt8} (hb : isNameStart b = true) (s : List UInt8) (line : Nat) :
    (readName (b :: s) line).1.kind ≠ .eof ∧ (readName (b :: s) line).2.bytes.length ≤ s.length ∧
      ∀ {ext}, Follows ext → ∀ line',
        SameToken (readName (b :: s) line).1 ((readName (b :: s) line).2.bytes ++ ext)
          (.ok (readName (b :: s ++ ext) line')) := by
  have hlen : ((b :: s).span isNameByte).2.length ≤ s.length := by
    have hname : isNameByte b = true := by rw [isNameByte, hb, Bool.true_or]
    rw [List.span_eq_takeWhile_dropWhile]
    simp only [List.dropWhile_cons, hname, if_true]
    exact (List.dropWhile_suffix isNameByte).length_le
  have happend := fun {ext} (hf : Follows ext) => span_append hf (p := isNameByte) rfl (b :: s)
  simp only [readName]
  rcases hs : (b :: s).span isNameByte with ⟨name, rest⟩
  rw [hs] at hlen
  simp only [hs] at happend
  cases hm : Mark.ofWord? name.toByteArray with
  | some m =>
    refine ⟨nofun, hlen, fun hf line' => ⟨line', ?_⟩⟩
    simp only [happend hf, hm]
  | none =>
    refine ⟨nofun, hlen, fun hf line' => ⟨line', ?_⟩⟩
    simp only [happend hf, hm]

/-- **Visible tokens** end in front of a line break. -/
theorem readVisible_append {size : Nat} {b : UInt8} {rest : List UInt8} {line : Nat} {t : Token}
    {r : Rest} (hb : isLineBreak b = false) (h : readVisible size b rest line = .ok (t, r))
    (hsize : rest.length ≤ size) :
    t.kind ≠ .eof ∧ r.bytes.length ≤ rest.length ∧ ∀ {ext}, Follows ext → ∀ size' line',
      (rest ++ ext).length < size' →
      SameToken t (r.bytes ++ ext) (readVisible size' b (rest ++ ext) line') := by
  have hb' : b ≠ 0x0A := by rintro rfl; cases hb
  simp only [readVisible] at h ⊢
  by_cases hbracket : b = byte '['
  · rw [if_pos hbracket] at h
    simp only [if_pos hbracket]
    exact readBracket_append hb' h
  by_cases hquote : b = byte '"' ∨ b = byte '\''
  · rw [if_neg hbracket, if_pos hquote] at h
    simp only [if_neg hbracket, if_pos hquote]
    exact readQuoted_append h hsize
  rw [if_neg hbracket, if_neg hquote] at h
  simp only [if_neg hbracket, if_neg hquote]
  have happend := fun {ext} (hf : Follows ext) => operator?_append hf (b :: rest)
  simp only [List.cons_append] at happend
  cases hop : operator? (b :: rest) with
  | some found =>
    obtain ⟨m, more⟩ := found
    rw [hop] at h
    obtain ⟨rfl, rfl⟩ := Prod.mk.inj (Except.ok.inj h)
    refine ⟨nofun, Nat.le_of_lt_succ (length_operator? hop), fun hf size' line' _ => ⟨line', ?_⟩⟩
    simp only [happend hf, hop, Option.map_some]
    rfl
  | none =>
    rw [hop] at h
    simp only [hop, Option.map_none] at happend
    have hnext : ∀ {ext : List UInt8}, Follows ext →
        (rest ++ ext).head?.any isDigitByte = rest.head?.any isDigitByte := by
      intro ext hf
      cases rest with
      | nil =>
        rcases hf.cases with rfl | ⟨t, rfl⟩ <;> rfl
      | cons c rest => rfl
    by_cases hdigit : isDigitByte b = true
    · simp only [if_pos hdigit] at h ⊢
      obtain ⟨hk, hle, hext⟩ := readNumeral_append h
      refine ⟨hk, hle, fun {ext} hf size' line' _ => ?_⟩
      rw [happend hf]
      exact hext hf line'
    by_cases hpoint : b = byte '.' ∧ rest.head?.any isDigitByte = true
    · simp only [if_neg hdigit, if_pos hpoint] at h ⊢
      cases rest with
      | nil => cases hpoint.2
      | cons d rest =>
        obtain ⟨hk, hle, hext⟩ := readNumeral_append h
        refine ⟨hk, Nat.le_succ_of_le hle, fun {ext} hf size' line' _ => ?_⟩
        rw [happend hf]
        simp only [hnext hf, if_pos hpoint]
        exact hext hf line'
    by_cases hname : isNameStart b = true
    · simp only [if_neg hdigit, if_neg hpoint, if_pos hname] at h ⊢
      obtain ⟨hk, hle, hext⟩ := readName_append hname rest line
      obtain ⟨rfl, rfl⟩ := Prod.mk.inj (Except.ok.inj h)
      refine ⟨hk, hle, fun {ext} hf size' line' _ => ?_⟩
      rw [happend hf]
      simp only [hnext hf, if_neg hpoint]
      exact hext hf line'
    · simp only [if_neg hdigit, if_neg hpoint, if_neg hname] at h ⊢
      obtain ⟨hk, hr, hc⟩ := charAt_eq h
      refine ⟨hk, Nat.le_of_eq (congrArg _ hr), fun {ext} hf size' line' _ => ?_⟩
      rw [happend hf, hr]
      simp only [hnext hf, if_neg hpoint]
      exact hc _ _

/-! ## Comments -/

theorem longOpening?_append (h : Follows ext) (s : List UInt8) :
    longOpening? (s ++ ext) = (longOpening? s).map fun found => (found.1, found.2 ++ ext) := by
  cases s with
  | nil =>
    rcases h.cases with rfl | ⟨t, rfl⟩ <;> rfl
  | cons b s =>
    simp only [longOpening?, List.cons_append]
    split
    case isFalse => rfl
    case isTrue =>
      rw [readLevel_append h (by decide)]
      rcases hlevel : readLevel (byte '[') [] 0 s with ⟨found, n, buffer, more⟩
      cases found with
      | none => rfl
      | some level =>
        obtain ⟨more, rfl⟩ := readLevel_some hlevel
        rfl

theorem length_longOpening? {s r : List UInt8} {level : Nat}
    (h : longOpening? s = some (level, r)) : r.length ≤ s.length := by
  cases s with
  | nil => cases h
  | cons b s =>
    have hle := length_readLevel (byte '[') [] 0 s
    simp only [longOpening?] at h
    split at h
    case isFalse => cases h
    case isTrue =>
      split at h
      case h_2 => cases h
      case h_1 hlevel =>
        obtain ⟨rfl, rfl⟩ := Prod.mk.inj (Option.some.inj h)
        rw [hlevel] at hle
        rw [List.length_drop, List.length_cons]
        simp only at hle
        omega

/-- **Comments** end in front of a line break or at their own bracket. -/
theorem skipComment_append {size : Nat} {s : List UInt8} {line : Nat} {r : Rest}
    (h : skipComment size ⟨s, line⟩ = .ok r) :
    r.bytes.length ≤ s.length ∧ ∀ {ext}, Follows ext → ∀ size' line', (s ++ ext).length < size' →
      ∃ line'', skipComment size' ⟨s ++ ext, line'⟩ = .ok ⟨r.bytes ++ ext, line''⟩ := by
  simp only [skipComment] at h ⊢
  have happend := fun {ext} (hf : Follows ext) => longOpening?_append hf s
  cases ho : longOpening? s with
  | none =>
    rw [ho] at h
    simp only [ho, Option.map_none] at happend
    obtain rfl := Except.ok.inj h
    refine ⟨(List.dropWhile_suffix _).length_le, fun {ext} hf size' line' _ => ⟨line', ?_⟩⟩
    rw [happend hf]
    have hspan := span_append hf (p := (!isLineBreak ·)) rfl s
    simp only [List.span_eq_takeWhile_dropWhile] at hspan
    rw [(Prod.mk.inj hspan).2]
  | some found =>
    obtain ⟨level, rest⟩ := found
    rw [ho] at h
    simp only [ho, Option.map_some] at happend
    have hlen := length_longOpening? ho
    simp only at h
    split at h
    case h_1 => cases h
    case h_2 contents spelling r' hbody =>
      obtain rfl := Except.ok.inj h
      obtain ⟨hle, hext⟩ := readLongBody_append hbody
      refine ⟨Nat.le_trans hle hlen, fun {ext} hf size' line' hsize => ?_⟩
      obtain ⟨line'', he⟩ := hext hf size' line' (by rw [List.length_append] at hsize ⊢; omega)
      exact ⟨line'', by rw [happend hf]; simp only [he]⟩

end

end ScriptWorker.Script.Lexer

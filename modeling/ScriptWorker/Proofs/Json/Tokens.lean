import Mathlib.Data.List.TakeWhile
import ScriptWorker.Proofs.Json.Reading
import ScriptWorker.Proofs.Results

/-!
# What is read is a token

Where a number or a string is read or skipped, the text that is taken is a numeral's
(`Numeral.exists_of_read`, `Numeral.exists_of_skip`) or one of glyphs up to the closing quote
(`Glyph.exists_of_readStringFrom`, `Glyph.exists_of_skipStringFrom`). The string that is read is the
one that its glyphs stand for. The number that is read is the numeral's own if what follows ends it
(`Numeral.exists_value_of_read`).
-/

set_option autoImplicit false

namespace ScriptWorker.Json

/-! ## Parts of texts -/

theorem exists_gap (s : List Char) : ∃ g : Gap, s = g.1 ++ skipGap s :=
  ⟨⟨s.takeWhile isGap, fun _ hc => List.mem_takeWhile_imp hc⟩, List.takeWhile_append_dropWhile.symm⟩

theorem exists_gap_of_skipGap {s t : List Char} (h : skipGap s = t) : ∃ g : Gap, s = g.1 ++ t :=
  h ▸ exists_gap s

theorem of_readWord {word s rest : List Char} (h : readWord word s = .ok rest) :
    s = word ++ rest := by
  induction word generalizing s with
  | nil =>
    cases h
    rfl
  | cons w word ih =>
    cases s with
    | nil => cases h
    | cons c s =>
      rw [readWord] at h
      split at h
      next hc => rw [hc, ih h, List.cons_append]
      next => cases h

/-! ## Digits -/

/-- The digits in front of a text. -/
theorem exists_digits_dropWhile (s : List Char) :
    ∃ ds, (∀ c ∈ ds, c.isDigit = true) ∧ s = ds ++ s.dropWhile Char.isDigit :=
  ⟨s.takeWhile Char.isDigit, fun _ hc => List.mem_takeWhile_imp hc,
    List.takeWhile_append_dropWhile.symm⟩

/-- Gathering takes digits. -/
theorem of_gather {limit n count m k : Nat} {s rest : List Char}
    (h : gather limit n count s = (m, k, rest)) :
    ∃ ds, (∀ c ∈ ds, c.isDigit = true) ∧ s = ds ++ rest ∧ k = count + ds.length := by
  induction s generalizing n count with
  | nil =>
    cases h
    exact ⟨[], nofun, rfl, rfl⟩
  | cons c s ih =>
    rw [gather] at h
    split at h
    next hc =>
      obtain ⟨ds, hds, hs, hk⟩ := ih h
      refine ⟨c :: ds, List.forall_mem_cons.2 ⟨hc.1, hds⟩, by rw [hs, List.cons_append], ?_⟩
      rw [hk, List.length_cons]
      omega
    next =>
      cases h
      exact ⟨[], nofun, rfl, rfl⟩

/-- The digit zero. -/
def Digits.zero : Digits := ⟨['0'], List.cons_ne_nil '0' [], List.all_eq_true.1 rfl⟩

/-- A digit with more of them. -/
def Digits.cons {c : Char} (hc : c.isDigit = true) {ds : List Char}
    (hds : ∀ d ∈ ds, d.isDigit = true) : Digits :=
  ⟨c :: ds, List.cons_ne_nil c ds, List.forall_mem_cons.2 ⟨hc, hds⟩⟩

/-- Digits behind a digit, and those in front of the rest. -/
theorem exists_digits_cons {c : Char} (hc : c.isDigit = true) (s : List Char) :
    ∃ ds : Digits, c :: s = ds.1 ++ s.dropWhile Char.isDigit ∧ ds.1.head? = some c := by
  obtain ⟨ds, hds, hs⟩ := exists_digits_dropWhile s
  exact ⟨.cons hc hds, congrArg (c :: ·) hs, rfl⟩

/-! ## Numerals -/

namespace Numeral

/-- The sign of an exponent in front of it. -/
theorem exists_signText (s : List Char) :
    ∃ sign, s = Exponent.signText sign ++ (exponentSign s).2 := by
  unfold exponentSign
  split
  · exact ⟨some false, rfl⟩
  · exact ⟨some true, rfl⟩
  · exact ⟨none, rfl⟩

theorem of_skipPower {s rest : List Char} (h : skipPower s = .ok rest) :
    ∃ sign, ∃ ds : Digits, s = Exponent.signText sign ++ (ds.1 ++ rest) := by
  obtain ⟨sign, hs⟩ := exists_signText s
  unfold skipPower at h
  split at h
  next c t ht =>
    split at h
    next hc =>
      obtain ⟨ds, hds, -⟩ := exists_digits_cons hc t
      cases h
      exact ⟨sign, ds, by rw [← hds, ← ht, ← hs]⟩
    next => cases h
  next => cases h

theorem of_skipExponent {s rest : List Char} (h : skipExponent s = .ok rest) :
    ∃ e, s = exponentText e ++ rest := by
  unfold skipExponent at h
  split at h
  next t =>
    obtain ⟨sign, ds, rfl⟩ := of_skipPower h
    exact ⟨some ⟨false, sign, ds⟩, by simp [exponentText, Exponent.text]⟩
  next t =>
    obtain ⟨sign, ds, rfl⟩ := of_skipPower h
    exact ⟨some ⟨true, sign, ds⟩, by simp [exponentText, Exponent.text]⟩
  next =>
    cases h
    exact ⟨none, rfl⟩

theorem of_skipFraction {s rest : List Char} (h : skipFraction s = .ok rest) :
    ∃ f, s = fractionText f ++ rest := by
  unfold skipFraction at h
  split at h
  next t =>
    split at h
    next hd =>
      cases t with
      | nil => cases hd
      | cons c t =>
        obtain ⟨ds, hds, -⟩ := exists_digits_cons hd t
        rw [List.dropWhile_cons_of_pos (p := Char.isDigit) hd] at h
        cases h
        exact ⟨some ds, by simp [fractionText, ← hds]⟩
    next => cases h
  next =>
    cases h
    exact ⟨none, rfl⟩

theorem of_skipWhole {s rest : List Char} (h : skipWhole s = .ok rest) :
    ∃ ds : Digits, s = ds.1 ++ rest ∧ (ds.1.head? = some '0' → ds.1 = ['0']) := by
  unfold skipWhole at h
  split at h
  next t =>
    split at h
    next => cases h
    next =>
      cases h
      exact ⟨.zero, rfl, fun _ => rfl⟩
  next c t hne =>
    split at h
    next hc =>
      obtain ⟨ds, hds, hhead⟩ := exists_digits_cons hc t
      cases h
      refine ⟨ds, hds, fun h0 => ?_⟩
      rw [hhead] at h0
      exact absurd (congrArg (· :: t) (Option.some.inj h0)) (by simpa using hne)
    next => cases h
  next => cases h

/-- What is skipped as a number is a numeral. -/
theorem exists_of_skip {s rest : List Char} (h : skipNumber s = .ok rest) (negative : Bool) :
    ∃ n : Numeral, n.negative = negative ∧ s = n.magnitude ++ rest := by
  obtain ⟨s₁, h1, h⟩ := bind_eq_ok h
  obtain ⟨s₂, h2, h3⟩ := bind_eq_ok h
  obtain ⟨whole, rfl, hzero⟩ := of_skipWhole h1
  obtain ⟨f, rfl⟩ := of_skipFraction h2
  obtain ⟨e, rfl⟩ := of_skipExponent h3
  exact ⟨⟨negative, whole, f, e, hzero⟩, rfl, by simp [magnitude]⟩

theorem of_makeFloat {negative : Bool} {significand : Nat} {e : Int} {s rest : List Char}
    {v : Value} (h : makeFloat negative significand e s = .ok (v, rest)) : s = rest := by
  unfold makeFloat at h
  split at h
  next => cases h
  next => exact (Prod.mk.inj (Except.ok.inj h)).2

theorem of_readPower {negative positive : Bool} {significand : Nat} {start : Int}
    {s rest : List Char} {v : Value}
    (h : readPower negative significand start positive s = .ok (v, rest)) :
    ∃ ds : Digits, s = ds.1 ++ rest := by
  unfold readPower at h
  split at h
  next => cases h
  next c t =>
    split at h
    next hc =>
      rcases hg : gather greatestExponent (digitValue c) 0 t with ⟨e, k, left⟩
      obtain ⟨ds, hds, rfl, -⟩ := of_gather hg
      simp only [hg] at h
      split at h
      next =>
        split at h
        next => cases h
        next =>
          obtain ⟨more, hmore, hleft⟩ := exists_digits_dropWhile left
          obtain rfl := (Prod.mk.inj (Except.ok.inj h)).2
          refine ⟨.cons hc (List.forall_mem_append.2 ⟨hds, hmore⟩), ?_⟩
          rw [Digits.cons, List.cons_append, List.append_assoc, ← hleft]
      next =>
        obtain rfl := of_makeFloat h
        exact ⟨.cons hc hds, rfl⟩
    next => cases h

theorem of_readExponent {negative : Bool} {significand : Nat} {start : Int} {s rest : List Char}
    {v : Value} (h : readExponent negative significand start s = .ok (v, rest)) :
    ∃ sign, ∃ ds : Digits, s = Exponent.signText sign ++ (ds.1 ++ rest) := by
  obtain ⟨sign, hs⟩ := exists_signText s
  obtain ⟨ds, hds⟩ : ∃ ds : Digits, (exponentSign s).2 = ds.1 ++ rest := of_readPower h
  exact ⟨sign, ds, by rw [← hds, ← hs]⟩

theorem of_readFloatEnd {negative : Bool} {significand : Nat} {start : Int} {s rest : List Char}
    {v : Value} (h : readFloatEnd negative significand start s = .ok (v, rest)) :
    ∃ e, s = exponentText e ++ rest := by
  unfold readFloatEnd at h
  split at h
  next t =>
    obtain ⟨sign, ds, rfl⟩ := of_readExponent h
    exact ⟨some ⟨false, sign, ds⟩, by simp [exponentText, Exponent.text]⟩
  next t =>
    obtain ⟨sign, ds, rfl⟩ := of_readExponent h
    exact ⟨some ⟨true, sign, ds⟩, by simp [exponentText, Exponent.text]⟩
  next => exact ⟨none, of_makeFloat h⟩

theorem of_readFraction {negative : Bool} {significand : Nat} {start : Int} {s rest : List Char}
    {v : Value} (h : readFraction negative significand start s = .ok (v, rest)) :
    ∃ ds : Digits, ∃ e, s = ds.1 ++ (exponentText e ++ rest) := by
  unfold readFraction at h
  rcases hg : gather greatestSignificand significand 0 s with ⟨n, k, left⟩
  obtain ⟨ds, hds, rfl, hk⟩ := of_gather hg
  simp only [hg] at h
  split at h
  next hnext =>
    obtain ⟨e, he⟩ := of_readFloatEnd h
    cases left with
    | nil => cases hnext
    | cons c left =>
      obtain ⟨more, hmore, -⟩ := exists_digits_cons hnext left
      rw [List.dropWhile_cons_of_pos (p := Char.isDigit) hnext] at he
      refine ⟨⟨ds ++ more.1, ?_, ?_⟩, e, ?_⟩
      · exact List.append_ne_nil_of_right_ne_nil ds more.2.1
      · exact List.forall_mem_append.2 ⟨hds, more.2.2⟩
      · rw [hmore, he, List.append_assoc]
  next =>
    split at h
    next => split at h <;> cases h
    next hpos =>
      obtain ⟨e, rfl⟩ := of_readFloatEnd h
      refine ⟨⟨ds, ?_, hds⟩, e, rfl⟩
      rintro rfl
      exact hpos hk

theorem of_readIntEnd {negative : Bool} {n : Nat} {s rest : List Char} {v : Value}
    (h : readIntEnd negative n s = .ok (v, rest)) :
    ∃ f e, s = fractionText f ++ (exponentText e ++ rest) := by
  unfold readIntEnd at h
  split at h
  next t =>
    obtain ⟨ds, e, rfl⟩ := of_readFraction h
    exact ⟨some ds, e, rfl⟩
  next t =>
    obtain ⟨sign, ds, rfl⟩ := of_readExponent h
    exact ⟨none, some ⟨false, sign, ds⟩, by simp [fractionText, exponentText, Exponent.text]⟩
  next t =>
    obtain ⟨sign, ds, rfl⟩ := of_readExponent h
    exact ⟨none, some ⟨true, sign, ds⟩, by simp [fractionText, exponentText, Exponent.text]⟩
  next => exact ⟨none, none, (Prod.mk.inj (Except.ok.inj h)).2⟩

theorem of_readLargeEnd {negative : Bool} {n : Nat} {skipped : Int} {s rest : List Char}
    {v : Value} (h : readLargeEnd negative n skipped s = .ok (v, rest)) :
    ∃ f e, s = fractionText f ++ (exponentText e ++ rest) := by
  unfold readLargeEnd at h
  split at h
  next t =>
    obtain ⟨ds, e, rfl⟩ := of_readFraction h
    exact ⟨some ds, e, rfl⟩
  next =>
    obtain ⟨e, rfl⟩ := of_readFloatEnd h
    exact ⟨none, e, rfl⟩

/-- What is read as a number is a numeral. -/
theorem exists_of_read {negative : Bool} {s rest : List Char} {v : Value}
    (h : readNumber negative s = .ok (v, rest)) :
    ∃ n : Numeral, n.negative = negative ∧ s = n.magnitude ++ rest := by
  unfold readNumber at h
  split at h
  next => cases h
  next t =>
    split at h
    next => cases h
    next =>
      obtain ⟨f, e, rfl⟩ := of_readIntEnd h
      exact ⟨⟨negative, .zero, f, e, fun _ => rfl⟩, rfl, by simp [magnitude, Digits.zero]⟩
  next c t hne =>
    split at h
    next hc =>
      -- a numeral that starts with this digit starts with no zero
      have numeral : ∀ {ds tail : List Char}, (∀ d ∈ ds, d.isDigit = true) →
          (∃ f e, tail = fractionText f ++ (exponentText e ++ rest)) →
          ∃ n : Numeral, n.negative = negative ∧ c :: (ds ++ tail) = n.magnitude ++ rest := by
        rintro ds _ hds ⟨f, e, rfl⟩
        exact ⟨⟨negative, .cons hc hds, f, e, fun h0 => absurd (Option.some.inj h0) hne⟩, rfl,
          by simp [magnitude, Digits.cons]⟩
      rcases hg : gather greatestSignificand (digitValue c) 0 t with ⟨n, k, left⟩
      obtain ⟨ds, hds, rfl, -⟩ := of_gather hg
      simp only [hg] at h
      split at h
      next =>
        obtain ⟨more, hmore, hleft⟩ := exists_digits_dropWhile left
        have hn := numeral (List.forall_mem_append.2 ⟨hds, hmore⟩) (of_readLargeEnd h)
        rwa [List.append_assoc, ← hleft] at hn
      next => exact numeral hds (of_readIntEnd h)
    next => cases h

/-- What is read as a number is a numeral for it, in front of anything that ends it. -/
theorem exists_value_of_read {negative : Bool} {s rest : List Char} {v : Value}
    (h : readNumber negative s = .ok (v, rest)) :
    ∃ n : Numeral, n.negative = negative ∧ s = n.magnitude ++ rest ∧
      (EndsNumber rest → n.value? = some v) := by
  obtain ⟨n, rfl, rfl⟩ := exists_of_read h
  refine ⟨n, rfl, rfl, fun hr => ?_⟩
  obtain ⟨v?, hv⟩ := n.settled_readNumber
  have hgives := hv hr
  have hown := hv .nil
  cases v? with
  | none =>
    obtain ⟨stop, hstop⟩ := hgives
    rw [h] at hstop
    cases hstop
  | some w =>
    obtain rfl : v = w := (Prod.mk.inj (Except.ok.inj (h.symm.trans hgives))).1
    rw [List.append_nil] at hown
    rw [value?, show readNumber n.negative n.magnitude = .ok (v, []) from hown]

end Numeral

/-! ## Strings -/

namespace Glyph

theorem of_readHex4 {s rest : List Char} {n : Nat} (h : readHex4 s = .ok (n, rest)) :
    ∃ w x y z : HexDigit, s = w.1 :: x.1 :: y.1 :: z.1 :: rest ∧ n = unit w x y z := by
  have refused : ∀ {α : Type} {c : Prop} [Decidable c] {stop stop' : Stop} {a : α},
      (if c then .error stop else .error stop' : Reading α) ≠ .ok a := by
    intro α c _ stop stop' a
    split <;> exact nofun
  unfold readHex4 at h
  simp only at h
  split at h
  next a b c d t =>
    split at h
    next i j k l hi hj hk hl =>
      obtain ⟨hn, rfl⟩ := Prod.mk.inj (Except.ok.inj h)
      have digit : ∀ {c i}, Text.Hex.value? c = some i → (Text.Hex.value? c).isSome = true :=
        fun hc => by rw [hc]; rfl
      refine ⟨⟨a, digit hi⟩, ⟨b, digit hj⟩, ⟨c, digit hk⟩, ⟨d, digit hl⟩, rfl, ?_⟩
      simp only [← hn, unit, hi, hj, hk, hl, Option.get_some]
    next => exact absurd h refused
  next => exact absurd h refused

theorem of_readUnicode {s rest : List Char} {c : Char} (h : readUnicode s = .ok (c, rest)) :
    (∃ w x y z : HexDigit, s = w.1 :: x.1 :: y.1 :: z.1 :: rest ∧ ¬IsTrailing (unit w x y z) ∧
      ¬IsLeading (unit w x y z) ∧ c = Char.ofNat (unit w x y z)) ∨
    ∃ w x y z w' x' y' z' : HexDigit,
      s = w.1 :: x.1 :: y.1 :: z.1 :: '\\' :: 'u' :: w'.1 :: x'.1 :: y'.1 :: z'.1 :: rest ∧
      IsLeading (unit w x y z) ∧ IsTrailing (unit w' x' y' z') ∧
      c = joined (unit w x y z) (unit w' x' y' z') := by
  unfold readUnicode at h
  obtain ⟨⟨n, t⟩, hn, h⟩ := bind_eq_ok h
  obtain ⟨w, x, y, z, rfl, rfl⟩ := of_readHex4 hn
  simp only at h
  split at h
  next => cases h
  next ht =>
    split at h
    next hl =>
      obtain ⟨rfl, rfl⟩ := Prod.mk.inj (Except.ok.inj h)
      refine .inl ⟨w, x, y, z, rfl, ht, fun hlead => ?_, rfl⟩
      unfold IsLeading at hlead
      omega
    next hl =>
      split at h
      next => cases h
      next t =>
        split at h
        next => cases h
        next t =>
          obtain ⟨⟨m, t'⟩, hm, h⟩ := bind_eq_ok h
          obtain ⟨w', x', y', z', rfl, rfl⟩ := of_readHex4 hm
          simp only at h
          split at h
          next => cases h
          next htrail =>
            obtain ⟨rfl, rfl⟩ := Prod.mk.inj (Except.ok.inj h)
            refine .inr ⟨w, x, y, z, w', x', y', z', rfl, ?_, ?_, rfl⟩
            · unfold IsLeading
              omega
            · unfold IsTrailing
              omega
        next => cases h
      next => cases h

/-- A code unit that is no part of a pair stands for its own character. -/
theorem decode_single {w x y z : HexDigit} (htrail : ¬IsTrailing (unit w x y z))
    (hlead : ¬IsLeading (unit w x y z)) (gs : List Glyph) :
    decode (code w x y z :: gs) = (decode gs).map (Char.ofNat (unit w x y z) :: ·) := by
  rw [decode.eq_def]
  simp only [if_neg htrail, if_neg hlead]

/-- What is read as a string is written in glyphs that stand for it. -/
theorem exists_of_readStringFrom {fuel : Nat} {out s rest : List Char} {str : String}
    (h : readStringFrom fuel out s = .ok (str, rest)) :
    ∃ gs cs, decode gs = some cs ∧ s = gs.flatMap text ++ '"' :: rest ∧
      str = String.ofList (out.reverse ++ cs) := by
  -- glyphs of one character in front of those that are read behind it
  have step : ∀ (front : List Glyph) {gs : List Glyph} {c : Char} {cs out t : List Char},
      decode gs = some cs → (∀ gs, decode (front ++ gs) = (decode gs).map (c :: ·)) →
      t = gs.flatMap text ++ '"' :: rest →
      ∃ gs' cs', decode gs' = some cs' ∧
        front.flatMap text ++ t = gs'.flatMap text ++ '"' :: rest ∧
        String.ofList ((c :: out).reverse ++ cs) = String.ofList (out.reverse ++ cs') := by
    rintro front gs c cs out _ hcs hfront rfl
    refine ⟨front ++ gs, c :: cs, by rw [hfront, hcs]; rfl, ?_, ?_⟩
    · rw [List.flatMap_append, List.append_assoc]
    · rw [List.reverse_cons, List.append_assoc, List.singleton_append]
  induction fuel generalizing out s with
  | zero => cases h
  | succ fuel ih =>
    cases s with
    | nil => cases h
    | cons c s =>
      unfold readStringFrom at h
      split at h
      next =>
        obtain ⟨rfl, rfl⟩ := Prod.mk.inj (Except.ok.inj h)
        exact ⟨[], [], rfl, rfl, by rw [List.append_nil]⟩
      next =>
        split at h
        next => cases h
        next t =>
          split at h
          next => cases h
          next c t hc =>
            obtain ⟨gs, cs, hcs, ht, rfl⟩ := ih h
            rcases of_readUnicode hc with ⟨w, x, y, z, rfl, htrail, hlead, rfl⟩ |
              ⟨w, x, y, z, w', x', y', z', rfl, hlead, htrail, hc⟩
            · exact step [code w x y z] hcs (decode_single htrail hlead) ht
            · refine step [code w x y z, code w' x' y' z'] hcs (fun gs => ?_) ht
              have hpair : ¬IsTrailing (unit w x y z) := fun hboth => by
                unfold IsLeading at hlead
                unfold IsTrailing at hboth
                omega
              rw [List.cons_append, List.singleton_append, decode, if_neg hpair, if_pos hlead, hc]
              exact if_pos htrail
        next e t _ =>
          split at h
          next c hc =>
            obtain ⟨gs, cs, hcs, ht, rfl⟩ := ih h
            refine step [short e (by rw [hc]; rfl)] hcs (fun gs => ?_) ht
            simp only [List.singleton_append, decode, hc, Option.get_some]
          next => cases h
      next hquote hslash =>
        split at h
        next => cases h
        next hctl =>
          obtain ⟨gs, cs, hcs, ht, rfl⟩ := ih h
          exact step [plain c ⟨hquote, hslash, Nat.le_of_not_lt hctl⟩] hcs
            (fun gs => rfl) ht

/-- What is skipped as a string is written in glyphs. -/
theorem exists_of_skipStringFrom {fuel : Nat} {s rest : List Char}
    (h : skipStringFrom fuel s = .ok rest) :
    ∃ gs : List Glyph, s = gs.flatMap text ++ '"' :: rest := by
  -- a glyph in front of those that are skipped behind it
  have step : ∀ (g : Glyph) {t : List Char},
      (∃ gs : List Glyph, t = gs.flatMap text ++ '"' :: rest) →
      ∃ gs : List Glyph, g.text ++ t = gs.flatMap text ++ '"' :: rest := by
    rintro g _ ⟨gs, rfl⟩
    exact ⟨g :: gs, by rw [List.flatMap_cons, List.append_assoc]⟩
  induction fuel generalizing s with
  | zero => cases h
  | succ fuel ih =>
    cases s with
    | nil => cases h
    | cons c s =>
      unfold skipStringFrom at h
      split at h
      next =>
        obtain rfl := Except.ok.inj h
        exact ⟨[], rfl⟩
      next =>
        split at h
        next => cases h
        next t =>
          split at h
          next => cases h
          next n t hn =>
            obtain ⟨w, x, y, z, rfl, -⟩ := of_readHex4 hn
            exact step (code w x y z) (ih h)
        next e t _ =>
          split at h
          next hshort => exact step (short e hshort) (ih h)
          next => cases h
      next hquote hslash =>
        split at h
        next => cases h
        next hctl =>
          exact step (plain c ⟨hquote, hslash, Nat.le_of_not_lt hctl⟩) (ih h)

end Glyph

end ScriptWorker.Json

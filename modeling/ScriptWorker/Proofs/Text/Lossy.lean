import ScriptWorker.Proofs.Text.Utf8

/-!
# Replacing what is no text

`Decodes` says which text any bytes stand for, without an automaton: a character where one stands,
and elsewhere one U+FFFD for the longest piece that a character could start with, or for a single
byte if none could. Bytes stand for one text only, and the reader of bytes gives that one
(`decodes_iff`). The pieces say more (`Cuts`): without a broken one the bytes are those of a text
(`decode?_eq_some_iff`). What carries the proof is what the middle of a character stands for (`Amid`): with
each byte in its bounds the bytes read go on to those of a character, with any other to none.
-/

set_option autoImplicit false

namespace ScriptWorker.Text.Utf8

/-! ## The text of any bytes -/

/-- The bytes are the first ones of some character, or all of them. -/
def Starts (bytes : List UInt8) : Prop := ∃ c, bytes <+: encodeChar c

/-- A piece in front of other bytes where no character stands: as many bytes as could start one, or
a single byte. -/
structure Broken (piece rest : List UInt8) : Prop where
  noChar : ∀ c, ¬encodeChar c <+: piece ++ rest
  starts : piece ≠ [] ∧ Starts piece ∨ ∃ b, piece = [b]
  longest : ∀ more, more ≠ [] → more <+: rest → ¬Starts (piece ++ more)

/-- What stands for a broken piece. -/
def replacement : Char := '\uFFFD'

/-- The bytes stand for the text. -/
inductive Decodes : List UInt8 → List Char → Prop
  | nil : Decodes [] []
  | char (c : Char) {bytes : List UInt8} {s : List Char} (h : Decodes bytes s) :
    Decodes (encodeChar c ++ bytes) (c :: s)
  | broken {piece bytes : List UInt8} {s : List Char} (hp : Broken piece bytes)
    (h : Decodes bytes s) : Decodes (piece ++ bytes) (replacement :: s)

/-- The bytes fall into these pieces: characters, and nothing for each broken piece. -/
inductive Cuts : List UInt8 → List (Option Char) → Prop
  | nil : Cuts [] []
  | char (c : Char) {bytes : List UInt8} {out : List (Option Char)} (h : Cuts bytes out) :
    Cuts (encodeChar c ++ bytes) (some c :: out)
  | broken {piece bytes : List UInt8} {out : List (Option Char)} (hp : Broken piece bytes)
    (h : Cuts bytes out) : Cuts (piece ++ bytes) (none :: out)

theorem encodeChar_ne_nil (c : Char) : encodeChar c ≠ [] := by
  simp only [encodeChar]
  split_ifs <;> exact List.cons_ne_nil _ _

theorem Starts.of_prefix {bs bs' : List UInt8} (h : Starts bs') (hp : bs <+: bs') : Starts bs :=
  h.imp fun _ hc => hp.trans hc

theorem Broken.ne_nil {piece rest : List UInt8} (h : Broken piece rest) : piece ≠ [] := by
  rcases h.starts with ⟨hne, -⟩ | ⟨b, rfl⟩
  · exact hne
  · exact List.cons_ne_nil b []

/-- A byte that starts nothing is a piece of its own. -/
theorem Broken.single {b : UInt8} (h : ¬Starts [b]) (rest : List UInt8) : Broken [b] rest := by
  refine ⟨fun c hc => h ⟨c, ?_⟩, .inr ⟨b, rfl⟩, fun more _ _ hm => h ?_⟩
  · exact List.prefix_of_prefix_length_le (List.prefix_append [b] rest) hc
      (List.length_pos_iff.2 (encodeChar_ne_nil c))
  · exact hm.of_prefix (List.prefix_append [b] more)

/-- Bytes that start a character are a piece of their own if the next byte does not go on. -/
theorem Broken.of_next {piece rest : List UInt8} (hc : ∀ c, ¬encodeChar c <+: piece ++ rest)
    (hne : piece ≠ []) (hs : Starts piece) (hn : ∀ b ∈ rest.head?, ¬Starts (piece ++ [b])) :
    Broken piece rest := by
  refine ⟨hc, .inl ⟨hne, hs⟩, fun more hne hp hm => ?_⟩
  obtain ⟨b, more, rfl⟩ := List.exists_cons_of_ne_nil hne
  obtain ⟨t, rfl⟩ := hp
  refine hn b rfl (hm.of_prefix ?_)
  exact List.prefix_append_right_inj piece |>.2 ⟨more, rfl⟩

/-! ## Pieces and the automaton -/

/-- What has been read before stays. -/
theorem scan_out (out : List (Option Char)) (state : Option Partial) (bytes : List UInt8) :
    scan out state bytes = scan [] state bytes ++ out := by
  have hfresh : ∀ out b, fresh out b = ((fresh [] b).1 ++ out, (fresh [] b).2) := by
    intro out b
    unfold fresh
    cases lead b <;> rfl
  have hfeed : ∀ out b state,
      feed out b state = ((feed [] b state).1 ++ out, (feed [] b state).2) := by
    intro out b state
    cases state with
    | none => exact hfresh out b
    | some p =>
      simp only [feed]
      split
      · split <;> rfl
      · rw [hfresh, hfresh [none], List.append_assoc, List.singleton_append]
  induction bytes generalizing out state with
  | nil =>
    unfold scan
    split <;> rfl
  | cons b bytes ih =>
    simp only [scan]
    rw [hfeed, ih, ih (feed [] b state).1, List.append_assoc]

/-- The first piece read from bytes that a character stands in front of is that character. -/
theorem getLast?_scan_of_encodeChar {c : Char} {bytes : List UInt8} (h : encodeChar c <+: bytes) :
    (scan [] none bytes).getLast? = some (some c) := by
  obtain ⟨rest, rfl⟩ := h
  rw [scan_encodeChar, scan_out]
  simp

/-- Bytes that are read as an invalid piece, whatever comes behind them, start no character. -/
theorem not_starts {bytes : List UInt8}
    (h : ∀ rest, (scan [] none (bytes ++ rest)).getLast? = some none) : ¬Starts bytes := by
  rintro ⟨c, rest, hc⟩
  have hfront : encodeChar c <+: bytes ++ rest := hc ▸ List.prefix_rfl
  have hlast := getLast?_scan_of_encodeChar hfront
  rw [h rest] at hlast
  cases Option.some.inj hlast

/-- Only one character stands in front of bytes. -/
theorem encodeChar_prefix_unique {c c' : Char} {bytes : List UInt8} (h : encodeChar c <+: bytes)
    (h' : encodeChar c' <+: bytes) : c = c' := by
  have hlast := getLast?_scan_of_encodeChar h
  rw [getLast?_scan_of_encodeChar h'] at hlast
  exact (Option.some.inj (Option.some.inj hlast)).symm

/-! ## Code points -/

/-- The last bytes of a code point's character, as many as asked for. -/
def tails : Nat → Nat → List UInt8
  | 0, _ => []
  | k + 1, n => (0x80 + n / 0x40 ^ k % 0x40).toUInt8 :: tails k n

theorem toNat_ofNat_valid {n : Nat} (h : n.isValidChar) : (Char.ofNat n).toNat = n := by
  rw [Char.ofNat, dif_pos h]
  rfl

theorem encodeChar_one {n : Nat} (h : n < 0x80) : encodeChar (Char.ofNat n) = [n.toUInt8] := by
  have hn : (Char.ofNat n).toNat = n := toNat_ofNat_valid (Or.inl (by omega))
  simp only [encodeChar, hn, if_pos h]

theorem encodeChar_two {n : Nat} (hl : 0x80 ≤ n) (hh : n < 0x800) :
    encodeChar (Char.ofNat n) = (0xC0 + n / 0x40).toUInt8 :: tails 1 n := by
  have hn : (Char.ofNat n).toNat = n := toNat_ofNat_valid (Or.inl (by omega))
  simp only [encodeChar, hn, if_neg (Nat.not_lt.2 hl), if_pos hh, tails, pow_zero, Nat.div_one]

theorem encodeChar_three {n : Nat} (hl : 0x800 ≤ n) (hh : n < 0x10000)
    (hv : n < 0xD800 ∨ 0xDFFF < n) :
    encodeChar (Char.ofNat n) = (0xE0 + n / 0x1000).toUInt8 :: tails 2 n := by
  have hn : (Char.ofNat n).toNat = n := toNat_ofNat_valid (hv.imp id fun h => ⟨h, by omega⟩)
  have h1 : ¬n < 0x80 := by omega
  simp only [encodeChar, hn, if_neg h1, if_neg (Nat.not_lt.2 hl), if_pos hh, tails, pow_zero,
    pow_one, Nat.div_one]

theorem encodeChar_four {n : Nat} (hl : 0x10000 ≤ n) (hh : n < 0x110000) :
    encodeChar (Char.ofNat n) = (0xF0 + n / 0x40000).toUInt8 :: tails 3 n := by
  have hn : (Char.ofNat n).toNat = n := toNat_ofNat_valid (Or.inr ⟨by omega, hh⟩)
  have h1 : ¬n < 0x80 := by omega
  have h2 : ¬n < 0x800 := by omega
  simp only [encodeChar, hn, if_neg h1, if_neg h2, if_neg (Nat.not_lt.2 hl), tails, pow_zero,
    pow_one, Nat.div_one, Nat.reducePow]

theorem lead_char {b : UInt8} {c : Char} (h : lead b = .char c) : encodeChar c = [b] := by
  simp only [lead] at h
  split_ifs at h with h1
  cases h
  rw [encodeChar_one h1]
  simp

/-- The first bytes of the characters of two, three and four bytes. -/
theorem lead_opens {b : UInt8} {p : Partial} (h : lead b = .opens p) :
    (∃ n, 2 ≤ n ∧ n < 0x20 ∧ b = (0xC0 + n).toUInt8 ∧ p = ⟨n, 0x80, 0xBF, 0⟩) ∨
    (∃ n, n < 0x10 ∧ b = (0xE0 + n).toUInt8 ∧
      p = ⟨n, if n = 0 then 0xA0 else 0x80, if n = 0xD then 0x9F else 0xBF, 1⟩) ∨
    ∃ n, n ≤ 4 ∧ b = (0xF0 + n).toUInt8 ∧
      p = ⟨n, if n = 0 then 0x90 else 0x80, if n = 4 then 0x8F else 0xBF, 2⟩ := by
  have byte : ∀ {k : Nat}, k ≤ b.toNat → b = (k + (b.toNat - k)).toUInt8 := by
    intro k hk
    rw [Nat.add_sub_cancel' hk]
    exact UInt8.ofNat_toNat.symm
  have hrange : 0xC2 ≤ b.toNat ∧ b.toNat < 0xF5 := by
    simp only [lead] at h
    split_ifs at h <;> omega
  rcases Nat.lt_or_ge b.toNat 0xE0 with h1 | h1
  · refine .inl ⟨b.toNat - 0xC0, by omega, by omega, byte (by omega), ?_⟩
    rw [byte (k := 0xC0) (by omega), lead_two (by omega) (by omega)] at h
    exact (Lead.opens.inj h).symm
  rcases Nat.lt_or_ge b.toNat 0xF0 with h2 | h2
  · refine .inr (.inl ⟨b.toNat - 0xE0, by omega, byte h1, ?_⟩)
    rw [byte h1, lead_three (by omega)] at h
    exact (Lead.opens.inj h).symm
  · refine .inr (.inr ⟨b.toNat - 0xF0, by omega, byte h2, ?_⟩)
    rw [byte h2, lead_four (by omega)] at h
    exact (Lead.opens.inj h).symm

/-! ## The middle of a character -/

/-- The bytes have led into the middle of a character: each byte in the bounds goes on to one. -/
structure Amid (before : List UInt8) (p : Partial) : Prop where
  reads : ∀ out rest, scan out none (before ++ rest) = scan out (some p) rest
  bounds : 0x80 ≤ p.low.toNat ∧ p.low.toNat ≤ p.high.toNat ∧ p.high.toNat < 0xC0
  /-- What comes of a code point whose bits begin with those read. -/
  spells : ∀ n, n / 0x40 ^ (p.left + 1) = p.value → p.low.toNat ≤ 0x80 + n / 0x40 ^ p.left % 0x40 →
    0x80 + n / 0x40 ^ p.left % 0x40 ≤ p.high.toNat →
    encodeChar (Char.ofNat n) = before ++ tails (p.left + 1) n

theorem Amid.of_lead {b : UInt8} {p : Partial} (h : lead b = .opens p) : Amid [b] p := by
  refine ⟨fun out rest => scan_opens out h rest, ?_, fun n => ?_⟩
  · rcases lead_opens h with ⟨n, -, -, -, rfl⟩ | ⟨n, -, -, rfl⟩ | ⟨n, -, -, rfl⟩
    · simp
    all_goals
      simp only
      split_ifs <;> simp only [UInt8.reduceToNat] <;> omega
  · rcases lead_opens h with ⟨k, h1, h2, rfl, rfl⟩ | ⟨k, h1, rfl, rfl⟩ | ⟨k, h1, rfl, rfl⟩
    all_goals
      simp only [List.singleton_append, Nat.reduceAdd, pow_one, pow_zero, Nat.div_one,
        Nat.reducePow]
      rintro rfl hl hh
    · exact encodeChar_two (by omega) (by omega)
    · have hlow : 0x800 ≤ n := by
        split_ifs at hl with h0 <;> simp only [UInt8.reduceToNat] at hl <;> omega
      have hv : n < 0xD800 ∨ 0xDFFF < n := by
        split_ifs at hh with h0 <;> simp only [UInt8.reduceToNat] at hh <;> omega
      exact encodeChar_three hlow (by omega) hv
    · have hlow : 0x10000 ≤ n := by
        split_ifs at hl with h0 <;> simp only [UInt8.reduceToNat] at hl <;> omega
      have hhigh : n < 0x110000 := by
        split_ifs at hh with h0 <;> simp only [UInt8.reduceToNat] at hh <;> omega
      exact encodeChar_four hlow hhigh

/-- The last byte makes up a character with those before it. -/
theorem Amid.last {before : List UInt8} {p : Partial} (h : Amid before p) {b : UInt8}
    (hl : p.low ≤ b) (hh : b ≤ p.high) (hleft : p.left = 0) :
    encodeChar (Char.ofNat (p.value * 0x40 + (b.toNat - 0x80))) = before ++ [b] := by
  obtain ⟨hlow, -, hhigh⟩ := h.bounds
  rw [UInt8.le_iff_toNat_le] at hl hh
  have hdigit : 0x80 + (p.value * 0x40 + (b.toNat - 0x80)) % 0x40 = b.toNat := by omega
  have hspell := h.spells (p.value * 0x40 + (b.toNat - 0x80))
  simp only [hleft, Nat.zero_add, pow_one, pow_zero, Nat.div_one, tails, hdigit] at hspell
  rw [hspell (by omega) hl hh]
  simp

/-- A byte before the last one leads on into the character. -/
theorem Amid.next {before : List UInt8} {p : Partial} (h : Amid before p) {b : UInt8}
    (hl : p.low ≤ b) (hh : b ≤ p.high) {left : Nat} (hleft : p.left = left + 1) :
    Amid (before ++ [b]) ⟨p.value * 0x40 + (b.toNat - 0x80), 0x80, 0xBF, left⟩ := by
  obtain ⟨hlow, -, hhigh⟩ := h.bounds
  refine ⟨fun out rest => ?_, by simp, fun n hn _ _ => ?_⟩
  · rw [List.append_assoc, h.reads, List.singleton_append, scan]
    simp only [feed, if_pos (And.intro hl hh), hleft]
  · rw [UInt8.le_iff_toNat_le] at hl hh
    have hdigit : 0x80 + n / 0x40 ^ (left + 1) % 0x40 = b.toNat := by
      simp only at hn
      rw [hn]
      omega
    have hvalue : n / 0x40 ^ (left + 1 + 1) = p.value := by
      simp only at hn
      rw [pow_succ, ← Nat.div_div_eq_div_mul, hn]
      omega
    have hspell := h.spells n
    rw [hleft, hdigit] at hspell
    rw [hspell hvalue hl hh, tails, hdigit]
    simp

theorem Amid.starts {before : List UInt8} {p : Partial} (h : Amid before p) : Starts before := by
  obtain ⟨hlow, hmid, hhigh⟩ := h.bounds
  -- The least byte that may come next, and after it the least of all.
  have hn : (p.value * 0x40 + (p.low.toNat - 0x80)) * 0x40 ^ p.left / 0x40 ^ p.left =
      p.value * 0x40 + (p.low.toNat - 0x80) := Nat.mul_div_cancel _ (by positivity)
  refine ⟨Char.ofNat _, _, (h.spells ((p.value * 0x40 + (p.low.toNat - 0x80)) * 0x40 ^ p.left)
    ?_ ?_ ?_).symm⟩
  · rw [pow_succ, ← Nat.div_div_eq_div_mul, hn]
    omega
  · rw [hn]
    omega
  · rw [hn]
    omega

theorem Amid.ne_nil {before : List UInt8} {p : Partial} (h : Amid before p) : before ≠ [] := by
  rintro rfl
  cases h.reads [] []

/-! ## The reader -/

/-- From outside a character and from the middle of one, the bytes fall into the pieces read. -/
theorem cuts_scan (bytes : List UInt8) :
    Cuts bytes (scan [] none bytes).reverse ∧
    ∀ before p, Amid before p → Cuts (before ++ bytes) (scan [] (some p) bytes).reverse := by
  induction bytes with
  | nil =>
    refine ⟨.nil, fun before p h => .broken ?_ .nil⟩
    refine .of_next (fun c hc => ?_) h.ne_nil h.starts fun b hb => by cases hb
    have hlast := getLast?_scan_of_encodeChar hc
    rw [h.reads] at hlast
    cases Option.some.inj hlast
  | cons b bytes ih =>
    obtain ⟨hnone, hsome⟩ := ih
    have hfresh : Cuts (b :: bytes) (scan [] none (b :: bytes)).reverse := by
      cases hlead : lead b with
      | char c =>
        rw [scan_char [] hlead, scan_out, List.reverse_concat, ← List.singleton_append,
          ← lead_char hlead]
        exact .char c hnone
      | opens p =>
        rw [scan_opens [] hlead]
        exact hsome [b] p (.of_lead hlead)
      | invalid =>
        have hread : ∀ rest, scan [] none (b :: rest) = scan [] none rest ++ [none] := by
          intro rest
          rw [scan, feed, fresh, hlead]
          exact scan_out [none] none rest
        rw [hread, List.reverse_concat, ← List.singleton_append]
        refine .broken (.single (not_starts fun rest => ?_) bytes) hnone
        rw [List.singleton_append, hread, List.getLast?_concat]
    refine ⟨hfresh, fun before p h => ?_⟩
    by_cases hb : p.low ≤ b ∧ b ≤ p.high
    · cases hleft : p.left with
      | zero =>
        have hread : scan [] (some p) (b :: bytes) =
            scan [] none bytes ++ [some (Char.ofNat (p.value * 0x40 + (b.toNat - 0x80)))] := by
          simp only [scan, feed, if_pos hb, hleft]
          exact scan_out _ none bytes
        rw [hread, List.reverse_concat, List.append_cons, ← h.last hb.1 hb.2 hleft]
        exact .char _ hnone
      | succ left =>
        have hread : scan [] (some p) (b :: bytes) =
            scan [] (some ⟨p.value * 0x40 + (b.toNat - 0x80), 0x80, 0xBF, left⟩) bytes := by
          simp only [scan, feed, if_pos hb, hleft]
        rw [hread, List.append_cons]
        exact hsome _ _ (h.next hb.1 hb.2 hleft)
    · -- The byte is read afresh, so what came before it is a piece of its own.
      have hread : ∀ rest, scan [] (some p) (b :: rest) = scan [] none (b :: rest) ++ [none] := by
        intro rest
        rw [← scan_out]
        simp only [scan, feed, if_neg hb]
      rw [hread, List.reverse_concat]
      refine .broken (.of_next (fun c hc => ?_) h.ne_nil h.starts fun b' hb' => ?_) hfresh
      · have hlast := getLast?_scan_of_encodeChar hc
        rw [h.reads, hread, List.getLast?_concat] at hlast
        cases Option.some.inj hlast
      · cases hb'
        refine not_starts fun rest => ?_
        rw [List.append_assoc, h.reads, List.singleton_append, hread, List.getLast?_concat]

theorem Cuts.decodes {bytes : List UInt8} {out : List (Option Char)} (h : Cuts bytes out) :
    Decodes bytes (out.map (·.getD replacement)) := by
  induction h with
  | nil => exact .nil
  | char c _ ih => exact .char c ih
  | broken hp _ ih => exact .broken hp ih

theorem decodes_decodeLossy (bytes : List UInt8) : Decodes bytes (decodeLossy bytes) :=
  (cuts_scan bytes).1.decodes

/-- Of two broken pieces in front of the same bytes neither is the longer one. -/
theorem Broken.not_longer {piece rest more rest' : List UInt8} (h : Broken piece (more ++ rest'))
    (h' : Broken (piece ++ more) rest) : more = [] := by
  by_contra hmore
  rcases h'.starts with ⟨-, hs⟩ | ⟨b, hb⟩
  · exact h.longest more hmore (List.prefix_append more rest') hs
  · obtain ⟨x, piece, rfl⟩ := List.exists_cons_of_ne_nil h.ne_nil
    rw [List.cons_append, List.cons.injEq, List.append_eq_nil_iff] at hb
    exact hmore hb.2.2

/-- **Bytes stand for one text only.** -/
theorem Decodes.unique {bytes : List UInt8} {s t : List Char} (hs : Decodes bytes s)
    (ht : Decodes bytes t) : s = t := by
  induction hs generalizing t with
  | nil =>
    generalize hb : ([] : List UInt8) = bytes at ht
    cases ht with
    | nil => rfl
    | char c h => exact absurd (List.append_eq_nil_iff.1 hb.symm).1 (encodeChar_ne_nil c)
    | broken hp h => exact absurd (List.append_eq_nil_iff.1 hb.symm).1 hp.ne_nil
  | @char c bytes s h ih =>
    generalize hb : encodeChar c ++ bytes = all at ht
    cases ht with
    | nil => exact absurd (List.append_eq_nil_iff.1 hb).1 (encodeChar_ne_nil c)
    | char c' h' =>
      obtain rfl := encodeChar_prefix_unique ⟨bytes, hb⟩ (List.prefix_append (encodeChar c') _)
      rw [ih (List.append_cancel_left hb ▸ h')]
    | broken hp h' => exact absurd ⟨bytes, hb⟩ (hp.noChar c)
  | @broken piece bytes s hp h ih =>
    generalize hb : piece ++ bytes = all at ht
    cases ht with
    | nil => exact absurd (List.append_eq_nil_iff.1 hb).1 hp.ne_nil
    | char c' h' => exact absurd ⟨_, hb.symm⟩ (hp.noChar c')
    | @broken piece' bytes' s' hp' h' =>
      rcases List.append_eq_append_iff.1 hb with ⟨more, rfl, rfl⟩ | ⟨more, rfl, rfl⟩
      · obtain rfl := hp.not_longer hp'
        rw [ih h']
      · obtain rfl := hp'.not_longer hp
        rw [ih h']

/-- **What bytes stand for is what is read from them.** -/
theorem decodes_iff (bytes : List UInt8) (s : List Char) :
    Decodes bytes s ↔ s = decodeLossy bytes :=
  ⟨fun h => h.unique (decodes_decodeLossy bytes), fun h => h ▸ decodes_decodeLossy bytes⟩

/-- Bytes without broken pieces are those of the text. -/
theorem Cuts.eq_encode {bytes : List UInt8} {s : List Char} (h : Cuts bytes (s.map some)) :
    bytes = s.flatMap encodeChar := by
  generalize hout : s.map some = out at h
  induction h generalizing s with
  | nil =>
    rw [List.map_eq_nil_iff.1 hout, List.flatMap_nil]
  | char c h ih =>
    obtain ⟨_, s, rfl, hc, hs⟩ := List.map_eq_cons_iff.1 hout
    cases hc
    rw [ih hs, List.flatMap_cons]
  | broken hp h ih =>
    obtain ⟨_, s, -, hc, -⟩ := List.map_eq_cons_iff.1 hout
    cases hc

theorem map_some_filterMap {out : List (Option Char)} (h : out.all Option.isSome = true) :
    (out.filterMap id).map some = out := by
  induction out with
  | nil => rfl
  | cons x out ih =>
    rw [List.all_cons, Bool.and_eq_true] at h
    obtain ⟨c, rfl⟩ := Option.isSome_iff_exists.1 h.1
    exact congrArg (some c :: ·) (ih h.2)

/-- **Well-formed bytes are those of the text that is read from them.** -/
theorem decode?_eq_some_iff (bytes : List UInt8) (s : List Char) :
    decode? bytes = some s ↔ bytes = s.flatMap encodeChar := by
  constructor
  · intro h
    rw [decode?] at h
    split_ifs at h with hsome
    cases h
    refine Cuts.eq_encode ?_
    rw [map_some_filterMap hsome]
    exact (cuts_scan bytes).1
  · intro h
    have hs := decode?_encode (String.ofList s)
    rwa [encode, String.toList_ofList, ← h] at hs

/-- A character that is cut short, bytes that start none, and a character after them. -/
example : decodeLossy [0xE2, 0x82, 0x0A, 0xED, 0xA0, 0xC3, 0xA9] =
    "\uFFFD\n\uFFFD\uFFFDé".toList := by
  decide

end ScriptWorker.Text.Utf8

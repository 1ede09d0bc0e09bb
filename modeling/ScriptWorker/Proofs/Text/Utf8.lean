import Mathlib.Tactic.IntervalCases
import ScriptWorker.Text.Utf8

/-!
# Reading back the bytes of a text

The automaton that reads bytes comes through the bytes of one character with that character and in
no character's middle (`scan_encodeChar`), so well-formed bytes are read as the text that they were
written for (`decode?_encode`). A character that is no control character is written without the
bytes of control characters (`le_of_mem_encodeChar`).
-/

set_option autoImplicit false

namespace ScriptWorker.Text.Utf8

/-! ## First bytes -/

theorem lead_one {n : Nat} (h : n < 0x80) : lead n.toUInt8 = .char (Char.ofNat n) := by
  have hn : n.toUInt8.toNat = n := Nat.mod_eq_of_lt (by omega)
  simp only [lead, hn, if_pos h]

theorem lead_two {n : Nat} (h1 : 2 ≤ n) (h2 : n < 0x20) :
    lead (0xC0 + n).toUInt8 = .opens ⟨n, 0x80, 0xBF, 0⟩ := by
  interval_cases n <;> rfl

theorem lead_three {n : Nat} (h : n < 0x10) :
    lead (0xE0 + n).toUInt8 =
      .opens ⟨n, if n = 0 then 0xA0 else 0x80, if n = 0xD then 0x9F else 0xBF, 1⟩ := by
  interval_cases n <;> rfl

theorem lead_four {n : Nat} (h : n ≤ 4) :
    lead (0xF0 + n).toUInt8 =
      .opens ⟨n, if n = 0 then 0x90 else 0x80, if n = 4 then 0x8F else 0xBF, 2⟩ := by
  interval_cases n <;> rfl

/-! ## Bytes that go on -/

/-- A byte goes on with an open character. -/
theorem feed_tail (out : List (Option Char)) {p : Partial} {n : Nat} (hn : n < 0x40)
    (hl : p.low.toNat ≤ 0x80 + n) (hh : 0x80 + n ≤ p.high.toNat) :
    feed out (0x80 + n).toUInt8 (some p) =
      match p.left with
      | 0 => (some (Char.ofNat (p.value * 0x40 + n)) :: out, none)
      | left + 1 => (out, some ⟨p.value * 0x40 + n, 0x80, 0xBF, left⟩) := by
  have hb : (0x80 + n).toUInt8.toNat = 0x80 + n := Nat.mod_eq_of_lt (by omega)
  have hr : p.low ≤ (0x80 + n).toUInt8 ∧ (0x80 + n).toUInt8 ≤ p.high := by
    rw [UInt8.le_iff_toNat_le, UInt8.le_iff_toNat_le, hb]
    exact ⟨hl, hh⟩
  cases hleft : p.left with
  | zero | succ _ => simp only [feed, if_pos hr, hb, hleft, Nat.add_sub_cancel_left]

theorem scan_char (out : List (Option Char)) {b : UInt8} {c : Char} (h : lead b = .char c)
    (rest : List UInt8) : scan out none (b :: rest) = scan (some c :: out) none rest := by
  simp only [scan, feed, fresh, h]

theorem scan_opens (out : List (Option Char)) {b : UInt8} {p : Partial} (h : lead b = .opens p)
    (rest : List UInt8) : scan out none (b :: rest) = scan out (some p) rest := by
  simp only [scan, feed, fresh, h]

theorem scan_more (out : List (Option Char)) {value n left : Nat} {low high : UInt8}
    (hn : n < 0x40) (hl : low.toNat ≤ 0x80 + n) (hh : 0x80 + n ≤ high.toNat) (rest : List UInt8) :
    scan out (some ⟨value, low, high, left + 1⟩) ((0x80 + n).toUInt8 :: rest) =
      scan out (some ⟨value * 0x40 + n, 0x80, 0xBF, left⟩) rest := by
  rw [scan, feed_tail out hn hl hh]

theorem scan_last (out : List (Option Char)) {value n : Nat} {low high : UInt8}
    (hn : n < 0x40) (hl : low.toNat ≤ 0x80 + n) (hh : 0x80 + n ≤ high.toNat) (rest : List UInt8) :
    scan out (some ⟨value, low, high, 0⟩) ((0x80 + n).toUInt8 :: rest) =
      scan (some (Char.ofNat (value * 0x40 + n)) :: out) none rest := by
  rw [scan, feed_tail out hn hl hh]

/-! ## Characters and texts -/

/-- **The bytes of a character are read as that character.** -/
theorem scan_encodeChar (out : List (Option Char)) (c : Char) (rest : List UInt8) :
    scan out none (encodeChar c ++ rest) = scan (some c :: out) none rest := by
  have hc : Char.ofNat c.toNat = c := Char.ofNat_toNat c
  have hv : c.toNat < 0xD800 ∨ 0xDFFF < c.toNat ∧ c.toNat < 0x110000 := c.valid
  simp only [encodeChar]
  generalize c.toNat = n at hc hv ⊢
  split_ifs with h1 h2 h3
  · rw [List.singleton_append, scan_char out (lead_one h1), hc]
  · have hn : n / 0x40 * 0x40 + n % 0x40 = n := Nat.div_add_mod' n 0x40
    simp only [List.cons_append, List.nil_append]
    rw [scan_opens out (lead_two (by omega) (by omega)),
      scan_last out (Nat.mod_lt n (by decide)) (by simp) (by simp; omega), hn, hc]
  · have hn : (n / 0x1000 * 0x40 + n / 0x40 % 0x40) * 0x40 + n % 0x40 = n := by omega
    simp only [List.cons_append, List.nil_append]
    rw [scan_opens out (lead_three (by omega)),
      scan_more out (Nat.mod_lt _ (by decide)) ?_ ?_,
      scan_last out (Nat.mod_lt n (by decide)) (by simp) (by simp; omega), hn, hc]
    · split_ifs
      · simp only [UInt8.reduceToNat]
        omega
      · exact Nat.le_add_right _ _
    · split_ifs
      · simp only [UInt8.reduceToNat]
        omega
      · simp only [UInt8.reduceToNat]
        omega
  · have hn : ((n / 0x40000 * 0x40 + n / 0x1000 % 0x40) * 0x40 + n / 0x40 % 0x40) * 0x40 +
        n % 0x40 = n := by omega
    simp only [List.cons_append, List.nil_append]
    rw [scan_opens out (lead_four (by omega)),
      scan_more out (Nat.mod_lt _ (by decide)) ?_ ?_,
      scan_more out (Nat.mod_lt _ (by decide)) (by simp) (by simp; omega),
      scan_last out (Nat.mod_lt n (by decide)) (by simp) (by simp; omega), hn, hc]
    · split_ifs
      · simp only [UInt8.reduceToNat]
        omega
      · exact Nat.le_add_right _ _
    · split_ifs
      · simp only [UInt8.reduceToNat]
        omega
      · simp only [UInt8.reduceToNat]
        omega

theorem scan_encode (out : List (Option Char)) (s : List Char) :
    scan out none (s.flatMap encodeChar) = (s.map some).reverse ++ out := by
  induction s generalizing out with
  | nil => rfl
  | cons c s ih =>
    rw [List.flatMap_cons, scan_encodeChar, ih, List.map_cons, List.reverse_cons, List.append_assoc]
    rfl

theorem pieces_encode (s : String) : pieces (encode s) = s.toList.map some := by
  rw [pieces, encode, scan_encode, List.append_nil, List.reverse_reverse]

/-- **The bytes of a text are read as that text.** -/
theorem decode?_encode (s : String) : decode? (encode s) = some s.toList := by
  simp [decode?, pieces_encode]

theorem decodeLossy_encode (s : String) : decodeLossy (encode s) = s.toList := by
  simp [decodeLossy, pieces_encode]

theorem eq_toByteArray_iff {b : ByteArray} {bytes : List UInt8} :
    b = bytes.toByteArray ↔ b.data.toList = bytes := by
  constructor
  · rintro rfl
    rw [List.data_toByteArray]
  · intro h
    exact ByteArray.ext (Array.toList_inj.1 (by rw [h, List.data_toByteArray]))

theorem encode_append (s t : String) : encode (s ++ t) = encode s ++ encode t := by
  simp [encode]

/-- The bytes of a character that is no less than a bound in ASCII are no less either. -/
theorem le_toNat_of_mem_encodeChar {k : Nat} (hk : k ≤ 0x80) {c : Char} (hc : k ≤ c.toNat)
    {b : UInt8} (hb : b ∈ encodeChar c) : k ≤ b.toNat := by
  have small : ∀ {n : Nat}, k ≤ n → n < 0x100 → k ≤ n.toUInt8.toNat := by
    intro n hl hg
    rw [Nat.toUInt8_eq, UInt8.toNat_ofNat', Nat.mod_eq_of_lt hg]
    exact hl
  have hv : c.toNat < 0x110000 := c.valid.elim (fun h => Nat.lt_trans h (by decide)) And.right
  simp only [encodeChar] at hb
  split_ifs at hb with h1 h2 h3
  all_goals simp only [List.mem_cons, List.not_mem_nil, or_false] at hb
  · exact hb ▸ small hc (by omega)
  · rcases hb with rfl | rfl <;> exact small (by omega) (by omega)
  · rcases hb with rfl | rfl | rfl <;> exact small (by omega) (by omega)
  · rcases hb with rfl | rfl | rfl | rfl <;> exact small (by omega) (by omega)

/-- No byte of a character other than a control character is one of a control character. -/
theorem le_of_mem_encodeChar {c : Char} (hc : 0x20 ≤ c.toNat) {b : UInt8} (hb : b ∈ encodeChar c) :
    0x20 ≤ b :=
  UInt8.le_iff_toNat_le.2 (le_toNat_of_mem_encodeChar (by decide) hc hb)

/-- A byte of ASCII is in no character but its own. -/
theorem encodeChar_of_mem {b : UInt8} (hb : b.toNat < 0x80) {c : Char} (h : b ∈ encodeChar c) :
    encodeChar c = [b] := by
  have hc : c.toNat < 0x80 := by
    by_contra hc
    have hle := le_toNat_of_mem_encodeChar (Nat.le_refl _) (Nat.not_lt.1 hc) h
    omega
  have hone : encodeChar c = [c.toNat.toUInt8] := if_pos hc
  rw [hone, List.mem_singleton] at h
  rw [hone, h]

end ScriptWorker.Text.Utf8

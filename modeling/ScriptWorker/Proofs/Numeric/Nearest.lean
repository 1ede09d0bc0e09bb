import Mathlib
import ScriptWorker.Numeric.Binary64

/-!
# The doubles nearest to large whole numbers

A whole number past the integers of the language becomes a double with full precision, so its bits
tell the number that it stands for (`toBits_ofBits`, `parts_nearestInt`). The doubles of that size
are the multiples of 2048, and all others are far below, so no double is nearer
(`isNearest_nearestInt`).
-/

set_option autoImplicit false

namespace ScriptWorker.Numeric

open Float.Model

/-! ## Bits of doubles -/

/-- The exponent's field of a double's bits. -/
def field (b : UInt64) : Nat := b.toNat / 0x10000000000000 % 0x800

/-- The parts of a double's bits. -/
abbrev exponentOf (b : UInt64) : BitVec 11 :=
  @UnpackedFloat.unpackExponent Format.binary64 b.toBitVec
@[inherit_doc exponentOf] abbrev mantissaOf (b : UInt64) : BitVec 52 :=
  @UnpackedFloat.unpackMantissa Format.binary64 b.toBitVec
@[inherit_doc exponentOf] abbrev signOf (b : UInt64) : BitVec 1 :=
  @UnpackedFloat.unpackSign Format.binary64 b.toBitVec

theorem exponent_toNat (b : UInt64) : (exponentOf b).toNat = field b := by
  simp [UnpackedFloat.unpackExponent, field, Nat.shiftRight_eq_div_pow]

theorem mantissa_toNat (b : UInt64) : (mantissaOf b).toNat = b.toNat % 0x10000000000000 := by
  simp [UnpackedFloat.unpackMantissa]

theorem sign_toNat (b : UInt64) : (signOf b).toNat = b.toNat / 0x8000000000000000 % 2 := by
  simp [UnpackedFloat.unpackSign, Nat.shiftRight_eq_div_pow]

theorem unpack_normal {b : UInt64} (h0 : field b ≠ 0) (h1 : field b ≠ 0x7FF) :
    ∃ h, UnpackedFloat.unpack Format.binary64 b.toBitVec =
      .finite (.ofBitVec (signOf b))
        (0x10000000000000 + b.toNat % 0x10000000000000) ((field b : Int) - 1075) h := by
  have he := exponent_toNat b
  have hm := mantissa_toNat b
  have hn : ¬exponentOf b = -1#11 := by
    intro hx
    rw [hx] at he
    exact h1 (he.symm.trans (by decide))
  have hz : ¬exponentOf b = 0#11 := by
    intro hx
    rw [hx] at he
    exact h0 (he.symm.trans (by decide))
  have hs : (1#1 ++ mantissaOf b).toNat =
      0x10000000000000 + b.toNat % 0x10000000000000 := by
    have hlt : b.toNat % 0x10000000000000 < 2 ^ 52 := Nat.mod_lt _ (by decide)
    rw [BitVec.toNat_append, hm, ← Nat.shiftLeft_add_eq_or_of_lt hlt]
    rfl
  have hx : ((exponentOf b).toNat : Int) -
      (Format.binary64.exponentBias + Format.binary64.mantissaBitsWithoutImplicit) =
        field b - 1075 := by
    rw [he]
    rfl
  refine ⟨by omega, ?_⟩
  simp only [UnpackedFloat.unpack, if_neg hn, if_neg hz, hs, hx]

theorem toBitVec_ofBitVec (s : BitVec 1) : (UnpackedFloat.Sign.ofBitVec s).toBitVec = s := by
  revert s
  decide

theorem packComponents_toNat (s : UnpackedFloat.Sign) (e : BitVec 11) (m : BitVec 52) :
    (UnpackedFloat.packComponents Format.binary64 s e m).toNat =
      s.toBitVec.toNat * 0x8000000000000000 + e.toNat * 0x10000000000000 + m.toNat := by
  have he : e.toNat < 2 ^ 11 := e.isLt
  have hm : m.toNat < 2 ^ 52 := m.isLt
  simp only [UnpackedFloat.packComponents]
  rw [BitVec.toNat_append, BitVec.toNat_append, ← Nat.shiftLeft_add_eq_or_of_lt he,
    ← Nat.shiftLeft_add_eq_or_of_lt hm, Nat.shiftLeft_eq, Nat.shiftLeft_eq]
  show (_ * 2 ^ 11 + _) * 2 ^ 52 + _ = _
  omega

/-- Packing puts the fields of a double with full precision back. -/
theorem pack_normal {b : UInt64} (h1 : field b ≠ 0x7FF) {m : Nat} (hm : m < 0x10000000000000)
    (s : UnpackedFloat.Sign) (h : 0 < 0x10000000000000 + m) :
    (UnpackedFloat.pack Format.binary64
      (.finite s (0x10000000000000 + m) ((field b : Int) - 1075) h)).toNat =
        s.toBitVec.toNat * 0x8000000000000000 + field b * 0x10000000000000 + m := by
  have hf : field b < 0x800 := Nat.mod_lt _ (by decide)
  have hx : ((field b : Int) - 1075 + Format.binary64.exponentBias +
      Format.binary64.mantissaBitsWithoutImplicit).toNat = field b := by
    show ((field b : Int) - 1075 + 1023 + 52).toNat = field b
    omega
  have hl : (0x10000000000000 + m).log2 + 1 = Format.binary64.mantissaBits := by
    have : (0x10000000000000 + m).log2 = 52 :=
      (Nat.log2_eq_iff (by omega)).2 ⟨by omega, by omega⟩
    rw [this]
    rfl
  have hn : ¬2 ^ Format.binary64.exponentBits ≤ field b + 1 := by
    show ¬2 ^ 11 ≤ field b + 1
    omega
  simp only [UnpackedFloat.pack, hx, if_neg hn, if_pos hl]
  rw [packComponents_toNat, BitVec.toNat_ofNat, BitVec.toNat_ofNat]
  show _ + field b % 2 ^ 11 * _ + (0x10000000000000 + m) % 2 ^ 52 = _
  omega

/-- **The bits of a double with full precision are those that it was made from**, and it is
finite. -/
theorem toBits_ofBits {b : UInt64} (h0 : field b ≠ 0) (h1 : field b ≠ 0x7FF) :
    (Float.ofBits b).toBits = b ∧ (Float.ofBits b).isFinite = true := by
  obtain ⟨h, hu⟩ := unpack_normal h0 h1
  have hb : (Float.ofBits b).toBits = b := by
    simp only [Float.toBits, Float.ofBits, ofBits, pack, hu]
    refine UInt64.toNat_inj.1 ((pack_normal h1 (Nat.mod_lt _ (by decide)) _ h).trans ?_)
    rw [toBitVec_ofBitVec, sign_toNat, field]
    have := b.toNat_lt
    omega
  refine ⟨hb, ?_⟩
  have hf : (Float.ofBits b).isFinite =
      (UnpackedFloat.unpack Format.binary64 (Float.ofBits b).toBits.toBitVec).isFinite := rfl
  rw [hf, hb, hu]
  rfl

/-! ## Large whole numbers -/

theorem roundDiv_close (n : Nat) {d : Nat} (hd : 0 < d) :
    2 * (d * roundDiv n d) ≤ 2 * n + d ∧ 2 * n ≤ 2 * (d * roundDiv n d) + d := by
  have hn : d * (n / d) + n % d = n := Nat.div_add_mod n d
  have hm : n % d < d := Nat.mod_lt n hd
  have h1 : d * (n / d + 1) = d * (n / d) + d := Nat.mul_succ ..
  unfold roundDiv
  simp only
  split
  · omega
  · split
    · omega
    · rcases Nat.mod_two_eq_zero_or_one (n / d) with h2 | h2
      · rw [h2, Nat.add_zero]
        omega
      · rw [h2]
        omega

/-- The mantissa of the double for a number past the integers of the language. -/
theorem roundDiv_large {n : Nat} (h1 : 0x8000000000000000 ≤ n) (h2 : n < 0x10000000000000000) :
    0x10000000000000 ≤ roundDiv n 0x800 ∧ roundDiv n 0x800 ≤ 0x20000000000000 := by
  have hd : 0 < 0x800 := by decide
  obtain ⟨h3, h4⟩ := roundDiv_close n hd
  omega

theorem nearestBits_large {n : Nat} (h1 : 0x8000000000000000 ≤ n) (h2 : n < 0x10000000000000000) :
    nearestBits n 1 = 1085 * 0x10000000000000 + roundDiv n 0x800 := by
  have hl : n.log2 = 63 := (Nat.log2_eq_iff (by omega)).2 ⟨by omega, by omega⟩
  obtain ⟨-, h3⟩ := roundDiv_large h1 h2
  unfold nearestBits
  rw [if_neg (by omega), hl]
  have hs : scaled n 1 2 ((63 : Nat) - ((1 : Nat).log2 : Int)) = (n, 0x8000000000000000) := by rfl
  simp only [hs, if_pos h1]
  show min (1085 * 0x10000000000000 + roundDiv n 0x800) _ = _
  exact Nat.min_eq_left (by omega)

theorem nearestInt_large {n : Int} (h1 : 0x8000000000000000 ≤ n) (h2 : n ≤ 0xFFFFFFFFFFFFFFFF) :
    ∃ b : UInt64, nearestInt n = Float.ofBits b ∧
      b.toNat = 1085 * 0x10000000000000 + roundDiv n.toNat 0x800 := by
  have hn : n.natAbs = n.toNat := by omega
  have h3 : 0x8000000000000000 ≤ n.toNat := by omega
  have h4 : n.toNat < 0x10000000000000000 := by omega
  obtain ⟨-, h5⟩ := roundDiv_large h3 h4
  refine ⟨(1085 * 0x10000000000000 + roundDiv n.toNat 0x800).toUInt64, ?_, ?_⟩
  · rw [nearestInt, nearest, decide_eq_false (by omega), hn, nearestBits_large h3 h4]
    simp
  · exact Nat.mod_eq_of_lt (by omega)

/-- **Large whole numbers become doubles with full precision.** -/
theorem parts_nearestInt {n : Int} (h1 : 0x8000000000000000 ≤ n) (h2 : n ≤ 0xFFFFFFFFFFFFFFFF) :
    (nearestInt n).isFinite = true ∧ ∃ m e, parts (nearestInt n) = .finite false m (.ofNat e) ∧
      m * 2 ^ e = 0x800 * roundDiv n.toNat 0x800 := by
  obtain ⟨b, hb, hq⟩ := nearestInt_large h1 h2
  obtain ⟨h3, h4⟩ := roundDiv_large (n := n.toNat) (by omega) (by omega)
  have hf : field b = 1086 ∧ roundDiv n.toNat 0x800 < 0x20000000000000 ∨
      field b = 1087 ∧ roundDiv n.toNat 0x800 = 0x20000000000000 := by
    unfold field
    rcases Nat.lt_or_eq_of_le h4 with hlt | heq
    · have hd : b.toNat / 0x10000000000000 = 1086 := by omega
      exact .inl ⟨by rw [hd], hlt⟩
    · have hd : b.toNat / 0x10000000000000 = 1087 := by omega
      exact .inr ⟨by rw [hd], heq⟩
  obtain ⟨ht, hfin⟩ := toBits_ofBits (b := b) (by omega) (by omega)
  refine ⟨hb ▸ hfin, ?_⟩
  rw [hb]
  simp only [parts, ht]
  rcases hf with ⟨hf, hr⟩ | ⟨hf, hr⟩
  · refine ⟨0x10000000000000 + b.toNat % 0x10000000000000, 11, ?_, by omega⟩
    unfold field at hf
    rw [hf, if_neg (by decide), if_neg (by decide), decide_eq_false (by omega)]
    rfl
  · refine ⟨0x10000000000000 + b.toNat % 0x10000000000000, 12, ?_, by omega⟩
    unfold field at hf
    rw [hf, if_neg (by decide), if_neg (by decide), decide_eq_false (by omega)]
    rfl

/-! ## Nearness -/

/-- The number that a double stands for, if it is finite. -/
def value? (x : Float) : Option ℚ :=
  match parts x with
  | .finite negative m e => some ((if negative then -1 else 1) * m * 2 ^ e)
  | _ => none

/-- No double is nearer to the number. -/
def IsNearest (x : Float) (n : Int) : Prop :=
  ∃ v, value? x = some v ∧ ∀ y w, value? y = some w → |v - n| ≤ |w - n|

/-- The mantissa of a double. -/
theorem parts_bound {y : Float} {negative : Bool} {m : Nat} {e : Int}
    (h : parts y = .finite negative m e) : m < 0x20000000000000 := by
  unfold parts at h
  have := Nat.mod_lt y.toBits.toNat (show 0 < 0x10000000000000 by decide)
  simp only at h
  split at h
  · split at h <;> cases h
  · split at h
    · cases h
      omega
    · cases h
      omega

/-- A double below the large whole numbers is far from them. -/
theorem low_value {m : Nat} (hm : m < 0x20000000000000) {e : Int} (he : e ≤ 10) :
    (m : ℚ) * 2 ^ e ≤ 0x8000000000000000 - 0x400 := by
  have h1 : (2 : ℚ) ^ e ≤ 2 ^ (10 : Int) := zpow_le_zpow_right₀ (by norm_num) he
  have h2 : (m : ℚ) ≤ 0x1FFFFFFFFFFFFF := by exact_mod_cast Nat.le_of_lt_succ hm
  have h3 : (0 : ℚ) ≤ 2 ^ e := zpow_nonneg (by norm_num) e
  calc (m : ℚ) * 2 ^ e ≤ 0x1FFFFFFFFFFFFF * 2 ^ (10 : Int) := by gcongr
    _ = 0x8000000000000000 - 0x400 := by norm_num

/-- A double at or above the large whole numbers is a multiple of their distance. -/
theorem high_value (m : Nat) {e : Int} (he : 11 ≤ e) :
    ∃ j : Nat, (m : ℚ) * 2 ^ e = 0x800 * j := by
  obtain ⟨i, rfl⟩ := Int.eq_ofNat_of_zero_le (Int.le_trans (by decide) he)
  obtain ⟨i, rfl⟩ := Nat.exists_eq_add_of_le (Int.ofNat_le.1 he)
  refine ⟨m * 2 ^ i, ?_⟩
  rw [zpow_natCast, pow_add]
  push_cast
  ring

/-- No multiple is nearer than one that is within half of the distance between multiples. -/
theorem multiple_close {k j : Nat} {n : ℚ} (h : |0x800 * (k : ℚ) - n| ≤ 0x400) :
    |0x800 * (k : ℚ) - n| ≤ |0x800 * (j : ℚ) - n| := by
  by_cases hjk : j = k
  · rw [hjk]
  · have hd : (1 : ℚ) ≤ |(j : ℚ) - k| := by
      have : (1 : Int) ≤ |(j : Int) - k| := Int.one_le_abs (by omega)
      exact_mod_cast this
    have ht : |0x800 * ((j : ℚ) - k)| ≤ |0x800 * (j : ℚ) - n| + |0x800 * (k : ℚ) - n| := by
      have := abs_sub (0x800 * (j : ℚ) - n) (0x800 * (k : ℚ) - n)
      rwa [sub_sub_sub_cancel_right, ← mul_sub] at this
    rw [abs_mul, abs_of_pos (show (0 : ℚ) < 0x800 by norm_num)] at ht
    linarith

/-- **A large whole number becomes the double nearest to it.** -/
theorem isNearest_nearestInt {n : Int} (h1 : 0x8000000000000000 ≤ n)
    (h2 : n ≤ 0xFFFFFFFFFFFFFFFF) : IsNearest (nearestInt n) n := by
  obtain ⟨-, m, e, hp, hv⟩ := parts_nearestInt h1 h2
  obtain ⟨hc1, hc2⟩ := roundDiv_close n.toNat (show 0 < 0x800 by decide)
  generalize roundDiv n.toNat 0x800 = k at hv hc1 hc2
  have hn : (0x8000000000000000 : ℚ) ≤ n := by exact_mod_cast h1
  have hval : value? (nearestInt n) = some (0x800 * (k : ℚ)) := by
    simp only [value?, hp, Bool.false_eq_true, if_false, one_mul, Int.ofNat_eq_natCast,
      zpow_natCast]
    exact congrArg some (by exact_mod_cast hv)
  have hclose : |0x800 * (k : ℚ) - n| ≤ 0x400 := by
    have h3 : 0x800 * (k : Int) ≤ n + 0x400 := by omega
    have h4 : n ≤ 0x800 * (k : Int) + 0x400 := by omega
    have h5 : 0x800 * (k : ℚ) ≤ n + 0x400 := by exact_mod_cast h3
    have h6 : (n : ℚ) ≤ 0x800 * (k : ℚ) + 0x400 := by exact_mod_cast h4
    exact abs_sub_le_iff.2 ⟨by linarith, by linarith⟩
  refine ⟨_, hval, fun y w hw => ?_⟩
  -- every other double is a multiple of the distance too, or far below
  have far : w ≤ 0x8000000000000000 - 0x400 → |0x800 * (k : ℚ) - n| ≤ |w - n| := by
    intro hlow
    rw [abs_sub_comm w]
    exact hclose.trans (le_trans (by linarith) (le_abs_self _))
  unfold value? at hw
  cases hy : parts y with
  | nan => rw [hy] at hw; cases hw
  | infinite negative => rw [hy] at hw; cases hw
  | finite negative m' e' =>
    simp only [hy, Option.some.injEq] at hw
    have hpos : (0 : ℚ) ≤ m' * 2 ^ e' :=
      mul_nonneg (Nat.cast_nonneg _) (zpow_nonneg (by norm_num) _)
    cases negative with
    | true =>
      simp only [if_true] at hw
      exact far (by linarith)
    | false =>
      simp only [Bool.false_eq_true, if_false, one_mul] at hw
      rcases lt_or_ge e' 11 with he | he
      · exact far (hw ▸ low_value (parts_bound hy) (by omega))
      · obtain ⟨j, hj⟩ := high_value m' he
        rw [← hw, hj]
        exact multiple_close hclose

end ScriptWorker.Numeric

import ScriptWorker.Proofs.Text.Lossy

/-!
# Around a byte of ASCII

A byte of ASCII is no part of another character, so nothing that is open in front of one, be it a
character or a piece of none, goes on behind it: bytes on both sides of it stand for their own texts
(`Decodes.append_ascii`). Behind the bytes of a text, too, bytes stand for their own.
-/

set_option autoImplicit false

namespace ScriptWorker.Text.Utf8

section Ascii

variable {x : UInt8} (hx : x.toNat < 0x80)

include hx

/-- Bytes that start a character end with a byte of ASCII only as the first byte. -/
theorem Starts.eq_nil_of_ascii {bytes more : List UInt8} (h : Starts (bytes ++ x :: more)) :
    bytes = [] := by
  obtain ⟨c, hp⟩ := h
  have hmem : x ∈ bytes ++ x :: more := List.mem_append_right bytes List.mem_cons_self
  have hlen := hp.length_le
  rw [encodeChar_of_mem hx (hp.subset hmem)] at hlen
  simp only [List.length_append, List.length_cons, List.length_nil] at hlen
  exact List.eq_nil_of_length_eq_zero (by omega)

omit hx in
/-- A prefix of bytes around a byte that is none of those before it extends over it. -/
theorem prefix_append_cons {bytes a b : List UInt8} (h : bytes <+: a ++ x :: b) :
    bytes <+: a ∨ ∃ more, bytes = a ++ x :: more := by
  obtain ⟨t, ht⟩ := h
  rcases List.append_eq_append_iff.1 ht with ⟨rest, ha, -⟩ | ⟨rest, hb, hrest⟩
  · exact .inl ⟨rest, ha.symm⟩
  · cases rest with
    | nil => exact .inl ⟨[], by rw [hb, List.append_nil, List.append_nil]⟩
    | cons y rest =>
      rw [List.cons_append, List.cons.injEq] at hrest
      exact .inr ⟨rest, hrest.1 ▸ hb⟩

/-- A piece that is broken where the bytes end is broken where a byte of ASCII follows them. -/
theorem Broken.append_ascii {piece a : List UInt8} (h : Broken piece a) (b : List UInt8) :
    Broken piece (a ++ x :: b) := by
  refine ⟨fun c hc => ?_, h.starts, fun more hne hp hs => ?_⟩
  · rw [← List.append_assoc] at hc
    rcases prefix_append_cons hc with hc | ⟨t, hc⟩
    · exact h.noChar c hc
    · have hnil : piece ++ a = [] := Starts.eq_nil_of_ascii hx ⟨c, [], by rw [hc, List.append_nil]⟩
      exact h.ne_nil (List.append_eq_nil_iff.1 hnil).1
  · rcases prefix_append_cons hp with hp | ⟨t, rfl⟩
    · exact h.longest more hne hp hs
    · rw [← List.append_assoc] at hs
      exact h.ne_nil (List.append_eq_nil_iff.1 (Starts.eq_nil_of_ascii hx hs)).1

omit hx in
theorem Decodes.single (hx : x.toNat < 0x80) {b : List UInt8} {t : List Char} (hb : Decodes b t) :
    Decodes (x :: b) (Char.ofNat x.toNat :: t) := by
  have hone : encodeChar (Char.ofNat x.toNat) = [x] := by
    rw [encodeChar_one hx, Nat.toUInt8_eq, UInt8.ofNat_toNat]
  have hd := Decodes.char (Char.ofNat x.toNat) hb
  rwa [hone] at hd

/-- **What stands on both sides of a byte of ASCII is decoded on its own.** -/
theorem Decodes.append_ascii {a b : List UInt8} {s t : List Char} (ha : Decodes a s)
    (hb : Decodes b t) : Decodes (a ++ x :: b) (s ++ Char.ofNat x.toNat :: t) := by
  induction ha with
  | nil => exact .single hx hb
  | char c _ ih =>
    rw [List.append_assoc]
    exact .char c ih
  | broken hp _ ih =>
    rw [List.append_assoc]
    exact .broken (hp.append_ascii hx b) ih

/-- No character of ASCII is made of bytes without its own. -/
theorem Decodes.ascii_not_mem {a : List UInt8} {s : List Char} (ha : Decodes a s) (hn : x ∉ a) :
    Char.ofNat x.toNat ∉ s := by
  induction ha with
  | nil => exact List.not_mem_nil
  | char c _ ih =>
    rw [List.mem_append, not_or] at hn
    refine mt List.mem_cons.1 (not_or.2 ⟨?_, ih hn.2⟩)
    rintro rfl
    refine hn.1 ?_
    rw [encodeChar_one hx, Nat.toUInt8_eq, UInt8.ofNat_toNat]
    exact List.mem_cons_self
  | broken _ _ ih =>
    rw [List.mem_append, not_or] at hn
    refine mt List.mem_cons.1 (not_or.2 ⟨fun he => ?_, ih hn.2⟩)
    have hval := congrArg Char.toNat he
    rw [toNat_ofNat_valid (Or.inl (by omega))] at hval
    exact absurd (hval ▸ hx) (by decide)

theorem decodeLossy_ascii (a b : List UInt8) :
    decodeLossy (a ++ x :: b) = decodeLossy a ++ Char.ofNat x.toNat :: decodeLossy b := by
  have ha := (decodes_iff a _).2 rfl
  have hb := (decodes_iff b _).2 rfl
  exact ((decodes_iff _ _).1 (ha.append_ascii hx hb)).symm

end Ascii

/-- Behind the bytes of a text, bytes stand for their own. -/
theorem decodeLossy_encode_append (s : String) (bytes : List UInt8) :
    decodeLossy (encode s ++ bytes) = s.toList ++ decodeLossy bytes := by
  have hd (l : List Char) : Decodes (l.flatMap encodeChar ++ bytes) (l ++ decodeLossy bytes) := by
    induction l with
    | nil => exact decodes_decodeLossy bytes
    | cons c l ih =>
      rw [List.flatMap_cons, List.append_assoc]
      exact .char c ih
  exact ((decodes_iff _ _).1 (hd s.toList)).symm

end ScriptWorker.Text.Utf8

import ScriptWorker.Json.Printer
import ScriptWorker.Json.Reader

/-!
# Strings read back

The reader takes back each escape that the printer writes (`readStringFrom_escapeChar`), so a
printed string reads as itself whatever follows it (`readStringFrom_escaped`). A printed string
therefore tells both the string and the text behind it (`stringText_append_inj`).
-/

set_option autoImplicit false

namespace ScriptWorker.Text.Hex

/-- A lower-case digit has the value that it was made from. -/
theorem value?_digit {n : Nat} (h : n < 16) : value? (digit n) = some n := by
  decide +revert

end ScriptWorker.Text.Hex

namespace ScriptWorker.Json

/-- The characters that have an escape of their own. -/
def hasShortEscape (c : Char) : Bool := c ∈ ['"', '\\', '\x08', '\t', '\n', '\x0c', '\r']

theorem escapeChar_of_not_hasShortEscape {c : Char} (h : hasShortEscape c = false) :
    escapeChar c = if c.toNat < 0x20 then
      ['\\', 'u', '0', '0', Text.Hex.digit (c.toNat / 16), Text.Hex.digit (c.toNat % 16)]
    else [c] := by
  unfold escapeChar
  split
  all_goals first | cases h | rfl

/-- The escape of a control character reads as it. -/
theorem readUnicode_digits {c : Char} (h : c.toNat < 0x20) (rest : List Char) :
    readUnicode ('0' :: '0' :: Text.Hex.digit (c.toNat / 16) :: Text.Hex.digit (c.toNat % 16) ::
      rest) = .ok (c, rest) := by
  have h0 : Text.Hex.value? '0' = some 0 := by decide
  have hn : ((0 * 16 + 0) * 16 + c.toNat / 16) * 16 + c.toNat % 16 = c.toNat := by omega
  have h4 : readHex4 ('0' :: '0' :: Text.Hex.digit (c.toNat / 16) ::
      Text.Hex.digit (c.toNat % 16) :: rest) = .ok (c.toNat, rest) := by
    simp only [readHex4, h0, Text.Hex.value?_digit (show c.toNat / 16 < 16 by omega),
      Text.Hex.value?_digit (show c.toNat % 16 < 16 by omega), hn]
  have h1 : ¬(0xDC00 ≤ c.toNat ∧ c.toNat ≤ 0xDFFF) := by omega
  have h2 : c.toNat < 0xD800 ∨ 0xDBFF < c.toNat := by omega
  simp only [readUnicode, h4, Except.bind, bind, if_neg h1, if_pos h2, Char.ofNat_toNat]
  rfl

/-- The reader takes back what the printer makes of a character. -/
theorem readStringFrom_escapeChar (fuel : Nat) (out : List Char) (c : Char) (rest : List Char) :
    readStringFrom (fuel + 1) out (escapeChar c ++ rest) = readStringFrom fuel (c :: out) rest := by
  cases hs : hasShortEscape c with
  | true =>
    simp only [hasShortEscape, List.mem_cons, List.not_mem_nil, or_false, decide_eq_true_eq] at hs
    rcases hs with rfl | rfl | rfl | rfl | rfl | rfl | rfl <;> rfl
  | false =>
    rw [escapeChar_of_not_hasShortEscape hs]
    by_cases hc : c.toNat < 0x20
    · rw [if_pos hc]
      simp only [List.cons_append, List.nil_append, readStringFrom, readUnicode_digits hc]
    · rw [if_neg hc]
      have hq : c ≠ '"' := by rintro rfl; cases hs
      have hb : c ≠ '\\' := by rintro rfl; cases hs
      rw [List.singleton_append, readStringFrom]
      · rw [if_neg hc]
      · exact hq
      · exact hb

/-- **A printed string reads as itself**, whatever follows it. -/
theorem readStringFrom_escaped (s : List Char) {fuel : Nat} (h : s.length < fuel)
    (out rest : List Char) :
    readStringFrom fuel out (s.flatMap escapeChar ++ '"' :: rest) =
      .ok (String.ofList (out.reverse ++ s), rest) := by
  induction s generalizing fuel out with
  | nil =>
    obtain ⟨fuel, rfl⟩ := Nat.exists_eq_add_of_lt h
    rw [List.append_nil]
    rfl
  | cons c s ih =>
    obtain ⟨fuel, rfl⟩ := Nat.exists_eq_add_of_lt h
    have hf : s.length < (c :: s).length + fuel := by
      simp only [List.length_cons]
      omega
    rw [List.flatMap_cons, List.append_assoc, readStringFrom_escapeChar, ih hf, List.reverse_cons,
      List.append_assoc, List.singleton_append]

theorem toList_stringText (s : String) :
    (stringText s).toList = '"' :: (s.toList.flatMap escapeChar ++ ['"']) :=
  String.toList_ofList

/-- A printed string tells the string and what follows it. -/
theorem stringText_append_inj {s t : String} {a b : List Char}
    (h : (stringText s).toList ++ a = (stringText t).toList ++ b) : s = t ∧ a = b := by
  simp only [toList_stringText, List.cons_append, List.append_assoc, List.nil_append,
    List.cons.injEq, true_and] at h
  have hs := readStringFrom_escaped s.toList
    (Nat.lt_add_right t.toList.length (Nat.lt_succ_self _)) [] a
  have ht := readStringFrom_escaped t.toList
    (show t.toList.length < s.toList.length + 1 + t.toList.length by omega) [] b
  rw [h, ht] at hs
  simp only [Except.ok.injEq, Prod.mk.injEq, List.reverse_nil, List.nil_append,
    String.ofList_toList] at hs
  exact ⟨hs.1.symm, hs.2.symm⟩

end ScriptWorker.Json

import ScriptWorker.Json.Printer
import ScriptWorker.Json.Reader

/-!
# Whole numbers read back

Gathering goes through written digits up to the end of the number (`gather_digits`), and written
digits start with a zero only where the number is zero (`exists_digits`). So the digits of a number
that fits are read as that number (`readNumber_digits`), and the text of a whole number with its
sign as that whole number (`readValue_int`), whatever follows that does not go on with a number.
-/

set_option autoImplicit false

namespace ScriptWorker.Json

/-- The text does not go on with a number that ends in front of it. -/
def EndsNumber (rest : List Char) : Prop :=
  ∀ c ∈ rest.head?, c.isDigit = false ∧ c ≠ '.' ∧ c ≠ 'e' ∧ c ≠ 'E'

theorem EndsNumber.nil : EndsNumber [] := by
  intro c hc
  cases hc

theorem EndsNumber.cons {c : Char} (h : c.isDigit = false ∧ c ≠ '.' ∧ c ≠ 'e' ∧ c ≠ 'E')
    (rest : List Char) : EndsNumber (c :: rest) := by
  intro d hd
  cases hd
  exact h

theorem EndsNumber.digitNext {rest : List Char} (h : EndsNumber rest) :
    Json.digitNext rest = false := by
  cases rest with
  | nil => rfl
  | cons c rest => exact (h c rfl).1

/-! ## Digits -/

theorem le_ofDigitChars (ds : List Char) (n : Nat) : n ≤ Nat.ofDigitChars 10 ds n := by
  rw [Nat.ofDigitChars_eq_ofDigitChars_zero]
  have h : 1 * n ≤ 10 ^ ds.length * n := Nat.mul_le_mul_right n (Nat.pow_pos (by decide))
  omega

/-- Digits are gathered up to their end. -/
theorem gather_digits {limit : Nat} {ds rest : List Char} (hd : ∀ c ∈ ds, c.isDigit = true)
    (hr : digitNext rest = false) (n count : Nat) (hn : Nat.ofDigitChars 10 ds n ≤ limit) :
    gather limit n count (ds ++ rest) =
      (Nat.ofDigitChars 10 ds n, count + ds.length, rest) := by
  induction ds generalizing n count with
  | nil =>
    cases rest with
    | nil => rfl
    | cons c rest =>
      have hc : c.isDigit = false := hr
      simp [gather, hc]
  | cons c ds ih =>
    have hc : c.isDigit = true := hd c List.mem_cons_self
    have hv : 10 * n + (c.toNat - '0'.toNat) = n * 10 + digitValue c := by
      rw [Nat.mul_comm]
      rfl
    rw [Nat.ofDigitChars_cons, hv] at hn ⊢
    have hl : n * 10 + digitValue c ≤ limit := Nat.le_trans (le_ofDigitChars ds _) hn
    rw [List.cons_append, gather, if_pos ⟨hc, hl⟩,
      ih (fun d hm => hd d (List.mem_cons_of_mem _ hm)) _ _ hn, List.length_cons]
    congr 2
    omega

/-- The written digits of a positive number start with one that is not zero. -/
theorem exists_digits {n : Nat} (hn : 0 < n) :
    ∃ c ds, Nat.toDigits 10 n = c :: ds ∧ c ≠ '0' := by
  induction n using Nat.strongRecOn with
  | _ n ih =>
    rw [Nat.toDigits_eq_if (by decide)]
    by_cases h : n < 10
    · rw [if_pos h]
      refine ⟨n.digitChar, [], rfl, ?_⟩
      rw [Ne, Nat.digitChar_eq_zero]
      omega
    · obtain ⟨c, ds, he, hc⟩ := ih (n / 10) (by omega) (by omega)
      rw [if_neg h, he]
      exact ⟨c, ds ++ [(n % 10).digitChar], rfl, hc⟩

/-! ## Numbers -/

theorem readIntEnd_of_ends (negative : Bool) (n : Nat) {rest : List Char} (hr : EndsNumber rest) :
    readIntEnd negative n rest = .ok (makeInt negative n, rest) := by
  cases rest with
  | nil => rfl
  | cons c rest =>
    obtain ⟨-, hp, he, hE⟩ := hr c rfl
    unfold readIntEnd
    split
    all_goals simp_all

/-- **The digits of a number that fits are read as that number.** -/
theorem readNumber_digits (negative : Bool) {n : Nat} (hn : n ≤ greatestSignificand)
    {rest : List Char} (hr : EndsNumber rest) :
    readNumber negative (Nat.toDigits 10 n ++ rest) = .ok (makeInt negative n, rest) := by
  rcases Nat.eq_zero_or_pos n with rfl | hpos
  · rw [Nat.toDigits_zero, List.singleton_append, readNumber, hr.digitNext, if_neg (by decide),
      readIntEnd_of_ends negative 0 hr]
  · obtain ⟨c, ds, he, hc⟩ := exists_digits hpos
    have hd : ∀ d ∈ c :: ds, d.isDigit = true := fun d hm =>
      Nat.isDigit_of_mem_toDigits (by decide) (by decide) (he ▸ hm)
    have hv : Nat.ofDigitChars 10 ds (digitValue c) = n := by
      have h := Nat.ofDigitChars_ten_toDigits (n := n)
      rw [he, Nat.ofDigitChars_cons, Nat.mul_zero, Nat.zero_add] at h
      exact h
    have hg := gather_digits (fun d hm => hd d (List.mem_cons_of_mem _ hm)) hr.digitNext
      (digitValue c) 0 (hv ▸ hn)
    rw [he, List.cons_append, readNumber]
    · rw [if_pos (hd c List.mem_cons_self), hg, hv]
      simp only [hr.digitNext]
      exact readIntEnd_of_ends negative n hr
    · exact hc

/-- The text of a whole number. -/
theorem toList_toString (n : Int) :
    (toString n).toList =
      if n < 0 then '-' :: Nat.toDigits 10 n.natAbs else Nat.toDigits 10 n.natAbs := by
  cases n with
  | ofNat k =>
    have hk : ¬Int.ofNat k < 0 := Int.not_lt.2 (Int.natCast_nonneg k)
    rw [if_neg hk]
    exact Nat.toList_repr
  | negSucc k =>
    rw [if_pos (Int.negSucc_lt_zero k)]
    show ("-" ++ (k + 1).repr).toList = '-' :: Nat.toDigits 10 (k + 1)
    rw [String.toList_append, Nat.toList_repr]
    rfl

theorem isGap_of_isDigit {c : Char} (hc : c.isDigit = true) : isGap c = false := by
  simp only [isGap, Bool.or_eq_false_iff, beq_eq_false_iff_ne]
  refine ⟨⟨⟨?_, ?_⟩, ?_⟩, ?_⟩ <;> (rintro rfl; revert hc; decide)

theorem skipGap_of_not_gap {c : Char} (h : isGap c = false) (s : List Char) :
    skipGap (c :: s) = c :: s := by
  simp [skipGap, h]

/-- A digit leads to reading a number. -/
theorem readValue_digit (size depth : Nat) {c : Char} (hc : c.isDigit = true) (rest : List Char) :
    readValue size depth (c :: rest) = readNumber false (c :: rest) := by
  have hg : skipGap (c :: rest) = c :: rest := skipGap_of_not_gap (isGap_of_isDigit hc) rest
  unfold readValue
  rw [hg]
  simp only
  split
  all_goals first | exact absurd hc (by decide) | exact if_pos hc

/-- **A whole number in range is read back**, whatever follows it that ends a number. -/
theorem readValue_int (size depth : Nat) {n : Int} (hl : Value.leastInt ≤ n)
    (hg : n ≤ Value.greatestInt) {rest : List Char} (hr : EndsNumber rest) :
    readValue size depth ((toString n).toList ++ rest) = .ok (.int n, rest) := by
  unfold Value.leastInt at hl
  unfold Value.greatestInt at hg
  rw [toList_toString]
  by_cases hn : n < 0
  · have hm : makeInt true n.natAbs = .int n := by
      rw [makeInt, if_pos rfl, if_pos (by omega)]
      congr 1
      omega
    rw [if_pos hn, List.cons_append, ← hm,
      ← readNumber_digits true (show n.natAbs ≤ greatestSignificand by
        unfold greatestSignificand; omega) hr]
    unfold readValue
    rfl
  · have hm : makeInt false n.natAbs = .int n := by
      rw [makeInt, if_neg Bool.false_ne_true]
      congr 1
      omega
    have hs : n.natAbs ≤ greatestSignificand := by
      unfold greatestSignificand
      omega
    rw [if_neg hn, ← hm, ← readNumber_digits false hs hr]
    obtain ⟨c, ds, hd⟩ := List.exists_cons_of_ne_nil (Nat.toDigits_ne_nil (n := n.natAbs) (b := 10))
    have hc : c.isDigit = true :=
      Nat.isDigit_of_mem_toDigits (by decide) (by decide) (hd ▸ List.mem_cons_self)
    rw [hd]
    exact readValue_digit size depth hc _

end ScriptWorker.Json

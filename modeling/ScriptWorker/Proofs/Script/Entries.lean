import Mathlib.Data.List.Basic
import ScriptWorker.Proofs.Script.Keys

/-!
# Entries of tables

A table lists the entries that its keys find (`exists_entry_of_find`, `find_text_iff`), each string
once (`pairwise_toList`).
-/

set_option autoImplicit false

namespace ScriptWorker.Script.Table

/-- The items of the array come first, and then what is kept beside it. -/
theorem toList_eq (t : Table) : ∃ front, t.toList = front ++ t.live ∧ ∀ e, e ∈ front ↔
    ∃ i, ∃ h : i < t.items.size, t.items[i].isNil = false ∧
      e = (.int (Int64.ofNat (i + 1)), t.items[i]) := by
  refine ⟨_, rfl, fun e => ?_⟩
  rw [List.mem_filterMap]
  constructor
  · rintro ⟨⟨v, n⟩, hv, he⟩
    obtain ⟨hl, hu, hi⟩ := List.mem_zipIdx hv
    rw [Array.length_toList] at hu
    have hn : n = (n - 1) + 1 := by omega
    simp only at he hi
    split_ifs at he with hnil
    cases he
    rw [Array.getElem_toList] at hi
    refine ⟨n - 1, by omega, ?_, ?_⟩
    · rw [← hi]
      exact Bool.eq_false_iff.2 hnil
    · rw [← hi, ← hn]
  · rintro ⟨i, hi, hnil, rfl⟩
    refine ⟨(t.items[i], i + 1), ?_, by simp [hnil]⟩
    rw [List.mem_iff_getElem]
    refine ⟨i, by simpa using hi, ?_⟩
    simp [Nat.add_comm]

theorem mem_toList_iff {t : Table} {e : Key × Value} :
    e ∈ t.toList ↔
      (∃ i, ∃ h : i < t.items.size, t.items[i].isNil = false ∧
        e = (.int (Int64.ofNat (i + 1)), t.items[i])) ∨
      e ∈ t.entries.toList ∧ e.2.isNil = false := by
  obtain ⟨front, hlist, hfront⟩ := toList_eq t
  rw [hlist, List.mem_append, hfront, live, List.mem_filter, Bool.not_eq_true']

/-- What is kept by a key beside the array is listed, under a key that is the same. -/
theorem exists_of_getD {t : Table} {k : Key} (h : (t.entries.getD k .nil).isNil = false) :
    ∃ k', Key.order k' k = .eq ∧ (k', t.entries.getD k .nil) ∈ t.entries.toList := by
  rw [Std.TreeMap.getD_eq_getD_getElem?] at h ⊢
  cases hk : t.entries[k]? with
  | none =>
    rw [hk] at h
    cases h
  | some v =>
    rw [Std.TreeMap.getElem?_eq_some_iff_exists_compare_eq_eq_and_mem_toList] at hk
    obtain ⟨k', hk', hm⟩ := hk
    exact ⟨k', Std.OrientedCmp.eq_symm hk', hm⟩

theorem place?_eq_some {size i : Nat} {n : Int64} (h : place? size n = some i) :
    i < size ∧ n.toInt = (i + 1 : Nat) := by
  unfold place? at h
  simp only at h
  split_ifs at h with hn
  cases h
  omega

theorem eq_ofNat_of_toInt {n : Int64} {m : Nat} (h : n.toInt = m) : n = Int64.ofNat m := by
  rw [← Int64.ofInt_toInt n, h]
  rfl

/-- What a key finds is listed, under a key that is the same. -/
theorem exists_entry_of_find {t : Table} {k : Key} (h : (t.find k).isNil = false) :
    ∃ k', Key.order k' k = .eq ∧ (k', t.find k) ∈ t.toList := by
  have beside : t.find k = t.entries.getD k .nil →
      ∃ k', Key.order k' k = .eq ∧ (k', t.find k) ∈ t.toList := by
    intro hf
    rw [hf] at h ⊢
    obtain ⟨k', hk', hm⟩ := exists_of_getD h
    exact ⟨k', hk', mem_toList_iff.2 (.inr ⟨hm, h⟩)⟩
  cases k with
  | int n =>
    cases hp : place? t.items.size n with
    | none => exact beside (by rw [find, hp])
    | some i =>
      obtain ⟨hi, hn⟩ := place?_eq_some hp
      have hf : t.find (.int n) = t.items[i] := by
        rw [find, hp]
        simp [hi]
      refine ⟨.int n, Std.ReflCmp.compare_self, ?_⟩
      rw [hf] at h ⊢
      exact mem_toList_iff.2 (.inl ⟨i, hi, h, by rw [eq_ofNat_of_toInt hn]⟩)
  | _ => exact beside rfl

theorem find_text_iff {t : Table} {s : Bytes} {v : Value} (hv : v.isNil = false) :
    t.find (.str s) = v ↔ (.str s, v) ∈ t.toList := by
  constructor
  · rintro rfl
    obtain ⟨k, hk, hm⟩ := exists_entry_of_find hv
    cases k with
    | str s' =>
      obtain rfl := Key.eq_of_order_str hk
      exact hm
    | _ => cases hk
  · intro hm
    rcases mem_toList_iff.1 hm with ⟨i, hi, -, he⟩ | ⟨hm, -⟩
    · cases he
    · obtain ⟨-, hg⟩ :=
        Std.TreeMap.mem_toList_iff_getKey?_eq_some_and_getElem?_eq_some.1 hm
      show t.entries.getD (.str s) .nil = v
      rw [Std.TreeMap.getD_eq_getD_getElem?, hg, Option.getD_some]

/-- A table lists each string once. -/
theorem pairwise_toList (t : Table) :
    t.toList.Pairwise fun a b => ∀ s, a.1 = .str s → b.1 ≠ .str s := by
  obtain ⟨front, hlist, hfront⟩ := toList_eq t
  have hitem : ∀ e ∈ front, ∀ s, e.1 ≠ Key.str s := by
    intro e he s hs
    obtain ⟨i, hi, -, rfl⟩ := (hfront e).1 he
    cases hs
  rw [hlist, List.pairwise_append]
  refine ⟨List.pairwise_of_forall_mem_list fun a ha b _ s hs => absurd hs (hitem a ha s), ?_,
    fun a ha b _ s hs => absurd hs (hitem a ha s)⟩
  refine (Std.TreeMap.distinct_keys_toList.imp ?_).filter _
  intro a b hne s hs hs'
  rw [hs, hs'] at hne
  exact hne Std.ReflCmp.compare_self

end ScriptWorker.Script.Table

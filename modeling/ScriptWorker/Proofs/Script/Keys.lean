import ScriptWorker.Script.Table

/-!
# The order of keys

Keys are compared as lists of numbers are that tell them apart (`order_eq`), so their order is one
(`transCmp_order`), and a table keeps what is put in under keys that differ
(`toList_insertAll`).
-/

set_option autoImplicit false

namespace ScriptWorker.Script

/-! ## Strings -/

/-- The bytes of a string as numbers. -/
def octets (s : Bytes) : List Int := s.data.toList.map fun b => (b.toNat : Int)

theorem length_octets (s : Bytes) : (octets s).length = s.size :=
  (List.length_map _).trans Array.length_toList

theorem octets_inj {s t : Bytes} (h : octets s = octets t) : s = t := by
  have hf : ∀ a b : UInt8, (a.toNat : Int) = b.toNat → a = b := fun a b hab =>
    UInt8.toNat_inj.1 (Int.ofNat_inj.1 hab)
  exact ByteArray.ext (Array.toList_inj.1 ((List.map_inj_right hf).1 h))

theorem drop_octets (s : Bytes) (i : Nat) :
    (octets s).drop i =
      match byteAt? s i with
      | some b => (b.toNat : Int) :: (octets s).drop (i + 1)
      | none => [] := by
  unfold byteAt?
  by_cases h : i < s.size
  · rw [dif_pos h, List.drop_eq_getElem_cons (by rwa [length_octets])]
    simp [octets]
    rfl
  · rw [dif_neg h, List.drop_eq_nil_of_le (by rw [length_octets]; omega)]

theorem byteAt?_some {s : Bytes} {i : Nat} {b : UInt8} (h : byteAt? s i = some b) : i < s.size := by
  unfold byteAt? at h
  split at h
  · assumption
  · cases h

theorem compare_byte (a b : UInt8) (o : Ordering) :
    (if a < b then .lt else if b < a then .gt else o) =
      (compare (a.toNat : Int) b.toNat).then o := by
  simp only [UInt8.lt_iff_toNat_lt]
  rcases Nat.lt_trichotomy a.toNat b.toNat with h | h | h
  · rw [if_pos h, Int.compare_eq_lt.2 (Int.ofNat_lt.2 h), Ordering.lt_then]
  · rw [h, if_neg (Nat.lt_irrefl _), if_neg (Nat.lt_irrefl _), Std.ReflOrd.compare_self,
      Ordering.eq_then]
  · rw [if_neg (Nat.lt_asymm h), if_pos h, Int.compare_eq_gt.2 (Int.ofNat_lt.2 h), Ordering.gt_then]

theorem compareFrom_eq (s t : Bytes) (fuel i : Nat) (h : s.size - i + (t.size - i) ≤ fuel) :
    compareFrom s t fuel i = compare ((octets s).drop i) ((octets t).drop i) := by
  induction fuel generalizing i with
  | zero =>
    rw [List.drop_eq_nil_of_le (by rw [length_octets]; omega),
      List.drop_eq_nil_of_le (by rw [length_octets]; omega)]
    rfl
  | succ fuel ih =>
    rw [compareFrom, drop_octets s, drop_octets t]
    cases hs : byteAt? s i with
    | none => cases byteAt? t i <;> rfl
    | some a =>
      cases ht : byteAt? t i with
      | none => rfl
      | some b =>
        have := byteAt?_some hs
        simp only [List.compare_cons_cons, compare_byte, ih (i + 1) (by omega)]

theorem compareBytes_eq (s t : Bytes) : compareBytes s t = compare (octets s) (octets t) :=
  compareFrom_eq s t _ 0 (Nat.le_refl _)

/-! ## Keys -/

/-- Numbers that tell a key apart: its kind's, then its own. -/
def Key.numbers : Key → List Int
  | .int n => [0, n.toInt]
  | .str s => 1 :: octets s
  | .float x => [2, x.toNat]
  | .bool b => [3, b.toNat]
  | .table id => [4, id]
  | .closure id => [5, id]
  | .builtin f m => [6, f.ctorIdx, m]
  | .thread id => [7, id]
  | .null => [8]
  | .file id => [9, id]
  | .fault m => 10 :: octets (bytes m)

theorem compare_cast (m n : Nat) : compare m n = compare (m : Int) n := by
  rcases Nat.lt_trichotomy m n with h | rfl | h
  · rw [Nat.compare_eq_lt.2 h, Int.compare_eq_lt.2 (Int.ofNat_lt.2 h)]
  · rw [Std.compare_self, Std.compare_self]
  · rw [Nat.compare_eq_gt.2 h, Int.compare_eq_gt.2 (Int.ofNat_lt.2 h)]

/-- **Keys are compared as their numbers are.** -/
theorem Key.order_eq (a b : Key) : Key.order a b = compare a.numbers b.numbers := by
  -- keys of different kinds are told apart by the first number
  cases a <;> cases b
  all_goals first
    | rfl
    | simp only [Key.order, Key.numbers, compare_cast, compareBytes_eq, List.compare_cons_cons,
        Ordering.then_eq, Std.compare_self, Ordering.eq_then]

/-- The order of keys is one. -/
instance transCmp_order : Std.TransCmp Key.order := by
  have h : Key.order = compareOn Key.numbers := by
    funext a b
    exact Key.order_eq a b
  rw [h]
  infer_instance

theorem Key.eq_of_order_str {s t : Bytes} (h : Key.order (.str s) (.str t) = .eq) : s = t := by
  rw [Key.order, compareBytes_eq] at h
  exact octets_inj (Std.compare_eq_iff_eq.1 h)

/-! ## Entries -/

/-- Keys are the same if neither comes first. -/
instance : BEq Key := ⟨fun a b => Key.order a b == .eq⟩

instance : Std.LawfulBEqCmp Key.order := ⟨beq_iff_eq.symm⟩

/-- The entries of a table after more have been put in. -/
def insertAll (entries : Std.TreeMap Key Value Key.order) (es : List (Key × Value)) :
    Std.TreeMap Key Value Key.order :=
  es.foldl (fun entries e => entries.insert e.1 e.2) entries

/-- **Entries under keys that differ are kept**, in some order. -/
theorem toList_insertAll {entries : Std.TreeMap Key Value Key.order} {es : List (Key × Value)}
    (h : (es ++ entries.toList).Pairwise fun a b => Key.order a.1 b.1 ≠ .eq) :
    (insertAll entries es).toList.Perm (es ++ entries.toList) := by
  induction es generalizing entries with
  | nil => exact .refl _
  | cons e es ih =>
    obtain ⟨k, v⟩ := e
    rw [List.cons_append, List.pairwise_cons] at h
    have hf : entries.toList.filter (fun x => decide ¬(k == x.1) = true) = entries.toList := by
      refine List.filter_eq_self.2 fun x hx => decide_eq_true fun hk => ?_
      exact h.1 x (List.mem_append_right _ hx) (beq_iff_eq.1 hk)
    have hi : (entries.insert k v).toList.Perm ((k, v) :: entries.toList) := by
      have hp := Std.TreeMap.toList_insert_perm (t := entries) (k := k) (v := v)
      rwa [hf] at hp
    have hp : (es ++ (entries.insert k v).toList).Perm ((k, v) :: (es ++ entries.toList)) :=
      (hi.append_left es).trans List.perm_middle
    have hd : (es ++ (entries.insert k v).toList).Pairwise fun a b => Key.order a.1 b.1 ≠ .eq := by
      refine (hp.pairwise_iff fun hne he => hne ?_).2 (List.pairwise_cons.2 h)
      exact Std.OrientedCmp.eq_symm he
    exact (ih hd).trans hp

theorem getD_insertAll {entries : Std.TreeMap Key Value Key.order} {es : List (Key × Value)}
    {k : Key} (h : ∀ e ∈ es, Key.order e.1 k ≠ .eq) (fallback : Value) :
    (insertAll entries es).getD k fallback = entries.getD k fallback := by
  induction es generalizing entries with
  | nil => rfl
  | cons e es ih =>
    refine (ih fun e he => h e (List.mem_cons_of_mem _ he)).trans ?_
    rw [Std.TreeMap.getD_insert, if_neg (h e List.mem_cons_self)]

end ScriptWorker.Script

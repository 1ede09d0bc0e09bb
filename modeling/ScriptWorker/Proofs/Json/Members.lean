import ScriptWorker.Json.Value

/-!
# Members in order

Members with different keys come out of `ofMembers` sorted by key, whatever their order was
(`foldr_insertNew`), and each is found by its key (`lookup_foldr_insertNew`). So a sorted list of
members is what comes of each rearrangement of it (`ofMembers_of_perm`).
-/

set_option autoImplicit false

namespace ScriptWorker.Json.Value

/-- Members sorted by key, each key once. -/
def Sorted (members : List (String × Value)) : Prop := members.Pairwise fun m n => m.1 < n.1

theorem sorted_of_keys {members : List (String × Value)}
    (h : (members.map (·.1)).Pairwise (· < ·)) : Sorted members :=
  List.pairwise_map.1 h

theorem Sorted.nodup {members : List (String × Value)} (h : Sorted members) :
    members.Pairwise fun m n => m.1 ≠ n.1 := by
  refine List.Pairwise.imp ?_ h
  intro m n hlt he
  rw [he] at hlt
  exact String.lt_irrefl _ hlt

theorem insertNew_perm {key : String} (value : Value) {members : List (String × Value)}
    (h : ∀ m ∈ members, m.1 ≠ key) :
    (insertNew key value members).Perm ((key, value) :: members) := by
  induction members with
  | nil => exact .refl _
  | cons m members ih =>
    obtain ⟨k, v⟩ := m
    have hk : k ≠ key := h (k, v) List.mem_cons_self
    rw [insertNew]
    split
    · exact .refl _
    · rw [if_neg hk.symm]
      exact ((ih fun m hm => h m (List.mem_cons_of_mem _ hm)).cons _).trans (.swap ..)

theorem insertNew_sorted {key : String} (value : Value) {members : List (String × Value)}
    (h : ∀ m ∈ members, m.1 ≠ key) (hs : Sorted members) :
    Sorted (insertNew key value members) := by
  induction members with
  | nil => exact List.pairwise_singleton _ _
  | cons m members ih =>
    obtain ⟨k, v⟩ := m
    have hk : k ≠ key := h (k, v) List.mem_cons_self
    have ht : ∀ m ∈ members, m.1 ≠ key := fun m hm => h m (List.mem_cons_of_mem _ hm)
    obtain ⟨hf, hs'⟩ := List.pairwise_cons.1 hs
    rw [insertNew]
    split
    · rename_i hlt
      refine List.pairwise_cons.2 ⟨fun m hm => ?_, hs⟩
      rcases List.mem_cons.1 hm with rfl | hm
      · exact hlt
      · exact String.lt_trans hlt (hf m hm)
    · rename_i hlt
      rw [if_neg hk.symm]
      refine List.pairwise_cons.2 ⟨fun m hm => ?_, ih ht hs'⟩
      rcases List.mem_cons.1 ((insertNew_perm value ht).mem_iff.1 hm) with rfl | hm
      · exact Decidable.of_not_not fun hn =>
          hk (String.le_antisymm (String.not_lt.1 hlt) (String.not_lt.1 hn))
      · exact hf m hm

theorem foldr_insertNew {members : List (String × Value)}
    (h : members.Pairwise fun m n => m.1 ≠ n.1) :
    let sorted := members.foldr (fun (k, v) sorted => insertNew k v sorted) []
    sorted.Perm members ∧ Sorted sorted := by
  induction members with
  | nil => exact ⟨.refl _, .nil⟩
  | cons m members ih =>
    obtain ⟨hm, ht⟩ := List.pairwise_cons.1 h
    obtain ⟨hp, hs⟩ := ih ht
    have hk : ∀ n ∈ members.foldr (fun (k, v) sorted => insertNew k v sorted) [], n.1 ≠ m.1 :=
      fun n hn => (hm n (hp.mem_iff.1 hn)).symm
    exact ⟨(insertNew_perm m.2 hk).trans (hp.cons _), insertNew_sorted m.2 hk hs⟩

/-- **Sorted members come of each rearrangement of them.** -/
theorem ofMembers_of_perm {members sorted : List (String × Value)} (h : members.Perm sorted)
    (hs : Sorted sorted) : ofMembers members = .object sorted := by
  obtain ⟨hp, hs'⟩ := foldr_insertNew ((h.pairwise_iff fun hne => hne.symm).2 hs.nodup)
  have he := (hp.trans h).eq_of_pairwise
    (fun m n _ _ hmn hnm => absurd hnm (String.lt_asymm hmn)) hs' hs
  rw [ofMembers, he]

theorem lookup_eq_some_iff {members : List (String × Value)}
    (h : members.Pairwise fun m n => m.1 ≠ n.1) {key : String} {value : Value} :
    members.lookup key = some value ↔ (key, value) ∈ members := by
  induction members with
  | nil => simp
  | cons m members ih =>
    obtain ⟨k, v⟩ := m
    obtain ⟨hk, ht⟩ := List.pairwise_cons.1 h
    by_cases he : key = k
    · subst he
      have hn : (key, value) ∉ members := fun hm => hk _ hm rfl
      simp [hn, eq_comm]
    · have hb : (key == k) = false := beq_eq_false_iff_ne.2 he
      simp [List.lookup_cons, hb, ih ht, he]

/-- Members with different keys are all found in the object. -/
theorem lookup_foldr_insertNew {members : List (String × Value)}
    (h : members.Pairwise fun m n => m.1 ≠ n.1) {key : String} {value : Value} :
    (members.foldr (fun (k, v) sorted => insertNew k v sorted) []).lookup key = some value ↔
      (key, value) ∈ members := by
  obtain ⟨hp, hs⟩ := foldr_insertNew h
  rw [lookup_eq_some_iff hs.nodup, hp.mem_iff]

end ScriptWorker.Json.Value

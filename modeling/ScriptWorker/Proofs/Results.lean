/-!
# Results of several steps

Steps that may fail, one after the other: what a chain of them comes to (`bind_eq_ok`,
`bind_eq_error`), and what a step for each item of a list comes to (`mapM_eq_ok_iff`).
-/

set_option autoImplicit false

namespace ScriptWorker

section

variable {ε α β : Type} {x : Except ε α} {k : α → Except ε β}

theorem bind_eq_ok {b : β} (h : x >>= k = .ok b) : ∃ a, x = .ok a ∧ k a = .ok b := by
  cases x with
  | error e => cases h
  | ok a => exact ⟨a, rfl, h⟩

theorem bind_eq_error {e : ε} (h : x >>= k = .error e) :
    x = .error e ∨ ∃ a, x = .ok a ∧ k a = .error e := by
  cases x with
  | error e' =>
    cases h
    exact .inl rfl
  | ok a => exact .inr ⟨a, rfl, h⟩

theorem map_eq_ok_iff {f : α → β} {b : β} : x.map f = .ok b ↔ ∃ a, x = .ok a ∧ f a = b := by
  cases x <;> simp [Except.map]

theorem mapError_eq_ok {ε' : Type} {f : ε → ε'} {a : α} : x.mapError f = .ok a ↔ x = .ok a := by
  cases x with
  | error e => exact ⟨fun h => (nomatch h), fun h => (nomatch h)⟩
  | ok b => exact ⟨fun h => congrArg _ (Except.ok.inj h), fun h => congrArg _ (Except.ok.inj h)⟩

theorem eq_ok_getD (h : x.toOption.isSome = true) (d : α) : x = .ok (x.toOption.getD d) := by
  cases x with
  | error e => cases h
  | ok a => rfl

theorem eq_ok_of_toOption {a : α} (h : x.toOption = some a) : x = .ok a := by
  cases x with
  | error e => cases h
  | ok b => exact congrArg _ (Option.some.inj h)

end

/-- What a check of the result says if it holds. -/
theorem exists_of_any {ε : Type _} {α : Type _} {x : Except ε α} {p : α → Bool}
    (h : x.toOption.any p = true) : ∃ a, x = .ok a ∧ p a := by
  cases x with
  | error e => cases h
  | ok a => exact ⟨a, rfl, h⟩

/-! ## A step for each item -/

section

variable {ε α β : Type} {f g : α → Except ε β} {l : List α}

/-- **A list of steps succeeds with the results of its steps.** -/
theorem mapM_eq_ok_iff {r : List β} : l.mapM f = .ok r ↔ l.map f = r.map .ok := by
  induction l generalizing r with
  | nil => cases r <;> simp [pure, Except.pure]
  | cons a l ih =>
    rw [List.mapM_cons, List.map_cons]
    constructor
    · intro h
      obtain ⟨b, hb, h⟩ := bind_eq_ok h
      obtain ⟨r', hr, h⟩ := bind_eq_ok h
      cases h
      rw [hb, ih.1 hr, List.map_cons]
    · intro h
      obtain ⟨b, r, rfl, hb, hr⟩ := List.map_eq_cons_iff.1 h.symm
      rw [← hb, ih.2 hr.symm]
      rfl

theorem eq_ok_of_map {r : List β} (h : l.map f = r.map .ok) {i : Nat} (hl : i < l.length)
    (hr : i < r.length) : f l[i] = .ok r[i] := by
  have hi := congrArg (·[i]?) h
  simpa [List.getElem?_eq_getElem hl, List.getElem?_eq_getElem hr] using hi

theorem exists_mapM (h : ∀ a ∈ l, ∃ b, f a = .ok b) : ∃ r, l.mapM f = .ok r := by
  induction l with
  | nil => exact ⟨[], rfl⟩
  | cons a l ih =>
    obtain ⟨b, hb⟩ := h a List.mem_cons_self
    obtain ⟨r, hr⟩ := ih fun a ha => h a (List.mem_cons_of_mem _ ha)
    refine ⟨b :: r, ?_⟩
    rw [List.mapM_cons, hb, hr]
    rfl

theorem mapM_congr (h : ∀ a ∈ l, f a = g a) : l.mapM f = l.mapM g := by
  induction l with
  | nil => rfl
  | cons a l ih =>
    rw [List.mapM_cons, List.mapM_cons, h a List.mem_cons_self,
      ih fun a ha => h a (List.mem_cons_of_mem _ ha)]

/-- What comes of a list comes of each rearrangement, rearranged. -/
theorem mapM_of_perm [Inhabited β] {l' : List α} {r : List β} (hp : l.Perm l')
    (h : l'.map f = r.map .ok) : ∃ r', l.mapM f = .ok r' ∧ r'.Perm r := by
  let g (a : α) : β := (f a).toOption.getD default
  have hg : ∀ a ∈ l', f a = .ok (g a) := by
    intro a ha
    obtain ⟨b, -, hb⟩ := List.mem_map.1 (h ▸ List.mem_map_of_mem ha)
    simp only [g, ← hb, Except.toOption, Option.getD_some]
  have hr : l'.map g = r := by
    have hl : (l'.map g).map (Except.ok : β → Except ε β) = r.map .ok := by
      rw [List.map_map]
      exact (List.map_congr_left hg).symm.trans h
    exact (List.map_inj_right fun _ _ => Except.ok.inj).1 hl
  refine ⟨l.map g, mapM_eq_ok_iff.2 ?_, hr ▸ hp.map g⟩
  rw [List.map_map]
  exact List.map_congr_left fun a ha => hg a (hp.mem_iff.1 ha)

end

end ScriptWorker

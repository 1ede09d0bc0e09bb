import Mathlib.Data.List.TakeWhile
import ScriptWorker.Text.Blank

/-!
# Texts without blanks around them

Trimming takes the blanks off both ends of a text (`exists_around`, `trimmed_trim`) and nothing more
(`trim_around`), so a text is trimmed as it is just if it neither starts nor ends with a blank
(`trim_eq_self_iff`).
-/

set_option autoImplicit false

namespace ScriptWorker.Text

/-- A text that neither starts nor ends with a blank. -/
structure Trimmed (s : List Char) : Prop where
  head : ∀ c ∈ s.head?, isBlank c = false
  last : ∀ c ∈ s.getLast?, isBlank c = false

/-- What is left when characters of a kind are dropped starts with none of them. -/
theorem head?_dropWhile (p : Char → Bool) (s : List Char) :
    ∀ c ∈ (s.dropWhile p).head?, p c = false := by
  intro c hc
  have h := List.head?_dropWhile_not p s
  rw [hc] at h
  exact h

/-- A trimmed text ends with no blank. -/
theorem getLast?_trim (s : List Char) : ∀ c ∈ (trim s).getLast?, isBlank c = false := by
  rw [trim, List.getLast?_reverse]
  exact head?_dropWhile _ _

/-- A trimmed text starts with no blank. -/
theorem head?_trim (s : List Char) : ∀ c ∈ (trim s).head?, isBlank c = false := by
  intro c hc
  rw [trim, List.head?_reverse] at hc
  have hsplit := List.takeWhile_append_dropWhile (p := isBlank) (l := (s.dropWhile isBlank).reverse)
  have hlast := congrArg List.getLast? hsplit
  rw [List.getLast?_append, hc, List.getLast?_reverse] at hlast
  exact head?_dropWhile _ s c hlast.symm

theorem trimmed_trim (s : List Char) : Trimmed (trim s) := ⟨head?_trim s, getLast?_trim s⟩

theorem dropWhile_eq_self {p : Char → Bool} {s : List Char} (hs : ∀ c ∈ s.head?, p c = false) :
    s.dropWhile p = s := by
  cases s with
  | nil => rfl
  | cons c s => exact List.dropWhile_cons_of_neg (by rw [hs c rfl]; decide)

/-- Characters of a kind are dropped up to the first one that is not. -/
theorem dropWhile_around {p : Char → Bool} {front s : List Char} (hf : ∀ b ∈ front, p b = true)
    (hs : ∀ c ∈ s.head?, p c = false) : (front ++ s).dropWhile p = s := by
  rw [List.dropWhile_append_of_pos hf, dropWhile_eq_self hs]

/-- Trimming takes away just the blanks around a text that neither starts nor ends with one. -/
theorem trim_around {front back s : List Char} (hf : ∀ b ∈ front, isBlank b = true)
    (hb : ∀ b ∈ back, isBlank b = true) (hs : Trimmed s) : trim (front ++ s ++ back) = s := by
  cases s with
  | nil =>
    have hall : ∀ b ∈ front ++ back, isBlank b = true := fun b hm =>
      (List.mem_append.1 hm).elim (hf b) (hb b)
    rw [List.append_nil, trim, List.dropWhile_eq_nil_iff.2 hall]
    rfl
  | cons c s =>
    have hleft : (front ++ (c :: s) ++ back).dropWhile isBlank = c :: s ++ back := by
      rw [List.append_assoc]
      exact dropWhile_around hf fun d hd => hs.head d hd
    have hright : (c :: s ++ back).reverse.dropWhile isBlank = (c :: s).reverse := by
      rw [List.reverse_append]
      refine dropWhile_around (fun b hm => hb b (List.mem_reverse.1 hm)) fun d hd => hs.last d ?_
      rwa [List.head?_reverse] at hd
    rw [trim, hleft, hright, List.reverse_reverse]

theorem Trimmed.trim_eq {s : List Char} (hs : Trimmed s) : trim s = s := by
  have h : trim ([] ++ s ++ []) = s := trim_around nofun nofun hs
  rwa [List.nil_append, List.append_nil] at h

theorem trim_eq_self_iff {s : List Char} : trim s = s ↔ Trimmed s :=
  ⟨fun h => h ▸ trimmed_trim s, Trimmed.trim_eq⟩

/-- A text is what trimming leaves of it, with blanks around that. -/
theorem exists_around (s : List Char) : ∃ front back, (∀ b ∈ front, isBlank b = true) ∧
    (∀ b ∈ back, isBlank b = true) ∧ s = front ++ trim s ++ back := by
  refine ⟨s.takeWhile isBlank, ((s.dropWhile isBlank).reverse.takeWhile isBlank).reverse,
    fun b => List.mem_takeWhile_imp, fun b hb => List.mem_takeWhile_imp (List.mem_reverse.1 hb), ?_⟩
  have hback := List.takeWhile_append_dropWhile (p := isBlank) (l := (s.dropWhile isBlank).reverse)
  have hrest := congrArg List.reverse hback
  rw [List.reverse_append, List.reverse_reverse] at hrest
  rw [trim, List.append_assoc, hrest, List.takeWhile_append_dropWhile]

theorem length_trim_le (s : List Char) : (trim s).length ≤ s.length := by
  obtain ⟨front, back, -, -, hs⟩ := exists_around s
  have hlen := congrArg List.length hs
  rw [List.length_append, List.length_append] at hlen
  omega

end ScriptWorker.Text

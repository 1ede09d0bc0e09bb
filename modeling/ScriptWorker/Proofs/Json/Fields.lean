import ScriptWorker.Json.Record
import ScriptWorker.Proofs.Json.Reading

/-!
# Reading the fields of a record

A field that wants a string, or a string or `null`, gets it where that is what is written, and
refuses any other value (`gives_readText`, `gives_readTextOrNull`).
-/

set_option autoImplicit false

namespace ScriptWorker.Json

/-! ## Readers one after the other -/

theorem Gives.bind {α β : Type} {x? : Option α} {rest rest' : List Char}
    {r : Reading (α × List Char)} {g : α → Option β}
    {f : α × List Char → Reading (β × List Char)} (h : Gives x? rest r)
    (hf : ∀ x, Gives (g x) rest' (f (x, rest))) : Gives (x?.bind g) rest' (r.bind f) := by
  cases x? with
  | none =>
    obtain ⟨stop, rfl⟩ := h
    exact ⟨stop, rfl⟩
  | some x =>
    obtain rfl : r = .ok (x, rest) := h
    exact hf x

theorem Gives.map {α β : Type} {x? : Option α} {rest : List Char} {r : Reading (α × List Char)}
    (h : Gives x? rest r) (f : α → β) :
    Gives (x?.map f) rest (r.bind fun found => .ok (f found.1, found.2)) := by
  rw [Option.map_eq_bind]
  exact h.bind fun _ => rfl

theorem Gives.mapError {α : Type} {x? : Option α} {rest : List Char} {r : Reading (α × List Char)}
    (h : Gives x? rest r) (f : Stop → Stop) : Gives x? rest (r.mapError f) := by
  cases x? with
  | none =>
    obtain ⟨stop, rfl⟩ := h
    exact ⟨f stop, rfl⟩
  | some x =>
    obtain rfl : r = .ok (x, rest) := h
    rfl

/-- A reader that only says why it stops stops. -/
theorem bind_error {α β : Type} (r : Reading α) {f : α → Reading β}
    (h : ∀ a, ∃ stop, f a = .error stop) : ∃ stop, r.bind f = .error stop := by
  cases r with
  | error stop => exact ⟨stop, rfl⟩
  | ok a => exact h a

/-- Where a value of another type stands, reading stops. -/
theorem stopForType_error {α : Type} (size : Nat) (wanted : String) (s : List Char) :
    ∃ stop, (stopForType size wanted s : Reading α) = .error stop := by
  unfold stopForType
  split
  case h_4 => exact bind_error _ fun ⟨v, _⟩ => by cases v <;> exact ⟨_, rfl⟩
  case h_8 =>
    split
    · exact bind_error _ fun ⟨v, _⟩ => by cases v <;> exact ⟨_, rfl⟩
    · exact ⟨_, rfl⟩
  all_goals first | exact ⟨_, rfl⟩ | exact bind_error _ fun _ => ⟨_, rfl⟩

namespace Written

/-- The string that is written, if it is one. -/
def text? : Written → Option String
  | .string gs => Glyph.string? gs
  | _ => none

/-- The string or `null` that is written, if it is one of them. -/
def textOrNull? : Written → Option (Option String)
  | .null => some none
  | .string gs => (Glyph.string? gs).map some
  | _ => none

end Written

section

variable {size : Nat} {w : Written} {v : Value} (hv : w.value? = some v)
  (hsize : w.text.length < size) (front : Gap) (rest : List Char)

include hv hsize

theorem gives_readText (wanted : String) :
    Gives w.text? rest (readText size wanted (front.1 ++ (w.text ++ rest))) := by
  rw [readText, skipGap_append]
  by_cases hw : ∃ gs, w = .string gs
  · obtain ⟨gs, rfl⟩ := hw
    obtain ⟨s, hs, -⟩ := Option.map_eq_some_iff.1 hv
    rw [Written.text?, hs, Written.text, Written.quoted_append]
    exact Glyph.readString_glyphs hs (Nat.lt_trans (Written.length_lt_quoted gs) hsize) rest
  · obtain ⟨c, t, ht, hg, -, hquote, -⟩ := text_starts w rest
    have hno : w.text? = none := by
      cases w with
      | string gs => exact absurd ⟨gs, rfl⟩ hw
      | _ => rfl
    rw [hno, ht, skipGap_of_not_gap hg]
    split
    case h_1 heq => cases heq
    case h_2 heq => exact absurd (List.cons.inj heq).1 (hquote.resolve_left hw)
    case h_3 => exact stopForType_error _ _ _

theorem gives_readTextOrNull :
    Gives w.textOrNull? rest (readTextOrNull size (front.1 ++ (w.text ++ rest))) := by
  have hread := (gives_readText hv hsize ⟨[], nofun⟩ rest "a string").map some
  by_cases hw : w = .null
  · subst hw
    rw [readTextOrNull, skipGap_append]
    rfl
  · obtain ⟨c, t, ht, hg, -, -, hnull⟩ := text_starts w rest
    have hsome : w.textOrNull? = w.text?.map some := by
      cases w with
      | null => exact absurd rfl hw
      | string gs => rfl
      | _ => rfl
    rw [hsome, readTextOrNull, skipGap_append, ht, skipGap_of_not_gap hg]
    rw [List.nil_append, ht] at hread
    split
    case h_1 heq => exact absurd (List.cons.inj heq).1 (hnull.resolve_left hw)
    case h_2 => exact hread

end

/-! ## Whole texts -/

/-- A whole text is refused if reading it stops. -/
theorem readAll_of_stop {α : Type} {read : Nat → List Char → Reading (α × List Char)}
    {text : List Char} (h : ∃ stop, read (text.length + 1) text = .error stop) :
    ∃ fault, readAll read text = .error fault := by
  obtain ⟨stop, hstop⟩ := h
  exact ⟨stop.fault text, by unfold readAll; rw [hstop]; rfl⟩

end ScriptWorker.Json

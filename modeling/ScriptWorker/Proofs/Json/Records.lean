import ScriptWorker.Proofs.Json.Grammar

/-!
# What records are read from

A record whose fields take the texts of values is read from nothing but an object, whichever members
it has, or from an array of its fields' values (`Record.of_read`). The items of such an array are
read one after the other, each by the next field (`ItemThen.of_recordItem`), and the last field ends
the reading. A whole text is read where nothing but blanks follows (`of_readAll`).
-/

set_option autoImplicit false

namespace ScriptWorker.Json

/-! ## Strings -/

theorem of_readText {size : Nat} {wanted : String} {s rest : List Char} {str : String}
    (h : readText size wanted s = .ok (str, rest)) :
    ∃ w, InFront w s rest ∧ w.text? = some str := by
  obtain ⟨g, hs⟩ := exists_gap s
  unfold readText at h
  split at h
  next => cases h
  next t hgap =>
    obtain ⟨gs, cs, hcs, rfl, rfl⟩ := Glyph.exists_of_readStringFrom h
    refine ⟨.string gs, ⟨g, by rw [hs, hgap, Written.text, Written.quoted_append]⟩, ?_⟩
    rw [Written.text?, Glyph.string?, hcs]
    rfl
  next =>
    obtain ⟨stop, hstop⟩ := stopForType_error (α := String × List Char) size wanted (skipGap s)
    rw [hstop] at h
    cases h

theorem of_readTextOrNull {size : Nat} {s rest : List Char} {o : Option String}
    (h : readTextOrNull size s = .ok (o, rest)) :
    ∃ w, InFront w s rest ∧ w.textOrNull? = some o := by
  obtain ⟨g, hs⟩ := exists_gap s
  unfold readTextOrNull at h
  split at h
  next t hgap =>
    obtain ⟨t', hword, hdone⟩ := bind_eq_ok h
    cases hdone
    exact ⟨.null, ⟨g, by rw [hs, hgap, of_readWord hword]; rfl⟩, rfl⟩
  next =>
    obtain ⟨⟨str, t⟩, htext, hdone⟩ := bind_eq_ok h
    cases hdone
    obtain ⟨w, hw, hstr⟩ := of_readText htext
    refine ⟨w, hs ▸ hw.gap g, ?_⟩
    cases w with
    | string gs => rw [Written.textOrNull?, show Glyph.string? gs = some str from hstr]; rfl
    | _ => cases hstr

/-! ## Records -/

/-- A field that takes the text of a value, blanks in front of it aside. -/
def Field.TakesValue {σ : Type} (f : Field σ) : Prop :=
  ∀ {size depth : Nat} {state state' : σ} {s rest : List Char},
    f.read size depth state s = .ok (state', rest) → ∃ w, InFront w s rest

namespace Record

variable {σ α : Type} {r : Record σ α} {size depth : Nat}

section

variable (hfields : ∀ f ∈ r.fields, f.TakesValue)

include hfields

theorem of_readMember {state state' : σ} {key : String} {s rest : List Char}
    (h : r.readMember size depth state key s = .ok (state', rest)) :
    ∃ (behind : Gap) (w : Written) (t : List Char), s = behind.1 ++ ':' :: t ∧
      InFront w t rest := by
  unfold readMember at h
  split at h
  next f hf =>
    split at h
    next => cases h
    next =>
      obtain ⟨t, hcolon, hread⟩ := bind_eq_ok h
      obtain ⟨behind, rfl⟩ := of_readColon hcolon
      obtain ⟨w, hw⟩ := hfields f (List.mem_of_find?_eq_some hf) hread
      exact ⟨behind, w, t, rfl, hw⟩
  next =>
    obtain ⟨t, hcolon, hvalue⟩ := bind_eq_ok h
    obtain ⟨rest', hskip, hdone⟩ := bind_eq_ok hvalue
    cases hdone
    obtain ⟨behind, rfl⟩ := of_readColon hcolon
    obtain ⟨w, hw⟩ := of_skipValue hskip
    exact ⟨behind, w, t, rfl, hw⟩

theorem of_readObject {s rest : List Char} {a : α} (h : r.readObject size depth s = .ok (a, rest)) :
    ∃ (inside : Gap) (members : List (Member Written)),
      InFront (.object inside members) ('\x7b' :: s) rest := by
  obtain ⟨⟨state, t⟩, hfold, hbuild⟩ := bind_eq_ok h
  have hcons : ReadsMembers (r.readMember size depth) fun _ _ _ => True := by
    intro state state' key s rest hmember
    obtain ⟨behind, w, t, hs, hw⟩ := of_readMember hfields hmember
    exact ⟨behind, w, t, hs, hw, fun _ _ _ => trivial⟩
  obtain ⟨inside, members, u, rfl, hobject, -⟩ :=
    of_allMembers (fun _ => trivial) hcons hfold
  simp only at hbuild
  split at hbuild
  next a' _ =>
    obtain ⟨rfl, rfl⟩ := Prod.mk.inj (Except.ok.inj
      (show Except.ok (a', u) = Except.ok (a, rest) from hbuild))
    exact ⟨inside, members, hobject⟩
  next => cases hbuild

/-- **A record is read from an object or from an array.** -/
theorem of_read {s rest : List Char} {a : α} (h : r.read size depth s = .ok (a, rest)) :
    (∃ (inside : Gap) (members : List (Member Written)),
      InFront (.object inside members) s rest) ∨
    ∃ (g : Gap) (t : List Char), s = g.1 ++ '[' :: t ∧
      r.readArray size (depth - 1) t = .ok (a, rest) := by
  have of_mapError : ∀ {x : Reading (α × List Char)} {f : Stop → Stop},
      x.mapError f = .ok (a, rest) → x = .ok (a, rest) := by
    intro x f hx
    cases x with
    | error stop => cases hx
    | ok found => exact hx
  obtain ⟨g, hs⟩ := exists_gap s
  unfold read at h
  split at h
  next => cases h
  next t hgap =>
    rw [hgap] at hs
    split at h
    next => cases h
    next =>
      obtain ⟨inside, members, hobject⟩ := of_readObject hfields (of_mapError h)
      exact .inl ⟨inside, members, hs ▸ hobject.gap g⟩
  next t hgap =>
    rw [hgap] at hs
    split at h
    next => cases h
    next => exact .inr ⟨g, t, hs, of_mapError h⟩
  next =>
    obtain ⟨stop, hstop⟩ := stopForType_error (α := α × List Char) size r.wanted (skipGap s)
    rw [hstop] at h
    cases h

end

end Record

/-! ## Fields in order -/

section Items

variable {σ : Type} {size depth : Nat} {state : σ} {f : Field σ} {fields : List (Field σ)}
  {s : List Char}

/-- An item is read by the next field, and so are those behind it by the others. -/
theorem ItemThen.of_recordItem {n : Nat} {final : σ × List (Field σ)} {t : List Char}
    (h : ItemThen (Record.readItem size depth) n (state, f :: fields) s final t) :
    ∃ state' rest, f.read size depth state s = .ok (state', rest) ∧
      if fields = [] then final = (state', []) ∧ t = rest
      else foldItems (Record.readItem size depth) n false (state', fields) rest =
        .ok (final, t) := by
  obtain ⟨state', more, rest, hitem, hmore⟩ := h
  obtain ⟨⟨state'', rest'⟩, hread, hdone⟩ := bind_eq_ok hitem
  cases hdone
  refine ⟨state'', rest, hread, ?_⟩
  cases fields with
  | nil => exact hmore
  | cons f' fields => exact hmore

/-- The item of the last field ends the reading. -/
theorem foldItems_last {item : σ → List Char → Reading ((σ × Bool) × List Char)} {state' : σ}
    {rest : List Char} (hs : StartsValue s) (hi : item state s = .ok ((state', false), rest))
    (fuel : Nat) : foldItems item (fuel + 1) false state (',' :: s) = .ok (state', rest) := by
  obtain ⟨c, t, rfl, hg, hc⟩ := hs
  rw [foldItems, skipGap_of_not_gap (show isGap ',' = false by decide)]
  simp only [show ¬(',' = ']') by decide, if_false, Bool.false_eq_true, if_true,
    skipGap_of_not_gap hg, if_neg hc, hi]
  rfl

end Items

/-! ## Whole texts -/

/-- A whole text is read up to the blanks at its end. -/
theorem of_readAll {α : Type} {read : Nat → List Char → Reading (α × List Char)}
    {text : List Char} {a : α} (h : readAll read text = .ok a) :
    ∃ g : Gap, read (text.length + 1) text = .ok (a, g.1) := by
  unfold readAll at h
  simp only at h
  split at h
  next a' hread =>
    obtain ⟨⟨value, rest⟩, hvalue, hend⟩ := bind_eq_ok hread
    obtain ⟨g, hrest⟩ := exists_gap rest
    simp only at hend
    split at hend
    next hgap =>
      cases h
      cases hend
      exact ⟨g, by rw [hvalue, hrest, hgap, List.append_nil]⟩
    next => cases hend
  next => cases h

end ScriptWorker.Json

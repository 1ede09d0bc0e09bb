import ScriptWorker.Channel.Delivery

/-!
# Steps of a run

What a run does about the next segment depends on the segment and on the end of the input alone
(`runFrom_cons`, `runFrom_cut`). A map between the states of two handlers that commutes with the
handling of every line therefore commutes with every run (`runFrom_map`).
-/

set_option autoImplicit false

namespace ScriptWorker.Channel

universe u

variable {η η' : Type u} {ε : Type}

/-- The channel with a function applied to its handler. -/
def map (f : η → η') (c : Channel η) : Channel η' :=
  ⟨c.unread, c.readFault, c.outlets, c.handler.map f⟩

/-- Reading gets through to the end of the segment: it is complete, or the input ends well. -/
def Whole (readFault : Option String) (seg : List UInt8) : Prop :=
  readFault = none ∨ terminated seg = true

/-- An element of two lists in a row is one of the first or one of the second. -/
theorem append_eq_append_cons {α : Type u} {as bs before after : List α} {x : α}
    (h : as ++ bs = before ++ x :: after) :
    (∃ rest, as = before ++ x :: rest ∧ after = rest ++ bs) ∨
      ∃ front, before = as ++ front ∧ bs = front ++ x :: after := by
  rcases List.append_eq_append_iff.1 h with ⟨front, h1, h2⟩ | ⟨rest, h1, h2⟩
  · exact .inr ⟨front, h1, h2⟩
  · cases rest with
    | nil => exact .inr ⟨[], by rw [h1, List.append_nil, List.append_nil], h2.symm⟩
    | cons y rest =>
      rw [List.cons_append, List.cons.injEq] at h2
      obtain ⟨rfl, rfl⟩ := h2
      exact .inl ⟨rest, h1, rfl⟩

/-- Without a handler nothing happens. -/
theorem runFrom_none (h : Handler η ε) (readFault : Option String) (o : Outlets)
    (segs : List (List UInt8)) :
    runFrom h readFault none o segs = (.ok .detached, ⟨segs.flatten, readFault, o, none⟩) := by
  rw [runFrom]

/-- A segment that can be read is handed over. -/
theorem runFrom_cons (h : Handler η ε) {readFault : Option String} {seg : List UInt8}
    (hs : Whole readFault seg) (w : η) (o : Outlets) (segs : List (List UInt8)) :
    runFrom h readFault (some w) o (seg :: segs) =
      match h.onLine w (lineOf seg) o with
      | (.error e, w, o) => (.error e, ⟨segs.flatten, readFault, o, some w⟩)
      | (.ok .goOn, w, o) => runFrom h readFault (some w) o segs
      | (.ok .detach, _, o) => runFrom h readFault none (o.note detachedEvent) segs := by
  rcases hs with rfl | hs
  · rfl
  · cases readFault with
    | none => rfl
    | some cause =>
      conv => lhs; unfold runFrom
      exact hs ▸ rfl

/-- Behind a tail that is cut off, reading fails. -/
theorem runFrom_cut (h : Handler η ε) {cause : String} {seg : List UInt8}
    (ht : terminated seg = false) (w : η) (o : Outlets) (segs : List (List UInt8)) :
    runFrom h (some cause) (some w) o (seg :: segs) =
      (.error (h.ofChannel (.read cause)), ⟨segs.flatten, some cause, o, some w⟩) := by
  rw [runFrom]
  exact ht

/-- What reading comes to at a segment. -/
theorem whole_or_cut (readFault : Option String) (seg : List UInt8) :
    Whole readFault seg ∨ ∃ cause, readFault = some cause ∧ terminated seg = false := by
  cases readFault with
  | none => exact .inl (.inl rfl)
  | some cause =>
    cases ht : terminated seg with
    | true => exact .inl (.inr ht)
    | false => exact .inr ⟨cause, rfl, rfl⟩

/-- **A map that commutes with the handling of lines commutes with runs.** -/
theorem runFrom_map {h : Handler η ε} {h' : Handler η' ε} (f : η → η')
    (hc : h'.ofChannel = h.ofChannel)
    (hl : ∀ w line o, h'.onLine (f w) line o =
      ((h.onLine w line o).1, f (h.onLine w line o).2.1, (h.onLine w line o).2.2))
    (readFault : Option String) (handler : Option η) (o : Outlets) (segs : List (List UInt8)) :
    runFrom h' readFault (handler.map f) o segs =
      ((runFrom h readFault handler o segs).1, (runFrom h readFault handler o segs).2.map f) := by
  induction segs generalizing handler o with
  | nil =>
    cases handler with
    | none => rfl
    | some w => cases readFault with
      | none => rfl
      | some cause => rw [Option.map_some, runFrom, runFrom, hc]; rfl
  | cons seg segs ih =>
    cases handler with
    | none => rfl
    | some w =>
      rw [Option.map_some]
      rcases whole_or_cut readFault seg with hs | ⟨cause, rfl, ht⟩
      · rw [runFrom_cons h hs, runFrom_cons h' hs, hl]
        rcases h.onLine w (lineOf seg) o with ⟨_ | _ | _, w', o'⟩
        · rfl
        · exact ih (some w') o'
        · exact ih none (o'.note detachedEvent)
      · rw [runFrom_cut h ht, runFrom_cut h' ht, hc]
        rfl

end ScriptWorker.Channel

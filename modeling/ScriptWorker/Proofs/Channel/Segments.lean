import ScriptWorker.Channel.Line

/-!
# Cutting bytes into segments

The segments of an input make it up (`flatten_segments`). They are the only way to cut it up at
newlines: a list that is `Split` so, and with it each of its sublists, is the list of the segments
of its own bytes (`Split.segments_flatten`).
-/

set_option autoImplicit false

namespace ScriptWorker.Channel

/-- A segment with its newline, the only one in it. -/
def Closed (seg : List UInt8) : Prop := ∃ body, newline ∉ body ∧ seg = body ++ [newline]

/-- A segment that the end of the input cuts off. -/
def CutOff (seg : List UInt8) : Prop := seg ≠ [] ∧ newline ∉ seg

/-- Bytes cut up at newlines: only the last segment may be cut off. -/
structure Split (segs : List (List UInt8)) : Prop where
  each : ∀ seg ∈ segs, Closed seg ∨ CutOff seg
  inner : segs.Pairwise fun seg _ => Closed seg

theorem Split.nil : Split [] := by
  refine ⟨fun seg h => ?_, List.Pairwise.nil⟩
  cases h

theorem Split.cons {seg : List UInt8} {segs : List (List UInt8)} (h : Closed seg)
    (hs : Split segs) : Split (seg :: segs) := by
  refine ⟨fun x hx => ?_, List.pairwise_cons.2 ⟨fun _ _ => h, hs.inner⟩⟩
  rcases List.mem_cons.1 hx with rfl | hx
  · exact .inl h
  · exact hs.each x hx

theorem Split.of_closed {segs : List (List UInt8)} (h : ∀ seg ∈ segs, Closed seg) :
    Split segs := by
  induction segs with
  | nil => exact .nil
  | cons seg segs ih =>
    obtain ⟨hseg, hsegs⟩ := List.forall_mem_cons.1 h
    exact .cons hseg (ih hsegs)

theorem Split.sublist {segs segs' : List (List UInt8)} (hs : Split segs)
    (h : segs'.Sublist segs) : Split segs' :=
  ⟨fun seg hseg => hs.each seg (h.subset hseg), hs.inner.sublist h⟩

/-! ## Cutting up -/

theorem segmentsFrom_done (done : List (List UInt8)) (open_ bytes : List UInt8) :
    segmentsFrom done open_ bytes = done.reverse ++ segmentsFrom [] open_ bytes := by
  induction bytes generalizing done open_ with
  | nil =>
    simp only [segmentsFrom]
    split <;> simp
  | cons b bytes ih =>
    simp only [segmentsFrom]
    split
    · rw [ih, ih [_]]
      simp
    · exact ih done _

theorem segmentsFrom_newline (open_ bytes : List UInt8) :
    segmentsFrom [] open_ (newline :: bytes) =
      (open_.reverse ++ [newline]) :: segments bytes := by
  rw [segmentsFrom, if_pos rfl, segmentsFrom_done, List.reverse_singleton, List.reverse_cons]
  rfl

theorem segmentsFrom_body {body : List UInt8} (h : newline ∉ body) (open_ bytes : List UInt8) :
    segmentsFrom [] open_ (body ++ bytes) = segmentsFrom [] (body.reverse ++ open_) bytes := by
  induction body generalizing open_ with
  | nil => rfl
  | cons b body ih =>
    obtain ⟨hb, hbody⟩ := not_or.1 (mt List.mem_cons.2 h)
    rw [List.cons_append, segmentsFrom, if_neg (Ne.symm hb), ih hbody, List.reverse_cons,
      List.append_assoc, List.singleton_append]

theorem flatten_segmentsFrom (open_ bytes : List UInt8) :
    (segmentsFrom [] open_ bytes).flatten = open_.reverse ++ bytes := by
  induction bytes generalizing open_ with
  | nil =>
    simp only [segmentsFrom, List.append_nil]
    split
    · rename_i h
      rw [List.isEmpty_iff.1 h]
      rfl
    · simp
  | cons b bytes ih =>
    by_cases hb : b = newline
    · subst hb
      rw [segmentsFrom_newline, List.flatten_cons, segments, ih, List.append_assoc]
      rfl
    · rw [segmentsFrom, if_neg hb, ih, List.reverse_cons, List.append_assoc]
      rfl

/-- **The segments make up the input.** -/
theorem flatten_segments (bytes : List UInt8) : (segments bytes).flatten = bytes :=
  flatten_segmentsFrom [] bytes

theorem split_segmentsFrom {open_ : List UInt8} (h : newline ∉ open_) (bytes : List UInt8) :
    Split (segmentsFrom [] open_ bytes) := by
  induction bytes generalizing open_ with
  | nil =>
    simp only [segmentsFrom]
    split
    · exact .nil
    · rename_i ho
      refine ⟨fun seg hs => .inr ?_, List.pairwise_singleton _ _⟩
      rw [List.mem_singleton.1 hs]
      exact ⟨by simpa using ho, by simpa using h⟩
  | cons b bytes ih =>
    by_cases hb : b = newline
    · subst hb
      rw [segmentsFrom_newline]
      exact .cons ⟨open_.reverse, by simpa using h, rfl⟩ (ih List.not_mem_nil)
    · rw [segmentsFrom, if_neg hb]
      exact ih (mt List.mem_cons.1 (not_or.2 ⟨Ne.symm hb, h⟩))

/-- Only the last segment may lack its newline. -/
theorem split_segments (bytes : List UInt8) : Split (segments bytes) :=
  split_segmentsFrom List.not_mem_nil bytes

/-! ## Putting together -/

theorem segments_closed_append {seg : List UInt8} (h : Closed seg) (bytes : List UInt8) :
    segments (seg ++ bytes) = seg :: segments bytes := by
  obtain ⟨body, hb, rfl⟩ := h
  rw [segments, List.append_assoc, segmentsFrom_body hb, List.singleton_append,
    segmentsFrom_newline, List.append_nil, List.reverse_reverse]

theorem segments_cutOff {seg : List UInt8} (h : CutOff seg) : segments seg = [seg] := by
  have := segmentsFrom_body h.2 [] []
  rw [List.append_nil, List.append_nil, segmentsFrom] at this
  rw [segments, this, if_neg (by simpa using h.1), List.reverse_reverse]
  rfl

/-- **Cutting up is unique**: a list that is cut up at newlines is what its bytes are cut into. -/
theorem Split.segments_flatten {segs : List (List UInt8)} (h : Split segs) :
    segments segs.flatten = segs := by
  induction segs with
  | nil => rfl
  | cons seg segs ih =>
    obtain ⟨hi, -⟩ := List.pairwise_cons.1 h.inner
    cases segs with
    | nil =>
      rw [List.flatten_cons, List.flatten_nil]
      rcases h.each seg List.mem_cons_self with hc | hc
      · exact segments_closed_append hc []
      · rw [List.append_nil, segments_cutOff hc]
    | cons next segs =>
      rw [List.flatten_cons, segments_closed_append (hi next List.mem_cons_self),
        ih (h.sublist (List.sublist_cons_self _ _))]

/-- What is left of an input's segments is what the bytes left are cut into. -/
theorem segments_of_sublist {bytes : List UInt8} {segs : List (List UInt8)}
    (h : segs.Sublist (segments bytes)) : segments segs.flatten = segs :=
  ((split_segments bytes).sublist h).segments_flatten

end ScriptWorker.Channel

import ScriptWorker.Proofs.Channel.Decoding

/-!
# What is taken off a line

A line is its segment's text without what stands for a newline and for a carriage return at its end
(`decodeLossy_return`). In front of a newline, and at the end of the input, a carriage return is
taken off alike, so a line together with its segment's terminator is the segment's text unless the
input ends with a carriage return of its own (`line_terminator`).
-/

set_option autoImplicit false

namespace ScriptWorker.Text.Utf8

variable {x : UInt8}

theorem decodeLossy_concat (hx : x.toNat < 0x80) (a : List UInt8) :
    decodeLossy (a ++ [x]) = decodeLossy a ++ [Char.ofNat x.toNat] :=
  decodeLossy_ascii hx a []

/-- A text ends with a character of ASCII only where its bytes do. -/
theorem Decodes.getLast?_ascii (hx : x.toNat < 0x80) {a : List UInt8} {s : List Char}
    (h : Decodes a s) (hl : s.getLast? = some (Char.ofNat x.toNat)) : a.getLast? = some x := by
  induction h with
  | nil => cases hl
  | @char c bytes s hd ih =>
    rw [List.getLast?_append]
    cases s with
    | nil =>
      cases hd
      obtain rfl : c = Char.ofNat x.toNat := Option.some.inj hl
      rw [encodeChar_one hx, Nat.toUInt8_eq, UInt8.ofNat_toNat]
      rfl
    | cons c' s =>
      rw [ih hl]
      rfl
  | @broken piece bytes s hp hd ih =>
    rw [List.getLast?_append]
    cases s with
    | nil =>
      have hval := congrArg Char.toNat (Option.some.inj hl)
      rw [toNat_ofNat_valid (Or.inl (by omega))] at hval
      exact absurd (hval ▸ hx) (by decide)
    | cons c' s =>
      rw [ih hl]
      rfl

theorem getLast?_decodeLossy (hx : x.toNat < 0x80) (a : List UInt8) :
    (decodeLossy a).getLast? = some (Char.ofNat x.toNat) ↔ [x] <:+ a := by
  constructor
  · intro hl
    have hlast := ((decodes_iff a _).2 rfl).getLast?_ascii hx hl
    exact List.singleton_suffix_iff_getLast?_eq_some.2 hlast
  · rintro ⟨a, rfl⟩
    rw [decodeLossy_concat hx, List.getLast?_concat]

end ScriptWorker.Text.Utf8

namespace ScriptWorker.Channel

open Text.Utf8

universe u

variable {η : Type u} {ε : Type}

/-! ## One segment -/

/-- The byte of a carriage return. -/
def carriageReturn : UInt8 := 0x0D

/-- The text of what ends a segment's line: a newline, and the carriage return in front of it. -/
def terminator (seg : List UInt8) : List Char :=
  if [carriageReturn, newline] <:+ seg then ['\r', '\n']
  else if [newline] <:+ seg then ['\n']
  else []

/-- A segment without newline that ends with a carriage return. -/
def Stray (seg : List UInt8) : Prop := newline ∉ seg ∧ [carriageReturn] <:+ seg

instance : DecidablePred Stray := fun seg =>
  inferInstanceAs (Decidable (newline ∉ seg ∧ [carriageReturn] <:+ seg))

/-- A carriage return is taken off a text just where its bytes end with one. -/
theorem decodeLossy_return (a : List UInt8) :
    decodeLossy a =
      dropEnd '\r' (decodeLossy a) ++ if [carriageReturn] <:+ a then ['\r'] else [] := by
  split
  · rename_i h
    obtain ⟨a, rfl⟩ := h
    rw [show decodeLossy (a ++ [carriageReturn]) = decodeLossy a ++ ['\r'] from
      decodeLossy_concat (by decide) a, dropEnd_concat]
  · rename_i h
    have hl : (decodeLossy a).getLast? ≠ some '\r' :=
      mt (getLast?_decodeLossy (x := carriageReturn) (by decide) a).1 h
    rw [dropEnd, if_neg hl, List.append_nil]

theorem terminator_closed (body : List UInt8) :
    terminator (body ++ [newline]) =
      (if [carriageReturn] <:+ body then ['\r'] else []) ++ ['\n'] := by
  have hpair : [carriageReturn] ++ [newline] <:+ body ++ [newline] ↔ [carriageReturn] <:+ body :=
    List.suffix_append_self_iff
  rw [List.singleton_append] at hpair
  simp only [terminator, hpair, List.suffix_append, if_true]
  split <;> rfl

theorem terminator_cutOff {seg : List UInt8} (hs : newline ∉ seg) : terminator seg = [] := by
  have hone : ¬[newline] <:+ seg := fun h => hs (h.subset List.mem_cons_self)
  have htwo : ¬[carriageReturn, newline] <:+ seg := fun h =>
    hs (h.subset (List.mem_cons_of_mem _ List.mem_cons_self))
  rw [terminator, if_neg htwo, if_neg hone]

/-- **A line and what has been taken off it** make up the segment's text: the terminator, or a
carriage return without newline. -/
theorem decodeLossy_segment {seg : List UInt8} (h : Closed seg ∨ CutOff seg) :
    decodeLossy seg =
      (lineOf seg).toList ++ terminator seg ++ if Stray seg then ['\r'] else [] := by
  rcases h with ⟨body, -, rfl⟩ | hc
  · have hstray : ¬Stray (body ++ [newline]) := fun h =>
      h.1 (List.mem_append_right body List.mem_cons_self)
    rw [if_neg hstray, List.append_nil, lineOf_closed, terminator_closed, ← List.append_assoc,
      ← decodeLossy_return]
    exact decodeLossy_concat (by decide) body
  · have hstray : Stray seg ↔ [carriageReturn] <:+ seg := and_iff_right hc.2
    rw [terminator_cutOff hc.2, List.append_nil, lineOf_cutOff hc.2]
    simp only [hstray]
    exact decodeLossy_return seg

/-! ## All segments -/

/-- Bytes that are cut up at newlines stand for the texts of the pieces. -/
theorem Split.decodeLossy_flatten {segs : List (List UInt8)} (h : Split segs) :
    decodeLossy segs.flatten = segs.flatMap decodeLossy := by
  induction segs with
  | nil => rfl
  | cons seg segs ih =>
    have ih := ih (h.sublist (List.sublist_cons_self _ _))
    rw [List.flatten_cons, List.flatMap_cons]
    rcases h.each seg List.mem_cons_self with ⟨body, -, rfl⟩ | hc
    · rw [List.append_assoc, List.singleton_append, decodeLossy_newline, ih,
        show decodeLossy (body ++ [newline]) = decodeLossy body ++ ['\n'] from
          decodeLossy_concat (by decide) body, List.append_assoc, List.singleton_append]
    · rw [h.nil_of_cutOff hc, List.flatten_nil, List.append_nil, List.flatMap_nil, List.append_nil]

theorem Complete.closed_or_cutOff {readFault : Option String} {seg rest : List UInt8}
    (h : Complete readFault seg rest) : Closed seg ∨ CutOff seg :=
  h.imp_right And.left

section Delivered

variable {h : Handler η ε} {c : Channel η} {steps : List (Step η)} {ds : List (Handover η)}

/-- Behind a segment that is cut off nothing is handed over. -/
theorem Delivers.nil_of_newline_not_mem (hd : Delivers h c steps ds)
    {before after : List (Handover η)} {x : Handover η} (hx : ds = before ++ x :: after)
    (hs : newline ∉ x.segment) : x.unread = [] ∧ after = [] := by
  obtain ⟨hu, hc⟩ := hd.each hx
  have hnil : x.unread = [] := by
    rcases hc with ⟨body, -, hb⟩ | ⟨-, hnil, -⟩
    · exact absurd (hb ▸ List.mem_append_right body List.mem_cons_self) hs
    · exact hnil
  refine ⟨hnil, ?_⟩
  cases after with
  | nil => rfl
  | cons y after =>
    have hy : ds = before ++ [x] ++ y :: after := by rw [hx, List.append_assoc]; rfl
    obtain ⟨hu', hc'⟩ := hd.each hy
    rw [hu, hnil, List.append_nil, delivered_append, delivered_cons, delivered_nil,
      List.append_nil, List.self_eq_append_right] at hu'
    exact absurd (List.append_eq_nil_iff.1 hu').1 hc'.ne_nil

/-- What is handed over is cut up at newlines. -/
theorem Delivers.split (hd : Delivers h c steps ds) : Split (ds.map (·.segment)) := by
  have from_ : ∀ before after, ds = before ++ after → Split (after.map (·.segment)) := by
    intro before after hx
    induction after generalizing before with
    | nil => exact .nil
    | cons x after ih =>
      rcases (hd.each hx).2.closed_or_cutOff with hc | hc
      · exact .cons hc (ih (before ++ [x]) (by rw [hx]; simp))
      · obtain ⟨-, rfl⟩ := hd.nil_of_newline_not_mem hx hc.2
        exact ⟨fun seg hseg => .inr (List.mem_singleton.1 hseg ▸ hc), List.pairwise_singleton _ _⟩
  exact from_ [] ds rfl

/-- A carriage return without newline is handed over just if all of an input is that ends so. -/
theorem Delivers.stray_iff (hd : Delivers h c steps ds) :
    (∃ d ∈ ds, Stray d.segment) ↔ delivered ds = c.unread ∧ [carriageReturn] <:+ c.unread := by
  constructor
  · rintro ⟨d, hmem, hs⟩
    obtain ⟨before, after, hx⟩ := List.append_of_mem hmem
    obtain ⟨hnil, rfl⟩ := hd.nil_of_newline_not_mem hx hs.1
    obtain ⟨hu, -⟩ := hd.each hx
    rw [hnil, List.append_nil] at hu
    refine ⟨?_, hu ▸ hs.2.trans (List.suffix_append _ _)⟩
    rw [hu, hx, delivered_append, delivered_cons, delivered_nil, List.append_nil]
  · rintro ⟨hall, hend⟩
    rcases List.eq_nil_or_concat ds with rfl | ⟨before, x, rfl⟩
    · rw [← hall, delivered_nil, List.suffix_nil] at hend
      cases hend
    rw [List.concat_eq_append] at hd hall ⊢
    obtain ⟨-, hc⟩ := hd.each rfl
    rw [← hall, delivered_append, delivered_cons, delivered_nil, List.append_nil] at hend
    have hlast : [carriageReturn] <:+ x.segment :=
      List.suffix_of_suffix_length_le hend (List.suffix_append _ _)
        (List.length_pos_iff.2 hc.ne_nil)
    refine ⟨x, List.mem_append_right _ List.mem_cons_self, ?_, hlast⟩
    rcases hc.closed_or_cutOff with ⟨body, -, hb⟩ | hc
    · rw [hb, List.singleton_suffix_iff_getLast?_eq_some, List.getLast?_concat] at hlast
      exact absurd (Option.some.inj hlast) (by decide)
    · exact hc.2

/-- What is handed over stands for the lines with their terminators, but for a carriage return
without newline at the end. -/
theorem Delivers.decodeLossy_delivered (hd : Delivers h c steps ds) :
    decodeLossy (delivered ds) =
      (ds.flatMap fun d => (lineOf d.segment).toList ++ terminator d.segment) ++
        if ∃ d ∈ ds, Stray d.segment then ['\r'] else [] := by
  have from_ : ∀ before after, ds = before ++ after →
      (after.flatMap fun d => decodeLossy d.segment) =
        (after.flatMap fun d => (lineOf d.segment).toList ++ terminator d.segment) ++
          if ∃ d ∈ after, Stray d.segment then ['\r'] else [] := by
    intro before after hx
    induction after generalizing before with
    | nil => rfl
    | cons x after ih =>
      rw [List.flatMap_cons, List.flatMap_cons,
        decodeLossy_segment (hd.each hx).2.closed_or_cutOff]
      by_cases hs : Stray x.segment
      · obtain ⟨-, rfl⟩ := hd.nil_of_newline_not_mem hx hs.1
        simp [hs]
      · rw [ih (before ++ [x]) (by rw [hx]; simp)]
        simp [hs]
  have htext := from_ [] ds rfl
  rwa [← List.flatMap_map (f := fun d : Handover η => d.segment), ← hd.split.decodeLossy_flatten,
    ← List.flatMap_def] at htext

end Delivered

/-- **Lines and their terminators.** Whatever calls are made on a channel, each line that is handed
over is its segment's text without the terminator: `\r\n` where the segment ends so, `\n` where
another byte stands in front of the newline, and nothing where the input ends without newline. Only
if all of an input is handed over that ends with a carriage return, the last line lacks that too;
else the lines with their terminators are the text of all that has been handed over. -/
theorem line_terminator (h : Handler η ε) (input : List UInt8) (readFault : Option String)
    (outlets : Outlets) (steps : List (Step η)) :
    let first : Channel η := .open_ input readFault outlets
    ∃ ds, Delivers h first steps ds ∧ (∀ ds', Delivers h first steps ds' → ds' = ds) ∧
      (∀ d ∈ ds, decodeLossy d.segment =
        (lineOf d.segment).toList ++ terminator d.segment ++
          if Stray d.segment then ['\r'] else []) ∧
      (∀ d ∈ ds, (lineOf d.segment).toList ++ terminator d.segment = decodeLossy d.segment ↔
        ¬Stray d.segment) ∧
      (∀ before d after, ds = before ++ d :: after → newline ∉ d.segment →
        terminator d.segment = [] ∧ d.unread = [] ∧ after = []) ∧
      ((∃ d ∈ ds, Stray d.segment) ↔ delivered ds = input ∧ [carriageReturn] <:+ input) ∧
      decodeLossy (delivered ds) =
        (ds.flatMap fun d => (lineOf d.segment).toList ++ terminator d.segment) ++
          if delivered ds = input ∧ [carriageReturn] <:+ input then ['\r'] else [] := by
  intro first
  obtain ⟨ds, hd⟩ := delivers_play h first steps
  have hstray : (∃ d ∈ ds, Stray d.segment) ↔
      delivered ds = input ∧ [carriageReturn] <:+ input := hd.stray_iff
  have heach : ∀ d ∈ ds, decodeLossy d.segment =
      (lineOf d.segment).toList ++ terminator d.segment ++
        if Stray d.segment then ['\r'] else [] := by
    intro d hmem
    obtain ⟨before, after, hx⟩ := List.append_of_mem hmem
    exact decodeLossy_segment (hd.each hx).2.closed_or_cutOff
  refine ⟨ds, hd, fun _ => hd.unique, heach, fun d hmem => ?_, fun before d after hx hs => ?_,
    hstray, ?_⟩
  · rw [heach d hmem]
    split <;> simp [*]
  · obtain ⟨hnil, hafter⟩ := hd.nil_of_newline_not_mem hx hs
    exact ⟨terminator_cutOff hs, hnil, hafter⟩
  · rw [hd.decodeLossy_delivered]
    simp only [hstray]

/-- A line that the end of the input cuts off behind a carriage return lacks it. -/
theorem return_dropped :
    let first : Channel (List String) := .open_ [0x61, 0x0D] none (.fresh .none)
    ∃ d, Delivers collector first [.subscribe [], .run] [d] ∧ d.segment = [0x61, 0x0D] ∧
      terminator d.segment = [] ∧ decodeLossy d.segment = ['a', '\r'] ∧
      (lineOf d.segment).toList = ['a'] ∧
      (lineOf d.segment).toList ++ terminator d.segment ≠ decodeLossy d.segment := by
  intro first
  have hnext : Next (first.subscribe []).2 [0x61, 0x0D] [] :=
    ⟨rfl, .inr ⟨⟨by decide, by decide⟩, rfl, rfl⟩⟩
  have hrun : Runs collector (first.subscribe []).2 [⟨[], [0x61, 0x0D], []⟩] (.ok .endOfInput) _ :=
    .went rfl hnext rfl (.ended rfl rfl rfl)
  have hd : Delivers collector first [.subscribe [], .run] [⟨[], [0x61, 0x0D], []⟩] :=
    .other (by rintro ⟨⟩) (.run hrun .nil)
  exact ⟨_, hd, rfl, by decide +kernel, by decide +kernel, by decide +kernel, by decide +kernel⟩

end ScriptWorker.Channel

import ScriptWorker.Proofs.Channel.Framing
import ScriptWorker.Proofs.Text.Ascii

/-!
# Cutting up before and after decoding

Bytes on both sides of a newline stand for their own texts (`decodeLossy_newline`). Hence the lines
of an input, each decoded from its own bytes, are those of the decoded input (`lines_decoded`).
-/

set_option autoImplicit false

namespace ScriptWorker.Text.Utf8

open Channel

theorem decodeLossy_newline (a b : List UInt8) :
    decodeLossy (a ++ newline :: b) = decodeLossy a ++ '\n' :: decodeLossy b :=
  decodeLossy_ascii (by decide) a b

theorem newline_not_mem_decodeLossy {a : List UInt8} (hn : newline ∉ a) : '\n' ∉ decodeLossy a :=
  ((decodes_iff a _).2 rfl).ascii_not_mem (by decide) hn

theorem decodeLossy_ne_nil {a : List UInt8} (ha : a ≠ []) : decodeLossy a ≠ [] := by
  intro hnil
  have hd := (decodes_iff a _).2 hnil.symm
  cases hd
  exact ha rfl

end ScriptWorker.Text.Utf8

namespace ScriptWorker.Channel

open Text.Utf8

universe u

variable {η : Type u} {ε : Type}

/-! ## Lines of a text -/

/-- The pieces of a text between newlines. Behind a newline at the end there is none. -/
def textPieces (text : List Char) : List (List Char) :=
  let pieces := text.splitOn '\n'
  if pieces.getLast? = some [] then pieces.dropLast else pieces

/-- The lines of a text: its pieces, each without one carriage return at its end. -/
def textLines (text : List Char) : List (List Char) := (textPieces text).map (dropEnd '\r')

theorem textPieces_newline {s : List Char} (hs : '\n' ∉ s) (t : List Char) :
    textPieces (s ++ '\n' :: t) = s :: textPieces t := by
  have hne : t.splitOn '\n' ≠ [] := List.splitOn_ne_nil '\n' t
  rw [textPieces, textPieces, List.splitOn_append_cons_self_of_not_mem hs,
    List.getLast?_cons_of_ne_nil hne, List.dropLast_cons_of_ne_nil hne]
  split <;> rfl

theorem textPieces_last {s : List Char} (hne : s ≠ []) (hs : '\n' ∉ s) : textPieces s = [s] := by
  rw [textPieces, List.splitOn_eq_singleton hs]
  exact if_neg (by simpa using hne)

theorem dropEnd_of_not_mem {c : Char} {s : List Char} (h : c ∉ s) : dropEnd c s = s :=
  if_neg fun hl => h (List.mem_of_getLast? hl)

theorem dropEnd_subset (c : Char) (s : List Char) : dropEnd c s ⊆ s := by
  unfold dropEnd
  split
  · exact List.dropLast_subset s
  · exact List.Subset.refl s

theorem lineOf_closed (body : List UInt8) :
    (lineOf (body ++ [newline])).toList = dropEnd '\r' (decodeLossy body) := by
  rw [lineOf, decodeLossy_newline, String.toList_ofList, stripTerminator]
  exact congrArg (dropEnd '\r') (dropEnd_concat '\n' _)

theorem lineOf_cutOff {seg : List UInt8} (hs : newline ∉ seg) :
    (lineOf seg).toList = dropEnd '\r' (decodeLossy seg) := by
  rw [lineOf, String.toList_ofList, stripTerminator,
    dropEnd_of_not_mem (newline_not_mem_decodeLossy hs)]

/-- The lines of segments are those of the text that all the segments stand for. -/
theorem lines_split {segs : List (List UInt8)} (h : Split segs) :
    segs.map (fun seg => (lineOf seg).toList) = textLines (decodeLossy segs.flatten) := by
  induction segs with
  | nil => rfl
  | cons seg segs ih =>
    have ih := ih (h.sublist (List.sublist_cons_self _ _))
    rcases h.each seg List.mem_cons_self with ⟨body, hb, rfl⟩ | hc
    · rw [List.map_cons, ih, lineOf_closed body, List.flatten_cons, List.append_assoc,
        List.singleton_append, decodeLossy_newline, textLines, textLines,
        textPieces_newline (newline_not_mem_decodeLossy hb), List.map_cons]
    · rw [h.nil_of_cutOff hc, List.flatten_cons, List.flatten_nil, List.append_nil, List.map_cons,
        lineOf_cutOff hc.2, textLines,
        textPieces_last (decodeLossy_ne_nil hc.1) (newline_not_mem_decodeLossy hc.2)]
      rfl

/-- No line has a newline in it. -/
theorem newline_not_mem_lineOf {seg : List UInt8} (h : Closed seg ∨ CutOff seg) :
    '\n' ∉ (lineOf seg).toList := by
  rcases h with ⟨body, hb, rfl⟩ | hc
  · rw [lineOf_closed body]
    exact fun hm => newline_not_mem_decodeLossy hb (dropEnd_subset _ _ hm)
  · rw [lineOf_cutOff hc.2]
    exact fun hm => newline_not_mem_decodeLossy hc.2 (dropEnd_subset _ _ hm)

/-! ## Delivering -/

/-- **The lines handed over are those of the decoded input.** Any bytes stand for one text, with one
U+FFFD for each longest piece that is no character. A run whose handler goes on hands over the lines
of that text, cut up at every newline, and no line has a newline in it. Every newline of the input
is one of the text, with what stands on either side of it decoded on its own; and the text of an
input that is the bytes of a text is that text. -/
theorem lines_decoded (h : Handler η ε) (hgo : h.GoesOn) (input : List UInt8) (w : η)
    (o : Outlets) :
    let c : Channel η := ⟨input, none, o, some w⟩
    ∃ ds text, Runs h c ds (c.run h).1 (c.run h).2 ∧
      (∀ ds' r c', Runs h c ds' r c' → ds' = ds) ∧
      (c.run h).1 = .ok .endOfInput ∧
      (∀ s, Decodes input s ↔ s = text) ∧
      ds.map (fun d => (lineOf d.segment).toList) = textLines text ∧
      (∀ d ∈ ds, '\n' ∉ (lineOf d.segment).toList) ∧
      (∀ a b, input = a ++ newline :: b →
        ∃ s t, Decodes a s ∧ Decodes b t ∧ text = s ++ '\n' :: t) ∧
      ∀ s : String, input = encode s → text = s.toList := by
  intro c
  obtain ⟨ds, c', hr, hd⟩ := runs_split hgo (split_segments input) w o
  rw [flatten_segments] at hr
  obtain ⟨ds₀, hr₀⟩ := runs_run h c
  obtain ⟨rfl, hexit, -⟩ := hr₀.unique hr
  refine ⟨ds₀, decodeLossy input, hr₀, fun ds' r c' hr' => (hr'.unique hr₀).1, hexit,
    decodes_iff input, ?_, fun d hmem => ?_, fun a b hab => ?_, fun s hs => ?_⟩
  · calc ds₀.map (fun d => (lineOf d.segment).toList)
        = (ds₀.map (·.segment)).map fun seg => (lineOf seg).toList := by
          rw [List.map_map]
          rfl
      _ = (segments input).map fun seg => (lineOf seg).toList := by rw [hd]
      _ = textLines (decodeLossy input) := by
          rw [lines_split (split_segments input), flatten_segments]
  · have hseg : d.segment ∈ segments input := hd ▸ List.mem_map_of_mem hmem
    exact newline_not_mem_lineOf ((split_segments input).each _ hseg)
  · exact ⟨decodeLossy a, decodeLossy b, (decodes_iff a _).2 rfl, (decodes_iff b _).2 rfl,
      hab ▸ decodeLossy_newline a b⟩
  · rw [hs, decodeLossy_encode]

/-- A character cut short by a line's end, one in two lines' place, and a last line without end. -/
theorem lines_decoded_collector :
    let c : Channel (List String) :=
      ⟨[0x61, 0xE2, 0x82, 0x0D, 0x0A, 0xAC, 0xFF, 0x0A, 0x0A, 0xC3, 0xA9, 0x0D], none, .fresh .none,
        some []⟩
    collector.GoesOn ∧ ∃ ds, Runs collector c ds (.ok .endOfInput) (c.run collector).2 ∧
      ds.map (fun d => (lineOf d.segment).toList) =
        ["a\uFFFD".toList, "\uFFFD\uFFFD".toList, [], "é".toList] := by
  intro c
  have hgo : collector.GoesOn := fun w line o => ⟨w ++ [line], o, rfl⟩
  obtain ⟨ds, text, hr, -, hexit, htext, hlines, -⟩ :=
    lines_decoded collector hgo c.unread [] (.fresh .none)
  refine ⟨hgo, ds, hexit ▸ hr, hlines.trans ?_⟩
  rw [← (htext _).1 ((decodes_iff c.unread _).2 rfl)]
  decide +kernel

end ScriptWorker.Channel

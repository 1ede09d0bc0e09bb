import ScriptWorker.Proofs.Json.Members
import ScriptWorker.Proofs.Json.Numbers
import ScriptWorker.Proofs.Json.Texts

/-!
# Values read back

A value is `Exact` if it holds no doubles: such a value is read back from its text, whatever follows
that does not go on with a number (`readValue_render`), as long as the containers do not nest deeper
than the reader goes. Reading a container goes on from item to item (`foldItems_next`) and from
member to member (`foldMembers_next`), so this is an induction on the value.
-/

set_option autoImplicit false

namespace ScriptWorker.Json

namespace Value

mutual

/-- The values of JSON texts without doubles: whole numbers in their range, and members sorted by
key. -/
def Exact : Value → Prop
  | .null | .bool _ | .string _ => True
  | .int n => leastInt ≤ n ∧ n ≤ greatestInt
  | .float _ => False
  | .array items => AllExact items
  | .object members => Sorted members ∧ MembersExact members

@[inherit_doc Exact] def AllExact : List Value → Prop
  | [] => True
  | v :: rest => v.Exact ∧ AllExact rest

@[inherit_doc Exact] def MembersExact : List (String × Value) → Prop
  | [] => True
  | (_, v) :: rest => v.Exact ∧ MembersExact rest

end

mutual

/-- How deep containers nest. -/
def depth : Value → Nat
  | .array items => allDepth items + 1
  | .object members => membersDepth members + 1
  | _ => 0

@[inherit_doc depth] def allDepth : List Value → Nat
  | [] => 0
  | v :: rest => max v.depth (allDepth rest)

@[inherit_doc depth] def membersDepth : List (String × Value) → Nat
  | [] => 0
  | (_, v) :: rest => max v.depth (membersDepth rest)

end

end Value

/-! ## Items -/

/-- The text starts with something that may start a value. -/
def StartsValue (s : List Char) : Prop := ∃ c t, s = c :: t ∧ isGap c = false ∧ c ≠ ']'

section Items

variable {σ : Type} {item : σ → List Char → Reading ((σ × Bool) × List Char)}

theorem foldItems_end (fuel : Nat) (first : Bool) (state : σ) (rest : List Char) :
    foldItems item (fuel + 1) first state (']' :: rest) = .ok (state, ']' :: rest) := rfl

/-- The first item is read, and reading goes on behind it. -/
theorem foldItems_first {state state' : σ} {s rest : List Char} (hs : StartsValue s)
    (hi : item state s = .ok ((state', true), rest)) (fuel : Nat) :
    foldItems item (fuel + 1) true state s = foldItems item fuel false state' rest := by
  obtain ⟨c, t, rfl, hg, hc⟩ := hs
  rw [foldItems, skipGap_of_not_gap hg]
  simp only [if_neg hc, if_pos, hi]
  rfl

/-- An item behind a comma is read, and reading goes on behind it. -/
theorem foldItems_next {state state' : σ} {s rest : List Char} (hs : StartsValue s)
    (hi : item state s = .ok ((state', true), rest)) (fuel : Nat) :
    foldItems item (fuel + 1) false state (',' :: s) = foldItems item fuel false state' rest := by
  obtain ⟨c, t, rfl, hg, hc⟩ := hs
  rw [foldItems, skipGap_of_not_gap (show isGap ',' = false by decide)]
  simp only [show ¬(',' = ']') by decide, if_false, Bool.false_eq_true, if_true,
    skipGap_of_not_gap hg, if_neg hc, hi]
  rfl

end Items

/-! ## Members -/

section Members

variable {σ : Type} {size : Nat} {member : σ → String → List Char → Reading (σ × List Char)}

theorem readString_stringText {size : Nat} {key : String} (h : key.length < size)
    (rest : List Char) :
    (stringText key).toList ++ rest = '"' :: (key.toList.flatMap escapeChar ++ '"' :: rest) ∧
      readStringFrom size [] (key.toList.flatMap escapeChar ++ '"' :: rest) = .ok (key, rest) := by
  refine ⟨?_, ?_⟩
  · simp [toList_stringText]
  · rw [readStringFrom_escaped key.toList (by rwa [String.length_toList]), List.reverse_nil,
      List.nil_append, String.ofList_toList]

theorem readColon_colon (rest : List Char) : readColon (':' :: rest) = .ok rest := rfl

theorem foldMembers_end (fuel : Nat) (first : Bool) (state : σ) (rest : List Char) :
    foldMembers size member (fuel + 1) first state ('\x7d' :: rest) =
      .ok (state, '\x7d' :: rest) := rfl

section

variable {key : String} {s t rest : List Char} (hs : skipGap s = '"' :: t)
  (hname : readStringFrom size [] t = .ok (key, rest))

include hs hname

/-- The first member is read by its name, and reading goes on behind it. -/
theorem foldMembers_named (fuel : Nat) (state : σ) :
    foldMembers size member (fuel + 1) true state s =
      (member state key rest).bind fun found =>
        foldMembers size member fuel false found.1 found.2 := by
  rw [foldMembers, hs]
  simp only [show ¬('"' = '\x7d') by decide, if_false, if_true, hname]
  rfl

/-- A member behind a comma is read by its name, and reading goes on behind it. -/
theorem foldMembers_nextNamed (fuel : Nat) (state : σ) :
    foldMembers size member (fuel + 1) false state (',' :: s) =
      (member state key rest).bind fun found =>
        foldMembers size member fuel false found.1 found.2 := by
  rw [foldMembers, skipGap_of_not_gap (show isGap ',' = false by decide)]
  simp only [show ¬(',' = '\x7d') by decide, Bool.false_eq_true, if_false, if_true, hs, hname]
  rfl

end

/-- The first member is read, and reading goes on behind it. -/
theorem foldMembers_first {state state' : σ} {key : String} {s rest : List Char}
    (hk : key.length < size) (hm : member state key s = .ok (state', rest)) (fuel : Nat) :
    foldMembers size member (fuel + 1) true state ((stringText key).toList ++ s) =
      foldMembers size member fuel false state' rest := by
  obtain ⟨he, hr⟩ := readString_stringText hk s
  rw [he, foldMembers_named (skipGap_of_not_gap (by decide) _) hr, hm]
  rfl

/-- A member behind a comma is read, and reading goes on behind it. -/
theorem foldMembers_next {state state' : σ} {key : String} {s rest : List Char}
    (hk : key.length < size) (hm : member state key s = .ok (state', rest)) (fuel : Nat) :
    foldMembers size member (fuel + 1) false state (',' :: ((stringText key).toList ++ s)) =
      foldMembers size member fuel false state' rest := by
  obtain ⟨he, hr⟩ := readString_stringText hk s
  rw [he, foldMembers_nextNamed (skipGap_of_not_gap (by decide) _) hr, hm]
  rfl

end Members

/-! ## Values -/

theorem startsValue_render : {v : Value} → v.Exact → ∀ rest, StartsValue (v.render.toList ++ rest)
  | .null, _, rest => ⟨'n', _, rfl, rfl, by decide⟩
  | .bool true, _, rest => ⟨'t', _, rfl, rfl, by decide⟩
  | .bool false, _, rest => ⟨'f', _, rfl, rfl, by decide⟩
  | .int n, _, rest => by
    rw [Value.render, Value.write, String.empty_append, toList_toString]
    split
    · exact ⟨'-', _, rfl, rfl, by decide⟩
    · obtain ⟨c, ds, hd⟩ :=
        List.exists_cons_of_ne_nil (Nat.toDigits_ne_nil (n := n.natAbs) (b := 10))
      have hc : c.isDigit = true :=
        Nat.isDigit_of_mem_toDigits (by decide) (by decide) (hd ▸ List.mem_cons_self)
      rw [hd]
      exact ⟨c, _, rfl, isGap_of_isDigit hc, by rintro rfl; exact absurd hc (by decide)⟩
  | .string s, _, rest => ⟨'"', _, by rw [Value.render, Value.write, String.empty_append,
      toList_stringText, List.cons_append], rfl, by decide⟩
  | .array [], _, rest => ⟨'[', _, rfl, rfl, by decide⟩
  | .array (_ :: _), _, rest =>
    ⟨'[', _, by rw [Value.toList_render_array, List.cons_append], rfl, by decide⟩
  | .object [], _, rest => ⟨'\x7b', _, rfl, rfl, by decide⟩
  | .object ((_, _) :: _), _, rest =>
    ⟨'\x7b', _, by rw [Value.toList_render_object, List.cons_append], rfl, by decide⟩

/-- Reads a value as the next item of an array. -/
def readItem (size depth : Nat) (items : List Value) (s : List Char) :
    Reading ((List Value × Bool) × List Char) := do
  let (value, rest) ← readValue size depth s
  return ((value :: items, true), rest)

/-- Reads a value as the next member of an object. -/
def readMember (size depth : Nat) (members : List (String × Value)) (key : String)
    (s : List Char) : Reading (List (String × Value) × List Char) := do
  let (value, rest) ← readValue size depth (← readColon s)
  return ((key, value) :: members, rest)

/-- An array is what its items are read as. -/
theorem readValue_array {size depth : Nat} {items : List Value} {s rest : List Char}
    (h : foldItems (readItem size (depth + 1)) size true [] s = .ok (items, ']' :: rest)) :
    readValue size (depth + 2) ('[' :: s) = .ok (.array items.reverse, rest) := by
  unfold readValue
  show (foldItems (readItem size (depth + 1)) size true [] s).bind _ = _
  rw [h]
  rfl

/-- An object is what its members are read as. -/
theorem readValue_object {size depth : Nat} {members : List (String × Value)}
    {s rest : List Char}
    (h : foldMembers size (readMember size (depth + 1)) size true [] s =
      .ok (members, '\x7d' :: rest)) :
    readValue size (depth + 2) ('\x7b' :: s) = .ok (.ofMembers members.reverse, rest) := by
  unfold readValue
  show (foldMembers size (readMember size (depth + 1)) size true [] s).bind _ = _
  rw [h]
  rfl

theorem readItem_ok {size depth : Nat} {v : Value} {s rest : List Char}
    (h : readValue size depth s = .ok (v, rest)) (items : List Value) :
    readItem size depth items s = .ok ((v :: items, true), rest) := by
  rw [readItem, h]
  rfl

theorem readMember_ok {size depth : Nat} {v : Value} {s rest : List Char}
    (h : readValue size depth s = .ok (v, rest)) (key : String)
    (members : List (String × Value)) :
    readMember size depth members key (':' :: s) = .ok ((key, v) :: members, rest) := by
  rw [readMember, readColon_colon]
  show (readValue size depth s).bind _ = _
  rw [h]
  rfl

theorem EndsNumber.itemsText (items : List Value) (rest : List Char) :
    EndsNumber (itemsText items ++ ']' :: rest) := by
  cases items with
  | nil => exact .cons (by decide) _
  | cons v items =>
    rw [itemsText_cons]
    exact .cons (by decide) _

theorem EndsNumber.membersText (members : List (String × Value)) (rest : List Char) :
    EndsNumber (membersText members ++ '\x7d' :: rest) := by
  cases members with
  | nil => exact .cons (by decide) _
  | cons m members =>
    obtain ⟨k, v⟩ := m
    rw [membersText_cons]
    exact .cons (by decide) _

theorem length_lt_stringText (s : String) : s.length < (stringText s).toList.length := by
  have h : ∀ cs : List Char, cs.length ≤ (cs.flatMap escapeChar).length := by
    intro cs
    induction cs with
    | nil => exact Nat.le_refl _
    | cons c cs ih =>
      have hc : 1 ≤ (escapeChar c).length := by
        unfold escapeChar
        split
        case h_8 => split <;> simp
        all_goals simp
      rw [List.flatMap_cons, List.length_append, List.length_cons]
      omega
  have hs := h s.toList
  rw [toList_stringText, List.length_cons, List.length_append]
  rw [String.length_toList] at hs
  omega

mutual

/-- **A value without doubles is read back from its text**, whatever follows it that does not go on
with a number. -/
theorem readValue_render : (v : Value) → v.Exact → ∀ (size depth : Nat), v.depth < depth →
    v.render.toList.length < size → ∀ {rest : List Char}, EndsNumber rest →
    readValue size depth (v.render.toList ++ rest) = .ok (v, rest)
  | .null, _, _, _, _, _, _, _ => by unfold readValue; rfl
  | .bool true, _, _, _, _, _, _, _ => by unfold readValue; rfl
  | .bool false, _, _, _, _, _, _, _ => by unfold readValue; rfl
  | .int n, ⟨hl, hg⟩, size, depth, _, _, rest, hr => by
    rw [Value.render, Value.write, String.empty_append]
    exact readValue_int size depth hl hg hr
  | .string s, _, size, depth, _, hs, rest, _ => by
    rw [Value.render, Value.write, String.empty_append] at hs ⊢
    obtain ⟨he, hr⟩ :=
      readString_stringText (Nat.lt_trans (length_lt_stringText s) hs) rest
    rw [he]
    unfold readValue
    show (readStringFrom size [] _).bind _ = _
    rw [hr]
    rfl
  | .array [], _, size, depth, hd, hs, rest, _ => by
    simp only [Value.depth] at hd
    obtain ⟨depth, rfl⟩ : ∃ n, depth = n + 2 := ⟨depth - 2, by omega⟩
    obtain ⟨size, rfl⟩ : ∃ n, size = n + 1 := ⟨size - 1, by omega⟩
    exact readValue_array (foldItems_end size true [] rest)
  | .array (v :: items), ⟨hv, hi⟩, size, depth, hd, hs, rest, _ => by
    simp only [Value.depth, Value.allDepth] at hd
    simp only [Value.toList_render_array, List.length_cons, List.length_append] at hs
    obtain ⟨depth, rfl⟩ : ∃ n, depth = n + 2 := ⟨depth - 2, by omega⟩
    obtain ⟨fuel, rfl⟩ : ∃ n, size = n + 1 := ⟨size - 1, by omega⟩
    have hfirst := readValue_render v hv (fuel + 1) (depth + 1) (by omega) (by omega)
      (EndsNumber.itemsText items rest)
    have hrest := foldItems_itemsText items hi (fuel + 1) (depth + 1) fuel
      (by omega) (by omega) (by omega) [v] rest
    have htext : (Value.array (v :: items)).render.toList ++ rest =
        '[' :: (v.render.toList ++ (itemsText items ++ ']' :: rest)) := by
      simp [Value.toList_render_array]
    rw [← foldItems_first (startsValue_render hv _) (readItem_ok hfirst [])] at hrest
    rw [htext, readValue_array hrest]
    simp
  | .object members, ⟨hk, hm⟩, size, depth, hd, hs, rest, _ => by
    rw [readValue_members members hm size depth hd hs rest, Value.ofMembers_of_perm (.refl _) hk]

/-- Members are read as the object that they make up, in whatever order they stand. -/
theorem readValue_members : (members : List (String × Value)) → Value.MembersExact members →
    ∀ (size depth : Nat), (Value.object members).depth < depth →
    (Value.object members).render.toList.length < size → ∀ rest : List Char,
    readValue size depth ((Value.object members).render.toList ++ rest) =
      .ok (.ofMembers members, rest)
  | [], _, size, depth, hd, hs, rest => by
    simp only [Value.depth] at hd
    obtain ⟨depth, rfl⟩ : ∃ n, depth = n + 2 := ⟨depth - 2, by omega⟩
    obtain ⟨size, rfl⟩ : ∃ n, size = n + 1 := ⟨size - 1, by omega⟩
    exact readValue_object (foldMembers_end size true [] rest)
  | (key, v) :: members, ⟨hv, hm⟩, size, depth, hd, hs, rest => by
    simp only [Value.depth, Value.membersDepth] at hd
    simp only [Value.toList_render_object, memberText, List.length_cons, List.length_append] at hs
    obtain ⟨depth, rfl⟩ : ∃ n, depth = n + 2 := ⟨depth - 2, by omega⟩
    obtain ⟨fuel, rfl⟩ : ∃ n, size = n + 1 := ⟨size - 1, by omega⟩
    have hkey := length_lt_stringText key
    have hfirst := readValue_render v hv (fuel + 1) (depth + 1) (by omega) (by omega)
      (EndsNumber.membersText members rest)
    have hrest := foldMembers_membersText members hm (fuel + 1) (depth + 1) fuel
      (by omega) (by omega) (by omega) [(key, v)] rest
    rw [← foldMembers_first (show key.length < fuel + 1 by omega)
      (readMember_ok hfirst key [])] at hrest
    have htext : (Value.object ((key, v) :: members)).render.toList ++ rest =
        '\x7b' :: ((stringText key).toList ++
          ':' :: (v.render.toList ++ (membersText members ++ '\x7d' :: rest))) := by
      simp [Value.toList_render_object, memberText]
    rw [htext, readValue_object hrest]
    simp

theorem foldItems_itemsText : (items : List Value) → Value.AllExact items →
    ∀ (size depth fuel : Nat), Value.allDepth items < depth → (itemsText items).length < size →
    (itemsText items).length < fuel → ∀ (done : List Value) (rest : List Char),
    foldItems (readItem size depth) fuel false done (itemsText items ++ ']' :: rest) =
      .ok (items.reverse ++ done, ']' :: rest)
  | [], _, _, _, fuel, _, _, hf, done, rest => by
    obtain ⟨fuel, rfl⟩ := Nat.exists_eq_add_of_lt hf
    exact foldItems_end _ _ _ _
  | v :: items, ⟨hv, hi⟩, size, depth, fuel, hd, hs, hf, done, rest => by
    simp only [Value.allDepth] at hd
    simp only [itemsText_cons, List.length_cons, List.length_append] at hs hf
    obtain ⟨fuel, rfl⟩ : ∃ n, fuel = n + 1 := ⟨fuel - 1, by omega⟩
    have hfirst := readValue_render v hv size depth (by omega) (by omega)
      (EndsNumber.itemsText items rest)
    rw [itemsText_cons, List.cons_append, List.append_assoc,
      foldItems_next (startsValue_render hv _) (readItem_ok hfirst done),
      foldItems_itemsText items hi _ _ _ (by omega) (by omega) (by omega)]
    simp

theorem foldMembers_membersText : (members : List (String × Value)) →
    Value.MembersExact members → ∀ (size depth fuel : Nat), Value.membersDepth members < depth →
    (membersText members).length < size → (membersText members).length < fuel →
    ∀ (done : List (String × Value)) (rest : List Char),
    foldMembers size (readMember size depth) fuel false done
        (membersText members ++ '\x7d' :: rest) =
      .ok (members.reverse ++ done, '\x7d' :: rest)
  | [], _, _, _, fuel, _, _, hf, done, rest => by
    obtain ⟨fuel, rfl⟩ := Nat.exists_eq_add_of_lt hf
    exact foldMembers_end _ _ _ _
  | (key, v) :: members, ⟨hv, hm⟩, size, depth, fuel, hd, hs, hf, done, rest => by
    simp only [Value.membersDepth] at hd
    simp only [membersText_cons, memberText, List.length_cons, List.length_append] at hs hf
    obtain ⟨fuel, rfl⟩ : ∃ n, fuel = n + 1 := ⟨fuel - 1, by omega⟩
    have hkey := length_lt_stringText key
    have hfirst := readValue_render v hv size depth (by omega) (by omega)
      (EndsNumber.membersText members rest)
    rw [membersText_cons, memberText, List.cons_append, List.append_assoc, List.append_assoc,
      List.cons_append,
      foldMembers_next (show key.length < size by omega) (readMember_ok hfirst key done),
      foldMembers_membersText members hm _ _ _ (by omega) (by omega) (by omega)]
    simp

end

/-! ## Whole texts -/

theorem readAll_of_read {α : Type} {read : Nat → List Char → Reading (α × List Char)}
    {text : List Char} {value : α} (h : read (text.length + 1) text = .ok (value, [])) :
    readAll read text = .ok value := by
  unfold readAll
  rw [h]
  rfl

/-- **Written members are read as the object that they make up.** -/
theorem parse_members {members : List (String × Value)} (hm : Value.MembersExact members)
    (hd : (Value.object members).depth < depthLimit) :
    parse (Value.object members).render = .ok (.ofMembers members) := by
  have h := readValue_members members hm _ _ hd (Nat.lt_succ_self _) []
  rw [List.append_nil] at h
  exact readAll_of_read h

end ScriptWorker.Json

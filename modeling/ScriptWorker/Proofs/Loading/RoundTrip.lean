import ScriptWorker.Loading.Bridge
import ScriptWorker.Proofs.Json.Members
import ScriptWorker.Proofs.Numeric.Nearest
import ScriptWorker.Proofs.Results
import ScriptWorker.Proofs.Script.Keys
import ScriptWorker.Proofs.Text.Utf8

/-!
# JSON values through the language and back

`Shows` says that a value of the language stands for a JSON value, with tables that lie below the
table that holds them. Decoding gives such a value (`shows_decodeInner`), the heap may grow without
harm (`Shows.mono`), and encoding reads it back (`encode_shows`). So what has been decoded is
encoded as it was, but for integers past those of the language (`encode_decode`).
-/

set_option autoImplicit false

namespace ScriptWorker.Json.Value

mutual

/-- The values of JSON texts: whole numbers in their range, doubles that are finite, arrays no
longer than any memory could hold, and members sorted by key. -/
def WellFormed : Value → Prop
  | .null | .bool _ | .string _ => True
  | .int n => leastInt ≤ n ∧ n ≤ greatestInt
  | .float x => x.isFinite = true
  | .array items => items.length < 0x8000000000000000 ∧ AllWellFormed items
  | .object members => Sorted members ∧ MembersWellFormed members

@[inherit_doc WellFormed] def AllWellFormed : List Value → Prop
  | [] => True
  | v :: rest => v.WellFormed ∧ AllWellFormed rest

@[inherit_doc WellFormed] def MembersWellFormed : List (String × Value) → Prop
  | [] => True
  | (_, v) :: rest => v.WellFormed ∧ MembersWellFormed rest

end

mutual

/-- The value with doubles in the place of the integers past those of the language. -/
def settled : Value → Value
  | .null => .null
  | .bool b => .bool b
  | .int n => if n < 0x8000000000000000 then .int n else .float (Numeric.nearestInt n)
  | .float x => .float x
  | .string s => .string s
  | .array items => .array (allSettled items)
  | .object members => .object (membersSettled members)

@[inherit_doc settled] def allSettled : List Value → List Value
  | [] => []
  | v :: rest => v.settled :: allSettled rest

@[inherit_doc settled] def membersSettled : List (String × Value) → List (String × Value)
  | [] => []
  | (k, v) :: rest => (k, v.settled) :: membersSettled rest

end

mutual

/-- Nothing is left to settle. -/
theorem settled_settled : ∀ v : Value, v.settled.settled = v.settled
  | .null | .bool _ | .float _ | .string _ => rfl
  | .int n => by
    by_cases h : n < 0x8000000000000000
    · simp only [settled, if_pos h]
    · simp only [settled, if_neg h]
  | .array items => congrArg array (allSettled_settled items)
  | .object members => congrArg object (membersSettled_settled members)

theorem allSettled_settled : ∀ items, allSettled (allSettled items) = allSettled items
  | [] => rfl
  | v :: rest => congrArg₂ List.cons (settled_settled v) (allSettled_settled rest)

theorem membersSettled_settled :
    ∀ members, membersSettled (membersSettled members) = membersSettled members
  | [] => rfl
  | (k, v) :: rest =>
    congrArg₂ List.cons (congrArg (k, ·) (settled_settled v)) (membersSettled_settled rest)

end

theorem length_allSettled (items : List Value) : (allSettled items).length = items.length := by
  induction items with
  | nil => rfl
  | cons v rest ih => rw [allSettled, List.length_cons, ih, List.length_cons]

/-- Settling keeps the names of members. -/
theorem sorted_membersSettled {members : List (String × Value)} (h : Sorted members) :
    Sorted (membersSettled members) := by
  have keys : ∀ members, (membersSettled members).map (·.1) = members.map (·.1) := by
    intro members
    induction members with
    | nil => rfl
    | cons m rest ih => rw [membersSettled, List.map_cons, ih, List.map_cons]
  have := List.pairwise_map.2 h
  rw [← keys] at this
  exact List.pairwise_map.1 this

mutual

/-- Settling leads to the values of JSON texts again. -/
theorem wellFormed_settled : ∀ {v : Value}, v.WellFormed → v.settled.WellFormed
  | .null, _ | .bool _, _ | .string _, _ => trivial
  | .float _, hv => hv
  | .int n, ⟨h1, h2⟩ => by
    by_cases h : n < 0x8000000000000000
    · rw [settled, if_pos h]
      exact ⟨h1, h2⟩
    · rw [settled, if_neg h]
      exact (Numeric.parts_nearestInt (Int.not_lt.1 h) h2).1
  | .array items, ⟨hl, hi⟩ =>
    ⟨(length_allSettled items).symm ▸ hl, allWellFormed_settled hi⟩
  | .object _, ⟨hk, hm⟩ => ⟨sorted_membersSettled hk, membersWellFormed_settled hm⟩

theorem allWellFormed_settled :
    ∀ {items : List Value}, AllWellFormed items → AllWellFormed (allSettled items)
  | [], _ => trivial
  | _ :: _, ⟨hv, hr⟩ => ⟨wellFormed_settled hv, allWellFormed_settled hr⟩

theorem membersWellFormed_settled : ∀ {members : List (String × Value)},
    MembersWellFormed members → MembersWellFormed (membersSettled members)
  | [], _ => trivial
  | (_, _) :: _, ⟨hv, hr⟩ => ⟨wellFormed_settled hv, membersWellFormed_settled hr⟩

end

end ScriptWorker.Json.Value

namespace ScriptWorker.Loading.Bridge

open Script

/-! ## Values that stand for JSON values -/

mutual

/-- The value stands for a JSON value, with tables below `n`. -/
def Shows (h : Heap) (n : Nat) : Json.Value → Value → Prop
  | .null, w => w = .null
  | .bool b, w => w = .bool b
  | .int i, w => ∃ k, w = .int k ∧ k.toInt = i
  | .float x, w => w = .float x ∧ x.isFinite = true
  | .string s, w => w = textValue s
  | .array items, w => ∃ id ws, w = .table id ∧ id < n ∧ h.table id = arrayTable ws ∧
      items.length < 0x8000000000000000 ∧ ShowsAll h id items ws
  | .object members, w => ∃ id ws, w = .table id ∧ id < n ∧ h.table id = objectTable ws ∧
      Json.Value.Sorted members ∧ ShowsMembers h id members ws

@[inherit_doc Shows] def ShowsAll (h : Heap) (n : Nat) : List Json.Value → List Value → Prop
  | [], ws => ws = []
  | v :: rest, ws => ∃ w ws', ws = w :: ws' ∧ Shows h n v w ∧ ShowsAll h n rest ws'

@[inherit_doc Shows] def ShowsMembers (h : Heap) (n : Nat) :
    List (String × Json.Value) → List (String × Value) → Prop
  | [], ws => ws = []
  | (k, v) :: rest, ws => ∃ w ws', ws = (k, w) :: ws' ∧ Shows h n v w ∧ ShowsMembers h n rest ws'

end

/-- The heap has only got more tables. -/
structure Grows (h h' : Heap) : Prop where
  size : h.tables.size ≤ h'.tables.size
  tables : ∀ id < h.tables.size, h'.table id = h.table id
  rest : h' = { h with tables := h'.tables }

theorem Grows.refl (h : Heap) : Grows h h := ⟨Nat.le_refl _, fun _ _ => rfl, rfl⟩

theorem Grows.trans {h h' h'' : Heap} (g : Grows h h') (g' : Grows h' h'') : Grows h h'' := by
  refine ⟨g.size.trans g'.size, fun id hid => ?_, ?_⟩
  · rw [g'.tables id (Nat.lt_of_lt_of_le hid g.size), g.tables id hid]
  · rw [g'.rest, g.rest]

theorem Grows.newTable (h : Heap) (t : Table) : Grows h (h.newTable t).2 := by
  refine ⟨?_, fun id hid => ?_, rfl⟩
  · simp [Heap.newTable]
  · simp [Heap.newTable, Heap.table, Array.getD, hid, Array.getElem_push_lt hid,
      Nat.lt_succ_of_lt hid]

theorem lt_newTable (h : Heap) (t : Table) : (h.newTable t).1 < (h.newTable t).2.tables.size := by
  simp [Heap.newTable]

theorem table_newTable (h : Heap) (t : Table) : (h.newTable t).2.table (h.newTable t).1 = t := by
  simp [Heap.newTable, Heap.table, Array.getD]

mutual

/-- A heap that grows still shows what it showed. -/
theorem Shows.mono {h h' : Heap} (g : Grows h h') {n n' : Nat} (hn : n ≤ n')
    (hs : n ≤ h.tables.size) : ∀ {v : Json.Value} {w : Value}, Shows h n v w → Shows h' n' v w
  | .null, _, hv | .bool _, _, hv | .int _, _, hv | .float _, _, hv | .string _, _, hv => hv
  | .array _, _, ⟨id, ws, hw, hid, ht, hl, hi⟩ =>
    have hs' : id < h.tables.size := Nat.lt_of_lt_of_le hid hs
    ⟨id, ws, hw, Nat.lt_of_lt_of_le hid hn, (g.tables id hs').trans ht, hl,
      ShowsAll.mono g (Nat.le_refl id) (Nat.le_of_lt hs') hi⟩
  | .object _, _, ⟨id, ws, hw, hid, ht, hk, hm⟩ =>
    have hs' : id < h.tables.size := Nat.lt_of_lt_of_le hid hs
    ⟨id, ws, hw, Nat.lt_of_lt_of_le hid hn, (g.tables id hs').trans ht, hk,
      ShowsMembers.mono g (Nat.le_refl id) (Nat.le_of_lt hs') hm⟩

theorem ShowsAll.mono {h h' : Heap} (g : Grows h h') {n n' : Nat} (hn : n ≤ n')
    (hs : n ≤ h.tables.size) : ∀ {vs : List Json.Value} {ws : List Value},
      ShowsAll h n vs ws → ShowsAll h' n' vs ws
  | [], _, hv => hv
  | _ :: _, _, ⟨w, ws, he, hv, hr⟩ => ⟨w, ws, he, Shows.mono g hn hs hv, ShowsAll.mono g hn hs hr⟩

theorem ShowsMembers.mono {h h' : Heap} (g : Grows h h') {n n' : Nat} (hn : n ≤ n')
    (hs : n ≤ h.tables.size) : ∀ {vs : List (String × Json.Value)} {ws : List (String × Value)},
      ShowsMembers h n vs ws → ShowsMembers h' n' vs ws
  | [], _, hv => hv
  | (_, _) :: _, _, ⟨w, ws, he, hv, hr⟩ =>
    ⟨w, ws, he, Shows.mono g hn hs hv, ShowsMembers.mono g hn hs hr⟩

end

/-! ## Decoding -/

theorem wholeValue_small {n : Int} (h1 : Json.Value.leastInt ≤ n) (h2 : n < 0x8000000000000000) :
    ∃ k, wholeValue n = .int k ∧ k.toInt = n := by
  have hi : Number.intOfInt? n = some (Int64.ofInt n) := if_pos ⟨h1, h2⟩
  refine ⟨Int64.ofInt n, by rw [wholeValue, hi], ?_⟩
  exact Int64.toInt_ofInt_of_le h1 h2

theorem wholeValue_large {n : Int} (h : ¬n < 0x8000000000000000) :
    wholeValue n = .float (Numeric.nearestInt n) := by
  have hi : Number.intOfInt? n = none := if_neg fun hn => h hn.2
  rw [wholeValue, hi]

/-- The value for a whole number stands for the settled number. -/
theorem shows_wholeValue (h : Heap) (n : Nat) {i : Int} (hi : (Json.Value.int i).WellFormed) :
    Shows h n (Json.Value.int i).settled (wholeValue i) := by
  obtain ⟨h1, h2⟩ := hi
  by_cases hs : i < 0x8000000000000000
  · rw [Json.Value.settled, if_pos hs]
    exact wholeValue_small h1 hs
  · rw [Json.Value.settled, if_neg hs, wholeValue_large hs]
    exact ⟨rfl, (Numeric.parts_nearestInt (Int.not_lt.1 hs) h2).1⟩

mutual

/-- Decoding only adds tables. -/
theorem grows_decodeInner (h : Heap) : ∀ v : Json.Value, Grows h (decodeInner h v).2
  | .null | .bool _ | .int _ | .float _ | .string _ => .refl h
  | .array items => (grows_decodeItems h items).trans (.newTable _ _)
  | .object members => (grows_decodeMembers h members).trans (.newTable _ _)

theorem grows_decodeItems (h : Heap) :
    ∀ items : List Json.Value, Grows h (decodeItems h items).2
  | [] => .refl h
  | v :: rest => (grows_decodeInner h v).trans (grows_decodeItems _ rest)

theorem grows_decodeMembers (h : Heap) :
    ∀ members : List (String × Json.Value), Grows h (decodeMembers h members).2
  | [] => .refl h
  | (_, v) :: rest => (grows_decodeInner h v).trans (grows_decodeMembers _ rest)

end

theorem decode_of_ne {v : Json.Value} (hv : v ≠ .null) (h : Heap) :
    decode h v = decodeInner h v := by
  cases v
  case null => exact absurd rfl hv
  all_goals rfl

@[inherit_doc grows_decodeInner]
theorem grows_decode (h : Heap) (v : Json.Value) : Grows h (decode h v).2 := by
  by_cases hv : v = .null
  · subst hv
    exact .refl h
  · exact decode_of_ne hv h ▸ grows_decodeInner h v

mutual

/-- **Decoding gives a value that stands for the settled value.** -/
theorem shows_decodeInner (h : Heap) : ∀ {v : Json.Value}, v.WellFormed →
    Shows (decodeInner h v).2 (decodeInner h v).2.tables.size v.settled (decodeInner h v).1
  | .null, _ | .bool _, _ | .string _, _ => rfl
  | .int _, hv => shows_wholeValue h _ hv
  | .float _, hv => ⟨rfl, hv⟩
  | .array items, ⟨hl, hi⟩ =>
    have gt := Grows.newTable (decodeItems h items).2 (arrayTable (decodeItems h items).1)
    ⟨_, _, rfl, lt_newTable _ _, table_newTable _ _, by rwa [Json.Value.length_allSettled],
      ShowsAll.mono gt (Nat.le_refl _) (Nat.le_refl _) (shows_decodeItems h hi)⟩
  | .object members, ⟨hk, hm⟩ =>
    have gt := Grows.newTable (decodeMembers h members).2
      (objectTable (decodeMembers h members).1)
    ⟨_, _, rfl, lt_newTable _ _, table_newTable _ _, Json.Value.sorted_membersSettled hk,
      ShowsMembers.mono gt (Nat.le_refl _) (Nat.le_refl _) (shows_decodeMembers h hm)⟩

theorem shows_decodeItems (h : Heap) : ∀ {items : List Json.Value},
    Json.Value.AllWellFormed items →
    ShowsAll (decodeItems h items).2 (decodeItems h items).2.tables.size
      (Json.Value.allSettled items) (decodeItems h items).1
  | [], _ => rfl
  | v :: rest, ⟨hv, hr⟩ =>
    have g := grows_decodeItems (decodeInner h v).2 rest
    ⟨_, _, rfl, (shows_decodeInner h hv).mono g g.size (Nat.le_refl _), shows_decodeItems _ hr⟩

theorem shows_decodeMembers (h : Heap) : ∀ {members : List (String × Json.Value)},
    Json.Value.MembersWellFormed members →
    ShowsMembers (decodeMembers h members).2 (decodeMembers h members).2.tables.size
      (Json.Value.membersSettled members) (decodeMembers h members).1
  | [], _ => rfl
  | (_, v) :: rest, ⟨hv, hr⟩ =>
    have g := grows_decodeMembers (decodeInner h v).2 rest
    ⟨_, _, rfl, (shows_decodeInner h hv).mono g g.size (Nat.le_refl _), shows_decodeMembers _ hr⟩

end

/-! ## Tables of arrays and objects -/

theorem isArray_arrayTable (ws : List Value) : isArray (arrayTable ws) = true := by
  simp [isArray, arrayTable]

theorem itemsFrom_arrayTable {ws : List Value} (hl : ws.length < 0x8000000000000000)
    (hn : ∀ w ∈ ws, w.isNil = false) (fuel k : Nat) (hk : fuel + k = ws.length) :
    itemsFrom (arrayTable ws) fuel (k + 1) = ws.drop k := by
  induction fuel generalizing k with
  | zero =>
    rw [itemsFrom, List.drop_of_length_le (by omega)]
  | succ fuel ih =>
    have hi : (Int64.ofNat (k + 1)).toInt = (k + 1 : Nat) := Int64.toInt_ofNat_of_lt (by omega)
    have hp : Table.place? (arrayTable ws).items.size (Int64.ofNat (k + 1)) = some k := by
      have hs : (arrayTable ws).items.size = ws.length := List.size_toArray
      rw [Table.place?, hi, if_pos ⟨by omega, by omega⟩]
      rfl
    have hf : (arrayTable ws).find (.int (Int64.ofNat (k + 1))) = ws[k] := by
      have hlt : k < ws.length := by omega
      simp only [Table.find, hp]
      simp [arrayTable, hlt]
    rw [itemsFrom, hf, List.drop_eq_getElem_cons (by omega), ih (k + 1) (by omega)]
    have := hn ws[k] (List.getElem_mem _)
    cases hw : ws[k] with
    | nil =>
      rw [hw] at this
      cases this
    | _ => rfl

theorem items_arrayTable {ws : List Value} (hl : ws.length < 0x8000000000000000)
    (hn : ∀ w ∈ ws, w.isNil = false) : items (arrayTable ws) = ws :=
  itemsFrom_arrayTable hl hn _ 0 (by simp [arrayTable])

/-- The entry for a member. -/
def entryOf (m : String × Value) : Key × Value := (.str (Text.Utf8.encode m.1).toByteArray, m.2)

theorem objectTable_eq (ws : List (String × Value)) :
    objectTable ws =
      { Table.sized 0 ws.length with entries := insertAll {} (ws.map entryOf) } := by
  have fold : ∀ (ws : List (String × Value)) (t : Table),
      ws.foldl (fun t m => { t with
        entries := t.entries.insert (.str (Text.Utf8.encode m.1).toByteArray) m.2 }) t =
      { t with entries := insertAll t.entries (ws.map entryOf) } := by
    intro ws
    induction ws with
    | nil => exact fun t => rfl
    | cons m ws ih => exact fun t => ih _
  exact fold ws _

theorem text?_encode (s : String) : text? (Text.Utf8.encode s).toByteArray = some s := by
  rw [text?, List.data_toByteArray, Text.Utf8.decode?_encode, Option.map_some, String.ofList_toList]

theorem order_entryOf {m n : String × Value} (h : m.1 ≠ n.1) :
    Key.order (entryOf m).1 (entryOf n).1 ≠ .eq := by
  intro he
  have := congrArg text? (Key.eq_of_order_str he)
  rw [text?_encode, text?_encode] at this
  exact h (Option.some.inj this)

theorem isArray_objectTable (ws : List (String × Value)) : isArray (objectTable ws) = false := by
  have hf : ∀ n fallback, (objectTable ws).entries.getD (.int n) fallback = fallback := by
    intro n fallback
    rw [objectTable_eq]
    refine (getD_insertAll (fun e he => ?_) fallback).trans Std.TreeMap.getD_emptyc
    obtain ⟨m, -, rfl⟩ := List.mem_map.1 he
    exact fun h => nomatch h
  have hl : (objectTable ws).length = 0 := by
    have hs : (objectTable ws).items.size = 0 := by rw [objectTable_eq]; rfl
    have he : (objectTable ws).hasEntry (0 + 1) = false := by
      rw [Table.hasEntry, hf]
      rfl
    simp only [Table.length, hs, he, Nat.lt_irrefl, false_and, if_false, Bool.false_eq_true]
  have hm : (objectTable ws).metatable = none := by rw [objectTable_eq]; rfl
  rw [isArray, hl, hm]
  rfl

/-- **The table of an object holds its members**, in some order. -/
theorem toList_objectTable {ws : List (String × Value)} (hk : ws.Pairwise fun m n => m.1 ≠ n.1)
    (hn : ∀ m ∈ ws, m.2.isNil = false) : (objectTable ws).toList.Perm (ws.map entryOf) := by
  have hp : (insertAll {} (ws.map entryOf)).toList.Perm (ws.map entryOf) := by
    refine (toList_insertAll ?_).trans (.of_eq (List.append_nil _))
    exact (List.append_nil (ws.map entryOf)).symm ▸ List.pairwise_map.2 (hk.imp order_entryOf)
  have hl : (objectTable ws).toList = (insertAll {} (ws.map entryOf)).toList := by
    rw [objectTable_eq]
    refine List.filter_eq_self.2 fun e he => ?_
    obtain ⟨m, hm, rfl⟩ := List.mem_map.1 (hp.mem_iff.1 he)
    exact congrArg (!·) (hn m hm)
  rw [hl]
  exact hp

/-! ## Encoding -/

theorem Shows.not_nil {h : Heap} {n : Nat} {v : Json.Value} {w : Value} (hs : Shows h n v w) :
    w.isNil = false := by
  cases v with
  | null | bool _ | string _ =>
    cases hs
    rfl
  | int _ =>
    obtain ⟨k, rfl, -⟩ := hs
    rfl
  | float _ =>
    cases hs.1
    rfl
  | array _ | object _ =>
    obtain ⟨id, ws, rfl, -⟩ := hs
    rfl

theorem ShowsAll.length {h : Heap} {n : Nat} {vs : List Json.Value} {ws : List Value}
    (hs : ShowsAll h n vs ws) : ws.length = vs.length := by
  induction vs generalizing ws with
  | nil => rw [show ws = [] from hs]; rfl
  | cons v vs ih =>
    obtain ⟨w, ws, rfl, -, hr⟩ := hs
    rw [List.length_cons, ih hr, List.length_cons]

theorem ShowsAll.not_nil {h : Heap} {n : Nat} {vs : List Json.Value} {ws : List Value}
    (hs : ShowsAll h n vs ws) : ∀ w ∈ ws, w.isNil = false := by
  induction vs generalizing ws with
  | nil =>
    rw [show ws = [] from hs]
    exact fun w hw => nomatch hw
  | cons v vs ih =>
    obtain ⟨w, ws, rfl, hv, hr⟩ := hs
    exact List.forall_mem_cons.2 ⟨hv.not_nil, ih hr⟩

theorem ShowsMembers.keys {h : Heap} {n : Nat} {vs : List (String × Json.Value)}
    {ws : List (String × Value)} (hs : ShowsMembers h n vs ws) :
    ws.map (·.1) = vs.map (·.1) := by
  induction vs generalizing ws with
  | nil => rw [show ws = [] from hs]; rfl
  | cons v vs ih =>
    obtain ⟨w, ws, rfl, -, hr⟩ := hs
    rw [List.map_cons, ih hr, List.map_cons]

theorem ShowsMembers.not_nil {h : Heap} {n : Nat} {vs : List (String × Json.Value)}
    {ws : List (String × Value)} (hs : ShowsMembers h n vs ws) : ∀ m ∈ ws, m.2.isNil = false := by
  induction vs generalizing ws with
  | nil =>
    rw [show ws = [] from hs]
    exact fun w hw => nomatch hw
  | cons v vs ih =>
    obtain ⟨w, ws, rfl, hv, hr⟩ := hs
    exact List.forall_mem_cons.2 ⟨hv.not_nil, ih hr⟩

/-- A value that stands for a JSON value is none of the tables above it. -/
theorem Shows.fresh {h : Heap} {n : Nat} {v : Json.Value} {w : Value} (hs : Shows h n v w)
    {above : List Nat} (ha : ∀ id ∈ above, n ≤ id) : checkFresh above w = .ok () := by
  cases v with
  | null | bool _ | string _ =>
    cases hs
    rfl
  | int _ =>
    obtain ⟨k, rfl, -⟩ := hs
    rfl
  | float _ =>
    cases hs.1
    rfl
  | array _ | object _ =>
    obtain ⟨id, ws, rfl, hid, -⟩ := hs
    refine if_neg fun hc => ?_
    exact Nat.lt_irrefl _ (Nat.lt_of_lt_of_le hid (ha id (by simpa using hc)))

/-- The JSON member of an entry. -/
def encodeEntry (h : Heap) (fuel : Nat) (above : List Nat) (e : Key × Value) :
    Except EncodingFault (String × Json.Value) := do
  checkFresh above e.1.toValue
  checkFresh above e.2
  let name ← memberName h e.1.toValue
  return (name, ← encodeInner h fuel above e.2)

theorem encodeInner_array {h : Heap} {fuel id : Nat} {above : List Nat}
    (hf : checkFresh above (.table id) = .ok ()) (ha : isArray (h.table id) = true) :
    encodeInner h (fuel + 1) above (.table id) =
      ((items (h.table id)).mapM (encodeInner h fuel (id :: above))).map .array := by
  rw [encodeInner, hf]
  simp only [ha, if_true]
  rfl

theorem encodeInner_object {h : Heap} {fuel id : Nat} {above : List Nat}
    (hf : checkFresh above (.table id) = .ok ()) (ha : isArray (h.table id) = false) :
    encodeInner h (fuel + 1) above (.table id) =
      ((h.table id).toList.mapM (encodeEntry h fuel (id :: above))).map .ofMembers := by
  rw [encodeInner, hf]
  simp only [ha, Bool.false_eq_true, if_false]
  rfl

theorem memberName_entryOf (h : Heap) (m : String × Value) :
    memberName h (entryOf m).1.toValue = .ok m.1 := by
  simp only [entryOf, Key.toValue, memberName, text?_encode]

mutual

/-- **Encoding reads back what a value stands for.** -/
theorem encode_shows {h : Heap} : ∀ {v : Json.Value} {w : Value} {n fuel : Nat} {above : List Nat},
    Shows h n v w → n ≤ fuel → (∀ id ∈ above, n ≤ id) → encodeInner h fuel above w = .ok v
  | .null, _, _, _, _, hs, _, _ | .bool _, _, _, _, _, hs, _, _ => by
    cases hs
    rw [encodeInner]
  | .int _, _, _, _, _, hs, _, _ => by
    obtain ⟨k, rfl, rfl⟩ := hs
    rw [encodeInner]
  | .float _, _, _, _, _, hs, _, _ => by
    obtain ⟨rfl, hx⟩ := hs
    rw [encodeInner, if_pos hx]
  | .string s, _, _, _, _, hs, _, _ => by
    cases hs
    rw [textValue, encodeInner, text?_encode]
  | .array items, _, n, fuel, above, hs, hn, ha => by
    have hf := hs.fresh ha
    obtain ⟨id, ws, rfl, hid, ht, hl, hi⟩ := hs
    cases fuel with
    | zero => exact absurd (Nat.lt_of_lt_of_le hid hn) (Nat.not_lt_zero _)
    | succ fuel =>
      -- the tables inside lie below this one: the fuel lasts, and none of them holds itself
      have hids : ∀ a ∈ id :: above, id ≤ a :=
        List.forall_mem_cons.2 ⟨Nat.le_refl _, fun a h => (Nat.le_of_lt hid).trans (ha a h)⟩
      have he := encodeItems_shows hi (Nat.le_of_lt_succ (Nat.lt_of_lt_of_le hid hn)) hids
      rw [encodeInner_array hf (ht ▸ isArray_arrayTable ws), ht,
        items_arrayTable (hi.length ▸ hl) hi.not_nil, mapM_eq_ok_iff.2 he]
      rfl
  | .object members, _, n, fuel, above, hs, hn, ha => by
    have hf := hs.fresh ha
    obtain ⟨id, ws, rfl, hid, ht, hk, hm⟩ := hs
    cases fuel with
    | zero => exact absurd (Nat.lt_of_lt_of_le hid hn) (Nat.not_lt_zero _)
    | succ fuel =>
      have hids : ∀ a ∈ id :: above, id ≤ a :=
        List.forall_mem_cons.2 ⟨Nat.le_refl _, fun a h => (Nat.le_of_lt hid).trans (ha a h)⟩
      have he := encodeMembers_shows hm (Nat.le_of_lt_succ (Nat.lt_of_lt_of_le hid hn)) hids
      -- the table lists its entries in the order of keys, and the object sorts its members again
      have hd : ws.Pairwise fun m n => m.1 ≠ n.1 := by
        refine List.pairwise_map.1 ?_
        rw [hm.keys]
        exact List.pairwise_map.2 hk.nodup
      obtain ⟨r, hr, hp⟩ := mapM_of_perm (toList_objectTable hd hm.not_nil)
        ((List.map_map ..).trans he)
      rw [encodeInner_object hf (ht ▸ isArray_objectTable ws), ht, hr]
      exact congrArg Except.ok (Json.Value.ofMembers_of_perm hp hk)

theorem encodeItems_shows {h : Heap} : ∀ {vs : List Json.Value} {ws : List Value} {n fuel : Nat}
    {above : List Nat}, ShowsAll h n vs ws → n ≤ fuel → (∀ id ∈ above, n ≤ id) →
      ws.map (encodeInner h fuel above) = vs.map .ok
  | [], _, _, _, _, hs, _, _ => by
    cases hs
    rfl
  | _ :: _, _, _, _, _, hs, hn, ha => by
    obtain ⟨w, ws, rfl, hv, hr⟩ := hs
    exact congrArg₂ List.cons (encode_shows hv hn ha) (encodeItems_shows hr hn ha)

theorem encodeMembers_shows {h : Heap} : ∀ {vs : List (String × Json.Value)}
    {ws : List (String × Value)} {n fuel : Nat} {above : List Nat},
      ShowsMembers h n vs ws → n ≤ fuel → (∀ id ∈ above, n ≤ id) →
        ws.map (encodeEntry h fuel above ∘ entryOf) = vs.map .ok
  | [], _, _, _, _, hs, _, _ => by
    cases hs
    rfl
  | (k, v) :: _, _, _, _, _, hs, hn, ha => by
    obtain ⟨w, ws, rfl, hv, hr⟩ := hs
    refine congrArg₂ List.cons ?_ (encodeMembers_shows hr hn ha)
    rw [Function.comp_apply, encodeEntry, memberName_entryOf, show (entryOf (k, w)).2 = w from rfl,
      hv.fresh ha, encode_shows hv hn ha]
    rfl

end

/-- **What has been decoded is encoded as it was**, with integers past those of the language settled
as doubles. -/
theorem encode_decode (h : Heap) {v : Json.Value} (hv : v.WellFormed) :
    encode (decode h v).2 (decode h v).1 = .ok v.settled := by
  by_cases hn : v = .null
  · subst hn
    rfl
  · rw [decode_of_ne hn]
    exact encode_shows (shows_decodeInner h hv) (Nat.le_succ _) fun id hid => nomatch hid

end ScriptWorker.Loading.Bridge

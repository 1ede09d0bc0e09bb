import Mathlib.Data.List.Perm.Subperm
import ScriptWorker.Proofs.Loading.EntryPoints
import ScriptWorker.Proofs.Loading.RoundTrip

/-!
# What can be encoded

Encoding walks from a value through the parts of tables (`Walks`). It fails just if the walk comes
to something that has no JSON form (`Unencodable`): among tables that is one of the tables above
itself, so a table that stands in two places of a value is no fault. The tables above a value are
all different, so there are no more of them than the heap has (`Room`); that is why the walk ends
and no bound on its depth is ever felt (`encodeInner_of_room`). What comes of a value is the value
unfolded into a tree (`Unfolds`), in which a shared table stands at each of its places.
-/

set_option autoImplicit false

namespace ScriptWorker.Loading

open Script

namespace Bridge

/-! ## The walk -/

/-- The values of a table that go into its JSON value: the sequence of an array, and otherwise the
values of all entries. -/
def parts (t : Table) : List Value := if isArray t then items t else t.toList.map (·.2)

/-- The walk from a value below the tables `above`, the innermost one first, comes to a value `x`
below the tables `above'`. -/
inductive Walks (h : Heap) : List Nat → Value → List Nat → Value → Prop
  | here {above v} : Walks h above v above v
  | into {above id w above' x} (hw : w ∈ parts (h.table id))
    (hx : Walks h (id :: above) w above' x) : Walks h above (.table id) above' x

/-- What has no JSON form below the tables `above`. -/
inductive Unencodable (h : Heap) (above : List Nat) : Value → Prop
  | function {f} (hf : Heap.isFunction f = true) : Unencodable h above f
  | thread (id : Nat) : Unencodable h above (.thread id)
  | file (id : Nat) : Unencodable h above (.file id)
  | fault (message : String) : Unencodable h above (.fault message)
  | bytes {s} (hs : text? s = none) : Unencodable h above (.str s)
  | ancestor {id} (ha : id ∈ above) : Unencodable h above (.table id)
  | key {id e} (ha : isArray (h.table id) = false) (he : e ∈ (h.table id).toList)
    (hk : ∀ s, e.1 = .str s → text? s = none) : Unencodable h above (.table id)

/-- Nothing that the walk comes to lacks a JSON form. -/
def Encodable (h : Heap) (above : List Nat) (v : Value) : Prop :=
  ∀ above' x, Walks h above v above' x → ¬Unencodable h above' x

theorem Encodable.part {h : Heap} {above : List Nat} {id : Nat} (hv : Encodable h above (.table id))
    {w : Value} (hw : w ∈ parts (h.table id)) : Encodable h (id :: above) w :=
  fun above' x hx => hv above' x (.into hw hx)

theorem mem_parts_of_items {t : Table} (ha : isArray t = true) {w : Value} :
    w ∈ parts t ↔ w ∈ items t := by
  rw [parts, if_pos ha]

theorem mem_parts_of_entries {t : Table} (ha : isArray t = false) {w : Value} :
    w ∈ parts t ↔ ∃ e ∈ t.toList, e.2 = w := by
  rw [parts, if_neg (ha ▸ Bool.false_ne_true), List.mem_map]

/-! ## One step -/

theorem checkFresh_of_mem {above : List Nat} {id : Nat} (ha : id ∈ above) :
    checkFresh above (.table id) = .error .recursive := by
  rw [checkFresh, if_pos (by simpa using ha)]

theorem checkFresh_of_not_mem {above : List Nat} {id : Nat} (ha : id ∉ above) :
    checkFresh above (.table id) = .ok () := by
  rw [checkFresh, if_neg (by simpa using ha)]

theorem memberName_eq_ok_iff {h : Heap} {k : Key} {name : String} :
    memberName h k.toValue = .ok name ↔ ∃ s, k = .str s ∧ text? s = some name := by
  cases k with
  | str s =>
    simp only [Key.toValue, memberName]
    cases hs : text? s <;> simp [hs]
  | _ => simp [Key.toValue, memberName]

theorem encodeInner_of_mem (h : Heap) (fuel : Nat) {above : List Nat} {id : Nat}
    (ha : id ∈ above) : encodeInner h fuel above (.table id) = .error .recursive := by
  cases fuel with
  | zero => rfl
  | succ fuel =>
    rw [encodeInner, checkFresh_of_mem ha]
    rfl

/-- An entry goes into an object just if its name and its value do: the checks for tables above find
nothing that these would not come to. -/
theorem encodeEntry_eq_ok_iff {h : Heap} {fuel : Nat} {above : List Nat} {e : Key × Value}
    {m : String × Json.Value} :
    encodeEntry h fuel above e = .ok m ↔
      memberName h e.1.toValue = .ok m.1 ∧ encodeInner h fuel above e.2 = .ok m.2 := by
  obtain ⟨k, v⟩ := e
  obtain ⟨name, j⟩ := m
  have hname : memberName h k.toValue = .ok name → checkFresh above k.toValue = .ok () := by
    intro hk
    obtain ⟨s, rfl, -⟩ := memberName_eq_ok_iff.1 hk
    rfl
  have hvalue : encodeInner h fuel above v = .ok j → checkFresh above v = .ok () := by
    intro hv
    cases v with
    | table id =>
      by_cases ha : id ∈ above
      · rw [encodeInner_of_mem h fuel ha] at hv
        cases hv
      · exact checkFresh_of_not_mem ha
    | _ => rfl
  unfold encodeEntry
  constructor
  · intro he
    obtain ⟨-, -, he⟩ := bind_eq_ok he
    obtain ⟨-, -, he⟩ := bind_eq_ok he
    obtain ⟨name', hk, he⟩ := bind_eq_ok he
    obtain ⟨j', hv, he⟩ := bind_eq_ok he
    cases he
    exact ⟨hk, hv⟩
  · rintro ⟨hk, hv⟩
    simp only [hname hk, hvalue hv, hk, hv]
    rfl

/-- What a table has to be for its encoding to succeed, and what comes of it. -/
inductive Encodes (h : Heap) (fuel : Nat) (above : List Nat) (id : Nat) : Json.Value → Prop
  | array {js} (ha : isArray (h.table id) = true)
    (hi : (items (h.table id)).map (encodeInner h fuel (id :: above)) = js.map .ok) :
    Encodes h fuel above id (.array js)
  | object {ms} (ha : isArray (h.table id) = false)
    (hm : (h.table id).toList.map (encodeEntry h fuel (id :: above)) = ms.map .ok) :
    Encodes h fuel above id (.ofMembers ms)

theorem encodeInner_table_iff {h : Heap} {fuel : Nat} {above : List Nat} {id : Nat}
    {j : Json.Value} :
    encodeInner h fuel above (.table id) = .ok j ↔
      ∃ fuel', fuel = fuel' + 1 ∧ id ∉ above ∧ Encodes h fuel' above id j := by
  constructor
  · intro he
    cases fuel with
    | zero => cases he
    | succ fuel =>
      have hn : id ∉ above := by
        intro hm
        rw [encodeInner_of_mem h _ hm] at he
        cases he
      refine ⟨fuel, rfl, hn, ?_⟩
      cases ha : isArray (h.table id) with
      | true =>
        rw [encodeInner_array (checkFresh_of_not_mem hn) ha] at he
        obtain ⟨js, hi, rfl⟩ := map_eq_ok_iff.1 he
        exact .array ha (mapM_eq_ok_iff.1 hi)
      | false =>
        rw [encodeInner_object (checkFresh_of_not_mem hn) ha] at he
        obtain ⟨ms, hm, rfl⟩ := map_eq_ok_iff.1 he
        exact .object ha (mapM_eq_ok_iff.1 hm)
  · rintro ⟨fuel, rfl, hn, ⟨ha, hi⟩ | ⟨ha, hm⟩⟩
    · rw [encodeInner_array (checkFresh_of_not_mem hn) ha, mapM_eq_ok_iff.2 hi]
      rfl
    · rw [encodeInner_object (checkFresh_of_not_mem hn) ha, mapM_eq_ok_iff.2 hm]
      rfl

theorem Encodes.part {h : Heap} {fuel : Nat} {above : List Nat} {id : Nat} {j : Json.Value}
    (he : Encodes h fuel above id j) {w : Value} (hw : w ∈ parts (h.table id)) :
    ∃ j', encodeInner h fuel (id :: above) w = .ok j' := by
  cases he with
  | array ha hi =>
    obtain ⟨j', -, hj⟩ := List.mem_map.1 (hi ▸ List.mem_map_of_mem ((mem_parts_of_items ha).1 hw))
    exact ⟨j', hj.symm⟩
  | object ha hm =>
    obtain ⟨e, he, rfl⟩ := (mem_parts_of_entries ha).1 hw
    obtain ⟨m, -, hj⟩ := List.mem_map.1 (hm ▸ List.mem_map_of_mem he)
    exact ⟨m.2, (encodeEntry_eq_ok_iff.1 hj.symm).2⟩

theorem Encodes.names {h : Heap} {fuel : Nat} {above : List Nat} {id : Nat} {j : Json.Value}
    (hj : Encodes h fuel above id j) (ha : isArray (h.table id) = false) {e : Key × Value}
    (he : e ∈ (h.table id).toList) : ∃ s, e.1 = .str s ∧ text? s ≠ none := by
  cases hj with
  | array ha' =>
    rw [ha] at ha'
    cases ha'
  | object _ hm =>
    obtain ⟨m, -, hm⟩ := List.mem_map.1 (hm ▸ List.mem_map_of_mem he)
    obtain ⟨s, hs, ht⟩ := memberName_eq_ok_iff.1 (encodeEntry_eq_ok_iff.1 hm.symm).1
    exact ⟨s, hs, ht ▸ Option.some_ne_none _⟩

/-! ## Failing where the walk does -/

theorem not_unencodable {h : Heap} {fuel : Nat} {above : List Nat} {v : Value} {j : Json.Value}
    (he : encodeInner h fuel above v = .ok j) : ¬Unencodable h above v := by
  intro hv
  cases hv with
  | function hf =>
    cases v with
    | closure _ | builtin _ _ => cases fuel <;> cases he
    | _ => cases hf
  | thread _ | file _ | fault _ => cases fuel <;> cases he
  | bytes hs =>
    rw [encodeInner, hs] at he
    cases he
  | ancestor ha =>
    rw [encodeInner_of_mem h fuel ha] at he
    cases he
  | key ha hmem hk =>
    obtain ⟨_, -, -, he⟩ := encodeInner_table_iff.1 he
    obtain ⟨s, hs, ht⟩ := he.names ha hmem
    exact ht (hk s hs)

/-- **What is encoded leads to nothing without a JSON form.** -/
theorem encodable_of_ok {h : Heap} {fuel : Nat} {above : List Nat} {v : Value} {j : Json.Value}
    (he : encodeInner h fuel above v = .ok j) : Encodable h above v := by
  intro above' x hx
  induction hx generalizing fuel j with
  | here => exact not_unencodable he
  | into hw _ ih =>
    obtain ⟨_, -, -, he⟩ := encodeInner_table_iff.1 he
    obtain ⟨_, hj⟩ := he.part hw
    exact ih hj

/-! ## The walk ends -/

/-- The tables above are different tables of the heap, and there is fuel for all others. -/
structure Room (h : Heap) (fuel : Nat) (above : List Nat) : Prop where
  nodup : above.Nodup
  known : ∀ id ∈ above, id < h.tables.size
  enough : h.tables.size < fuel + above.length

theorem table_of_size_le {h : Heap} {id : Nat} (hid : h.tables.size ≤ id) :
    h.table id = .empty := by
  rw [Heap.table, Array.getD_eq_getD_getElem?, Array.getElem?_eq_none hid, Option.getD_none]

theorem parts_empty : parts .empty = [] := by
  decide +kernel

theorem lt_size_of_part {h : Heap} {id : Nat} {w : Value} (hw : w ∈ parts (h.table id)) :
    id < h.tables.size := by
  by_contra hid
  rw [table_of_size_le (Nat.le_of_not_lt hid), parts_empty] at hw
  cases hw

/-- The tables above a value are no more than there are: some fuel is left. -/
theorem Room.fuel_pos {h : Heap} {fuel : Nat} {above : List Nat} (hr : Room h fuel above) :
    0 < fuel := by
  have hsub : above ⊆ List.range h.tables.size := fun id hid => List.mem_range.2 (hr.known id hid)
  have hle := (hr.nodup.subperm hsub).length_le
  rw [List.length_range] at hle
  have := hr.enough
  omega

theorem Room.into {h : Heap} {fuel : Nat} {above : List Nat} (hr : Room h (fuel + 1) above)
    {id : Nat} (hn : id ∉ above) (hid : id < h.tables.size) : Room h fuel (id :: above) where
  nodup := List.nodup_cons.2 ⟨hn, hr.nodup⟩
  known := List.forall_mem_cons.2 ⟨hid, hr.known⟩
  enough := by
    have := hr.enough
    rw [List.length_cons]
    omega

theorem Room.start {h : Heap} {fuel : Nat} (hf : h.tables.size < fuel) : Room h fuel [] :=
  ⟨.nil, fun _ hid => (nomatch hid), hf⟩

theorem encodeEntry_congr {h : Heap} {fuel fuel' : Nat} {above : List Nat} {e : Key × Value}
    (he : encodeInner h fuel above e.2 = encodeInner h fuel' above e.2) :
    encodeEntry h fuel above e = encodeEntry h fuel' above e := by
  rw [encodeEntry, encodeEntry, he]

/-- **The walk ends**: more fuel than there are tables changes nothing, neither what comes of a
value nor the fault. -/
theorem encodeInner_of_room {h : Heap} {fuel : Nat} {above : List Nat} (hr : Room h fuel above)
    (more : Nat) (v : Value) :
    encodeInner h (fuel + more) above v = encodeInner h fuel above v := by
  induction fuel generalizing above v with
  | zero => exact absurd hr.fuel_pos (Nat.lt_irrefl 0)
  | succ fuel ih =>
    rw [Nat.succ_add]
    cases v with
    | table id =>
      by_cases hn : id ∈ above
      · rw [encodeInner_of_mem h _ hn, encodeInner_of_mem h _ hn]
      · have hf := checkFresh_of_not_mem hn
        have hw : ∀ w ∈ parts (h.table id), encodeInner h (fuel + more) (id :: above) w =
            encodeInner h fuel (id :: above) w :=
          fun w hw => ih (hr.into hn (lt_size_of_part hw)) w
        cases ha : isArray (h.table id) with
        | true =>
          rw [encodeInner_array hf ha, encodeInner_array hf ha,
            mapM_congr fun w hi => hw w ((mem_parts_of_items ha).2 hi)]
        | false =>
          rw [encodeInner_object hf ha, encodeInner_object hf ha,
            mapM_congr fun e he =>
              encodeEntry_congr (hw e.2 ((mem_parts_of_entries ha).2 ⟨e, he, rfl⟩))]
    | _ => rfl

/-- **What leads to nothing without a JSON form is encoded.** -/
theorem exists_ok_of_encodable {h : Heap} {fuel : Nat} {above : List Nat} (hr : Room h fuel above)
    {v : Value} (hv : Encodable h above v) : ∃ j, encodeInner h fuel above v = .ok j := by
  induction fuel generalizing above v with
  | zero => exact absurd hr.fuel_pos (Nat.lt_irrefl 0)
  | succ fuel ih =>
    have hv₀ : ¬Unencodable h above v := hv above v .here
    cases v with
    | nil | bool _ | int _ | float _ | null => exact ⟨_, rfl⟩
    | str s =>
      cases hs : text? s with
      | none => exact absurd (.bytes hs) hv₀
      | some t => exact ⟨.string t, by rw [encodeInner, hs]⟩
    | closure _ | builtin _ _ => exact absurd (.function rfl) hv₀
    | thread _ => exact absurd (.thread _) hv₀
    | file _ => exact absurd (.file _) hv₀
    | fault _ => exact absurd (.fault _) hv₀
    | table id =>
      have hn : id ∉ above := fun hn => hv₀ (.ancestor hn)
      have hw : ∀ w ∈ parts (h.table id), ∃ j, encodeInner h fuel (id :: above) w = .ok j :=
        fun w hw => ih (hr.into hn (lt_size_of_part hw)) (hv.part hw)
      cases ha : isArray (h.table id) with
      | true =>
        obtain ⟨js, hi⟩ := exists_mapM fun w hi => hw w ((mem_parts_of_items ha).2 hi)
        exact ⟨_, encodeInner_table_iff.2 ⟨fuel, rfl, hn, .array ha (mapM_eq_ok_iff.1 hi)⟩⟩
      | false =>
        have hm : ∀ e ∈ (h.table id).toList, ∃ m, encodeEntry h fuel (id :: above) e = .ok m := by
          intro e he
          obtain ⟨j, hj⟩ := hw e.2 ((mem_parts_of_entries ha).2 ⟨e, he, rfl⟩)
          -- the key is a string that is a text, or else the table would have no JSON form
          have hk : ∃ s name, e.1 = .str s ∧ text? s = some name := by
            by_contra hno
            refine hv₀ (.key ha he fun s hs => ?_)
            cases ht : text? s with
            | none => rfl
            | some name => exact absurd ⟨s, name, hs, ht⟩ hno
          obtain ⟨s, name, hs, ht⟩ := hk
          exact ⟨(name, j), encodeEntry_eq_ok_iff.2 ⟨memberName_eq_ok_iff.2 ⟨s, hs, ht⟩, hj⟩⟩
        obtain ⟨ms, hm⟩ := exists_mapM hm
        exact ⟨_, encodeInner_table_iff.2 ⟨fuel, rfl, hn, .object ha (mapM_eq_ok_iff.1 hm)⟩⟩

/-- **Encoding fails just where the walk comes to something without a JSON form.** -/
theorem exists_encode_iff {h : Heap} {v : Value} :
    (∃ j, encode h v = .ok j) ↔ Encodable h [] v :=
  ⟨fun ⟨_, he⟩ => encodable_of_ok he, exists_ok_of_encodable (.start (Nat.lt_succ_self _))⟩

/-! ## What comes of a value -/

/-- The value unfolded into a tree: the items of arrays in their order, and the entries of other
tables by their keys. -/
inductive Unfolds (h : Heap) : Value → Json.Value → Prop
  | nil : Unfolds h .nil .null
  | null : Unfolds h .null .null
  | bool (b : Bool) : Unfolds h (.bool b) (.bool b)
  | int (n : Int64) : Unfolds h (.int n) (.int n.toInt)
  | float {x : Float} (hx : x.isFinite = true) : Unfolds h (.float x) (.float x)
  | notFinite {x : Float} (hx : x.isFinite = false) : Unfolds h (.float x) .null
  | str {s t} (hs : text? s = some t) : Unfolds h (.str s) (.string t)
  | array {id js} (ha : isArray (h.table id) = true) (hl : js.length = (items (h.table id)).length)
    (hi : ∀ i (hi : i < (items (h.table id)).length) (hj : i < js.length),
      Unfolds h (items (h.table id))[i] js[i]) : Unfolds h (.table id) (.array js)
  | object {id ms} (ha : isArray (h.table id) = false)
    (hl : ms.length = (h.table id).toList.length)
    (hk : ∀ i (hi : i < (h.table id).toList.length) (hj : i < ms.length),
      memberName h (h.table id).toList[i].1.toValue = .ok ms[i].1)
    (hm : ∀ i (hi : i < (h.table id).toList.length) (hj : i < ms.length),
      Unfolds h (h.table id).toList[i].2 ms[i].2) : Unfolds h (.table id) (.ofMembers ms)

/-- **What is encoded is the value unfolded.** -/
theorem unfolds_encodeInner {h : Heap} {fuel : Nat} {above : List Nat} {v : Value} {j : Json.Value}
    (he : encodeInner h fuel above v = .ok j) : Unfolds h v j := by
  induction fuel using Nat.strong_induction_on generalizing above v j with
  | _ fuel ih =>
    cases v with
    | nil | null | bool _ | int _ =>
      rw [encodeInner] at he
      cases he
      constructor
    | float x =>
      rw [encodeInner] at he
      cases hx : x.isFinite with
      | true =>
        rw [hx, if_pos rfl] at he
        cases he
        exact .float hx
      | false =>
        rw [hx, if_neg Bool.false_ne_true] at he
        cases he
        exact .notFinite hx
    | str s =>
      cases hs : text? s with
      | none => exact absurd (.bytes hs) (not_unencodable he)
      | some t =>
        rw [encodeInner, hs] at he
        cases he
        exact .str hs
    | closure _ | builtin _ _ => exact absurd (.function rfl) (not_unencodable he)
    | thread _ => exact absurd (.thread _) (not_unencodable he)
    | file _ => exact absurd (.file _) (not_unencodable he)
    | fault _ => exact absurd (.fault _) (not_unencodable he)
    | table id =>
      obtain ⟨fuel, rfl, -, ⟨ha, hi⟩ | ⟨ha, hm⟩⟩ := encodeInner_table_iff.1 he
      · have hl := congrArg List.length hi
        rw [List.length_map, List.length_map] at hl
        exact .array ha hl.symm fun i hi' hj =>
          ih fuel (Nat.lt_succ_self _) (eq_ok_of_map hi hi' hj)
      · have hl := congrArg List.length hm
        rw [List.length_map, List.length_map] at hl
        have hentry := fun i hi hj => encodeEntry_eq_ok_iff.1 (eq_ok_of_map hm (i := i) hi hj)
        exact .object ha hl.symm (fun i hi hj => (hentry i hi hj).1)
          fun i hi hj => ih fuel (Nat.lt_succ_self _) (hentry i hi hj).2

/-- A value unfolds into one tree only, so a shared table is the same at each of its places. -/
theorem Unfolds.unique {h : Heap} {v : Value} {j j' : Json.Value} (hj : Unfolds h v j)
    (hj' : Unfolds h v j') : j = j' := by
  induction hj generalizing j' with
  | nil | null | bool _ | int _ =>
    cases hj'
    rfl
  | float hx =>
    cases hj' with
    | float _ => rfl
    | notFinite hx' =>
      rw [hx] at hx'
      cases hx'
  | notFinite hx =>
    cases hj' with
    | notFinite _ => rfl
    | float hx' =>
      rw [hx] at hx'
      cases hx'
  | str hs =>
    cases hj' with
    | str hs' =>
      rw [hs] at hs'
      cases hs'
      rfl
  | array ha hl hi ih =>
    cases hj' with
    | array _ hl' hi' =>
      refine congrArg _ (List.ext_getElem (hl.trans hl'.symm) fun i h h' => ?_)
      exact ih i (hl ▸ h) h (hi' i (hl ▸ h) h')
    | object ha' =>
      rw [ha] at ha'
      cases ha'
  | object ha hl hk hm ih =>
    cases hj' with
    | array ha' =>
      rw [ha] at ha'
      cases ha'
    | object _ hl' hk' hm' =>
      refine congrArg _ (List.ext_getElem (hl.trans hl'.symm) fun i h h' => ?_)
      have hname := (hk i (hl ▸ h) h).symm.trans (hk' i (hl ▸ h) h')
      exact Prod.ext (Except.ok.inj hname) (ih i (hl ▸ h) h (hm' i (hl ▸ h) h'))

end Bridge

/-! ## Results of functions -/

/-- What the next call of a unit comes to, and the session after it. -/
def CallsNext (u : Loaded) (v : Json.Value) (r : Except InvocationError Json.Value)
    (s : Session) : Prop :=
  match u.entry with
  | .function f => Calls u.session f v r s
  | .exported surface name => Invokes u.session surface name v r s

/-- A unit can be called in each of its sessions. -/
theorem exists_callsNext (u : Loaded) (v : Json.Value) : ∃ s, CallsNext u v (u.invoke v).1 s := by
  obtain ⟨session, entry⟩ := u
  cases entry with
  | function f =>
    rw [Loaded.invoke_found v (u := ⟨session, .function f⟩) (s := session) rfl]
    exact ⟨_, calls_callFunction session f v⟩
  | exported surface name =>
    obtain ⟨s, hs, -⟩ := invokes_invoke session surface name v
    exact ⟨s, hs⟩

section

variable {u : Loaded} {v : Json.Value} {f : Value} {s s' : Session} {values : List Value}

/-- A call of a function that returns comes to what its first result is encoded as. -/
theorem Loaded.invoke_of_returned (hf : resolve u.session u.entry = (.ok f, s))
    (hc : { s with heap := (Bridge.decode s.heap v).2 }.call f [(Bridge.decode s.heap v).1] =
      (.returned values, s')) :
    u.invoke v = ((Bridge.encode s'.heap (values.headD .nil)).mapError .unrepresentable,
      ⟨(takeEvents s').2, u.entry⟩, (takeEvents s').1) := by
  rw [Loaded.invoke_found v hf, callFunction_eq hc, outcomeOf]

end

/-- **A result is refused just where its walk comes to something without a JSON form.** Encoding a
result ends, as no fuel past the number of tables is felt. It fails as unrepresentable just if the
walk from the result comes to a function, a coroutine, a host value other than the sentinel, a
string that is no text, a key that is none in a table that is no array, or a table that is one of
those above itself. Otherwise it gives the result unfolded, a shared table at each of its places.
Either way the unit keeps its entry and the session as the function left it, but for the lines
taken, and the next call goes there. -/
theorem unrepresentable_iff {u : Loaded} {v : Json.Value} {f : Value} {s s' : Session}
    {values : List Value} (hf : resolve u.session u.entry = (.ok f, s))
    (hc : { s with heap := (Bridge.decode s.heap v).2 }.call f [(Bridge.decode s.heap v).1] =
      (.returned values, s')) :
    let h := s'.heap
    let w := values.headD .nil
    (∀ fuel, h.tables.size < fuel → Bridge.encodeInner h fuel [] w = Bridge.encode h w) ∧
    ((∃ fault, (u.invoke v).1 = .error (.unrepresentable fault)) ↔
      ∃ above x, Bridge.Walks h [] w above x ∧ Bridge.Unencodable h above x) ∧
    ((∃ j, (u.invoke v).1 = .ok j) ↔
      ∀ above x, Bridge.Walks h [] w above x → ¬Bridge.Unencodable h above x) ∧
    (∀ j, (u.invoke v).1 = .ok j → Bridge.Unfolds h w j ∧ ∀ j', Bridge.Unfolds h w j' → j' = j) ∧
    (u.invoke v).2.1 = ⟨(takeEvents s').2, u.entry⟩ ∧
    ∀ v', ∃ s'', CallsNext (u.invoke v).2.1 v' ((u.invoke v).2.1.invoke v').1 s'' := by
  intro h w
  have hi := Loaded.invoke_of_returned hf hc
  have hr : (u.invoke v).1 = (Bridge.encode h w).mapError .unrepresentable := congrArg Prod.fst hi
  have hok : ∀ j, (u.invoke v).1 = .ok j ↔ Bridge.encode h w = .ok j := by
    intro j
    rw [hr, mapError_eq_ok]
  have hfault : (∃ fault, (u.invoke v).1 = .error (.unrepresentable fault)) ↔
      ¬∃ j, Bridge.encode h w = .ok j := by
    rw [hr]
    cases Bridge.encode h w with
    | ok j => exact ⟨fun ⟨_, he⟩ => (nomatch he), fun hn => absurd ⟨j, rfl⟩ hn⟩
    | error fault => exact ⟨fun _ ⟨_, he⟩ => (nomatch he), fun _ => ⟨fault, rfl⟩⟩
  refine ⟨fun fuel hfuel => ?_, ?_, ?_, ?_, congrArg (·.2.1) hi, fun v' => exists_callsNext _ v'⟩
  · obtain ⟨more, rfl⟩ := Nat.exists_eq_add_of_le hfuel
    exact Bridge.encodeInner_of_room (.start (Nat.lt_succ_self _)) more w
  · rw [hfault, Bridge.exists_encode_iff, Bridge.Encodable]
    simp only [not_forall, not_not, exists_prop]
  · simp only [hok]
    exact Bridge.exists_encode_iff
  · intro j hj
    have hu := Bridge.unfolds_encodeInner ((hok j).1 hj)
    exact ⟨hu, fun j' hj' => hj'.unique hu⟩

/-- A function whose result has one table at two places, which holds itself if the argument says
so. -/
def sharingSource : String :=
  "function f(x) \x7b local t = \x7b\x7d if x then t.t = t end return \x7bt, t\x7d \x7d"

/-- Whether the unit is a function that gives a table inside itself and then a table twice. -/
def Loaded.loopsThenShares (u : Loaded) : Bool :=
  match u.entry, u.invoke (.bool true) with
  | .function _, (.error (.unrepresentable .recursive), u', _) =>
    match (u'.invoke (.bool false)).1 with
    | .ok (.array [.object [], .object []]) => true
    | _ => false
  | _, _ => false

theorem Loaded.loopsThenShares_spec {u : Loaded} (hu : u.loopsThenShares) :
    ∃ f, u.entry = .function f ∧
      (u.invoke (.bool true)).1 = .error (.unrepresentable .recursive) ∧
      ((u.invoke (.bool true)).2.1.invoke (.bool false)).1 =
        .ok (.array [.object [], .object []]) := by
  unfold loopsThenShares at hu
  split at hu
  next f u' events he hi =>
    rw [hi]
    split at hu
    next hj => exact ⟨f, he, rfl, hj⟩
    next => cases hu
  next => cases hu

set_option maxRecDepth 100000 in
theorem loads_sharingSource :
    (loadSignature .bare sharingSource).1.toOption.any Loaded.loopsThenShares = true := by
  decide +kernel

/-- A table inside itself is refused, and then the unit gives a table at two places. -/
theorem sharing_not_looping :
    ∃ u f values s', (loadSignature .bare sharingSource).1 = .ok u ∧
      resolve u.session u.entry = (.ok f, u.session) ∧
      { u.session with heap := (Bridge.decode u.session.heap (.bool true)).2 }.call f
        [(Bridge.decode u.session.heap (.bool true)).1] = (.returned values, s') ∧
      (∃ above x, Bridge.Walks s'.heap [] (values.headD .nil) above x ∧
        Bridge.Unencodable s'.heap above x) ∧
      ((u.invoke (.bool true)).2.1.invoke (.bool false)).1 =
        .ok (.array [.object [], .object []]) := by
  obtain ⟨u, hu, hloops⟩ := exists_of_any loads_sharingSource
  obtain ⟨f, he, hloop, hshare⟩ := Loaded.loopsThenShares_spec hloops
  have hf := resolve_function he
  have hcalls := calls_callFunction u.session f (.bool true)
  rw [← congrArg Prod.fst (Loaded.invoke_found (.bool true) hf), hloop] at hcalls
  cases hcalls with
  | unrepresentable hc _ =>
    have hw := (unrepresentable_iff hf hc).2.1.1 ⟨_, hloop⟩
    exact ⟨u, f, _, _, hu, hf, hc, hw, hshare⟩

end ScriptWorker.Loading

import ScriptWorker.Proofs.Json.Members
import ScriptWorker.Proofs.Loading.Encoding
import ScriptWorker.Proofs.Script.Entries
import ScriptWorker.Proofs.Text.Lossy

/-!
# What of a result is kept

The sequence of a table is what the integers from one on find, up to the first that finds nothing
(`nth_items`, `le_length_items_iff`). A table that counts as an array keeps its sequence and loses
all other entries; other tables keep everything (`Keeps`). So an entry, at whatever depth, is found
in the JSON value just if each table on the way to it keeps the next key (`at?_iff`), and nothing is
lost just if no array that is kept has an entry beside its sequence (`lossless_iff`).
-/

set_option autoImplicit false

namespace ScriptWorker.Loading

open Script

namespace Bridge

/-! ## Sequences -/

/-- What the integer finds. -/
def nth (t : Table) (n : Nat) : Value := t.find (.int (Int64.ofNat n))

theorem itemsFrom_succ (t : Table) (fuel n : Nat) :
    itemsFrom t (fuel + 1) n =
      if (nth t n).isNil then [] else nth t n :: itemsFrom t fuel (n + 1) := by
  rw [itemsFrom, nth]
  cases t.find (.int (Int64.ofNat n)) <;> rfl

theorem nth_itemsFrom {t : Table} {fuel n i : Nat} (h : i < (itemsFrom t fuel n).length) :
    nth t (n + i) = (itemsFrom t fuel n)[i] ∧ (nth t (n + i)).isNil = false := by
  induction fuel generalizing n i with
  | zero => cases h
  | succ fuel ih =>
    rw [itemsFrom_succ] at h
    split_ifs at h with hn
    · cases h
    · simp only [itemsFrom_succ, if_neg hn]
      cases i with
      | zero => exact ⟨rfl, Bool.eq_false_iff.2 hn⟩
      | succ i =>
        rw [List.getElem_cons_succ, ← Nat.add_assoc, Nat.add_right_comm n i 1]
        exact ih (Nat.lt_of_succ_lt_succ h)

/-- The walk along a sequence stops at what is missing, or when no fuel is left. -/
theorem nth_after_itemsFrom (t : Table) (fuel n : Nat) :
    (itemsFrom t fuel n).length = fuel ∨
      (nth t (n + (itemsFrom t fuel n).length)).isNil = true := by
  induction fuel generalizing n with
  | zero => exact .inl rfl
  | succ fuel ih =>
    rw [itemsFrom_succ]
    split_ifs with hn
    · exact .inr hn
    · rw [List.length_cons, ← Nat.add_assoc, Nat.add_right_comm n _ 1]
      exact (ih (n + 1)).imp (congrArg (· + 1)) id

/-- **Items are what the integers from one on find.** -/
theorem nth_items {t : Table} {i : Nat} (h : i < (items t).length) :
    nth t (i + 1) = (items t)[i] ∧ (nth t (i + 1)).isNil = false := by
  rw [Nat.add_comm]
  exact nth_itemsFrom h

theorem exists_of_nth {t : Table} {n : Nat} (hs : t.items.size < n) (hn : n < 0x8000000000000000)
    (h : (nth t n).isNil = false) :
    ∃ v, (Key.int (Int64.ofNat n), v) ∈ t.entries.toList := by
  have hi : (Int64.ofNat n).toInt = n := Int64.toInt_ofNat_of_lt hn
  have hp : Table.place? t.items.size (Int64.ofNat n) = none := by
    rw [Table.place?, hi]
    exact if_neg (by omega)
  have hf : nth t n = t.entries.getD (.int (Int64.ofNat n)) .nil := by rw [nth, Table.find, hp]
  rw [hf] at h
  obtain ⟨k, hk, hm⟩ := Table.exists_of_getD h
  cases k with
  | int m =>
    rw [Key.order, Std.compare_eq_iff_eq, Int64.toInt_inj] at hk
    exact ⟨_, hk ▸ hm⟩
  | _ => cases hk

/-- There are no more integers past the array than entries beside it. -/
theorem le_size_of_found {t : Table} {m : Nat} (hm : t.items.size + m < 0x8000000000000000)
    (h : ∀ i < m, (nth t (t.items.size + 1 + i)).isNil = false) : m ≤ t.entries.size := by
  have hnodup : ((List.range m).map fun i =>
      Key.int (Int64.ofNat (t.items.size + 1 + i))).Nodup := by
    refine List.Nodup.map_on (fun i hi j hj he => ?_) List.nodup_range
    rw [List.mem_range] at hi hj
    have he := congrArg Int64.toInt (Key.int.inj he)
    rw [Int64.toInt_ofNat_of_lt (by omega), Int64.toInt_ofNat_of_lt (by omega)] at he
    omega
  have hsub : ((List.range m).map fun i => Key.int (Int64.ofNat (t.items.size + 1 + i))) ⊆
      t.entries.toList.map (·.1) := by
    intro k hk
    obtain ⟨i, hi, rfl⟩ := List.mem_map.1 hk
    rw [List.mem_range] at hi
    obtain ⟨v, hv⟩ := exists_of_nth (by omega) (by omega) (h i hi)
    exact List.mem_map.2 ⟨_, hv, rfl⟩
  have hle := (hnodup.subperm hsub).length_le
  rwa [List.length_map, List.length_map, List.length_range, Std.TreeMap.length_toList] at hle

/-- **Behind the items an integer finds nothing.** -/
theorem nth_after_items {t : Table} (ht : t.items.size + t.entries.size < 0x7FFFFFFFFFFFFFFF) :
    (nth t ((items t).length + 1)).isNil = true := by
  by_contra hnil
  -- the walk has used up its fuel, so one integer more is found than there are entries
  have hl : (items t).length = t.items.size + t.entries.size := by
    refine (nth_after_itemsFrom t _ 1).resolve_right fun he => hnil ?_
    rwa [Nat.add_comm]
  have hle : t.entries.size + 1 ≤ t.entries.size := by
    refine le_size_of_found (by omega) fun i hi => ?_
    rw [Nat.add_right_comm]
    rcases Nat.lt_or_ge (t.items.size + i) (items t).length with h | h
    · exact (nth_items h).2
    · obtain rfl : i = t.entries.size := by omega
      rw [← hl]
      exact Bool.eq_false_iff.2 hnil
  exact Nat.not_succ_le_self _ hle

/-- **A sequence reaches as far as the integers from one on find something.** -/
theorem le_length_items_iff {t : Table}
    (ht : t.items.size + t.entries.size < 0x7FFFFFFFFFFFFFFF) (n : Nat) :
    n ≤ (items t).length ↔ ∀ i < n, (nth t (i + 1)).isNil = false := by
  constructor
  · intro hn i hi
    exact (nth_items (Nat.lt_of_lt_of_le hi hn)).2
  · intro h
    by_contra hn
    exact Bool.false_ne_true ((h _ (Nat.lt_of_not_le hn)).symm.trans (nth_after_items ht))

/-! ## Names -/

theorem text?_eq_some_iff {s : Bytes} {name : String} :
    text? s = some name ↔ s = (Text.Utf8.encode name).toByteArray := by
  constructor
  · intro h
    obtain ⟨cs, hcs, rfl⟩ := Option.map_eq_some_iff.1 h
    rw [Text.Utf8.decode?_eq_some_iff] at hcs
    rw [Text.Utf8.eq_toByteArray_iff, hcs, Text.Utf8.encode, String.toList_ofList]
  · rintro rfl
    exact text?_encode name

theorem text?_inj {s s' : Bytes} {name : String} (h : text? s = some name)
    (h' : text? s' = some name) : s = s' := by
  rw [text?_eq_some_iff.1 h, text?_eq_some_iff.1 h']

theorem names_distinct {h : Heap} {t : Table} {ms : List (String × Json.Value)}
    (hl : ms.length = t.toList.length)
    (hk : ∀ i (hi : i < t.toList.length) (hj : i < ms.length),
      memberName h t.toList[i].1.toValue = .ok ms[i].1) : ms.Pairwise fun m n => m.1 ≠ n.1 := by
  rw [List.pairwise_iff_getElem]
  intro i j hi hj hij he
  obtain ⟨s, hs, hname⟩ := memberName_eq_ok_iff.1 (hk i (hl ▸ hi) hi)
  obtain ⟨s', hs', hname'⟩ := memberName_eq_ok_iff.1 (hk j (hl ▸ hj) hj)
  rw [he] at hname
  obtain rfl := text?_inj hname hname'
  exact List.pairwise_iff_getElem.1 t.pairwise_toList i j (hl ▸ hi) (hl ▸ hj) hij s hs hs'

/-! ## One key -/

/-- What is in a value under a key, without its metatable. -/
def field (h : Heap) (v : Value) (k : Key) : Value :=
  match v with
  | .table id => (h.table id).find k
  | _ => .nil

/-- What is in a JSON value under a key: the integers from one on are the items of an array, and
strings that are texts are the names of members. -/
def child? : Json.Value → Key → Option Json.Value
  | .array js, .int n => if 1 ≤ n.toInt then js[n.toInt.toNat - 1]? else none
  | .object ms, .str s => (text? s).bind fun name => ms.lookup name
  | _, _ => none

/-- The value keeps what it has under the key: an array just its sequence, another table all. -/
inductive Keeps (h : Heap) : Value → Key → Prop
  | item {id} {n : Int64} (ha : isArray (h.table id) = true) (hl : 1 ≤ n.toInt)
    (hu : n.toInt ≤ (items (h.table id)).length) : Keeps h (.table id) (.int n)
  | member {id} {k : Key} (ha : isArray (h.table id) = false)
    (hk : ((h.table id).find k).isNil = false) : Keeps h (.table id) k

/-- What is kept is found in the tree, unfolded. -/
theorem Keeps.exists_child {h : Heap} {v : Value} {k : Key} (hk : Keeps h v k) {j : Json.Value}
    (hj : Unfolds h v j) : ∃ jx, child? j k = some jx ∧ Unfolds h (field h v k) jx := by
  cases hk with
  | @item id n ha hl hu =>
    cases hj with
    | object ha' =>
      rw [ha] at ha'
      cases ha'
    | @array _ js _ hlen hi =>
      obtain ⟨i, hn⟩ : ∃ i : Nat, n.toInt = (i + 1 : Nat) := ⟨n.toInt.toNat - 1, by omega⟩
      have hlt : i < (items (h.table id)).length := by omega
      have hfield : field h (.table id) (.int n) = (items (h.table id))[i] := by
        rw [Table.eq_ofNat_of_toInt hn]
        exact (nth_items hlt).1
      refine ⟨js[i], ?_, hfield ▸ hi i hlt (hlen ▸ hlt)⟩
      rw [child?, if_pos hl, hn]
      simp [hlen, hlt]
  | @member id k ha hk =>
    cases hj with
    | array ha' =>
      rw [ha] at ha'
      cases ha'
    | @object _ ms _ hlen hname hm =>
      obtain ⟨k', hk', hmem⟩ := Table.exists_entry_of_find hk
      obtain ⟨i, hi, he⟩ := List.getElem_of_mem hmem
      obtain ⟨s, hs, ht⟩ := memberName_eq_ok_iff.1 (hname i hi (hlen ▸ hi))
      rw [he] at hs
      obtain rfl : k' = .str s := hs
      -- the key is that string itself
      obtain rfl : k = .str s := by
        cases k with
        | str s' => rw [Key.eq_of_order_str hk']
        | _ => cases hk'
      have hu := hm i hi (hlen ▸ hi)
      rw [he] at hu
      refine ⟨ms[i].2, ?_, hu⟩
      rw [Json.Value.ofMembers, child?, ht, Option.bind_some,
        Json.Value.lookup_foldr_insertNew (names_distinct hlen hname)]
      exact List.getElem_mem _

theorem keeps_of_child {h : Heap} {v : Value} {k : Key} {j jx : Json.Value} (hj : Unfolds h v j)
    (hc : child? j k = some jx) : Keeps h v k := by
  cases hj with
  | nil | null | bool _ | int _ | float _ | notFinite _ | str _ => cases k <;> cases hc
  | @array id js ha hlen hi =>
    cases k with
    | int n =>
      rw [child?] at hc
      split_ifs at hc with hl
      obtain ⟨hlt, -⟩ := List.getElem?_eq_some_iff.1 hc
      exact .item ha hl (by omega)
    | _ => cases hc
  | @object id ms ha hlen hname hm =>
    cases k with
    | str s =>
      rw [Json.Value.ofMembers, child?] at hc
      obtain ⟨name, ht, hc⟩ := Option.bind_eq_some_iff.1 hc
      rw [Json.Value.lookup_foldr_insertNew (names_distinct hlen hname)] at hc
      obtain ⟨i, hi, he⟩ := List.getElem_of_mem hc
      have hi' : i < (h.table id).toList.length := hlen ▸ hi
      obtain ⟨s', hs', ht'⟩ := memberName_eq_ok_iff.1 (hname i hi' hi)
      rw [he] at ht'
      obtain rfl := text?_inj ht ht'
      have hmem : (h.table id).toList[i] ∈ (h.table id).toList := List.getElem_mem _
      have hnil : (h.table id).toList[i].2.isNil = false := by
        rcases Table.mem_toList_iff.1 hmem with ⟨n, hn, hnil, he⟩ | ⟨-, hnil⟩
        · rw [he]
          exact hnil
        · exact hnil
      refine .member ha ?_
      rw [(Table.find_text_iff hnil).2 (hs' ▸ hmem)]
      exact hnil
    | _ => cases hc

/-! ## Paths -/

/-- What is in a value under keys, one after the other. -/
def fieldAt (h : Heap) (v : Value) (path : List Key) : Value := path.foldl (field h) v

/-- What is in a JSON value under keys, one after the other. -/
def at? (j : Json.Value) (path : List Key) : Option Json.Value := path.foldlM child? j

/-- Each value on the way keeps what it has under the next key. -/
def KeepsAll (h : Heap) : Value → List Key → Prop
  | _, [] => True
  | v, k :: path => Keeps h v k ∧ KeepsAll h (field h v k) path

theorem at?_cons (j : Json.Value) (k : Key) (path : List Key) :
    at? j (k :: path) = (child? j k).bind fun jx => at? jx path :=
  rfl

theorem keepsAll_concat {h : Heap} {v : Value} {path : List Key} {k : Key} :
    KeepsAll h v (path ++ [k]) ↔ KeepsAll h v path ∧ Keeps h (fieldAt h v path) k := by
  induction path generalizing v with
  | nil => simp [KeepsAll, fieldAt]
  | cons k' path ih =>
    rw [List.cons_append, KeepsAll, ih, KeepsAll, and_assoc]
    rfl

theorem fieldAt_concat (h : Heap) (v : Value) (path : List Key) (k : Key) :
    fieldAt h v (path ++ [k]) = field h (fieldAt h v path) k := by
  rw [fieldAt, List.foldl_concat, fieldAt]

/-- **An entry is in the tree just if it is kept on the whole way**, and then unfolded. -/
theorem at?_iff {h : Heap} {v : Value} {j : Json.Value} (hj : Unfolds h v j) (path : List Key) :
    ((∃ jx, at? j path = some jx) ↔ KeepsAll h v path) ∧
      ∀ jx, at? j path = some jx → Unfolds h (fieldAt h v path) jx := by
  induction path generalizing v j with
  | nil =>
    refine ⟨⟨fun _ => trivial, fun _ => ⟨j, rfl⟩⟩, fun jx hx => ?_⟩
    cases hx
    exact hj
  | cons k path ih =>
    rw [at?_cons]
    by_cases hk : Keeps h v k
    · obtain ⟨jk, hc, hu⟩ := hk.exists_child hj
      obtain ⟨hiff, hunfolds⟩ := ih hu
      rw [hc, Option.bind_some]
      exact ⟨hiff.trans ⟨fun hp => ⟨hk, hp⟩, And.right⟩, hunfolds⟩
    · have hc : child? j k = none := by
        by_contra hc
        obtain ⟨jx, hc⟩ := Option.ne_none_iff_exists'.1 hc
        exact hk (keeps_of_child hj hc)
      rw [hc]
      refine ⟨⟨fun ⟨_, hx⟩ => ?_, fun hp => absurd hp.1 hk⟩, fun jx hx => ?_⟩ <;> cases hx

/-- **Nothing is lost just if no array that is kept has an entry beside its sequence.** -/
theorem lossless_iff {h : Heap} {v : Value} {j : Json.Value} (hj : Unfolds h v j) :
    (∀ path, (fieldAt h v path).isNil = false → ∃ jx, at? j path = some jx) ↔
      ∀ path id k, KeepsAll h v path → fieldAt h v path = .table id →
        isArray (h.table id) = true → ((h.table id).find k).isNil = false →
          ∃ n, k = .int n ∧ 1 ≤ n.toInt ∧ n.toInt ≤ (items (h.table id)).length := by
  constructor
  · intro hall path id k _ hid ha hk
    have hat : fieldAt h v (path ++ [k]) = (h.table id).find k := by
      rw [fieldAt_concat, hid, field]
    have hkept := (at?_iff hj _).1.1 (hall (path ++ [k]) (hat ▸ hk))
    rw [keepsAll_concat, hid] at hkept
    cases hkept.2 with
    | item _ hl hu => exact ⟨_, rfl, hl, hu⟩
    | member ha' =>
      rw [ha] at ha'
      cases ha'
  · intro hin path hpath
    refine (at?_iff hj path).1.2 ?_
    induction path using List.reverseRecOn with
    | nil => trivial
    | append_singleton path k ih =>
      rw [fieldAt_concat] at hpath
      rw [keepsAll_concat]
      cases hv : fieldAt h v path with
      | table id =>
        have hkept : KeepsAll h v path := ih (hv ▸ rfl)
        rw [hv, field] at hpath
        refine ⟨hkept, ?_⟩
        cases ha : isArray (h.table id) with
        | true =>
          obtain ⟨n, rfl, hl, hu⟩ := hin path id k hkept hv ha hpath
          exact .item ha hl hu
        | false => exact .member ha hpath
      | _ =>
        rw [hv] at hpath
        cases hpath

/-! ## What has no say -/

/-- The heaps have the same tables but for what stands beside the sequences of arrays. -/
structure Agrees (h h' : Heap) : Prop where
  size : h'.tables.size = h.tables.size
  isArray : ∀ id, isArray (h'.table id) = isArray (h.table id)
  items : ∀ id, Bridge.isArray (h.table id) = true → items (h'.table id) = items (h.table id)
  entries : ∀ id, Bridge.isArray (h.table id) = false → (h'.table id).toList = (h.table id).toList

theorem Agrees.memberName {h h' : Heap} (hh : Agrees h h') (k : Value) :
    memberName h' k = memberName h k := by
  cases k with
  | table id => rw [Bridge.memberName, Bridge.memberName, hh.isArray]
  | _ => rfl

theorem Agrees.encodeInner {h h' : Heap} (hh : Agrees h h') (fuel : Nat) (above : List Nat)
    (v : Value) : encodeInner h' fuel above v = encodeInner h fuel above v := by
  induction fuel generalizing above v with
  | zero => cases v <;> rfl
  | succ fuel ih =>
    cases v with
    | table id =>
      by_cases hn : id ∈ above
      · rw [encodeInner_of_mem _ _ hn, encodeInner_of_mem _ _ hn]
      · have hf := checkFresh_of_not_mem hn
        cases ha : Bridge.isArray (h.table id) with
        | true =>
          rw [encodeInner_array hf ha, encodeInner_array hf ((hh.isArray id).trans ha),
            hh.items id ha, mapM_congr fun w _ => ih (id :: above) w]
        | false =>
          rw [encodeInner_object hf ha, encodeInner_object hf ((hh.isArray id).trans ha),
            hh.entries id ha]
          congr 1
          refine mapM_congr fun e _ => ?_
          rw [encodeEntry, encodeEntry, hh.memberName, ih]
    | _ => rfl

/-- **What stands beside the sequences of arrays has no say**, neither in what comes of a value nor
in whether anything does. -/
theorem Agrees.encode {h h' : Heap} (hh : Agrees h h') (v : Value) : encode h' v = encode h v := by
  rw [Bridge.encode, Bridge.encode, hh.size]
  exact hh.encodeInner _ _ v

end Bridge

/-! ## Results of functions -/

/-- **What a result keeps.** The JSON value that a call gives has an entry of a table in its result,
at whatever depth, just if each table on the way keeps the next key: an array keeps its sequence,
another table all that it has. So nothing is lost just if no array among what is kept has an entry
beside its sequence. The call does not fail for such entries: they have no say in what comes of
it. A sequence reaches as far as the integers from one on find something. -/
theorem results_kept {u : Loaded} {v : Json.Value} {f : Value} {s s' : Session}
    {values : List Value} (hf : resolve u.session u.entry = (.ok f, s))
    (hc : { s with heap := (Bridge.decode s.heap v).2 }.call f [(Bridge.decode s.heap v).1] =
      (.returned values, s')) :
    let h := s'.heap
    let w := values.headD .nil
    (∀ h', Bridge.Agrees h h' →
      (u.invoke v).1 = (Bridge.encode h' w).mapError .unrepresentable) ∧
    (∀ j, (u.invoke v).1 = .ok j →
      (∀ path, ((∃ jx, Bridge.at? j path = some jx) ↔ Bridge.KeepsAll h w path) ∧
        ∀ jx, Bridge.at? j path = some jx → Bridge.Unfolds h (Bridge.fieldAt h w path) jx) ∧
      ((∀ path, (Bridge.fieldAt h w path).isNil = false → ∃ jx, Bridge.at? j path = some jx) ↔
        ∀ path id k, Bridge.KeepsAll h w path → Bridge.fieldAt h w path = .table id →
          Bridge.isArray (h.table id) = true → ((h.table id).find k).isNil = false →
            ∃ n, k = .int n ∧ 1 ≤ n.toInt ∧
              n.toInt ≤ (Bridge.items (h.table id)).length)) ∧
    ∀ id, (h.table id).items.size + (h.table id).entries.size < 0x7FFFFFFFFFFFFFFF → ∀ n,
      n ≤ (Bridge.items (h.table id)).length ↔
        ∀ i < n, (Bridge.nth (h.table id) (i + 1)).isNil = false := by
  intro h w
  have hr : (u.invoke v).1 = (Bridge.encode h w).mapError .unrepresentable :=
    congrArg Prod.fst (Loaded.invoke_of_returned hf hc)
  refine ⟨fun h' hh => by rw [hr, hh.encode], fun j hj => ?_,
    fun id ht => Bridge.le_length_items_iff ht⟩
  rw [hr, mapError_eq_ok] at hj
  have hu := Bridge.unfolds_encodeInner hj
  exact ⟨Bridge.at?_iff hu, Bridge.lossless_iff hu⟩

/-- A function whose result has an entry beside its sequence. -/
def mixedSource : String := "function f(x) \x7b return \x7b 1, 2, a = 3 \x7d \x7d"

/-- The name of that entry. -/
def besideKey : Key := .str (bytes "a")

/-- Whether the unit is a function whose result has that entry, and gives the sequence alone. -/
def Loaded.mixes (u : Loaded) : Bool :=
  match u.entry with
  | .function f =>
    match u.session.call f [.nil], (u.invoke .null).1 with
    | (.returned values, s'), .ok (.array [.int 1, .int 2]) =>
      match Bridge.fieldAt s'.heap (values.headD .nil) [besideKey] with
      | .int n => n == 3
      | _ => false
    | _, _ => false
  | _ => false

theorem Loaded.mixes_spec {u : Loaded} (hu : u.mixes) :
    ∃ f values s', u.entry = .function f ∧ u.session.call f [.nil] = (.returned values, s') ∧
      Bridge.fieldAt s'.heap (values.headD .nil) [besideKey] = .int 3 ∧
      (u.invoke .null).1 = .ok (.array [.int 1, .int 2]) := by
  unfold mixes at hu
  split at hu
  next f he =>
    split at hu
    next values s' hc hi =>
      split at hu
      next n hn => exact ⟨f, values, s', he, hc, (beq_iff_eq.1 hu) ▸ hn, hi⟩
      next => cases hu
    next => cases hu
  next => cases hu

set_option maxRecDepth 100000 in
theorem loads_mixedSource :
    (loadSignature .bare mixedSource).1.toOption.any Loaded.mixes = true := by
  decide +kernel

theorem exists_mixed :
    ∃ u f values s', (loadSignature .bare mixedSource).1 = .ok u ∧
      resolve u.session u.entry = (.ok f, u.session) ∧
      u.session.call f [.nil] = (.returned values, s') ∧
      Bridge.fieldAt s'.heap (values.headD .nil) [besideKey] = .int 3 ∧
      (u.invoke .null).1 = .ok (.array [.int 1, .int 2]) := by
  obtain ⟨u, hu, hmixes⟩ := exists_of_any loads_mixedSource
  obtain ⟨f, values, s', he, hc, hfield, hi⟩ := Loaded.mixes_spec hmixes
  exact ⟨u, f, values, s', hu, resolve_function he, hc, hfield, hi⟩

/-- The sequence of a result is kept, and the entry beside it is not. -/
theorem mixed_kept :
    ∃ u f values s', (loadSignature .bare mixedSource).1 = .ok u ∧
      resolve u.session u.entry = (.ok f, u.session) ∧
      u.session.call f [.nil] = (.returned values, s') ∧
      Bridge.Unfolds s'.heap (Bridge.fieldAt s'.heap (values.headD .nil) [.int 2]) (.int 2) ∧
      ¬Bridge.KeepsAll s'.heap (values.headD .nil) [besideKey] := by
  obtain ⟨u, f, values, s', hu, hf, hc, -, hi⟩ := exists_mixed
  obtain ⟨hpath, -⟩ := (results_kept (v := .null) hf hc).2.1 _ hi
  refine ⟨u, f, values, s', hu, hf, hc, (hpath [.int 2]).2 _ rfl, fun hk => ?_⟩
  obtain ⟨jx, hx⟩ := (hpath [besideKey]).1.2 hk
  cases hx

/-- A call answers with part of its result: an entry of the result is not in the JSON value. -/
theorem mixed_lost :
    ∃ u f values s' j, (loadSignature .bare mixedSource).1 = .ok u ∧
      resolve u.session u.entry = (.ok f, u.session) ∧
      u.session.call f [.nil] = (.returned values, s') ∧ (u.invoke .null).1 = .ok j ∧
      Bridge.fieldAt s'.heap (values.headD .nil) [besideKey] = .int 3 ∧
      Bridge.at? j [besideKey] = none := by
  obtain ⟨u, f, values, s', hu, hf, hc, hfield, hi⟩ := exists_mixed
  exact ⟨u, f, values, s', _, hu, hf, hc, hi, hfield, rfl⟩

end ScriptWorker.Loading

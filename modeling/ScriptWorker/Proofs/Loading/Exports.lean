import ScriptWorker.Proofs.Loading.EntryPoints
import ScriptWorker.Proofs.Worker.Phase

/-!
# Exports of modules

A module that has run exports the first of three values that is present: what it returned, the
`exports` of the `module` in its environment, and the `exports` there (`Chosen`). Which one that is
depends on what the tables hold alone, not on their metatables or on any function, and the entry
point has no part in it (`exports_chosen`). What is exported stays the surface of the module for
every call.
-/

set_option autoImplicit false

namespace ScriptWorker.Script.Table

/-! ## The first entry -/

theorem firstFrom_eq (t : Table) (fuel i : Nat) (h : t.items.size < fuel + i) :
    t.firstFrom fuel i = (((t.items.toList.drop i).zipIdx (i + 1)).filterMap (fun (v, n) =>
      if v.isNil then none else some (Key.int (Int64.ofNat n), v)) ++ t.live).head? := by
  induction fuel generalizing i with
  | zero =>
    rw [firstFrom, List.drop_eq_nil_of_le (by rw [Array.length_toList]; omega)]
    rfl
  | succ fuel ih =>
    rw [firstFrom]
    cases hv : t.items[i]? with
    | none =>
      have hi : t.items.size ≤ i := Array.getElem?_eq_none_iff.1 hv
      rw [List.drop_eq_nil_of_le (by rwa [Array.length_toList])]
      rfl
    | some v =>
      obtain ⟨hi, rfl⟩ := Array.getElem?_eq_some_iff.1 hv
      rw [List.drop_eq_getElem_cons (by rwa [Array.length_toList]), List.zipIdx_cons,
        List.filterMap_cons]
      simp only [Array.getElem_toList]
      cases t.items[i].isNil with
      | true => exact ih (i + 1) (by omega)
      | false => rfl

/-- The first entry is the first of all. -/
theorem first_eq (t : Table) : t.first = t.toList.head? :=
  t.firstFrom_eq _ 0 (by omega)

end ScriptWorker.Script.Table

namespace ScriptWorker.Loading

open Script

/-! ## Choosing -/

/-- A value that is there to be exported: neither `nil` nor a table without entries. -/
structure Present (h : Heap) (v : Value) : Prop where
  ne_nil : v ≠ .nil
  entries : ∀ id, v = .table id → (h.table id).toList ≠ []

/-- What a module exports, given its environment and what it has returned. Fields are read as the
tables have them. -/
inductive Chosen (h : Heap) (environment : Nat) (returned : Value) : Value → Prop
  | returned (hr : Present h returned) : Chosen h environment returned returned
  | inModule {id} (hr : ¬Present h returned)
    (hm : h.rawGet environment (.ofText "module") = .table id)
    (he : Present h (h.rawGet id (.ofText "exports"))) :
    Chosen h environment returned (h.rawGet id (.ofText "exports"))
  | inEnvironment (hr : ¬Present h returned)
    (hm : ∀ id, h.rawGet environment (.ofText "module") = .table id →
      ¬Present h (h.rawGet id (.ofText "exports")))
    (he : Present h (h.rawGet environment (.ofText "exports"))) :
    Chosen h environment returned (h.rawGet environment (.ofText "exports"))

/-- Two heaps have the same entries in all tables. Nothing else of them needs to agree. -/
def SameEntries (h h' : Heap) : Prop :=
  ∀ id, (h'.table id).items = (h.table id).items ∧ (h'.table id).entries = (h.table id).entries

theorem isSurface_iff (h : Heap) (v : Value) : isSurface h v = true ↔ Present h v := by
  cases v with
  | nil => exact ⟨nofun, fun hp => absurd rfl hp.ne_nil⟩
  | table id =>
    rw [isSurface, Table.first_eq, List.isSome_head?]
    exact ⟨fun hne => ⟨nofun, fun id' hid => by cases hid; exact hne⟩, fun hp => hp.entries id rfl⟩
  | _ => exact ⟨fun _ => ⟨nofun, nofun⟩, fun _ => rfl⟩

section

variable {h : Heap} {environment : Nat} {returned surface : Value}

theorem surface?_of_chosen (hc : Chosen h environment returned surface) :
    surface? h environment returned = some surface := by
  have pos : ∀ {v}, Present h v → isSurface h v = true := fun hv => (isSurface_iff h _).2 hv
  have neg : ∀ {v}, ¬Present h v → ¬isSurface h v = true := fun hv => mt (isSurface_iff h _).1 hv
  unfold surface? surfaces
  rw [List.cons_append]
  cases hc with
  | returned hr => rw [List.find?_cons_of_pos (pos hr)]
  | inModule hr hm he =>
    rw [List.find?_cons_of_neg (neg hr), hm, List.singleton_append, List.find?_cons_of_pos (pos he)]
  | inEnvironment hr hm he =>
    rw [List.find?_cons_of_neg (neg hr)]
    split
    next id hid =>
      rw [List.singleton_append, List.find?_cons_of_neg (neg (hm id hid)),
        List.find?_cons_of_pos (pos he)]
    next => rw [List.nil_append, List.find?_cons_of_pos (pos he)]

/-- Some value is chosen, unless none of the three is present. -/
theorem chosen_or_absent (h : Heap) (environment : Nat) (returned : Value) :
    (∃ surface, Chosen h environment returned surface) ∨
      surface? h environment returned = none := by
  by_cases hr : Present h returned
  · exact .inl ⟨_, .returned hr⟩
  by_cases hm : ∃ id, h.rawGet environment (.ofText "module") = .table id ∧
      Present h (h.rawGet id (.ofText "exports"))
  · obtain ⟨id, hid, hp⟩ := hm
    exact .inl ⟨_, .inModule hr hid hp⟩
  by_cases he : Present h (h.rawGet environment (.ofText "exports"))
  · exact .inl ⟨_, .inEnvironment hr (fun id hid hp => hm ⟨id, hid, hp⟩) he⟩
  refine .inr (List.find?_eq_none.2 fun v hv => mt (isSurface_iff h v).1 fun hp => ?_)
  unfold surfaces at hv
  rw [List.cons_append, List.mem_cons, List.mem_append, List.mem_singleton] at hv
  rcases hv with rfl | hv | rfl
  · exact hr hp
  · split at hv
    next id hid => exact hm ⟨id, hid, List.mem_singleton.1 hv ▸ hp⟩
    next => cases hv
  · exact he hp

/-- **What is exported is the first of the three that is present.** -/
theorem surface?_eq_some_iff :
    surface? h environment returned = some surface ↔ Chosen h environment returned surface := by
  refine ⟨fun hs => ?_, surface?_of_chosen⟩
  rcases chosen_or_absent h environment returned with ⟨v, hv⟩ | hn
  · rw [surface?_of_chosen hv] at hs
    exact Option.some.inj hs ▸ hv
  · rw [hn] at hs
    cases hs

theorem surface?_eq_none_iff :
    surface? h environment returned = none ↔ ∀ surface, ¬Chosen h environment returned surface := by
  refine ⟨fun hn surface hc => ?_, fun hn => ?_⟩
  · rw [surface?_of_chosen hc] at hn
    cases hn
  · exact (chosen_or_absent h environment returned).resolve_left fun ⟨v, hv⟩ => hn v hv

end

/-- The choice is made by the entries of tables alone. -/
theorem surface?_sameEntries {h h' : Heap} (hs : SameEntries h h') (environment : Nat)
    (returned : Value) : surface? h' environment returned = surface? h environment returned := by
  have hget : ∀ id k, h'.rawGet id k = h.rawGet id k := by
    intro id k
    unfold Heap.rawGet
    cases Key.ofValue? k with
    | none => rfl
    | some k => cases k <;> simp only [Table.find, (hs id).1, (hs id).2]
  have hfirst : ∀ id, (h'.table id).first = (h.table id).first := by
    intro id
    simp only [Table.first_eq, Table.toList, Table.live, (hs id).1, (hs id).2]
  have hsurface : isSurface h' = isSurface h := by
    funext v
    cases v <;> simp only [isSurface, hfirst]
  simp only [surface?, surfaces, hget, hsurface]

/-! ## Loading -/

/-- The environment of a module. -/
def moduleTable : Nat := (moduleEnvironment Library.initialHeap).1

/-- A source is accepted as a module and runs on a system without an error: what it returns, and the
session then. -/
def Ran (system : System) (source : String) (values : List Value) (s : Session) : Prop :=
  ∃ chunk s₀, compileChunk (moduleStart system).2 "module" source (.table moduleTable) =
      .ok (chunk, s₀) ∧
    s₀.call chunk [] = (.returned values, s)

section

variable {system : System}

theorem loadModule_of_ran {source : String} {values : List Value} {s : Session}
    (hran : Ran system source values s) (entryPoint : String) :
    (loadModule entryPoint system source).1 =
        (match surface? s.heap moduleTable (values.headD .nil) with
        | some surface => .ok ⟨(takeEvents s).2, .exported surface entryPoint⟩
        | none => .error .noExports) ∧
      (loadModule entryPoint system source).2.1 = s.system := by
  obtain ⟨chunk, s₀, hc, hr⟩ := hran
  have hstart : moduleStart system = (moduleTable, (moduleStart system).2) := rfl
  -- what is printed has no part in the choice
  have hs : surface? (takeEvents s).2.heap = surface? s.heap := rfl
  rw [loadModule, hstart]
  simp only [hc, hr, hs]
  cases surface? s.heap moduleTable (values.headD .nil) <;> exact ⟨rfl, rfl⟩

/-- A source that loads has run. -/
theorem ran_of_loadModule {entryPoint source : String} {u : Loaded}
    (hu : (loadModule entryPoint system source).1 = .ok u) :
    ∃ values s, Ran system source values s := by
  have hstart : moduleStart system = (moduleTable, (moduleStart system).2) := rfl
  unfold Ran
  rw [loadModule, hstart] at hu
  simp only at hu
  split at hu
  next => cases hu
  next chunk s₀ hc =>
    rcases hr : s₀.call chunk [] with ⟨values | _ | _, s⟩
    · exact ⟨values, s, chunk, s₀, hc, hr⟩
    · rw [hr] at hu
      cases hu
    · rw [hr] at hu
      cases hu

end

/-! ## Calling -/

/-- Calls leave the entry of a unit as it is. -/
theorem advance_entry (c : Conversion) (entryPoint : String) (u : Loaded)
    (args : List Json.Value) : ((strategy c entryPoint).advance u args).entry = u.entry := by
  induction args generalizing u with
  | nil => rfl
  | cons v args ih => exact ih (u.invoke v).2.1

/-- **What a module exports.** A source that is accepted and has run, whatever it did to its
environment, loads as a module just if one of three values is present, with the first of them for
the surface; there is no other failure. The choice is made by the entries of tables alone, so
neither metatables nor functions have a part in it, and it leaves the session as the source did but
for the lines printed. It is the same for every entry point. Whatever calls follow, each looks the
entry point up in that surface, in the session that the calls before have left. -/
theorem exports_chosen {system : System} {source : String} {values : List Value} {s : Session}
    (hran : Ran system source values s) :
    let returned := values.headD .nil
    (∀ entryPoint u, (loadModule entryPoint system source).1 = .ok u ↔
      ∃ surface, Chosen s.heap moduleTable returned surface ∧
        u = ⟨(takeEvents s).2, .exported surface entryPoint⟩) ∧
    (∀ entryPoint e, (loadModule entryPoint system source).1 = .error e ↔
      e = .noExports ∧ ∀ surface, ¬Chosen s.heap moduleTable returned surface) ∧
    (∀ h, SameEntries s.heap h →
      surface? h moduleTable returned = surface? s.heap moduleTable returned) ∧
    ∀ entryPoint surface, Chosen s.heap moduleTable returned surface → ∀ args v,
      let u := (strategy .module entryPoint).advance
        ⟨(takeEvents s).2, .exported surface entryPoint⟩ args
      u.entry = .exported surface entryPoint ∧
      (∃ s', Invokes u.session surface entryPoint v (u.invoke v).1 s' ∧
        (u.invoke v).2.1.session = (takeEvents s').2) ∧
      ∀ f, u.session.heap.get surface (Bridge.textValue entryPoint) = .done f →
        lookUp u.session surface entryPoint = (.returned [f], u.session) := by
  intro returned
  have hload := fun entryPoint => (loadModule_of_ran hran entryPoint).1
  refine ⟨fun entryPoint u => ?_, fun entryPoint e => ?_,
    fun h hs => surface?_sameEntries hs moduleTable returned,
    fun entryPoint surface _ args v => ?_⟩
  · rw [hload]
    cases hs : surface? s.heap moduleTable (values.headD .nil) with
    | none =>
      have hnone := surface?_eq_none_iff.1 hs
      exact ⟨nofun, fun ⟨surface, hc, _⟩ => absurd hc (hnone surface)⟩
    | some surface =>
      have hchosen := surface?_eq_some_iff.1 hs
      constructor
      · intro hu
        exact ⟨surface, hchosen, (Except.ok.inj hu).symm⟩
      · rintro ⟨surface', hc, rfl⟩
        rw [surface?_of_chosen hc] at hs
        rw [Option.some.inj hs]
  · rw [hload]
    cases hs : surface? s.heap moduleTable (values.headD .nil) with
    | none => exact ⟨fun he => ⟨(Except.error.inj he).symm, surface?_eq_none_iff.1 hs⟩,
        fun ⟨he, _⟩ => he ▸ rfl⟩
    | some surface =>
      exact ⟨nofun, fun ⟨_, hn⟩ => absurd (surface?_eq_some_iff.1 hs) (hn surface)⟩
  · intro u
    have he : u.entry = .exported surface entryPoint := advance_entry .module entryPoint _ args
    obtain ⟨session, entry⟩ := u
    obtain rfl : entry = .exported surface entryPoint := he
    obtain ⟨s', hi, hs⟩ := invokes_invoke session surface entryPoint v
    exact ⟨rfl, ⟨s', hi, congrArg (·.1.session) hs⟩, fun f hf => Session.call_fieldOf_done hf⟩

/-- A module that returns an empty table, puts one with a metatable in the place of `module.exports`
and takes `exports` away when it is called. -/
def rearrangingSource : String :=
  "module.exports = setmetatable(\x7b handler = function(x) exports = nil; module.exports = 1; " ++
    "return x end \x7d, \x7b __index = error, __len = error, __pairs = error \x7d)\n" ++
    "return \x7b\x7d"

set_option maxRecDepth 100000 in
theorem loads_rearrangingSource :
    (loadModule "handler" .bare rearrangingSource).1.toOption.isSome = true := by
  decide +kernel

theorem exports_chosen_rearranging :
    ∃ values s, Ran .bare rearrangingSource values s ∧
      ∃ surface, Chosen s.heap moduleTable (values.headD .nil) surface ∧
        ∀ entryPoint, (loadModule entryPoint .bare rearrangingSource).1 =
          .ok ⟨(takeEvents s).2, .exported surface entryPoint⟩ := by
  have hload := loads_rearrangingSource
  cases hr : (loadModule "handler" .bare rearrangingSource).1 with
  | error e =>
    rw [hr] at hload
    cases hload
  | ok u =>
    obtain ⟨values, s, hran⟩ := ran_of_loadModule hr
    obtain ⟨hok, -⟩ := exports_chosen hran
    obtain ⟨surface, hc, -⟩ := (hok "handler" u).1 hr
    exact ⟨values, s, hran, surface, hc, fun entryPoint => (hok entryPoint _).2 ⟨surface, hc, rfl⟩⟩

set_option maxRecDepth 100000 in
/-- It can be called a second time. -/
example : (loadModule "handler" .bare rearrangingSource).1.toOption.any (fun u =>
    match (u.invoke (.int 1)).1, ((u.invoke (.int 1)).2.1.invoke (.int 2)).1 with
    | .ok (.int 1), .ok (.int 2) => true
    | _, _ => false) = true := by
  decide +kernel

end ScriptWorker.Loading

import ScriptWorker.Proofs.Loading.EntryPoints
import ScriptWorker.Proofs.Loading.Quiet
import ScriptWorker.Proofs.Loading.RoundTrip
import ScriptWorker.Proofs.Results
import ScriptWorker.Proofs.Worker.Phase

/-!
# Identity functions

A unit whose function returns its argument gives back the JSON value that it is called with, with
integers past those of the language as doubles, and stays such a unit (`invoke_identity`). Sources
of an identity function load to such units by either strategy (`load_identity`).
-/

set_option autoImplicit false

namespace ScriptWorker.Loading

open Script

/-- Whether the value is a function of the language that returns its argument. -/
def isIdentity (h : Heap) : Value → Bool
  | .closure id => (h.closures[id]?).any fun c => c.proto.isIdentity
  | _ => false

/-- Whether the unit calls a function that returns its argument. -/
def Loaded.isIdentity (u : Loaded) : Bool :=
  match u.entry with
  | .function f => Loading.isIdentity u.session.heap f
  | .exported (.table id) name =>
    decide (id < u.session.heap.tables.size) &&
      Loading.isIdentity u.session.heap (u.session.heap.rawGet id (Bridge.textValue name))
  | .exported _ _ => false

theorem closure_of_isIdentity {h : Heap} {f : Value} (hf : isIdentity h f) :
    ∃ id c, f = .closure id ∧ h.closures[id]? = some c ∧ c.proto.isIdentity := by
  cases f with
  | closure id =>
    obtain ⟨c, hc, hp⟩ := (Option.any_eq_true ..).1 hf
    exact ⟨id, c, rfl, hc, hp⟩
  | _ => cases hf

/-! ## Calls -/

/-- More tables do not change what a function is. -/
theorem isIdentity_grows {h h' : Heap} (g : Bridge.Grows h h') (f : Value) :
    isIdentity h' f = isIdentity h f := by
  rw [g.rest]
  rfl

/-- A function that returns its argument gives back what it is called with, and leaves behind the
tables of its argument. -/
theorem callFunction_identity {s : Session} {f : Value} (hf : isIdentity s.heap f)
    (v : Json.Value) :
    (callFunction s f v).2 = { s with heap := (Bridge.decode s.heap v).2 } ∧
      (v.WellFormed → (callFunction s f v).1 = .ok v.settled) := by
  rw [← isIdentity_grows (Bridge.grows_decode s.heap v)] at hf
  obtain ⟨id, c, rfl, hc, hp⟩ := closure_of_isIdentity hf
  have hcall := Session.call_identity (s := { s with heap := (Bridge.decode s.heap v).2 }) hc hp
    (Bridge.decode s.heap v).1
  rw [callFunction_eq hcall]
  refine ⟨rfl, fun hv => ?_⟩
  rw [outcomeOf, List.headD_cons, Bridge.encode_decode s.heap hv]
  rfl

/-- The function of such a unit is found, and finding it changes nothing. -/
theorem resolve_identity {u : Loaded} (hu : u.isIdentity) :
    ∃ f, resolve u.session u.entry = (.ok f, u.session) ∧ isIdentity u.session.heap f := by
  obtain ⟨s, entry⟩ := u
  match entry, hu with
  | .function f, hf => exact ⟨f, rfl, hf⟩
  | .exported (.table id) name, hu =>
    have hf := (Bool.and_eq_true .. ▸ hu).2
    obtain ⟨n, c, hn, hc, hp⟩ := closure_of_isIdentity hf
    have hcall := Session.call_fieldOf hn rfl
    refine ⟨.closure n, ?_, hn ▸ hf⟩
    simp only [resolve, hcall]
    rfl

/-- Neither more tables nor other printed lines change what such a unit calls. -/
theorem Loaded.isIdentity_grows {s : Session} {entry : Entry} (hu : Loaded.isIdentity ⟨s, entry⟩)
    {h : Heap} (g : Bridge.Grows s.heap h) (lines : List String) :
    Loaded.isIdentity ⟨{ s with heap := { h with printed := lines } }, entry⟩ := by
  match entry, hu with
  | .function f, hf => exact (Loading.isIdentity_grows g f).trans hf
  | .exported (.table id) name, hu =>
    obtain ⟨hid, hf⟩ := Bool.and_eq_true .. ▸ hu
    have hid := of_decide_eq_true hid
    have hr : h.rawGet id (Bridge.textValue name) = s.heap.rawGet id (Bridge.textValue name) :=
      congrArg (fun t : Table => t.find (.str (Text.Utf8.encode name).toByteArray))
        (g.tables id hid)
    refine (Bool.and_eq_true ..).mpr ⟨decide_eq_true (Nat.lt_of_lt_of_le hid g.size), ?_⟩
    exact (congrArg (Loading.isIdentity h) hr).trans ((Loading.isIdentity_grows g _).trans hf)

/-- **A unit whose function returns its argument** stays one, and gives back the settled value. -/
theorem invoke_identity {u : Loaded} (hu : u.isIdentity) (v : Json.Value) :
    (u.invoke v).2.1.isIdentity ∧ (v.WellFormed → (u.invoke v).1 = .ok v.settled) := by
  obtain ⟨f, hr, hf⟩ := resolve_identity hu
  obtain ⟨hs, hv⟩ := callFunction_identity hf v
  simp only [Loaded.invoke, hr, takeEvents, Session.takePrinted, hs]
  exact ⟨Loaded.isIdentity_grows hu (Bridge.grows_decode u.session.heap v) [], hv⟩

/-- It stays one through any calls. -/
theorem advance_identity {u : Loaded} (hu : u.isIdentity) (c : Conversion) (entryPoint : String)
    (args : List Json.Value) : ((strategy c entryPoint).advance u args).isIdentity := by
  induction args generalizing u with
  | nil => exact hu
  | cons v args ih => exact ih (invoke_identity hu v).1

/-! ## Sources -/

/-- Sources of an identity function. -/
def identitySources : Conversion → List String
  | .signature => ["function id(x)\x7b return x \x7d"]
  | .module => [
    "return \x7b handler = function(x) return x end \x7d",
    "module.exports.handler = function(x) return x end",
    "exports.handler = function(x) return x end",
    "module.exports = \x7b handler = function(x) return x end \x7d"]

set_option maxRecDepth 100000 in
/-- Each source is compiled and run by evaluation. -/
theorem loads_identitySources : ∀ c : Conversion, ∀ source ∈ identitySources c,
    c.asksNothing source = true ∧
      (c.load "handler" .bare source).1.toOption.any Loaded.isIdentity = true
  | .signature => by decide +kernel
  | .module => by decide +kernel

/-- The sources load to units whose function returns its argument, and leave the system as it
was. -/
theorem load_identity {c : Conversion} {source : String} (hs : source ∈ identitySources c)
    (system : System) :
    ∃ u events, (strategy c "handler").load system source = (.ok u, system, events) ∧
      u.isIdentity := by
  obtain ⟨hq, hi⟩ := loads_identitySources c source hs
  obtain ⟨u, hu, hid⟩ := exists_of_any hi
  have hload := load_of_asksNothing hq "handler" system
  rw [hu] at hload
  exact ⟨u.on system, _, hload, hid⟩

/-- **JSON values go through an identity function unchanged**, whatever it was called with before,
but for whole numbers past `2 ^ 63 - 1`: each of those, at any depth, comes back as the double
nearest to it. So a second call changes nothing. Either strategy loads such functions, on every
system. -/
theorem identity_roundTrip (c : Conversion) :
    (∀ source ∈ identitySources c, ∀ system, ∃ u events,
      (strategy c "handler").load system source = (.ok u, system, events) ∧ u.isIdentity) ∧
    (∀ (entryPoint : String) (u : Loaded), u.isIdentity → ∀ (earlier : List Json.Value)
      (v : Json.Value), v.WellFormed →
        let st := strategy c entryPoint
        ∃ u' events u'' events', st.invoke (st.advance u earlier) v = (.ok v.settled, u', events) ∧
          st.invoke u' v.settled = (.ok v.settled, u'', events')) ∧
    ∀ n : Int, 0x8000000000000000 ≤ n → n ≤ Json.Value.greatestInt →
      Numeric.IsNearest (Numeric.nearestInt n) n := by
  refine ⟨fun source hs system => load_identity hs system, ?_,
    fun n => Numeric.isNearest_nearestInt⟩
  intro entryPoint u hu earlier v hv
  have h1 := invoke_identity (advance_identity hu c entryPoint earlier) v
  have h2 := (invoke_identity h1.1 v.settled).2 (Json.Value.wellFormed_settled hv)
  rw [Json.Value.settled_settled] at h2
  exact ⟨_, _, _, _, Prod.ext (h1.2 hv) rfl, Prod.ext h2 rfl⟩

end ScriptWorker.Loading

import ScriptWorker.Config.Flags
import ScriptWorker.Proofs.Results

/-!
# Settings in layers

Layers give settings if they give each of them (`ofLayers_eq_ok_iff`), and a fault of theirs is one
of some setting (`exists_of_ofLayers_error`). A value that can be read stays as it is above other
ones, unless it and one of those are tables with different names in them (`Setting.read_overlay`).
What the command line gives can be read as what was given (`Given.lookup_layer`,
`Setting.read_write`).
-/

set_option autoImplicit false

namespace ScriptWorker.Config

/-- A setting. -/
inductive Setting where
  | strategy | entryPoint | onInvokeError | requestLogging | logFilter | logFormat
  deriving DecidableEq

namespace Setting

/-- What a setting can be. -/
@[reducible] def Value : Setting → Type
  | strategy => Loading.Conversion
  | onInvokeError => Worker.FailurePolicy
  | requestLogging => Bool
  | logFormat => LogFormat
  | entryPoint | logFilter => String

/-- The name of a setting in layers. -/
def name : Setting → String
  | strategy => "strategy"
  | entryPoint => "entry_point"
  | onInvokeError => "on_invoke_error"
  | requestLogging => "request_logging"
  | logFilter => "log_filter"
  | logFormat => "log_format"

/-- The value of a setting. -/
def get (s : Settings) : (f : Setting) → f.Value
  | strategy => s.strategy
  | entryPoint => s.entryPoint
  | onInvokeError => s.onInvokeError
  | requestLogging => s.requestLogging
  | logFilter => s.logFilter
  | logFormat => s.logFormat

/-- How a value in a layer is read. -/
def read : (f : Setting) → Json.Value → Except ValueFault f.Value
  | strategy => conversionChoice.ofValue
  | onInvokeError => policyChoice.ofValue
  | requestLogging => flagOf
  | logFormat => LogFormat.choice.ofValue
  | entryPoint | logFilter => textOf

/-- How the command line's layer has a value. -/
def write : (f : Setting) → f.Value → Json.Value
  | strategy, v => .string (conversionChoice.nameOf v)
  | onInvokeError, v => .string (policyChoice.nameOf v)
  | requestLogging, v => .bool v
  | logFormat, v => .string (LogFormat.choice.nameOf v)
  | entryPoint, v | logFilter, v => .string v

/-- The value of a setting in layers. -/
def ofLayers (layers : List Layer) (f : Setting) : Except ValueFault f.Value :=
  setting layers f.name f.read (f.get .default)

end Setting

/-! ## All settings -/

/-- Settings are what each of them is. -/
theorem Setting.ext {r s : Settings} (h : ∀ f : Setting, f.get r = f.get s) : r = s := by
  cases r
  cases s
  congr
  · exact h .strategy
  · exact h .entryPoint
  · exact h .onInvokeError
  · exact h .requestLogging
  · exact h .logFilter
  · exact h .logFormat

theorem get_of_ofLayers {layers : List Layer} {r : Settings}
    (h : Settings.ofLayers layers = .ok r) (f : Setting) : f.ofLayers layers = .ok (f.get r) := by
  obtain ⟨_, h1, h⟩ := bind_eq_ok h
  obtain ⟨_, h2, h⟩ := bind_eq_ok h
  obtain ⟨_, h3, h⟩ := bind_eq_ok h
  obtain ⟨_, h4, h⟩ := bind_eq_ok h
  obtain ⟨_, h5, h⟩ := bind_eq_ok h
  obtain ⟨_, h6, h⟩ := bind_eq_ok h
  cases h
  cases f <;> assumption

/-- A fault in layers is one of some setting. -/
theorem exists_of_ofLayers_error {layers : List Layer} {e : ValueFault}
    (h : Settings.ofLayers layers = .error e) : ∃ f : Setting, f.ofLayers layers = .error e := by
  obtain h1 | ⟨_, -, h⟩ := bind_eq_error h
  · exact ⟨.entryPoint, h1⟩
  obtain h2 | ⟨_, -, h⟩ := bind_eq_error h
  · exact ⟨.logFilter, h2⟩
  obtain h3 | ⟨_, -, h⟩ := bind_eq_error h
  · exact ⟨.logFormat, h3⟩
  obtain h4 | ⟨_, -, h⟩ := bind_eq_error h
  · exact ⟨.onInvokeError, h4⟩
  obtain h5 | ⟨_, -, h⟩ := bind_eq_error h
  · exact ⟨.requestLogging, h5⟩
  obtain h6 | ⟨_, -, h⟩ := bind_eq_error h
  · exact ⟨.strategy, h6⟩
  cases h

/-- **Layers give settings if they give each of them.** -/
theorem ofLayers_eq_ok_iff {layers : List Layer} {r : Settings} :
    Settings.ofLayers layers = .ok r ↔ ∀ f : Setting, f.ofLayers layers = .ok (f.get r) := by
  refine ⟨get_of_ofLayers, fun h => ?_⟩
  cases hr : Settings.ofLayers layers with
  | ok r' =>
    refine congrArg Except.ok (Setting.ext fun f => ?_)
    exact Except.ok.inj ((get_of_ofLayers hr f).symm.trans (h f))
  | error e =>
    obtain ⟨f, hf⟩ := exists_of_ofLayers_error hr
    cases hf.symm.trans (h f)

/-- Where settings are given or have one and the same fault, that is the fault of the layers. -/
theorem ofLayers_eq_error {layers : List Layer} {e : ValueFault} {f : Setting}
    (hf : f.ofLayers layers = .error e)
    (h : ∀ f : Setting, f.ofLayers layers = .error e ∨ ∃ v, f.ofLayers layers = .ok v) :
    Settings.ofLayers layers = .error e := by
  cases hr : Settings.ofLayers layers with
  | ok r => cases hf.symm.trans (get_of_ofLayers hr f)
  | error e' =>
    obtain ⟨f', hf'⟩ := exists_of_ofLayers_error hr
    rcases h f' with he | ⟨v, hv⟩
    · cases hf'.symm.trans he
      rfl
    · cases hf'.symm.trans hv

/-! ## Layer above layer -/

theorem lookUp_cons (layer : Layer) (layers : List Layer) (name : String) :
    lookUp (layer :: layers) name =
      match layer.lookup name, lookUp layers name with
      | some v, some w => some (overlay v w)
      | some v, none => some v
      | none, below => below := rfl

theorem lookUp_cons_of_none {layer : Layer} {name : String} (h : layer.lookup name = none)
    (layers : List Layer) : lookUp (layer :: layers) name = lookUp layers name := by
  rw [lookUp_cons, h]

/-- Only a table is joined with what is below it. -/
theorem overlay_of_not_object {v : Json.Value} (h : ∀ members, v ≠ .object members)
    (w : Json.Value) : overlay v w = v := by
  unfold overlay
  split
  · exact absurd rfl (h _)
  · rfl

/-- Only a table below is joined with a table. -/
theorem overlay_of_below {w : Json.Value} (h : ∀ members, w ≠ .object members)
    (v : Json.Value) : overlay v w = v := by
  unfold overlay
  split
  · exact absurd rfl (h _)
  · rfl

/-- What is above stands if it is no table. -/
theorem lookUp_cons_of_not_object {layer : Layer} {name : String} {v : Json.Value}
    (hv : layer.lookup name = some v) (h : ∀ members, v ≠ .object members) (layers : List Layer) :
    lookUp (layer :: layers) name = some v := by
  rw [lookUp_cons, hv]
  cases lookUp layers name with
  | none => rfl
  | some w => exact congrArg some (overlay_of_not_object h w)

/-- What is looked up is all that settings have from layers. -/
theorem Setting.ofLayers_congr {layers layers' : List Layer} {f : Setting}
    (h : lookUp layers f.name = lookUp layers' f.name) : f.ofLayers layers = f.ofLayers layers' := by
  rw [ofLayers, ofLayers, setting, setting, h]

theorem Settings.ofLayers_congr {layers layers' : List Layer}
    (h : ∀ name, lookUp layers name = lookUp layers' name) :
    Settings.ofLayers layers = Settings.ofLayers layers' := by
  simp only [Settings.ofLayers, setting, h]

/-- Two tables of one member each, with different names. -/
def differ : Json.Value → Json.Value → Bool
  | .object [(a, _)], .object [(b, _)] => a ≠ b
  | _, _ => false

namespace Choice

variable {α : Type} {c : Choice α}

/-- A value that is a choice is a name, or a table with the name and no value. -/
theorem shape_of_ofValue {v : Json.Value} {a : α} (h : c.ofValue v = .ok a) :
    (∃ name, v = .string name) ∨ ∃ name, v = .object [(name, .null)] := by
  unfold ofValue at h
  split at h
  · exact .inl ⟨_, rfl⟩
  · obtain ⟨_, -, h⟩ := bind_eq_ok h
    split at h
    · exact .inr ⟨_, rfl⟩
    · cases h
  · cases h
  · cases h

/-- **A choice above a choice** stays as it is, but for two tables with different names, which make
up a table that is no choice. -/
theorem ofValue_overlay {v w : Json.Value} {a b : α} (hv : c.ofValue v = .ok a)
    (hw : c.ofValue w = .ok b) :
    c.ofValue (overlay v w) = if differ v w then .error .notOneKey else .ok a := by
  obtain ⟨name, rfl⟩ | ⟨name, rfl⟩ := shape_of_ofValue hv
  · rw [overlay_of_not_object (by rintro _ ⟨⟩)]
    exact hv
  obtain ⟨name', rfl⟩ | ⟨name', rfl⟩ := shape_of_ofValue hw
  · rw [overlay_of_below (by rintro _ ⟨⟩)]
    exact hv
  by_cases he : name = name'
  · subst he
    have hone : overlay (.object [(name, .null)]) (.object [(name, .null)]) =
        .object [(name, .null)] := by
      simp [overlay, overlayMembers, Json.Value.ofMembers, Json.Value.insertNew]
    simpa [hone, differ] using hv
  · have htwo : overlay (.object [(name, .null)]) (.object [(name', .null)]) =
        .ofMembers [(name', .null), (name, .null)] := by
      have hne : (name == name') = false := beq_eq_false_iff_ne.2 he
      simp [overlay, overlayMembers, List.lookup_cons, hne]
    have hkeys : Json.Value.ofMembers [(name', .null), (name, .null)] =
        if name' < name then .object [(name', .null), (name, .null)]
        else .object [(name, .null), (name', .null)] := by
      simp only [Json.Value.ofMembers, List.foldr, Json.Value.insertNew]
      split
      · rfl
      · rw [if_neg (Ne.symm he)]
    have hdiffer : differ (.object [(name, .null)]) (.object [(name', .null)]) = true :=
      decide_eq_true he
    rw [htwo, hkeys, if_pos hdiffer]
    split <;> rfl

end Choice

/-- **A value above another one of the same setting** stays as it is, but for two tables with
different names. -/
theorem Setting.read_overlay {f : Setting} {v w : Json.Value} {a b : f.Value}
    (hv : f.read v = .ok a) (hw : f.read w = .ok b) :
    f.read (overlay v w) = if differ v w then .error .notOneKey else .ok a := by
  have plain : (∀ members, v ≠ .object members) →
      f.read (overlay v w) = if differ v w then .error .notOneKey else .ok a := by
    intro h
    have hdiffer : differ v w = false := by
      unfold differ
      split
      · exact absurd rfl (h _)
      · rfl
    rw [overlay_of_not_object h, hdiffer]
    exact hv
  cases f with
  | strategy | onInvokeError | logFormat => exact Choice.ofValue_overlay hv hw
  | entryPoint | logFilter | requestLogging =>
    refine plain ?_
    rintro _ rfl
    cases hv

/-! ## The layer of the command line -/

/-- What a command line gives for a setting. -/
def Given.value (g : Given) : (f : Setting) → Option f.Value
  | .strategy => g.strategy
  | .entryPoint => g.entryPoint
  | .onInvokeError => g.onInvokeError
  | .requestLogging => some g.requestLogging
  | .logFilter => g.logFilter
  | .logFormat => g.logFormat

/-- The part of the command line's layer that is about one name. -/
def Given.entry (name : String) (value : Option Json.Value) : Layer :=
  (value.map fun v => (name, v)).toList

theorem Given.lookup_entry (name key : String) (value : Option Json.Value) :
    (entry name value).lookup key = if key = name then value else none := by
  cases value with
  | none => simp [entry]
  | some v =>
    by_cases h : key = name
    · simp [entry, h]
    · simp [entry, List.lookup_cons, beq_eq_false_iff_ne.2 h, h]

theorem Given.layer_eq (g : Given) :
    g.layer = entry "strategy" (g.strategy.map Setting.strategy.write) ++
      (entry "entry_point" (g.entryPoint.map Setting.entryPoint.write) ++
      (entry "on_invoke_error" (g.onInvokeError.map Setting.onInvokeError.write) ++
      (entry "request_logging" (some (Setting.requestLogging.write g.requestLogging)) ++
      (entry "log_filter" (g.logFilter.map Setting.logFilter.write) ++
      entry "log_format" (g.logFormat.map Setting.logFormat.write))))) := by
  obtain ⟨strategy, entryPoint, onInvokeError, _, logFilter, logFormat, _⟩ := g
  cases strategy <;> cases entryPoint <;> cases onInvokeError <;> cases logFilter <;>
    cases logFormat <;> rfl

theorem Given.lookup_layer (g : Given) (f : Setting) :
    g.layer.lookup f.name = (g.value f).map f.write := by
  simp only [layer_eq, List.lookup_append, lookup_entry]
  cases f <;> simp [Setting.name, value]

/-- A value of the command line's layer is read as what was given. -/
theorem Setting.read_write (f : Setting) (v : f.Value) : f.read (f.write v) = .ok v := by
  cases f with
  | strategy | onInvokeError | logFormat => cases v <;> rfl
  | entryPoint | requestLogging | logFilter => rfl

/-- The command line's layer holds no tables. -/
theorem Setting.write_ne_object (f : Setting) (v : f.Value) (members : List (String × Json.Value)) :
    f.write v ≠ .object members := by
  cases f <;> rintro ⟨⟩

/-- **What the command line gives stands**, whatever is below. -/
theorem Setting.ofLayers_given {g : Given} {f : Setting} {v : f.Value} (h : g.value f = some v)
    (layers : List Layer) : f.ofLayers (g.layer :: layers) = .ok v := by
  have hv : g.layer.lookup f.name = some (f.write v) := by
    rw [g.lookup_layer, h]
    rfl
  rw [ofLayers, setting, lookUp_cons_of_not_object hv (f.write_ne_object v)]
  exact f.read_write v

end ScriptWorker.Config

import ScriptWorker.Config.Settings

/-!
# Layers of settings

Each source of settings gives a layer: values by the names of the settings. A setting has the value
of the first layer that names it, whether or not that value fits; where no layer names it, it has
its default. What the layers below say does not matter unless they have tables too: the members of
tables are joined.
-/

set_option autoImplicit false

namespace ScriptWorker.Config

/-- A source's values by the names of the settings. -/
abbrev Layer := List (String × Json.Value)

/-- Why a value does not fit a setting. -/
inductive ValueFault where
  | wrongType (found : Json.Found) (wanted : String)
  | unknownName (name : String) (known : List String)
  /-- A name is given as a table of other than one member. -/
  | notOneKey

/-- The wording of a fault. -/
def ValueFault.message : ValueFault → String
  | .wrongType found wanted => (Json.Cause.wrongType found wanted).message
  | .unknownName name known => (Json.Cause.unknownVariant name known).message
  | .notOneKey => "invalid value: map, expected map with a single key"

/-- What a value is found to be. -/
def foundOf : Json.Value → Json.Found
  | .null => .null
  | .bool b => .bool b
  | .int n => .int n
  | .float x => .float x
  | .string s => .string s
  | .array _ => .sequence
  | .object _ => .map

/-- A value as a text. -/
def textOf : Json.Value → Except ValueFault String
  | .string s => .ok s
  | v => .error (.wrongType (foundOf v) "a string")

/-- A value as a truth value. -/
def flagOf : Json.Value → Except ValueFault Bool
  | .bool b => .ok b
  | v => .error (.wrongType (foundOf v) "a boolean")

namespace Choice

variable {α : Type} (c : Choice α)

/-- The value of a name. -/
def ofKnown (name : String) : Except ValueFault α :=
  match c.ofName? name with
  | some a => .ok a
  | none => .error (.unknownName name (c.names.map (·.1)))

/-- A value as a choice: a name, or a table with the name as its only key and no value. -/
def ofValue : Json.Value → Except ValueFault α
  | .string name => c.ofKnown name
  | .object [(name, v)] => do
    let a ← c.ofKnown name
    match v with
    | .null => return a
    | v => throw (.wrongType (foundOf v) "unit")
  | .object _ => .error .notOneKey
  | v => .error (.wrongType (foundOf v) "string or map")

end Choice

mutual

/-- A value above another one. A table is joined with a table below it, and anything else stands for
what is below. -/
def overlay : Json.Value → Json.Value → Json.Value
  | .object above, .object below => .ofMembers (below ++ overlayMembers above below)
  | above, _ => above

/-- The members of a table, above those of another one. -/
def overlayMembers : List (String × Json.Value) → List (String × Json.Value) →
    List (String × Json.Value)
  | [], _ => []
  | (name, v) :: rest, below =>
    let joined := match below.lookup name with
      | some w => overlay v w
      | none => v
    (name, joined) :: overlayMembers rest below

end

/-- The value of a name in the first layer that has it, above those of the layers below. -/
def lookUp (layers : List Layer) (name : String) : Option Json.Value :=
  layers.foldr
    (fun layer below =>
      match layer.lookup name, below with
      | some v, some w => some (overlay v w)
      | some v, none => some v
      | none, below => below)
    none

/-- A setting's value in some layers. -/
def setting {α : Type} (layers : List Layer) (name : String)
    (read : Json.Value → Except ValueFault α) (default : α) : Except ValueFault α :=
  match lookUp layers name with
  | some v => read v
  | none => .ok default

/-- The settings that layers give, those of the first layer before those of the next. Of several
faults the one that comes first by the names of the settings counts. -/
def Settings.ofLayers (layers : List Layer) : Except ValueFault Settings := do
  let d := Settings.default
  let entryPoint ← setting layers "entry_point" textOf d.entryPoint
  let logFilter ← setting layers "log_filter" textOf d.logFilter
  let logFormat ← setting layers "log_format" LogFormat.choice.ofValue d.logFormat
  let onInvokeError ← setting layers "on_invoke_error" policyChoice.ofValue d.onInvokeError
  let requestLogging ← setting layers "request_logging" flagOf d.requestLogging
  let strategy ← setting layers "strategy" conversionChoice.ofValue d.strategy
  return { strategy, entryPoint, onInvokeError, requestLogging, logFilter, logFormat }

end ScriptWorker.Config

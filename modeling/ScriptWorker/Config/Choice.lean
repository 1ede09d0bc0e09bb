import ScriptWorker.Json.Fault
import ScriptWorker.Loading.Conversion
import ScriptWorker.Worker.Protocol

/-!
# Choices

Settings that take one of a few names. A flag takes the names in any ASCII case; files, the
environment and JSON take them as they are written here.
-/

set_option autoImplicit false

namespace ScriptWorker.Config

/-- A setting's values by their names, and the value it has by default. -/
structure Choice (α : Type) where
  names : List (String × α)
  default : α

/-- How diagnostics are written. -/
inductive LogFormat where
  | json
  | compact
  deriving DecidableEq

namespace Choice

variable {α : Type}

/-- The name of a value. -/
def nameOf [DecidableEq α] (c : Choice α) (value : α) : String :=
  ((c.names.find? (·.2 = value)).map (·.1)).getD ""

/-- The value of a name in any ASCII case. -/
def ofFlag? (c : Choice α) (text : String) : Option α :=
  (c.names.find? fun (name, _) => name.map Char.toLower == text.map Char.toLower).map (·.2)

/-- The value of a name as it is written. -/
def ofName? (c : Choice α) (text : String) : Option α :=
  (c.names.find? (·.1 == text)).map (·.2)

/-- The words for a name that is none of the choice's. -/
def unknownName (c : Choice α) (text : String) : String :=
  (Json.Cause.unknownVariant text (c.names.map (·.1))).message

end Choice

/-- The names of the conversions. -/
def conversionChoice : Choice Loading.Conversion :=
  ⟨[("signature", .signature), ("module", .module)], .signature⟩

/-- The names of the failure policies. -/
def policyChoice : Choice Worker.FailurePolicy :=
  ⟨[("crash", .crash), ("report", .report)], .crash⟩

/-- The names of the log formats. -/
def LogFormat.choice : Choice LogFormat :=
  ⟨[("json", .json), ("compact", .compact)], .json⟩

end ScriptWorker.Config

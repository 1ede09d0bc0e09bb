/-!
# Ways of loading
-/

set_option autoImplicit false

namespace ScriptWorker.Loading

/-- How a source is turned into a function. -/
inductive Conversion where
  /-- Its first declaration is taken out and compiled. -/
  | signature
  /-- It is run as a module that exports the function. -/
  | module
  deriving DecidableEq

end ScriptWorker.Loading

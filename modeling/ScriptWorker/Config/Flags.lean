import ScriptWorker.Config.Layer

/-!
# Settings from the command line

Flags have a long name and mostly a letter. A value follows its flag as the next word, or in the
same word after `=` or, for a letter, at once. Letters without values may be written together. The
first word that cannot be right ends the reading; a value is looked at only once it is known that
the next word is a flag or that no word follows.
-/

set_option autoImplicit false

namespace ScriptWorker.Config

/-- A flag. -/
inductive Flag where
  | strategy | entryPoint | onInvokeError | requestLogging | logFilter | logFormat | configPath
  | help
  deriving DecidableEq

namespace Flag

/-- All flags with their names and letters. -/
def all : List (Flag × String × Option Char) := [
  (.strategy, "strategy", some 's'), (.entryPoint, "entry-point", some 'e'),
  (.onInvokeError, "on-invoke-error", some 'o'),
  (.requestLogging, "request-logging", some 'r'), (.logFilter, "log-filter", some 'l'),
  (.logFormat, "log-format", some 'L'), (.configPath, "config-path", none),
  (.help, "help", some 'h')]

/-- The flag of a name. -/
def ofName? (name : String) : Option Flag := (all.find? (·.2.1 == name)).map (·.1)

/-- The flag of a letter. -/
def ofLetter? (c : Char) : Option Flag := (all.find? (·.2.2 == some c)).map (·.1)

/-- Whether a value belongs to a flag. -/
def takesValue : Flag → Bool
  | .requestLogging | .help => false
  | _ => true

end Flag

/-- Why a command line is not accepted. -/
inductive UsageFault where
  /-- A word is no flag, and no value is due. -/
  | unknown (word : String)
  | missingValue (f : Flag)
  /-- A value is none of the names that the flag takes. -/
  | refusedValue (f : Flag) (value : String)
  | repeated (f : Flag)
  /-- A flag without value is given one. -/
  | unwantedValue (f : Flag)
  /-- It asks for help instead. -/
  | helpAsked

namespace UsageFault

/-- The name of a flag in messages. -/
def shown (f : Flag) : String := "--" ++ ((Flag.all.lookup f).map (·.1)).getD ""

/-- The wording of a fault. -/
def message : UsageFault → String
  | .unknown word => "unexpected argument '" ++ word ++ "' found"
  | .missingValue f => "a value is required for '" ++ shown f ++ "' but none was supplied"
  | .refusedValue f value => "invalid value '" ++ value ++ "' for '" ++ shown f ++ "'"
  | .repeated f => "the argument '" ++ shown f ++ "' cannot be used multiple times"
  | .unwantedValue f => "unexpected value for '" ++ shown f ++ "' found; no more were expected"
  | .helpAsked => "usage: funcworker [OPTIONS]"

end UsageFault

/-- What a command line gives. -/
structure Given where
  strategy : Option Loading.Conversion
  entryPoint : Option String
  onInvokeError : Option Worker.FailurePolicy
  requestLogging : Bool
  logFilter : Option String
  logFormat : Option LogFormat
  configPath : Option String

namespace Given

/-- A command line without words. -/
def nothing : Given := ⟨none, none, none, false, none, none, none⟩

/-- Gives a flag that may be given once a value that is read from a text. -/
def once {α : Type} (f : Flag) (old : Option α) (text : String) (read : String → Option α)
    (put : α → Given) : Except UsageFault Given :=
  if old.isSome then .error (.repeated f)
  else
    match read text with
    | some a => .ok (put a)
    | none => .error (.refusedValue f text)

/-- Gives a flag a value. -/
def give (g : Given) (f : Flag) (text : String) : Except UsageFault Given :=
  match f with
  | .strategy =>
    once f g.strategy text conversionChoice.ofFlag? fun a => { g with strategy := some a }
  | .entryPoint => once f g.entryPoint text some fun a => { g with entryPoint := some a }
  | .onInvokeError =>
    once f g.onInvokeError text policyChoice.ofFlag? fun a => { g with onInvokeError := some a }
  | .logFilter => once f g.logFilter text some fun a => { g with logFilter := some a }
  | .logFormat =>
    once f g.logFormat text LogFormat.choice.ofFlag? fun a => { g with logFormat := some a }
  | .configPath =>
    if g.configPath.isNone && text.isEmpty then .error (.missingValue f)
    else once f g.configPath text some fun a => { g with configPath := some a }
  | .requestLogging | .help => .error (.unwantedValue f)

/-- Gives a flag that takes no value. -/
def raise (g : Given) (f : Flag) : Except UsageFault Given :=
  match f with
  | .help => .error .helpAsked
  | f => if g.requestLogging then .error (.repeated f) else .ok { g with requestLogging := true }

/-- The layer of what was given. Whether requests are logged is always part of it. -/
def layer (g : Given) : Layer :=
  let text (name : String) (value : Option String) : Layer :=
    match value with
    | some s => [(name, .string s)]
    | none => []
  text "strategy" (g.strategy.map conversionChoice.nameOf) ++
    text "entry_point" g.entryPoint ++
    text "on_invoke_error" (g.onInvokeError.map policyChoice.nameOf) ++
    [("request_logging", .bool g.requestLogging)] ++
    text "log_filter" g.logFilter ++
    text "log_format" (g.logFormat.map LogFormat.choice.nameOf)

end Given

namespace Flag

/-- What has been read: what was given, and the flag whose value has not been looked at, with the
value if it has come. -/
structure Progress where
  given : Given
  pending : Option (Flag × Option String)

/-- Looks at the value that has not been looked at. -/
def Progress.settle (p : Progress) : Except UsageFault Given :=
  match p.pending with
  | none => .ok p.given
  | some (f, none) => .error (.missingValue f)
  | some (f, some text) => p.given.give f text

/-- Takes a flag with a value from the same word, or one that waits for a value. -/
def take (p : Progress) (f : Flag) (attached : Option String) : Except UsageFault Progress := do
  let given ← p.settle
  match attached with
  | some text => return ⟨← given.give f text, none⟩
  | none => return ⟨given, some (f, none)⟩

/-- Takes a flag that is written with its name. -/
def takeLong (p : Progress) (word : String) (body : List Char) : Except UsageFault Progress :=
  let (name, rest) := body.span (· != '=')
  let value : Option String := match rest with
    | [] => none
    | _ :: rest => some (String.ofList rest)
  match ofName? (String.ofList name), value with
  | none, _ => .error (.unknown word)
  | some f, value =>
    if f.takesValue then take p f value
    else
      match value with
      | some _ => .error (.unwantedValue f)
      | none => do return ⟨← (← p.settle).raise f, none⟩

/-- Takes flags that are written with their letters. -/
def takeShort (p : Progress) (word : String) : List Char → Except UsageFault Progress
  | [] => .ok p
  | c :: rest =>
    match ofLetter? c with
    | none => .error (.unknown word)
    | some f =>
      if f.takesValue then
        take p f (match rest with
          | [] => none
          | '=' :: value => some (String.ofList value)
          | value => some (String.ofList value))
      else do
        let given ← (← p.settle).raise f
        takeShort ⟨given, none⟩ word rest

/-- Reads the words of a command line. -/
def readWords (p : Progress) : List String → Except UsageFault Given
  | [] => p.settle
  | word :: rest => do
    match word.toList, p.pending with
    | ['-', '-'], _ =>
      match rest with
      | [] => p.settle
      | word :: _ => throw (.unknown word)
    | '-' :: '-' :: body, _ => readWords (← takeLong p word body) rest
    | '-' :: c :: body, _ => readWords (← takeShort p word (c :: body)) rest
    | _, some (f, none) => readWords ⟨p.given, some (f, some word)⟩ rest
    | _, _ => throw (.unknown word)

/-- What the words after the program's name give. -/
def read (words : List String) : Except UsageFault Given := readWords ⟨.nothing, none⟩ words

end Flag

end ScriptWorker.Config

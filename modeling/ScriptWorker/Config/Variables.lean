import ScriptWorker.Config.Layer
import ScriptWorker.Text.Utf8
import ScriptWorker.Toml.Scalar

/-!
# Settings from the environment

A variable whose name starts with `FUNCWORKER_`, in any case, sets what the rest of its name says.
Its text is read as a value of whatever kind it looks like: a truth value, a number, a quoted
string, a list or a table, or else a string. A text with commas that opens none of these is a list.
-/

set_option autoImplicit false

namespace ScriptWorker.Config

/-- The environment: variables by name. -/
abbrev Variables := List (String × String)

namespace Variables

/-- The variables of a block of `name=value` entries, each ended by a zero byte. -/
def ofBlock (block : List UInt8) : Variables :=
  (block.splitOn 0).filterMap fun entry =>
    match entry.span (· != 0x3D) with
    | (name, _ :: value) =>
      some (String.ofList (Text.Utf8.decodeLossy name), String.ofList (Text.Utf8.decodeLossy value))
    | (_, []) => none

/-- The value of a variable that is set and not empty. -/
def find? (vars : Variables) (name : String) : Option String :=
  (vars.lookup name).filter (!·.isEmpty)

/-! ## Texts as values -/

/-- An ASCII blank. -/
def isBlank (c : Char) : Bool :=
  c = ' ' || c = '\t' || c = '\n' || c = '\x0c' || c = '\r'

/-- A character that ends a bare value. -/
def isSeparator (c : Char) : Bool :=
  c = ',' || c = '\x7b' || c = '\x7d' || c = '[' || c = ']'

/-- A character of a bare key. -/
def isKeyChar (c : Char) : Bool := c.isAlphanum || c = '_' || c = '-'

/-- A sign and what follows it. -/
def readSign : List Char → Bool × List Char
  | '-' :: rest => (true, rest)
  | '+' :: rest => (false, rest)
  | s => (false, s)

/-- The double that a text with a point writes. -/
def float? (s : List Char) : Option Float := do
  let (negative, s) := readSign s
  let (whole, s) := s.span Char.isDigit
  let (fraction, s) := match s with
    | '.' :: rest => rest.span Char.isDigit
    | s => ([], s)
  guard (!whole.isEmpty || !fraction.isEmpty)
  let exponent : Int ← match s with
    | [] => pure 0
    | mark :: rest => do
      guard (mark = 'e' || mark = 'E')
      let (below, digits) := readSign rest
      guard (!digits.isEmpty && digits.all Char.isDigit)
      let n : Int := Toml.inBase 10 digits
      pure (if below then -n else n)
  return Numeric.nearestDecimal negative (Toml.inBase 10 (whole ++ fraction))
    (exponent - fraction.length)

/-- The whole number that a text writes. -/
def whole? (s : List Char) : Option Int := do
  let (negative, digits) := readSign s
  guard (!digits.isEmpty && digits.all Char.isDigit)
  let n : Int := Toml.inBase 10 digits
  let n := if negative then -n else n
  guard (Json.Value.leastInt ≤ n && n ≤ Json.Value.greatestInt)
  return n

/-- The value of a bare text. -/
def bareValue (s : List Char) : Json.Value :=
  let number : Option Json.Value :=
    match (if s.contains '.' then float? s else none) with
    | some x => some (if x.isFinite then .float x else .null)
    | none => (whole? s).map .int
  number.getD (.string (String.ofList s))

/-- A text without the blanks around it. -/
def trim (s : List Char) : List Char :=
  ((s.dropWhile Text.isBlank).reverse.dropWhile Text.isBlank).reverse

/-- Reads a quoted string after its first quote. -/
def readQuoted (s : List Char) : Option (String × List Char) :=
  go (s.length + 1) [] s
where
  go : Nat → List Char → List Char → Option (String × List Char)
    | 0, _, _ => none
    | _, _, [] => none
    | _, done, '"' :: rest => some (String.ofList done.reverse, rest)
    | fuel + 1, done, '\\' :: rest =>
      match Toml.readEscape rest with
      | .ok (c, rest) => go fuel (c :: done) rest
      | .error _ => none
    | fuel + 1, done, c :: rest => go fuel (c :: done) rest

/-- Reads a key of a table. -/
def readKey (s : List Char) : Option (String × List Char) :=
  match s with
  | '"' :: rest => readQuoted rest
  | s =>
    let (key, rest) := s.span isKeyChar
    if key.isEmpty then none else some (String.ofList key, rest)

mutual

/-- Reads a value and the blanks around it. -/
def readValue : Nat → List Char → Option (Json.Value × List Char)
  | 0, _ => none
  | fuel + 1, s =>
    let found : Option (Json.Value × List Char) :=
      match s.dropWhile isBlank with
      | 't' :: 'r' :: 'u' :: 'e' :: rest => some (.bool true, rest)
      | 'f' :: 'a' :: 'l' :: 's' :: 'e' :: rest => some (.bool false, rest)
      | '\x7b' :: rest => (readMembers fuel [] rest).map fun (ms, rest) => (.ofMembers ms, rest)
      | '[' :: rest => (readItems fuel [] rest).map fun (vs, rest) => (.array vs, rest)
      | '"' :: rest => (readQuoted rest).map fun (text, rest) => (.string text, rest)
      | '\'' :: c :: '\'' :: rest => some (.string (String.ofList [c]), rest)
      | '\'' :: _ => none
      | s =>
        let (token, rest) := s.span (!isSeparator ·)
        some (bareValue (trim token), rest)
    found.map fun (v, rest) => (v, rest.dropWhile isBlank)

/-- Reads the items of a list after its opening bracket. -/
def readItems : Nat → List Json.Value → List Char → Option (List Json.Value × List Char)
  | 0, _, _ => none
  | fuel + 1, done, s =>
    match s with
    | ']' :: rest => some (done.reverse, rest)
    | s => do
      let (v, rest) ← readValue fuel s
      match rest with
      | ',' :: rest => readItems fuel (v :: done) rest
      | ']' :: rest => return ((v :: done).reverse, rest)
      | _ => none

/-- Reads the members of a table after its opening brace. -/
def readMembers : Nat → List (String × Json.Value) → List Char →
    Option (List (String × Json.Value) × List Char)
  | 0, _, _ => none
  | fuel + 1, done, s =>
    match s with
    | '\x7d' :: rest => some (done.reverse, rest)
    | s => do
      let (key, rest) ← readKey (s.dropWhile isBlank)
      match rest.dropWhile isBlank with
      | '=' :: rest =>
        let (v, rest) ← readValue fuel rest
        match rest with
        | ',' :: rest => readMembers fuel ((key, v) :: done) rest
        | '\x7d' :: rest => return (((key, v) :: done).reverse, rest)
        | _ => none
      | _ => none

end

/-- Whether a text opens a list, a table or a quoted string. -/
def opensValue : List Char → Bool
  | c :: _ => c = '[' || c = '\x7b' || c = '"' || c = '\''
  | [] => false

/-- The value of a variable's text. -/
def valueOf (text : String) : Json.Value :=
  let s := trim text.toList
  if s.contains ',' && !opensValue s then
    .array ((s.splitOnP (· == ',')).map fun item => .string (String.ofList (trim item)))
  else
    match readValue (s.length + 1) s with
    | some (v, []) => v
    | _ => .string (String.ofList s)

/-! ## The layer -/

/-- What the names of variables that are meant start with. -/
def mark : List Char := "funcworker_".toList

/-- Parts of a name, with two underscores or a point between them. -/
def parts : List Char → List Char → List String
  | part, [] => [String.ofList part.reverse]
  | part, '_' :: '_' :: rest => String.ofList part.reverse :: parts [] rest
  | part, '.' :: rest => String.ofList part.reverse :: parts [] rest
  | part, c :: rest => parts (c :: part) rest

/-- A value inside tables of the given names. -/
def nest (v : Json.Value) : List String → Json.Value
  | [] => v
  | name :: rest => .object [(name, nest v rest)]

/-- The setting that a variable is meant for, and its value. -/
def entry? (name text : String) : Option (String × Json.Value) :=
  let name := name.toList.map Char.toLower
  if mark.isPrefixOf name then
    match parts [] (name.drop mark.length) with
    | [""] => none
    | [] => none
    | name :: rest => some (name, nest (valueOf text) rest)
  else none

/-- The settings that the environment gives. -/
def layer (vars : Variables) : Layer :=
  vars.reverse.filterMap fun (name, text) => entry? name text

end Variables

end ScriptWorker.Config

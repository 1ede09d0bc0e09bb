import ScriptWorker.Loading.Error
import ScriptWorker.Text.Blank
import ScriptWorker.Text.Word

/-!
# Function declarations in source text

A source declares a function as `function name(params) { body }`. The first declaration counts;
its parameters end at the first `)` after it, and its body lies between the first `{` after that
and the last `}` of the source.
-/

set_option autoImplicit false

namespace ScriptWorker.Loading

/-- The parts of a declaration. -/
structure Signature where
  name : String
  params : List String
  body : String

namespace Signature

/-- Whether a name may start with the character. -/
def startsName (c : Char) : Bool := c.isAlpha || c == '_' || c == '$'

/-- Whether a name may go on with the character. -/
def continuesName (c : Char) : Bool := startsName c || c.isDigit

/-- The text after the given one, if the text starts with it. -/
def after? : List Char → List Char → Option (List Char)
  | [], s => some s
  | _ :: _, [] => none
  | w :: word, c :: rest => if c = w then after? word rest else none

/-- The word that starts a declaration. -/
def keyword : List Char := ['f', 'u', 'n', 'c', 't', 'i', 'o', 'n']

/-- Reads `function`, blanks, a name, blanks and `(` from the start of the text, and gives the
name and the text after the parenthesis. -/
def declaration? (s : List Char) : Option (List Char × List Char) :=
  match after? keyword s with
  | none => none
  | some rest =>
    let (gap, rest) := rest.span Text.isBlank
    let (name, rest) := rest.span continuesName
    match gap, name, rest.dropWhile Text.isBlank with
    | _ :: _, first :: _, '(' :: rest => if startsName first then some (name, rest) else none
    | _, _, _ => none

/-- Looks for the first declaration that starts at a word boundary; `inWord` says whether the text
before is the middle of a word. -/
def findFrom (inWord : Bool) : List Char → Option (List Char × List Char)
  | [] => none
  | c :: rest =>
    let here := if inWord then none else declaration? (c :: rest)
    match here with
    | some found => some found
    | none => findFrom (Text.isWord c) rest

/-- The parameters of a list: blanks do not count, commas separate. -/
def splitParams (raw : List Char) : List String :=
  match raw.filter (!Text.isBlank ·) with
  | [] => []
  | compact => (compact.splitOn ',').map String.ofList

/-- The text between the first `{` and the last `}`, if they stand in that order. -/
def bracedBody? (s : List Char) : Option (List Char) :=
  match s.dropWhile (· != '\x7b') with
  | [] => none
  | _ :: inner =>
    match inner.reverse.dropWhile (· != '\x7d') with
    | [] => none
    | _ :: body => some body.reverse

/-- Reads the parameters and the body behind the opening parenthesis of a declaration. -/
def readBehind (name rest : List Char) : Except ConversionError Signature :=
  let name := String.ofList name
  match rest.span (· != ')') with
  | (_, []) => .error (.unterminatedParameters name)
  | (raw, _ :: rest) =>
    match bracedBody? rest with
    | none => .error (.missingBody name)
    | some body => .ok ⟨name, splitParams raw, String.ofList body⟩

/-- Takes the first declaration of a source apart. -/
def extract (source : String) : Except ConversionError Signature :=
  match findFrom false source.toList with
  | none => .error .missingDeclaration
  | some (name, rest) => readBehind name rest

/-- The chunk that evaluates to the function: its body on lines of its own. -/
def chunk (s : Signature) : String :=
  "return function(" ++ ", ".intercalate s.params ++ ")\n" ++ s.body ++ "\nend"

end Signature

end ScriptWorker.Loading

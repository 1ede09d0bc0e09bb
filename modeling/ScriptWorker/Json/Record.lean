import ScriptWorker.Json.Reader

/-!
# Records in JSON text

A record with named fields is read from an object, in any order and with unknown members skipped,
or from an array of its field values in order.
-/

set_option autoImplicit false

namespace ScriptWorker.Json

/-- Stops because a value of another type comes next. -/
def stopForType {α : Type} (size : Nat) (wanted : String) (s : List Char) : Reading α :=
  let wrong (found : Found) (rest : List Char) : Reading α :=
    stopBefore (.wrongType found wanted) rest
  let wrongNumber (number : Value × List Char) : Reading α :=
    match number with
    | (.int n, rest) => wrong (.int n) rest
    | (.float x, rest) => wrong (.float x) rest
    | (_, rest) => wrong .null rest
  match s with
  | 'n' :: rest => do wrong .null (← readWord ['u', 'l', 'l'] rest)
  | 't' :: rest => do wrong (.bool true) (← readWord ['r', 'u', 'e'] rest)
  | 'f' :: rest => do wrong (.bool false) (← readWord ['a', 'l', 's', 'e'] rest)
  | '-' :: rest => do wrongNumber (← readNumber true rest)
  | '"' :: rest => do
    let (text, rest) ← readStringFrom size [] rest
    wrong (.string text) rest
  | '[' :: _ => wrong .sequence s
  | '\x7b' :: _ => wrong .map s
  | c :: _ => if c.isDigit then do wrongNumber (← readNumber false s) else stopAt .wantedValue s
  | [] => stopAt .wantedValue []

/-- Reads a string. -/
def readText (size : Nat) (wanted : String) (s : List Char) : Reading (String × List Char) :=
  match skipGap s with
  | [] => stopAt .endInValue []
  | '"' :: rest => readStringFrom size [] rest
  | rest => stopForType size wanted rest

/-- Reads a string or `null`. -/
def readTextOrNull (size : Nat) (s : List Char) : Reading (Option String × List Char) :=
  match skipGap s with
  | 'n' :: rest => do return (none, ← readWord ['u', 'l', 'l'] rest)
  | rest => do
    let (text, rest) ← readText size "a string" rest
    return (some text, rest)

/-- Reads a truth value. -/
def readFlag (size : Nat) (s : List Char) : Reading (Bool × List Char) :=
  match skipGap s with
  | [] => stopAt .endInValue []
  | 't' :: rest => do return (true, ← readWord ['r', 'u', 'e'] rest)
  | 'f' :: rest => do return (false, ← readWord ['a', 'l', 's', 'e'] rest)
  | rest => stopForType size "a boolean" rest

/-- Looks a name up among the known ones. -/
def chooseName {α : Type} (known : List (String × α)) (name : String) (rest : List Char) :
    Reading (α × List Char) :=
  match known.find? (·.1 == name) with
  | some (_, value) => .ok (value, rest)
  | none => stopBefore (.unknownVariant name (known.map (·.1))) rest

/-- Reads one of the known names, as a string or as the key of an object whose value is `null`. -/
def readChoice {α : Type} (size depth : Nat) (known : List (String × α)) (s : List Char) :
    Reading (α × List Char) :=
  match skipGap s with
  | [] => stopAt .endInValue []
  | '"' :: rest => do
    let (name, rest) ← readStringFrom size [] rest
    chooseName known name rest
  | '\x7b' :: rest =>
    if depth < 2 then stopAt .tooDeep ('\x7b' :: rest)
    else do
      let (name, rest) ← readText size "variant identifier" rest
      let (value, rest) ← chooseName known name rest
      let rest ← match skipGap (← readColon rest) with
        | [] => stopAt .endInValue []
        | 'n' :: rest => readWord ['u', 'l', 'l'] rest
        | rest => stopForType size "unit" rest
      match skipGap rest with
      | [] => stopBefore .endInObject []
      | '\x7d' :: rest => return (value, rest)
      | rest => stopBefore .wantedValue rest
  | rest => stopAt .wantedValue rest

/-- A field of a record that is read into a state. -/
structure Field (σ : Type) where
  name : String
  /-- Whether the field has been read. -/
  isSet : σ → Bool
  /-- Reads the field, given a bound on the text's length and the depth left. -/
  read : Nat → Nat → σ → List Char → Reading (σ × List Char)

/-- How a record is read: its fields go into a state, from which it is built, or which names the
first field that it lacks. -/
structure Record (σ α : Type) where
  wanted : String
  fields : List (Field σ)
  start : σ
  build : σ → Except String α

/-- Stops at the end of the record. -/
def stopInRecord {α : Type} (cause : Cause) (rest : List Char) : Reading α :=
  .error ⟨cause, rest, 0, true⟩

/-- Moves a stop that waits for the record's end past its closing bracket, if that comes next. -/
def Stop.settle (closing : Char) (stop : Stop) : Stop :=
  if stop.inRecord then
    match skipGap stop.rest with
    | [] => { stop with rest := [], inRecord := false }
    | c :: rest =>
      if c = closing then { stop with rest, inRecord := false }
      else { stop with rest := c :: rest, inRecord := false }
  else stop

namespace Record

variable {σ α : Type}

/-- Reads one member. -/
def readMember (r : Record σ α) (size depth : Nat) (state : σ) (key : String)
    (s : List Char) : Reading (σ × List Char) :=
  match r.fields.find? (·.name == key) with
  | some field =>
    if field.isSet state then stopInRecord (.duplicateField key) s
    else do field.read size depth state (← readColon s)
  | none => do return (state, ← skipValue size (← readColon s))

/-- Reads the record from the inside of an object. -/
def readObject (r : Record σ α) (size depth : Nat) (s : List Char) :
    Reading (α × List Char) := do
  let (state, rest) ← foldMembers size (r.readMember size depth) size true r.start s
  match r.build state with
  | .ok value => return (value, ← closeMembers rest)
  | .error name => stopInRecord (.missingField name) rest

/-- Reads one item: the state and the fields still to come. -/
def readItem (size depth : Nat) (state : σ × List (Field σ)) (s : List Char) :
    Reading (((σ × List (Field σ)) × Bool) × List Char) :=
  match state with
  | (state, []) => .ok (((state, []), false), s)
  | (state, field :: fields) => do
    let (state, rest) ← field.read size depth state s
    return (((state, fields), !fields.isEmpty), rest)

/-- Reads the record from the inside of an array. -/
def readArray (r : Record σ α) (size depth : Nat) (s : List Char) :
    Reading (α × List Char) := do
  let ((state, fields), rest) ← foldItems (readItem size depth) size true (r.start, r.fields) s
  match r.build state with
  | .ok value => return (value, ← closeItems rest)
  | .error _ =>
    let count := r.fields.length
    stopInRecord (.wrongLength (count - fields.length)
      (r.wanted ++ " with " ++ toString count ++ " elements")) rest

/-- Reads the record. -/
def read (r : Record σ α) (size depth : Nat) (s : List Char) : Reading (α × List Char) :=
  match skipGap s with
  | [] => stopAt .endInValue []
  | '\x7b' :: rest =>
    if depth < 2 then stopAt .tooDeep ('\x7b' :: rest)
    else (r.readObject size (depth - 1) rest).mapError (Stop.settle '\x7d')
  | '[' :: rest =>
    if depth < 2 then stopAt .tooDeep ('[' :: rest)
    else (r.readArray size (depth - 1) rest).mapError (Stop.settle ']')
  | rest => stopForType size r.wanted rest

/-- Reads a whole text as the record. -/
def parse (r : Record σ α) (text : List Char) : Except Fault α :=
  readAll (fun size => r.read size depthLimit) text

end Record

end ScriptWorker.Json

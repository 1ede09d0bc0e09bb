import ScriptWorker.Toml.Scalar

/-!
# TOML documents

A document is a table of values. Tables may be opened by headers, by dotted keys or, as a whole, by
braces; each of them can be filled in one of these ways only, and no key twice.
-/

set_option autoImplicit false

namespace ScriptWorker.Toml

/-! ## Tables under construction -/

/-- How a table came to be. -/
inductive Opening where
  /-- By its own header. -/
  | header
  /-- By the header of a table inside it. -/
  | implied
  /-- By a dotted key. -/
  | dotted
  deriving DecidableEq

/-- What a key stands for. -/
inductive Node where
  /-- A value, which nothing can be added to. -/
  | leaf (v : Json.Value)
  | table (o : Opening) (members : List (String × Node))
  /-- The tables under a header in double brackets. -/
  | tables (items : List (List (String × Node)))

/-- The members of a table. -/
abbrev Members := List (String × Node)

mutual

/-- The value of a node. -/
def Node.toValue : Node → Json.Value
  | .leaf v => v
  | .table _ members => .ofMembers (membersToValue members)
  | .tables items => .array (itemsToValue items)

/-- The members of a table with their values. -/
def membersToValue : List (String × Node) → List (String × Json.Value)
  | [] => []
  | (k, n) :: rest => (k, n.toValue) :: membersToValue rest

/-- The values of tables. -/
def itemsToValue : List (List (String × Node)) → List Json.Value
  | [] => []
  | members :: rest => .ofMembers (membersToValue members) :: itemsToValue rest

end

namespace Members

/-- Sets what a key stands for. -/
def put (k : String) (n : Node) : Members → Members
  | [] => [(k, n)]
  | (l, m) :: rest => if k = l then (k, n) :: rest else (l, m) :: put k n rest

/-- Adds a value under a new key. -/
def add? (k : String) (v : Json.Value) (ms : Members) : Option Members :=
  match ms.lookup k with
  | none => some (put k (.leaf v) ms)
  | some _ => none

/-- Opens a table by its header. -/
def open? (k : String) (ms : Members) : Option Members :=
  match ms.lookup k with
  | none => some (put k (.table .header []) ms)
  | some (.table .implied inner) => some (put k (.table .header inner) ms)
  | some _ => none

/-- Opens another one of the tables under a header in double brackets. -/
def openNext? (k : String) (ms : Members) : Option Members :=
  match ms.lookup k with
  | none => some (put k (.tables [[]]) ms)
  | some (.tables items) => some (put k (.tables (items ++ [[]])) ms)
  | some _ => none

/-- Changes the table at the end of a path, opening those on the way. A path of dots goes only
through tables that headers have left alone. -/
def change? (dots : Bool) (f : Members → Option Members) : List String → Members → Option Members
  | [], ms => f ms
  | k :: path, ms =>
    match ms.lookup k with
    | none => do
      let inner ← change? dots f path []
      return put k (.table (if dots then .dotted else .implied) inner) ms
    | some (.table o inner) =>
      if dots && o == .header then none
      else do
        let inner ← change? dots f path inner
        return put k (.table o inner) ms
    | some (.tables items) =>
      if dots then none
      else do
        let last ← change? dots f path (items.getLast?.getD [])
        return put k (.tables (items.dropLast ++ [last])) ms
    | some (.leaf _) => none

/-- Adds a value under a dotted key. -/
def addAt? (path : List String) (v : Json.Value) (ms : Members) : Option Members :=
  change? true (add? (path.getLast?.getD "") v) path.dropLast ms

end Members

/-! ## Keys -/

/-- A character of keys without quotes. -/
def isKeyChar (c : Char) : Bool := c.isAlphanum || c = '_' || c = '-'

/-- Reads one part of a key. -/
def readSimpleKey (s : List Char) : Reading (String × List Char) :=
  match s with
  | '"' :: rest => readInline '"' true s.length [] rest
  | '\'' :: rest => readInline '\'' false s.length [] rest
  | s =>
    let (name, rest) := s.span isKeyChar
    if name.isEmpty then .error s else .ok (String.ofList name, rest)

/-- Reads a key of one or more parts with dots between them, and blanks around each. -/
def readKey : Nat → List Char → Reading (List String × List Char)
  | 0, s => .error s
  | fuel + 1, s => do
    let (name, rest) ← readSimpleKey (skipGap s)
    match skipGap rest with
    | '.' :: rest => do
      let (path, rest) ← readKey fuel rest
      return (name :: path, rest)
    | rest => return ([name], rest)

/-! ## Values -/

mutual

/-- Reads a value. -/
def readValue : Nat → List Char → Reading (Json.Value × List Char)
  | 0, s => .error s
  | fuel + 1, s =>
    match s with
    | '"' :: _ => do
      let (text, rest) ← readString '"' true s
      return (.string text, rest)
    | '\'' :: _ => do
      let (text, rest) ← readString '\'' false s
      return (.string text, rest)
    | '[' :: rest => do
      let (items, rest) ← readItems fuel [] rest
      return (.array items, rest)
    | '\x7b' :: rest =>
      match skipGap rest with
      | '\x7d' :: rest => .ok (.object [], rest)
      | rest => do
        let (members, rest) ← readMembers fuel [] rest
        return (.ofMembers (membersToValue members), rest)
    | 't' :: 'r' :: 'u' :: 'e' :: rest => .ok (.bool true, rest)
    | 'f' :: 'a' :: 'l' :: 's' :: 'e' :: rest => .ok (.bool false, rest)
    | s => readNumber s

/-- Reads the items of an array, after those in `done`, the last one first. -/
def readItems : Nat → List Json.Value → List Char → Reading (List Json.Value × List Char)
  | 0, _, s => .error s
  | fuel + 1, done, s =>
    match skipLines s.length s with
    | ']' :: rest => .ok (done.reverse, rest)
    | s => do
      let (v, rest) ← readValue fuel s
      match skipLines rest.length rest with
      | ',' :: rest => readItems fuel (v :: done) rest
      | ']' :: rest => return ((v :: done).reverse, rest)
      | rest => throw rest

/-- Reads the members of a table in braces. -/
def readMembers : Nat → Members → List Char → Reading (Members × List Char)
  | 0, _, s => .error s
  | fuel + 1, ms, s => do
    let (path, rest) ← readKey s.length s
    let (v, rest) ← readValue fuel (skipGap (← expect '=' rest))
    match ms.addAt? path v with
    | none => throw s
    | some ms =>
      match skipGap rest with
      | ',' :: rest => readMembers fuel ms rest
      | '\x7d' :: rest => return (ms, rest)
      | rest => throw rest

end

/-! ## Documents -/

/-- Reads the lines of a document into the table at the path of the last header. -/
def readLines : Nat → List String → Members → List Char → Reading Members
  | 0, _, ms, _ => .ok ms
  | fuel + 1, header, ms, s =>
    match skipGap s with
    | [] => .ok ms
    | '[' :: '[' :: rest => do
      let (path, rest) ← readKey s.length rest
      let rest ← nextLine (← expect ']' (← expect ']' rest))
      match ms.change? false (Members.openNext? (path.getLast?.getD "")) path.dropLast with
      | some ms => readLines fuel path ms rest
      | none => throw s
    | '[' :: rest => do
      let (path, rest) ← readKey s.length rest
      let rest ← nextLine (← expect ']' rest)
      match ms.change? false (Members.open? (path.getLast?.getD "")) path.dropLast with
      | some ms => readLines fuel path ms rest
      | none => throw s
    | '#' :: _ | '\n' :: _ | '\r' :: _ => do readLines fuel header ms (← nextLine s)
    | rest => do
      let (path, rest) ← readKey s.length rest
      let (v, rest) ← readValue s.length (skipGap (← expect '=' rest))
      let rest ← nextLine rest
      match ms.change? false (Members.addAt? path v) header with
      | some ms => readLines fuel header ms rest
      | none => throw s

/-- Where a document cannot be read: line and column, from one. -/
structure Fault where
  line : Nat
  column : Nat

/-- The wording of a fault. -/
def Fault.message (f : Fault) : String :=
  "TOML parse error at line " ++ toString f.line ++ ", column " ++ toString f.column

/-- The fault of a text that is read up to the given rest. -/
def Fault.ofRest (text rest : List Char) : Fault :=
  (text.take (text.length - rest.length)).foldl
    (fun f c => if c = '\n' then ⟨f.line + 1, 1⟩ else { f with column := f.column + 1 }) ⟨1, 1⟩

/-- The members of the table that a document is. A mark of the byte order may stand in front. -/
def parse (text : String) : Except Fault (List (String × Json.Value)) :=
  let s := match text.toList with
    | '\uFEFF' :: rest => rest
    | s => s
  match readLines (s.length + 1) [] [] s with
  | .ok ms => .ok (membersToValue ms)
  | .error rest => .error (.ofRest s rest)

end ScriptWorker.Toml

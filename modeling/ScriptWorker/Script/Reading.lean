import ScriptWorker.Script.Scope

/-!
# The state of the program reader

A program is read from its tokens with one token of look-ahead. The state holds the tokens, how
deeply the constructs read are nested, and the scopes.
-/

set_option autoImplicit false

namespace ScriptWorker.Script

/-- How deeply constructs may be nested. -/
def nestingLimit : Nat := 200

/-- The most local variables of a function. -/
def localLimit : Nat := 200

/-- The most variables that a closure takes along. -/
def capturedLimit : Nat := 255

/-- The state of the reader. -/
structure Reading where
  /-- The token at hand. -/
  token : Token
  rest : List Token
  /-- The error that ends the tokens. -/
  fault : Option SyntaxError
  /-- The line of the program's end. -/
  endLine : Nat
  /-- The line of the token before the one at hand. -/
  lastLine : Nat
  depth : Nat
  scope : Scope
  /-- The functions around, the innermost first. -/
  around : List Scope

/-- A step of the reader. -/
abbrev Reader := StateT Reading (Except SyntaxError)

namespace Reader

/-- An error that names the token at hand. -/
def failNear {α : Type} (message : Bytes) : Reader α := do
  let s ← get
  throw (.at s.token.line (message ++ bytes " near " ++ s.token.near))

/-- An error about the meaning of what was read. -/
def fail {α : Type} (message : Bytes) : Reader α := do
  throw (.at (← get).token.line message)

/-- A limit of a function is passed. -/
def failLimit {α : Type} (what : String) (limit : Nat) (s : Scope) : Reader α :=
  failNear (bytes ("too many " ++ what ++ " (limit is " ++ toString limit ++ ") in " ++
    s.described))

/-! ## Tokens -/

/-- Goes on to the next token. -/
def advance : Reader Unit := fun s =>
  match s.rest, s.fault with
  | t :: rest, _ => .ok ((), { s with token := t, rest := rest, lastLine := s.token.line })
  | [], some e => .error e
  | [], none =>
    .ok ((), { s with token := ⟨.eof, s.endLine, .empty⟩, lastLine := s.token.line })

/-- Whether the token at hand is a mark. -/
def atMark (m : Mark) : Reader Bool := do
  match (← get).token.kind with
  | .mark n => return m == n
  | _ => return false

/-- Whether the token at hand is a single character. -/
def atChar (c : Char) : Reader Bool := do
  match (← get).token.kind with
  | .char d => return c == d
  | _ => return false

/-- Goes past a mark if it is at hand. -/
def skipMark (m : Mark) : Reader Bool := do
  if ← atMark m then
    advance
    return true
  else return false

/-- Goes past a character if it is at hand. -/
def skipChar (c : Char) : Reader Bool := do
  if ← atChar c then
    advance
    return true
  else return false

/-- Another token should have been here. -/
def failExpected {α : Type} (what : Bytes) : Reader α := failNear (what ++ bytes " expected")

/-- A mark in quotes. -/
def markText (m : Mark) : Bytes := bytes ("'" ++ m.text ++ "'")

/-- Goes past a mark that has to be at hand. -/
def expectMark (m : Mark) : Reader Unit := do
  unless ← skipMark m do failExpected (markText m)

/-- Goes past a character that has to be at hand. -/
def expectChar (c : Char) : Reader Unit := do
  unless ← skipChar c do failExpected (charText c)

/-- What closes something was not found. -/
def failUnclosed {α : Type} (what opening : Bytes) (line : Nat) : Reader α := do
  if line = (← get).token.line then failExpected what
  else
    failNear (what ++ bytes " expected (to close " ++ opening ++ bytes (" at line " ++
      toString line ++ ")"))

/-- Goes past the mark that closes what another one opened on a line. -/
def closeMark (m opening : Mark) (line : Nat) : Reader Unit := do
  unless ← skipMark m do failUnclosed (markText m) (markText opening) line

/-- Goes past the character that closes what another one opened on a line. -/
def closeChar (c opening : Char) (line : Nat) : Reader Unit := do
  unless ← skipChar c do failUnclosed (charText c) (charText opening) line

/-- Reads a name. -/
def name : Reader Bytes := do
  match (← get).token.kind with
  | .name s =>
    advance
    return s
  | _ => failExpected (bytes "<name>")

/-- The line of the token at hand. -/
def line : Reader Nat := do return (← get).token.line

/-- The line of the token before. -/
def lastLine : Reader Nat := do return (← get).lastLine

/-- Reads a nested construct. -/
def nested {α : Type} (r : Reader α) : Reader α := do
  let depth := (← get).depth + 1
  if nestingLimit ≤ depth then throw (.bare (bytes "C stack overflow"))
  modify fun s => { s with depth := depth }
  let a ← r
  modify fun s => { s with depth := depth - 1 }
  return a

/-! ## Names -/

/-- The function that is being read. -/
def scope : Reader Scope := do return (← get).scope

/-- Changes the function that is being read. -/
def onScope (f : Scope → Scope) : Reader Unit := modify fun s => { s with scope := f s.scope }

/-- Changes the function that is being read, with a result. -/
def withScope {α : Type} (f : Scope → α × Scope) : Reader α := do
  let s ← get
  let (a, scope) := f s.scope
  set { s with scope := scope }
  return a

/-- Checks that `count` more variables fit into the scope. -/
def checkRoom (count : Nat) : Reader Unit := do
  let s ← scope
  if localLimit < s.visible.length + count then failLimit "local variables" localLimit s

/-- Puts local variables into scope. -/
def declareAll (names : List (Bytes × Bool)) : Reader (List Nat) :=
  names.mapM fun (name, readOnly) => withScope (·.declare name readOnly)

/-- The name of the variable that holds the globals. -/
def environmentName : Bytes := bytes "_ENV"

/-- What a name stands for, if it is no global, and whether it is read-only. -/
def lookUp (name : Bytes) : Reader (Option (Expr × Bool)) := do
  let s ← get
  match Scope.find name (s.scope :: s.around) with
  | (found, scope :: around) =>
    set { s with scope := scope, around := around }
    match (scope :: around).find? fun o => capturedLimit < o.captured.size with
    | some o => failLimit "upvalues" capturedLimit o
    | none => return found
  | (found, []) => return found

/-- The expression that a name stands for, and whether it is read-only. A name that is no variable
in scope is a field of `_ENV`. -/
def meaning (name : Bytes) : Reader (Expr × Bool) := do
  match ← lookUp name with
  | some found => return found
  | none =>
    let environment := ((← lookUp environmentName).map (·.1)).getD .nil
    return (.index environment (.string name) (← lastLine), false)

/-! ## Blocks, jumps and labels -/

/-- A jump reaches a label that sees a variable which the jump does not see. -/
def checkJump (w : Waiting) (level : Nat) : Reader Unit := do
  if w.level < level then
    let s ← scope
    fail (bytes "<goto " ++ w.name.getD .empty ++ bytes ("> at line " ++ toString w.line ++
      " jumps into the scope of local '") ++ s.nameAt w.level ++ bytes "'")

/-- Makes a label and lets the jumps of the current block that wait for it go there. `level` is
the number of variables that count as in scope at the label. -/
def placeLabel (name : Option Bytes) (line level : Nat) : Reader Nat := do
  let id ← withScope fun s => s.newLabel (s.slotsBelow level)
  match (← scope).blocks with
  | [] => return id
  | b :: rest =>
    let (here, others) := b.waiting.partition (·.name == name)
    for w in here.reverse do checkJump w level
    let labels := match name with
      | some name => ⟨name, id, line⟩ :: b.labels
      | none => b.labels
    onScope fun s => here.foldl (fun s w => s.land w.id id)
      { s with blocks := { b with waiting := others, labels := labels } :: rest }
    return id

/-- A jump to a label or, without a name, out of the loop. -/
def jump (name : Option Bytes) (line : Nat) : Reader Nat := do
  let id ← withScope Scope.newJump
  let s ← scope
  match name.bind s.findLabel with
  | some l => onScope (·.land id l.id)
  | none => onScope (·.wait ⟨id, name, line, s.visible.length⟩)
  return id

/-- A jump whose label is nowhere to be seen. -/
def failWaiting {α : Type} (w : Waiting) : Reader α :=
  match w.name with
  | some name =>
    fail (bytes "no visible label '" ++ name ++ bytes ("' for <goto> at line " ++
      toString w.line))
  | none => fail (bytes ("break outside loop at line " ++ toString w.line))

/-- Ends a block: its variables go out of scope, and the jumps that still wait go on to wait in
the block around. Gives the label at the end of a loop. -/
def leave : Reader (Option Nat) := do
  match (← scope).blocks with
  | [] => return none
  | b :: _ =>
    onScope fun s =>
      { s with visible := s.visible.drop (s.visible.length - b.outside), slots := b.slots }
    let exit ← if b.isLoop then some <$> placeLabel none 0 b.outside else pure none
    match (← scope).blocks with
    | [] => return exit
    | b :: rest =>
      let waiting := b.waiting.map fun w => { w with level := min w.level b.outside }
      match rest with
      | outer :: rest =>
        onScope fun s =>
          { s with blocks := { outer with waiting := waiting ++ outer.waiting } :: rest }
      | [] =>
        match waiting.getLast? with
        | some w => failWaiting w
        | none => onScope fun s => { s with blocks := [] }
      return exit

/-- Reads what is in a block. -/
def inBlock {α : Type} (isLoop : Bool) (r : Reader α) : Reader (α × Option Nat) := do
  onScope (·.enter isLoop)
  let a ← r
  let exit ← leave
  return (a, exit)

/-- Starts a function. -/
def openFunction (line : Nat) : Reader Unit :=
  modify fun s =>
    { s with scope := (Scope.opened line false #[]).enter false, around := s.scope :: s.around }

/-- Ends a function and gives what the tree keeps of it. -/
def closeFunction (parameters : Nat) : Reader Header := do
  let _ ← leave
  let s ← get
  match s.around with
  | [] => return s.scope.header parameters
  | outer :: around =>
    set { s with scope := outer, around := around }
    return s.scope.header parameters

end Reader

end ScriptWorker.Script

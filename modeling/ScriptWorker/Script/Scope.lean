import ScriptWorker.Script.Syntax

/-!
# Scopes

What the reader of a program knows about names: the variables in scope in each function that is
being read, the labels that a jump can see, and the jumps that wait for their label.
-/

set_option autoImplicit false

namespace ScriptWorker.Script

/-- A variable in scope. It stands for a local variable or for a literal. -/
structure Visible where
  name : Bytes
  readOnly : Bool
  meaning : Expr

/-- A jump that waits for its label. A jump out of a loop waits for the loop's end and has no
name. -/
structure Waiting where
  id : Nat
  name : Option Bytes
  line : Nat
  /-- The number of variables in scope at the jump. -/
  level : Nat

/-- A label that jumps can see. -/
structure Label where
  name : Bytes
  id : Nat
  line : Nat

/-- A block that is being read. -/
structure Block where
  /-- The number of variables in scope outside. -/
  outside : Nat
  /-- The number of slots they take. -/
  slots : Nat
  isLoop : Bool
  labels : List Label
  waiting : List Waiting
  /-- Whether a variable of this block or of one around it is closed with its scope. -/
  closes : Bool

/-- A function that is being read. -/
structure Scope where
  /-- The variables in scope, the innermost first. -/
  visible : List Visible
  /-- The number of local variables among them. -/
  slots : Nat
  locals : Array Local
  captured : Array (Captured × Bool)
  /-- The blocks, the innermost first. -/
  blocks : List Block
  jumps : Array Nat
  levels : Array Nat
  variadic : Bool
  closes : Bool
  line : Nat

namespace Scope

/-- A function that starts. -/
def opened (line : Nat) (variadic : Bool) (captured : Array (Captured × Bool)) : Scope where
  visible := []
  slots := 0
  locals := #[]
  captured := captured
  blocks := []
  jumps := #[]
  levels := #[]
  variadic := variadic
  closes := false
  line := line

/-- The function's name in messages about limits. -/
def described (s : Scope) : String :=
  if s.line = 0 then "main function" else "function at line " ++ toString s.line

/-- What the tree keeps of the function. -/
def header (s : Scope) (parameters : Nat) : Header where
  parameters := parameters
  variadic := s.variadic
  locals := s.locals
  captured := s.captured.map (·.1)
  jumps := s.jumps
  levels := s.levels
  closes := s.closes
  line := s.line

/-- Puts a local variable into scope and gives its number. -/
def declare (s : Scope) (name : Bytes) (readOnly : Bool) : Nat × Scope :=
  let id := s.locals.size
  (id, { s with
    visible := ⟨name, readOnly, .local id⟩ :: s.visible
    slots := s.slots + 1
    locals := s.locals.push ⟨name, s.slots, false⟩ })

/-- Puts a name for a literal into scope. -/
def declareLiteral (s : Scope) (name : Bytes) (value : Expr) : Scope :=
  { s with visible := ⟨name, true, value⟩ :: s.visible }

/-- Notes that a closure takes a local variable along. -/
def capture (s : Scope) (id : Nat) : Scope :=
  { s with locals := s.locals.modify id fun l => { l with captured := true } }

/-- Adds a variable of an enclosing function. -/
def addCaptured (s : Scope) (name : Bytes) (source : Source) (readOnly : Bool) : Expr × Scope :=
  (.outer s.captured.size, { s with captured := s.captured.push (⟨name, source⟩, readOnly) })

/-- Looks a name up in a function and then in those around it, innermost first. The functions in
between take the variable along. Also says whether the variable is read-only. -/
def find (name : Bytes) : List Scope → Option (Expr × Bool) × List Scope
  | [] => (none, [])
  | s :: outer =>
    match s.visible.find? (·.name == name) with
    | some v => (some (v.meaning, v.readOnly), s :: outer)
    | none =>
      match s.captured.findIdx? (·.1.name == name) with
      | some i => (some (.outer i, (s.captured[i]?.map (·.2)).getD false), s :: outer)
      | none =>
        match find name outer with
        | (some (.local id, readOnly), o :: outer) =>
          let (e, s) := s.addCaptured name (.local id) readOnly
          (some (e, readOnly), s :: o.capture id :: outer)
        | (some (.outer i, readOnly), outer) =>
          let (e, s) := s.addCaptured name (.outer i) readOnly
          (some (e, readOnly), s :: outer)
        | (found, outer) => (found, s :: outer)

/-! ## Blocks -/

/-- Starts a block. -/
def enter (s : Scope) (isLoop : Bool) : Scope :=
  let closes := match s.blocks with
    | [] => false
    | b :: _ => b.closes
  { s with blocks := ⟨s.visible.length, s.slots, isLoop, [], [], closes⟩ :: s.blocks }

/-- Whether a call at this place cannot take over its caller's frame. -/
def insideClosing (s : Scope) : Bool :=
  match s.blocks with
  | [] => false
  | b :: _ => b.closes

/-- Notes that the current block has a variable that is closed with its scope. -/
def markClosing (s : Scope) : Scope :=
  let blocks := match s.blocks with
    | [] => []
    | b :: rest => { b with closes := true } :: rest
  { s with blocks := blocks, closes := true }

/-- The label of a name that can be seen. -/
def findLabel (s : Scope) (name : Bytes) : Option Label :=
  s.blocks.findSome? fun b => b.labels.find? (·.name == name)

/-- A new jump, which goes nowhere yet. -/
def newJump (s : Scope) : Nat × Scope := (s.jumps.size, { s with jumps := s.jumps.push 0 })

/-- A new label with the slots in use there. -/
def newLabel (s : Scope) (slots : Nat) : Nat × Scope :=
  (s.levels.size, { s with levels := s.levels.push slots })

/-- Lets a jump go to a label. -/
def land (s : Scope) (jump label : Nat) : Scope := { s with jumps := s.jumps.set! jump label }

/-- Lets a jump wait for its label. -/
def wait (s : Scope) (w : Waiting) : Scope :=
  let blocks := match s.blocks with
    | [] => []
    | b :: rest => { b with waiting := w :: b.waiting } :: rest
  { s with blocks := blocks }

/-- The slots that the innermost `level` variables leave out: those of the first `level` ones. -/
def slotsBelow (s : Scope) (level : Nat) : Nat :=
  (s.visible.drop (s.visible.length - level)).foldl
    (fun n v => match v.meaning with
      | .local _ => n + 1
      | _ => n) 0

/-- The name of the variable that came into scope after `level` others. -/
def nameAt (s : Scope) (level : Nat) : Bytes :=
  ((s.visible[s.visible.length - 1 - level]?).map (·.name)).getD .empty

end Scope

end ScriptWorker.Script

import ScriptWorker.Script.Code

/-!
# From the syntax tree to code

Code is built instruction by instruction; a jump is entered with a target that is filled in when
it is known. `fuel` bounds the nesting of the tree.
-/

set_option autoImplicit false

namespace ScriptWorker.Script.Compile

/-- Code in the making. -/
structure Building where
  code : Array Instr
  lines : Array Nat
  children : Array Proto
  /-- The first slot that is not in use. -/
  free : Nat
  /-- The most slots in use so far. -/
  slots : Nat
  /-- The jumps of the program, with their places. -/
  gotos : List (Nat × Nat)
  /-- The place of each label. -/
  labels : Array Nat

/-- A step of the compiler. -/
abbrev Build := StateM Building

/-- Enters an instruction and gives its place. -/
def emit (i : Instr) (line : Nat) : Build Nat := do
  let b ← get
  set { b with code := b.code.push i, lines := b.lines.push line }
  return b.code.size

/-- Enters an instruction. -/
def put (i : Instr) (line : Nat) : Build Unit := do
  let _ ← emit i line

/-- The place of the next instruction. -/
def here : Build Nat := do return (← get).code.size

/-- An instruction with its target filled in. -/
def aim (target : Nat) : Instr → Instr
  | .jump _ => .jump target
  | .jumpIf e o _ => .jumpIf e o target
  | .jumpCompare op e a b _ => .jumpCompare op e a b target
  | .jumpKeep e _ => .jumpKeep e target
  | .numericPrep base _ => .numericPrep base target
  | i => i

/-- Lets jumps go to a place. -/
def aimAll (places : List Nat) (target : Nat) : Build Unit :=
  modify fun b => { b with code := places.foldl (fun code p => code.modify p (aim target)) b.code }

/-- Lets jumps go to the next instruction. -/
def aimHere (places : List Nat) : Build Unit := do aimAll places (← here)

/-- Sets the first slot that is not in use. -/
def setFree (n : Nat) : Build Unit :=
  modify fun b => { b with free := n, slots := max b.slots n }

/-- Takes a slot into use. -/
def takeSlot : Build Nat := do
  let n := (← get).free
  setFree (n + 1)
  return n

/-! ## Origins -/

/-- The local variable of a number. -/
def localOf (h : Header) (id : Nat) : Local := h.locals.getD id ⟨.empty, 0, false⟩

/-- The name of a variable that is taken along. -/
def outerName (h : Header) (i : Nat) : Bytes := ((h.captured[i]?).map (·.name)).getD .empty

/-- Whether an expression is the variable that holds the globals. -/
def isEnvironment (h : Header) : Expr → Bool
  | .local id => (localOf h id).name == bytes "_ENV"
  | .outer i => outerName h i == bytes "_ENV"
  | _ => false

/-- The name of a key in messages. -/
def keyName : Expr → Bytes
  | .string s => s
  | .number (.int n) => if 0 ≤ n ∧ n ≤ 255 then bytes "integer index" else bytes "?"
  | _ => bytes "?"

/-- What messages say an expression's value comes from. -/
def originOf (h : Header) : Expr → Option Origin
  | .local id => some ⟨.local, (localOf h id).name⟩
  | .outer i => some ⟨.upvalue, outerName h i⟩
  | .index t k _ => some ⟨if isEnvironment h t then .global else .field, keyName k⟩
  | .string s => some ⟨.constant, s⟩
  | .paren e => originOf h e
  | _ => none

/-! ## Expressions -/

/-- The literal value of an expression. -/
def literal? : Expr → Option Value
  | .nil => some .nil
  | .truth b => some (.bool b)
  | .number n => some (.ofNumber n)
  | .string s => some (.str s)
  | _ => none

/-- Whether an expression may give any number of values. -/
def isMany : Expr → Bool
  | .call .. | .method .. | .varargs => true
  | _ => false

/-- The operand that a local variable is. -/
def localOperand (h : Header) (id : Nat) : Operand :=
  let l := localOf h id
  if l.captured then .cell l.slot else .slot l.slot

/-- How many values of a table constructor are gathered before they are stored. -/
def itemsPerStore : Nat := 50

/-- The operands of a chain of concatenations, which is evaluated from its right end. -/
def concatChain : Nat → Expr → List Expr × Nat
  | 0, e => ([e], 0)
  | fuel + 1, .concat a b line =>
    match b with
    | .concat .. =>
      let (rest, last) := concatChain fuel b
      (a :: rest, last)
    | b => ([a, b], line)
  | _, e => ([e], 0)

/-- Stores the value on the stack, or another operand, in a local variable. -/
def storeLocal (h : Header) (id : Nat) (o : Operand) (line : Nat) : Build Unit :=
  let l := localOf h id
  put (if l.captured then .setCell l.slot o else .setSlot l.slot o) line

/-- Gives a new local variable its first value. -/
def initLocal (h : Header) (id : Nat) (o : Operand) (line : Nat) : Build Unit :=
  let l := localOf h id
  put (if l.captured then .newCell l.slot o else .setSlot l.slot o) line

/-- Puts an operand on the stack if it is not there. -/
def onStack (o : Operand) (line : Nat) : Build Unit :=
  match o with
  | .pop => return ()
  | o => put (.push o) line

/-- The places of a jump, if the instruction is entered. -/
def jumping (i : Instr) (line : Nat) : Build (List Nat) := do return [← emit i line]

/-- Enters the store of the value on the stack to a target. -/
def store (h : Header) (target : Expr) (t k : Operand) (line : Nat) : Build Unit :=
  match target with
  | .local id => storeLocal h id .pop line
  | .outer i => put (.setOuter i .pop) line
  | .index e _ _ => put (.setIndex t k .pop (originOf h e)) line
  | _ => return ()

section

variable (chunk : Bytes)

mutual

/-- Enters the code of an expression and says where its value is. -/
def expr (h : Header) : Nat → Expr → Build Operand
  | 0, _ => return .literal .nil
  | fuel + 1, e => do
    match e with
    | .nil => return .literal .nil
    | .truth b => return .literal (.bool b)
    | .number n => return .literal (.ofNumber n)
    | .string s => return .literal (.str s)
    | .varargs => many h fuel e .one
    | .local id => return localOperand h id
    | .outer i =>
      put (.outer i) 0
      return .pop
    | .index t k line =>
      let a ← expr h fuel t
      let b ← expr h fuel k
      put (.index a b (originOf h t)) line
      return .pop
    | .call .. | .method .. => many h fuel e .one
    | .function f =>
      let p := function fuel f
      let b ← get
      set { b with children := b.children.push p }
      put (.closure b.children.size) 0
      return .pop
    | .unary op a line =>
      let o ← expr h fuel a
      put (.unary op o (originOf h a)) line
      return .pop
    | .binary op a b line =>
      let x ← expr h fuel a
      let y ← expr h fuel b
      put (.binary op x y (originOf h a) (originOf h b)) line
      return .pop
    | .concat .. =>
      let (operands, line) := concatChain fuel e
      for a in operands do onStack (← expr h fuel a) line
      put (.concat (operands.map (originOf h))) line
      return .pop
    | .compare op negated a b line =>
      let x ← expr h fuel a
      let y ← expr h fuel b
      put (.compare op negated x y) line
      return .pop
    | .both a b => shortcut h fuel false a b
    | .either a b => shortcut h fuel true a b
    | .table found line => table h fuel found line
    | .paren e => expr h fuel e
termination_by structural fuel => fuel

/-- Enters an operator that leaves out its right operand if the left one is as `stop` says. -/
def shortcut (h : Header) : Nat → Bool → Expr → Expr → Build Operand
  | 0, _, _, _ => return .literal .nil
  | fuel + 1, stop, a, b => do
    onStack (← expr h fuel a) 0
    let skip ← emit (.jumpKeep stop 0) 0
    onStack (← expr h fuel b) 0
    aimHere [skip]
    return .pop
termination_by structural fuel => fuel

/-- Enters the code of an expression that may give many values, of which some are wanted. -/
def many (h : Header) : Nat → Expr → Want → Build Operand
  | 0, _, _ => return .literal .nil
  | fuel + 1, e, w => do
    match e with
    | .varargs => put (.varargs w) 0
    | .call callee args line =>
      onStack (← expr h fuel callee) line
      let (count, spread) ← arguments h fuel args
      put (.call count spread w (originOf h callee)) line
    | .method object name args keyLine line =>
      let o ← expr h fuel object
      put (.method o name (originOf h object)) keyLine
      let (count, spread) ← arguments h fuel args
      put (.call (count + 1) spread w (some ⟨.method, name⟩)) line
    | e => onStack (← expr h fuel e) 0
    return .pop
termination_by structural fuel => fuel

/-- Enters values for a list that takes all of them: how many are on the stack, and whether more
follow. -/
def arguments (h : Header) : Nat → List Expr → Build (Nat × Bool)
  | 0, _ => return (0, false)
  | _, [] => return (0, false)
  | fuel + 1, e :: rest => do
    if rest.isEmpty && isMany e then
      let _ ← many h fuel e .all
      return (0, true)
    else
      onStack (← expr h fuel e) 0
      let (count, spread) ← arguments h fuel rest
      return (count + 1, spread)
termination_by structural fuel => fuel

/-- Enters exactly so many values of a list. -/
def values (h : Header) : Nat → List Expr → Nat → Build Unit
  | 0, _, _ => return ()
  | _, [], wanted => for _ in List.range wanted do put (.push (.literal .nil)) 0
  | fuel + 1, e :: rest, wanted => do
    if rest.isEmpty && isMany e then
      let _ ← many h fuel e (if wanted = 0 then .none else .count wanted)
    else if wanted = 0 then
      let n ← takeSlot
      let o ← expr h fuel e
      put (.setSlot n o) 0
      setFree n
      values h fuel rest 0
    else
      onStack (← expr h fuel e) 0
      values h fuel rest (wanted - 1)
termination_by structural fuel => fuel

/-- Enters a table constructor. -/
def table (h : Header) : Nat → List Item → Nat → Build Operand
  | 0, _, _ => return .literal .nil
  | fuel + 1, found, line => do
    let positional := found.countP fun
      | .positional _ => true
      | .named .. => false
    let endsMany := match found.getLast? with
      | some (.positional e) => isMany e
      | _ => false
    let slot ← takeSlot
    let fixed := if endsMany then positional - 1 else positional
    put (.newTable slot fixed (found.length - positional)) line
    items h fuel slot 1 0 found line
    put (.push (.slot slot)) line
    setFree slot
    return .pop
termination_by structural fuel => fuel

/-- Enters items of a table constructor; `pending` values wait on the stack, the first of them for
the key `start`. -/
def items (h : Header) : Nat → Nat → Nat → Nat → List Item → Nat → Build Unit
  | 0, _, _, _, _, _ => return ()
  | _, slot, start, pending, [], line =>
    if pending = 0 then return () else put (.setItems slot start pending false) line
  | fuel + 1, slot, start, pending, found :: rest, line => do
    let (start, pending) ←
      if pending = itemsPerStore then
        put (.setItems slot start pending false) line
        pure (start + pending, 0)
      else pure (start, pending)
    match found with
    | .named key value l =>
      let k ← expr h fuel key
      let v ← expr h fuel value
      put (.setIndex (.slot slot) k v none) l
      items h fuel slot start pending rest line
    | .positional e =>
      if rest.isEmpty && isMany e then
        let _ ← many h fuel e .all
        put (.setItems slot start pending true) line
      else
        onStack (← expr h fuel e) line
        items h fuel slot start (pending + 1) rest line
termination_by structural fuel => fuel

/-- Enters code that jumps if a condition is as expected, and gives the places of the jumps. -/
def condition (h : Header) : Nat → Bool → Expr → Build (List Nat)
  | 0, _, _ => return []
  | fuel + 1, expected, e => do
    match e with
    | .unary .not a _ => condition h fuel (!expected) a
    | .paren a => condition h fuel expected a
    | .both a b => junction h fuel false expected a b
    | .either a b => junction h fuel true expected a b
    | .compare op negated a b line =>
      let x ← expr h fuel a
      let y ← expr h fuel b
      jumping (.jumpCompare op (expected != negated) x y 0) line
    | e =>
      match literal? e with
      | some v => if v.truthy = expected then jumping (.jump 0) 0 else return []
      | none =>
        let o ← expr h fuel e
        jumping (.jumpIf expected o 0) 0
termination_by structural fuel => fuel

/-- Enters the condition that both or either of two others hold; `stop` is what decides it after
the first one. -/
def junction (h : Header) : Nat → Bool → Bool → Expr → Expr → Build (List Nat)
  | 0, _, _, _, _ => return []
  | fuel + 1, stop, expected, a, b => do
    let first ← condition h fuel stop a
    let second ← condition h fuel expected b
    if stop = expected then return first ++ second
    else
      aimHere first
      return second
termination_by structural fuel => fuel

/-- Enters statements. -/
def statements (h : Header) : Nat → List Statement → Build Unit
  | 0, _ => return ()
  | fuel + 1, found => do
    for s in found do statement h fuel s
termination_by structural fuel => fuel

/-- Enters a block, after which its slots are free again. -/
def block (h : Header) : Nat → List Statement → Build Unit
  | 0, _ => return ()
  | fuel + 1, body => do
    let free := (← get).free
    statements h fuel body
    if h.closes then put (.close free) 0
    setFree free
termination_by structural fuel => fuel

/-- Enters a statement. -/
def statement (h : Header) : Nat → Statement → Build Unit
  | 0, _ => return ()
  | fuel + 1, s => do
    match s with
    | .call e =>
      let _ ← many h fuel e .none
    | .locals ids found closed line =>
      let free := (← get).free
      match ids, found with
      | [id], [e] =>
        let o ← if isMany e then many h fuel e .one else expr h fuel e
        setFree (free + 1)
        initLocal h id o line
      | ids, found =>
        values h fuel found ids.length
        setFree (free + ids.length)
        for id in ids.reverse do initLocal h id .pop line
      match closed with
      | some id => put (.mark (localOf h id).slot (localOperand h id) (localOf h id).name) line
      | none => return ()
    | .assign [target] [value] line => assign h fuel target value line
    | .assign targets found line =>
      let free := (← get).free
      let assigned := targets.filterMap fun
        | .local id => some (localOf h id).slot
        | _ => none
      let places ← targets.mapM (place h fuel assigned)
      values h fuel found targets.length
      for (target, t, k) in (targets.zip places).reverse do store h target t k line
      setFree free
    | .block body => block h fuel body
    | .while c body =>
      let start ← here
      let exits ← condition h fuel false c
      block h fuel body
      put (.jump start) 0
      aimHere exits
    | .repeat body c level =>
      let start ← here
      let free := (← get).free
      statements h fuel body
      if h.closes then
        let exits ← condition h fuel true c
        put (.close level) 0
        put (.jump start) 0
        aimHere exits
        put (.close level) 0
      else aimAll (← condition h fuel false c) start
      setFree free
    | .branch c thenBody elseBody =>
      let others ← condition h fuel false c
      block h fuel thenBody
      if elseBody.isEmpty then aimHere others
      else
        let exit ← emit (.jump 0) 0
        aimHere others
        block h fuel elseBody
        aimHere [exit]
    | .numericFor base id first last step body line prepLine =>
      let free := (← get).free
      onStack (← expr h fuel first) prepLine
      onStack (← expr h fuel last) prepLine
      match step with
      | some e => onStack (← expr h fuel e) prepLine
      | none => put (.push (.literal (.int 1))) prepLine
      for i in [2, 1, 0] do put (.setSlot (base + i) .pop) prepLine
      setFree (base + 4)
      let prep ← emit (.numericPrep base 0) prepLine
      let start ← here
      if (localOf h id).captured then put (.newCell (base + 3) (.slot (base + 3))) line
      block h fuel body
      put (.numericLoop base start) line
      aimHere [prep]
      setFree free
    | .genericFor base ids found body line prepLine =>
      let free := (← get).free
      values h fuel found 4
      for i in [3, 2, 1, 0] do put (.setSlot (base + i) .pop) prepLine
      setFree (base + 4 + ids.length)
      put (.genericPrep base) prepLine
      let enter ← emit (.jump 0) prepLine
      let start ← here
      for id in ids do
        let l := localOf h id
        if l.captured then put (.newCell l.slot (.slot l.slot)) line
      block h fuel body
      aimHere [enter]
      put (.genericCall base ids.length) line
      put (.genericLoop base ids.length start) line
      put (.close base) line
      setFree free
    | .localFunction id f =>
      let l := localOf h id
      setFree (l.slot + 1)
      if l.captured then put (.newCell l.slot (.literal .nil)) 0
      let o ← expr h fuel (.function f)
      storeLocal h id o 0
    | .return [.call callee args line] true _ =>
      onStack (← expr h fuel callee) line
      let (count, spread) ← arguments h fuel args
      put (.tailCall count spread (originOf h callee)) line
      put (.return 0 true) line
    | .return [.method object name args keyLine line] true _ =>
      let o ← expr h fuel object
      put (.method o name (originOf h object)) keyLine
      let (count, spread) ← arguments h fuel args
      put (.tailCall (count + 1) spread (some ⟨.method, name⟩)) line
      put (.return 0 true) line
    | .return found _ line =>
      let (count, spread) ← arguments h fuel found
      put (.return count spread) line
    | .goto id line =>
      if h.closes then
        put (.close (h.levels.getD (h.jumps.getD id 0) 0)) line
      let p ← emit (.jump 0) line
      modify fun b => { b with gotos := (p, id) :: b.gotos }
    | .label id =>
      let p ← here
      modify fun b => { b with labels := b.labels.set! id p }
termination_by structural fuel => fuel

/-- Enters an assignment of one value. -/
def assign (h : Header) : Nat → Expr → Expr → Nat → Build Unit
  | 0, _, _, _ => return ()
  | fuel + 1, target, value, line => do
    match target with
    | .local id => storeLocal h id (← expr h fuel value) line
    | .outer i => put (.setOuter i (← expr h fuel value)) line
    | .index t k _ =>
      let a ← expr h fuel t
      let b ← expr h fuel k
      let v ← expr h fuel value
      put (.setIndex a b v (originOf h t)) line
    | _ => return ()
termination_by structural fuel => fuel

/-- Enters the table and key of a target, and says where they are. An operand that a later part of
the assignment could change goes to a slot of its own. -/
def place (h : Header) : Nat → List Nat → Expr → Build (Operand × Operand)
  | 0, _, _ => return (.literal .nil, .literal .nil)
  | fuel + 1, assigned, e => do
    let settle (o : Operand) : Build Operand := do
      match o with
      | .literal v => return .literal v
      | .slot n =>
        if assigned.contains n then
          let m ← takeSlot
          put (.setSlot m o) 0
          return .slot m
        else return .slot n
      | o =>
        let m ← takeSlot
        put (.setSlot m o) 0
        return .slot m
    match e with
    | .index t k _ =>
      let a ← settle (← expr h fuel t)
      let b ← settle (← expr h fuel k)
      return (a, b)
    | _ => return (.literal .nil, .literal .nil)
termination_by structural fuel => fuel

/-- Compiles a function. -/
def function : Nat → Function → Proto
  | 0, _ => default
  | fuel + 1, .mk h body =>
    let build : Build Unit := do
      for l in h.locals.toList.take h.parameters do
        if l.captured then put (.newCell l.slot (.slot l.slot)) h.line
      statements h fuel body
      put (.return 0 false) h.line
    let start : Building := {
      code := #[]
      lines := #[]
      children := #[]
      free := h.parameters
      slots := h.parameters
      gotos := []
      labels := Array.replicate h.levels.size 0 }
    let b := (build.run start).2
    { code := b.gotos.foldl (fun code (p, id) =>
        code.modify p (aim (b.labels.getD (h.jumps.getD id 0) 0))) b.code
      lines := b.lines
      children := b.children
      parameters := h.parameters
      variadic := h.variadic
      slots := b.slots
      cells := h.locals.any (·.captured)
      captured := h.captured
      chunk := chunk
      line := h.line }
termination_by structural fuel => fuel

end

end

/-- The code of a program of the given name, with the fuel that its tree takes. -/
def program (chunk : Bytes) (fuel : Nat) (f : Function) : Proto := function chunk fuel f

end ScriptWorker.Script.Compile

import ScriptWorker.Script.Lexer
import ScriptWorker.Script.Reading

/-!
# From tokens to the syntax tree

A program is a block. The readers here follow the grammar, one function to a construct; `fuel`
bounds the nesting of their calls and is taken large enough by `program`.
-/

set_option autoImplicit false

namespace ScriptWorker.Script.Grammar

open Reader

/-! ## Operators -/

/-- What an operator with two operands builds. -/
inductive Infix where
  | binary (op : BinaryOp)
  | concat
  | compare (op : CompareOp) (negated : Bool)
  | both
  | either

/-- An operator with two operands: how strongly it binds to its left and to its right. -/
structure Binding where
  op : Infix
  left : Nat
  right : Nat

/-- How strongly an operator with one operand binds. -/
def unaryStrength : Nat := 12

/-- The operator with one operand that a token is. -/
def unary? : Kind → Option UnaryOp
  | .mark .not => some .not
  | .char '-' => some .neg
  | .char '~' => some .bnot
  | .char '#' => some .len
  | _ => none

/-- The operator with two operands that a token is. -/
def binary? : Kind → Option Binding
  | .char '+' => some ⟨.binary .add, 10, 10⟩
  | .char '-' => some ⟨.binary .sub, 10, 10⟩
  | .char '*' => some ⟨.binary .mul, 11, 11⟩
  | .char '%' => some ⟨.binary .mod, 11, 11⟩
  | .char '^' => some ⟨.binary .pow, 14, 13⟩
  | .char '/' => some ⟨.binary .div, 11, 11⟩
  | .mark .floorDiv => some ⟨.binary .idiv, 11, 11⟩
  | .char '&' => some ⟨.binary .band, 6, 6⟩
  | .char '|' => some ⟨.binary .bor, 4, 4⟩
  | .char '~' => some ⟨.binary .bxor, 5, 5⟩
  | .mark .shl => some ⟨.binary .shl, 7, 7⟩
  | .mark .shr => some ⟨.binary .shr, 7, 7⟩
  | .mark .concat => some ⟨.concat, 9, 8⟩
  | .mark .ne => some ⟨.compare .eq true, 3, 3⟩
  | .mark .eq => some ⟨.compare .eq false, 3, 3⟩
  | .char '<' => some ⟨.compare .lt false, 3, 3⟩
  | .mark .le => some ⟨.compare .le false, 3, 3⟩
  | .char '>' => some ⟨.compare .gt false, 3, 3⟩
  | .mark .ge => some ⟨.compare .ge false, 3, 3⟩
  | .mark .and => some ⟨.both, 2, 2⟩
  | .mark .or => some ⟨.either, 1, 1⟩
  | _ => none

/-- The tree of an operator with two operands. `line` is the operator's and `last` that of the
last token of the right operand. -/
def Infix.build (op : Infix) (a b : Expr) (line last : Nat) : Expr :=
  match op with
  | .binary op => .binary op a b line
  | .concat => .concat a b line
  | .compare op negated => .compare op negated a b last
  | .both => .both a b
  | .either => .either a b

/-- The tree of an operator with one operand; a negated numeral is a number. -/
def buildUnary (op : UnaryOp) (a : Expr) (line : Nat) : Expr :=
  match op, a with
  | .neg, .number (.int n) => .number (.int (-n))
  | .neg, .number (.float x) => if x == 0 then .unary op a line else .number (.float (-x))
  | _, _ => .unary op a line

/-! ## Small pieces -/

/-- Whether an expression is a literal that a read-only variable can stand for. -/
def isLiteral : Expr → Bool
  | .nil | .truth _ | .number _ | .string _ => true
  | _ => false

/-- Whether the token at hand ends a block. -/
def atBlockEnd (withUntil : Bool) : Reader Bool := do
  match (← get).token.kind with
  | .eof => return true
  | .mark .else | .mark .elseif | .mark .end => return true
  | .mark .until => return withUntil
  | _ => return false

/-- Whether something may be assigned to an expression; a read-only variable is named. -/
inductive Place where
  | none
  | free
  | readOnly (name : Bytes)

/-- Refuses an assignment to a read-only variable. -/
def checkWritable (p : Place) : Reader Unit := do
  match p with
  | .readOnly name => fail (bytes "attempt to assign to const variable '" ++ name ++ bytes "'")
  | _ => return ()

/-- Refuses an assignment to what is no variable. -/
def checkPlace (p : Place) : Reader Unit := do
  match p with
  | .none => failNear (bytes "syntax error")
  | p => checkWritable p

/-- How a new variable may be used. -/
inductive Attribute where
  | regular | const | close
  deriving DecidableEq

/-- Reads the attribute of a new variable. -/
def readAttribute : Reader Attribute := do
  if ← skipChar '<' then
    let word ← name
    expectChar '>'
    if word == bytes "const" then return .const
    else if word == bytes "close" then return .close
    else fail (bytes "unknown attribute '" ++ word ++ bytes "'")
  else return .regular

/-- Reads parameters up to the closing parenthesis: their names, and whether there may be more
arguments. -/
def readParameters (fixed : Nat) : Nat → List Bytes → Reader (List Bytes × Bool)
  | 0, names => return (names.reverse, false)
  | fuel + 1, names => do
    match (← get).token.kind with
    | .name s =>
      advance
      checkRoom (fixed + names.length + 1)
      if ← skipChar ',' then readParameters fixed fuel (s :: names)
      else return ((s :: names).reverse, false)
    | .mark .dots =>
      advance
      return (names.reverse, true)
    | _ => failNear (bytes "<name> or '...' expected")

/-- The name of the variables in which a loop keeps its state. -/
def stateName : Bytes := bytes "(for state)"

/-- Reads further names of a list, after the first `count`. -/
def readNames (fuel : Nat) (count : Nat) (names : List Bytes) : Reader (List Bytes) :=
  match fuel with
  | 0 => return names.reverse
  | fuel + 1 => do
    if ← skipChar ',' then
      let s ← name
      checkRoom (count + 1)
      readNames fuel (count + 1) (s :: names)
    else return names.reverse

/-- Reads the names and attributes of new variables. -/
def readDeclared :
    Nat → List (Bytes × Attribute) → Reader (List (Bytes × Attribute))
  | 0, found => return found.reverse
  | fuel + 1, found => do
    let s ← name
    checkRoom (found.length + 1)
    let a ← readAttribute
    if a = .close ∧ (found.any (·.2 = .close)) then
      fail (bytes "multiple to-be-closed variables in local list")
    let found := (s, a) :: found
    if ← skipChar ',' then readDeclared fuel found else return found.reverse

/-- Puts new variables into scope once their values are read. A last variable that is constant
and has a literal value stands for that value. -/
def declareLocals (found : List (Bytes × Attribute)) (values : List Expr) (line : Nat) :
    Reader Statement := do
  let names := found.map fun (s, a) => (s, decide (a ≠ .regular))
  match found.getLast?, values.getLast? with
  | some (last, .const), some value =>
    if found.length = values.length ∧ isLiteral value = true then
      let ids ← declareAll names.dropLast
      onScope (·.declareLiteral last value)
      return .locals ids values.dropLast none line
  | _, _ => pure ()
  let ids ← declareAll names
  let closed := ((ids.zip found).find? (·.2.2 = .close)).map (·.1)
  if closed.isSome then onScope Scope.markClosing
  return .locals ids values closed line

/-! ## Expressions and statements -/

mutual

/-- Reads expressions separated by commas. -/
def exprs : Nat → Reader (List Expr)
  | 0 => return []
  | fuel + 1 => do
    let e ← expr fuel 0
    if ← skipChar ',' then return e :: (← exprs fuel) else return [e]

/-- Reads an expression whose operators bind more strongly than `limit`. -/
def expr : Nat → Nat → Reader Expr
  | 0, _ => return .nil
  | fuel + 1, limit => nested do
    let e ←
      match unary? (← get).token.kind with
      | some op =>
        let l ← line
        advance
        let a ← expr fuel unaryStrength
        pure (buildUnary op a l)
      | none => simple fuel
    operators fuel limit e

/-- Reads the operators and operands that follow an expression. -/
def operators : Nat → Nat → Expr → Reader Expr
  | 0, _, e => return e
  | fuel + 1, limit, e => do
    match binary? (← get).token.kind with
    | some b =>
      if limit < b.left then
        let l ← line
        advance
        let right ← expr fuel b.right
        operators fuel limit (b.op.build e right l (← lastLine))
      else return e
    | none => return e

/-- Reads an expression without operators. -/
def simple : Nat → Reader Expr
  | 0 => return .nil
  | fuel + 1 => do
    let one (e : Expr) : Reader Expr := do
      advance
      return e
    match (← get).token.kind with
    | .number n => one (.number n)
    | .string s => one (.string s)
    | .mark .nil => one .nil
    | .mark .true => one (.truth true)
    | .mark .false => one (.truth false)
    | .mark .dots =>
      if (← scope).variadic then one .varargs
      else failNear (bytes "cannot use '...' outside a vararg function")
    | .char '\x7b' => table fuel
    | .mark .function =>
      let l ← line
      advance
      return .function (← functionBody fuel false l)
    | _ => return (← suffixed fuel).1

/-- Reads a name or an expression in parentheses. -/
def primary : Nat → Reader (Expr × Place)
  | 0 => return (.nil, .none)
  | fuel + 1 => do
    match (← get).token.kind with
    | .name s =>
      advance
      let (e, readOnly) ← meaning s
      return (e, if readOnly then .readOnly s else .free)
    | .char '(' =>
      let l ← line
      advance
      let e ← expr fuel 0
      closeChar ')' '(' l
      return (.paren e, .none)
    | _ => failNear (bytes "unexpected symbol")

/-- Reads a primary expression with the fields, keys and arguments that follow it. -/
def suffixed : Nat → Reader (Expr × Place)
  | 0 => return (.nil, .none)
  | fuel + 1 => do
    let (e, place) ← primary fuel
    suffixes fuel e place

/-- Reads the fields, keys and arguments that follow an expression. -/
def suffixes : Nat → Expr → Place → Reader (Expr × Place)
  | 0, e, place => return (e, place)
  | fuel + 1, e, place => do
    match (← get).token.kind with
    | .char '.' =>
      advance
      let key ← name
      suffixes fuel (.index e (.string key) (← lastLine)) .free
    | .char '[' =>
      let key ← bracketed fuel
      suffixes fuel (.index e key (← lastLine)) .free
    | .char ':' =>
      advance
      let key ← name
      let keyLine ← lastLine
      let (args, l) ← arguments fuel
      suffixes fuel (.method e key args keyLine l) .none
    | .char '(' | .string _ | .char '\x7b' =>
      let (args, l) ← arguments fuel
      suffixes fuel (.call e args l) .none
    | _ => return (e, place)

/-- Reads a key in brackets. -/
def bracketed : Nat → Reader Expr
  | 0 => return .nil
  | fuel + 1 => do
    advance
    let key ← expr fuel 0
    expectChar ']'
    return key

/-- Reads the arguments of a call, and gives the line on which they start. -/
def arguments : Nat → Reader (List Expr × Nat)
  | 0 => return ([], 0)
  | fuel + 1 => do
    let l ← line
    match (← get).token.kind with
    | .string s =>
      advance
      return ([.string s], l)
    | .char '\x7b' => return ([← table fuel], l)
    | .char '(' =>
      advance
      if ← skipChar ')' then return ([], l)
      else
        let args ← exprs fuel
        closeChar ')' '(' l
        return (args, l)
    | _ => failNear (bytes "function arguments expected")

/-- Reads a table constructor. -/
def table : Nat → Reader Expr
  | 0 => return .nil
  | fuel + 1 => do
    let l ← line
    expectChar '\x7b'
    let found ← items fuel
    closeChar '\x7d' '\x7b' l
    return .table found l

/-- Reads the items of a table constructor. -/
def items : Nat → Reader (List Item)
  | 0 => return []
  | fuel + 1 => do
    if ← atChar '\x7d' then return []
    else
      let found ← item fuel
      if ← skipChar ',' then return found :: (← items fuel)
      else if ← skipChar ';' then return found :: (← items fuel)
      else return [found]

/-- Reads an item of a table constructor. -/
def item : Nat → Reader Item
  | 0 => return .positional .nil
  | fuel + 1 => do
    let s ← get
    let isKey : Bool := match s.rest with
      | t :: _ => match t.kind with
        | .char '=' => true
        | _ => false
      | [] => false
    match s.token.kind, isKey with
    | .name key, true =>
      advance
      expectChar '='
      let value ← expr fuel 0
      return .named (.string key) value (← lastLine)
    | .char '[', _ =>
      let key ← bracketed fuel
      expectChar '='
      let value ← expr fuel 0
      return .named key value (← lastLine)
    | .name _, false =>
      match s.rest, s.fault with
      | [], some e => throw e
      | _, _ => return .positional (← expr fuel 0)
    | _, _ => return .positional (← expr fuel 0)

/-- Reads the parameters and the body of a function. -/
def functionBody : Nat → Bool → Nat → Reader Function
  | 0, _, _ => throw (.bare (bytes "C stack overflow"))
  | fuel + 1, isMethod, l => do
    openFunction l
    expectChar '('
    let self := if isMethod then [bytes "self"] else []
    let (names, variadic) ←
      if ← atChar ')' then pure ([], false) else readParameters self.length fuel []
    let ids ← declareAll ((self ++ names).map (·, false))
    onScope fun s => { s with variadic := variadic }
    expectChar ')'
    let body ← statements fuel
    closeMark .end .function l
    return .mk (← closeFunction ids.length) body

/-- Reads statements up to the end of a block. -/
def statements : Nat → Reader (List Statement)
  | 0 => return []
  | fuel + 1 => do
    if ← atBlockEnd true then return []
    else if ← atMark .return then statement fuel
    else
      let found ← statement fuel
      return found ++ (← statements fuel)

/-- Reads a block with a scope of its own. -/
def block : Nat → Reader (List Statement)
  | 0 => return []
  | fuel + 1 => return (← inBlock false (statements fuel)).1

/-- Reads a statement. -/
def statement : Nat → Reader (List Statement)
  | 0 => return []
  | fuel + 1 => nested do
    let l ← line
    match (← get).token.kind with
    | .char ';' =>
      advance
      return []
    | .mark .if =>
      advance
      let found ← branch fuel
      closeMark .end .if l
      return [found]
    | .mark .while =>
      advance
      let condition ← expr fuel 0
      let (body, exit) ← inBlock true do
        expectMark .do
        let body ← block fuel
        closeMark .end .while l
        return body
      return .while condition body :: exit.toList.map .label
    | .mark .do =>
      advance
      let body ← block fuel
      closeMark .end .do l
      return [.block body]
    | .mark .for =>
      let (found, exit) ← inBlock true do
        advance
        let first ← name
        checkRoom 1
        let found ← loop fuel first l
        closeMark .end .for l
        return found
      return found :: exit.toList.map .label
    | .mark .repeat =>
      let (found, exit) ← inBlock true do
        advance
        let level := (← scope).slots
        let (found, _) ← inBlock false do
          let body ← statements fuel
          closeMark .until .repeat l
          let condition ← expr fuel 0
          return Statement.repeat body condition level
        return found
      return found :: exit.toList.map .label
    | .mark .function =>
      advance
      return [← functionStatement fuel l]
    | .mark .local =>
      advance
      if ← skipMark .function then
        let s ← name
        checkRoom 1
        let ids ← declareAll [(s, false)]
        return [.localFunction (ids.headD 0) (← functionBody fuel false (← line))]
      else
        let found ← readDeclared fuel []
        let values ← if ← skipChar '=' then exprs fuel else pure []
        return [← declareLocals found values (← lastLine)]
    | .mark .doubleColon =>
      advance
      let s ← name
      expectMark .doubleColon
      let after ← emptyStatements fuel
      match (← scope).findLabel s with
      | some other =>
        fail (bytes "label '" ++ s ++ bytes ("' already defined on line " ++
          toString other.line))
      | none =>
        let level := match (← scope).blocks with
          | b :: _ => b.outside
          | [] => 0
        let isLast ← atBlockEnd false
        let visible := (← scope).visible.length
        let level := if isLast then level else visible
        let id ← placeLabel (some s) l level
        return after ++ [.label id]
    | .mark .return =>
      advance
      let values ← if (← atBlockEnd true) || (← atChar ';') then pure [] else exprs fuel
      let _ ← skipChar ';'
      return [.return values (!(← scope).insideClosing) (← lastLine)]
    | .mark .break =>
      advance
      return [.goto (← jump none l) l]
    | .mark .goto =>
      advance
      let s ← name
      return [.goto (← jump (some s) l) l]
    | _ => return [← expressionStatement fuel]

/-- Reads the empty statements and labels that follow a label. -/
def emptyStatements : Nat → Reader (List Statement)
  | 0 => return []
  | fuel + 1 => do
    if (← atChar ';') || (← atMark .doubleColon) then
      let found ← statement fuel
      return found ++ (← emptyStatements fuel)
    else return []

/-- Reads the condition of a branch, its body, and the branches that follow. -/
def branch : Nat → Reader Statement
  | 0 => return .block []
  | fuel + 1 => do
    let condition ← expr fuel 0
    expectMark .then
    let body ← block fuel
    if ← skipMark .elseif then return .branch condition body [← branch fuel]
    else if ← skipMark .else then return .branch condition body (← block fuel)
    else return .branch condition body []

/-- Reads a loop after its first variable. -/
def loop : Nat → Bytes → Nat → Reader Statement
  | 0, _, _ => return .block []
  | fuel + 1, first, l => do
    let base := (← scope).slots
    match (← get).token.kind with
    | .char '=' =>
      checkRoom 4
      advance
      let start ← expr fuel 0
      expectChar ','
      let last ← expr fuel 0
      let step ← if ← skipChar ',' then some <$> expr fuel 0 else pure none
      let _ ← declareAll (List.replicate 3 (stateName, false))
      expectMark .do
      let prepLine ← lastLine
      let ((ids, body), _) ← inBlock false do
        let ids ← declareAll [(first, false)]
        let body ← block fuel
        return (ids, body)
      return .numericFor base (ids.headD 0) start last step body l prepLine
    | .char ',' | .mark .in =>
      checkRoom 5
      let names ← readNames fuel 5 [first]
      expectMark .in
      let callLine ← line
      let values ← exprs fuel
      let _ ← declareAll (List.replicate 4 (stateName, false))
      onScope Scope.markClosing
      expectMark .do
      let prepLine ← lastLine
      let ((ids, body), _) ← inBlock false do
        let ids ← declareAll (names.map (·, false))
        let body ← block fuel
        return (ids, body)
      return .genericFor base ids values body callLine prepLine
    | _ => failExpected (bytes "'=' or 'in'")

/-- Reads a function statement after its first word. -/
def functionStatement : Nat → Nat → Reader Statement
  | 0, _ => return .block []
  | fuel + 1, l => do
    let first ← name
    let (e, readOnly) ← meaning first
    let (target, place, isMethod) ←
      functionName fuel e (if readOnly then .readOnly first else .free)
    let f ← functionBody fuel isMethod l
    checkWritable place
    return .assign [target] [.function f] l

/-- Reads the fields in the name of a function, and whether it is a method. -/
def functionName : Nat → Expr → Place → Reader (Expr × Place × Bool)
  | 0, e, place => return (e, place, false)
  | fuel + 1, e, place => do
    if ← skipChar '.' then
      let key ← name
      functionName fuel (.index e (.string key) (← lastLine)) .free
    else if ← skipChar ':' then
      let key ← name
      return (.index e (.string key) (← lastLine), .free, true)
    else return (e, place, false)

/-- Reads a call or an assignment. -/
def expressionStatement : Nat → Reader Statement
  | 0 => return .block []
  | fuel + 1 => do
    let (e, place) ← suffixed fuel
    if (← atChar '=') || (← atChar ',') then
      let (targets, values) ← assignment fuel [] e place
      return .assign targets values (← lastLine)
    else
      match e with
      | .call .. | .method .. => return .call e
      | _ => failNear (bytes "syntax error")

/-- Reads the rest of an assignment after a target. -/
def assignment : Nat → List Expr → Expr → Place → Reader (List Expr × List Expr)
  | 0, _, _, _ => return ([], [])
  | fuel + 1, before, target, place => do
    checkPlace place
    let targets := target :: before
    if ← skipChar ',' then
      let (e, place) ← suffixed fuel
      nested (assignment fuel targets e place)
    else
      expectChar '='
      return (targets.reverse, ← exprs fuel)

end

/-! ## Programs -/

/-- Reads a whole program. -/
def wholeProgram (fuel : Nat) : Reader Function := do
  advance
  let body ← statements fuel
  match (← get).token.kind with
  | .eof => return .mk (← closeFunction 0) body
  | _ => failExpected (bytes "<eof>")

/-- The tree of a program that is read at the given nesting. -/
def program (source : List UInt8) (depth : Nat) : Except SyntaxError Function :=
  let (tokens, fault, endLine) := Lexer.tokens source
  let environment : Captured × Bool := (⟨environmentName, .local 0⟩, false)
  let start : Reading := {
    token := ⟨.eof, 1, .empty⟩
    rest := tokens
    fault := fault
    endLine := endLine
    lastLine := 1
    depth := depth
    scope := (Scope.opened 0 true #[environment]).enter false
    around := [] }
  (·.1) <$> (wholeProgram (16 * tokens.length + 64)).run start

end ScriptWorker.Script.Grammar

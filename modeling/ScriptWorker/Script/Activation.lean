import ScriptWorker.Script.Action

/-!
# Running a function

An activation is a function of the language in the middle of its code. `Activation.step` carries
out one instruction and says whether the function goes on by itself, calls another one, returns or
fails.
-/

set_option autoImplicit false

namespace ScriptWorker.Script

/-- What an activation does with the results of a call once they come. -/
inductive Pending where
  | results (w : Want)
  /-- The truth of the first result goes on the stack, or its opposite. -/
  | truth (negated : Bool)
  /-- Jumps if the truth of the first result is as expected. -/
  | branch (expected : Bool) (target : Nat)
  /-- The first result is a method, which goes on the stack with its object. -/
  | method (object : Value)
  /-- The first result is concatenated with what is on the stack. -/
  | concat (origins : List (Option Origin))

/-- A function of the language in the middle of its code. -/
structure Activation where
  proto : Proto
  captured : Array Nat
  /-- The place of the next instruction. -/
  pc : Nat
  slots : Array Value
  /-- The cells of local variables that closures take along. -/
  cells : Array Nat
  varargs : List Value
  stack : List Value
  /-- The values with which the next list ends. -/
  spread : List Value
  /-- The variables that are closed when their scope ends, the innermost first. -/
  closing : List (Nat × Value)
  pending : Pending

/-- What an instruction comes to. -/
inductive Progress where
  | go (a : Activation) (h : Heap)
  /-- A function is called; `extra` says that the machine's own calls get deeper by it. -/
  | call (a : Activation) (h : Heap) (f : Value) (args : List Value) (origin : Option Origin)
      (extra : Bool)
  /-- A function is called in the place of this one. -/
  | tailCall (a : Activation) (h : Heap) (f : Value) (args : List Value) (origin : Option Origin)
  | return (h : Heap) (values : List Value)
  | fail (a : Activation) (h : Heap) (message : Bytes)

namespace Activation

/-- The start of a function with its arguments. -/
def enter (c : Closure) (args : List Value) : Activation :=
  let p := c.proto
  let (given, rest) := args.splitAt p.parameters
  { proto := p
    captured := c.captured
    pc := 0
    slots := given.toArray ++ Array.replicate (p.slots - given.length) .nil
    cells := if p.cells then Array.replicate p.slots 0 else #[]
    varargs := if p.variadic then rest else []
    stack := []
    spread := []
    closing := []
    pending := .results .none }

/-- The line of the instruction at hand, once the machine has gone past it. -/
def line (a : Activation) : Nat := a.proto.lines.getD (a.pc - 1) 0

/-- The place of the activation as messages start with it. -/
def place (a : Activation) : Bytes :=
  a.proto.chunk ++ bytes (":" ++ toString a.line ++ ": ")

/-- What the call at hand says its function comes from. -/
def calling (a : Activation) : Option Origin :=
  match a.proto.code[a.pc - 1]? with
  | some (.call _ _ _ origin) => origin
  | some (.genericCall ..) => some ⟨.forIterator, bytes "for iterator"⟩
  | _ => none

/-- The activation as traces show it, called from the given origin. -/
def site (a : Activation) (origin : Option Origin) : Site :=
  .script a.proto.chunk a.line a.proto.line origin

/-! ## Operands -/

/-- Puts a value on the stack. -/
def push (a : Activation) (v : Value) : Activation := { a with stack := v :: a.stack }

/-- The value of an operand. -/
def fetch (a : Activation) (h : Heap) (o : Operand) : Value × Activation :=
  match o with
  | .pop =>
    match a.stack with
    | v :: rest => (v, { a with stack := rest })
    | [] => (.nil, a)
  | .slot n => (a.slots.getD n .nil, a)
  | .cell n => (h.cell (a.cells.getD n 0), a)
  | .literal v => (v, a)

/-- The values of two operands. -/
def fetchTwo (a : Activation) (h : Heap) (x y : Operand) : Value × Value × Activation :=
  let (w, a) := a.fetch h y
  let (v, a) := a.fetch h x
  (v, w, a)

/-- Takes values from the stack, the topmost last. -/
def take (a : Activation) (count : Nat) : List Value × Activation :=
  ((a.stack.take count).reverse, { a with stack := a.stack.drop count })

/-- Takes the values of a list that may end with those set aside. -/
def takeList (a : Activation) (count : Nat) (spread : Bool) : List Value × Activation :=
  let (values, a) := a.take count
  if spread then (values ++ a.spread, { a with spread := [] }) else (values, a)

/-- Exactly so many values, made up with `nil`. -/
def adjust : Nat → List Value → List Value
  | 0, _ => []
  | n + 1, [] => .nil :: adjust n []
  | n + 1, v :: rest => v :: adjust n rest

/-- Takes in so many of some values as are wanted. -/
def accept (a : Activation) (w : Want) (values : List Value) : Activation :=
  match w with
  | .none => a
  | .one => a.push (values.headD .nil)
  | .count n => { a with stack := (adjust n values).reverse ++ a.stack }
  | .all => { a with spread := values }

/-- Sets a local variable. -/
def setSlot (a : Activation) (n : Nat) (v : Value) : Activation :=
  { a with slots := a.slots.set! n v }

/-! ## Instructions -/

/-- An access to a field whose result goes where `p` says. -/
def access (a : Activation) (h : Heap) (x : Heap.Access) (p : Pending)
    (origin : Option Origin) : Progress :=
  match x with
  | .done v =>
    match p with
    | .results w => .go (a.accept w [v]) h
    | _ => .go a h
  | .call f args =>
    .call { a with pending := p } h f args (some ⟨.metamethod, bytes "index"⟩) true
  | .bad v direct =>
    .fail a h (h.typeFault "index" v (if direct then origin else none))
  | .fail message => .fail a h (bytes message)

/-- Concatenates values from the right; the leftmost one is last. -/
def concat (h : Heap) (a : Activation) :
    Value → Option Origin → List (Value × Option Origin) → Progress
  | v, _, [] => .go (a.push v) h
  | v, origin, (w, left) :: rest =>
    match textOf? w, textOf? v with
    | some s, some t => concat h a (.str (s ++ t)) none rest
    | _, _ =>
      match h.binaryHandler w v Heap.concatEvent with
      | .nil => .fail a h (h.concatFault w v left origin)
      | f =>
        let a := { a with
          stack := rest.map (·.1) ++ a.stack
          pending := .concat (rest.map (·.2)) }
        .call a h f [w, v] (some ⟨.metamethod, bytes "concat"⟩) true

/-- What a comparison comes to. -/
inductive Verdict where
  | known (b : Bool)
  /-- The truth of a function's result, or its opposite. -/
  | ask (f : Value) (args : List Value) (negated : Bool) (event : String)
  | fail

/-- Compares two values for their order. -/
def judgeOrder (h : Heap) (orEqual : Bool) (v w : Value) : Verdict :=
  match less? orEqual v w with
  | some b => .known b
  | none =>
    match h.binaryHandler v w (if orEqual then Heap.leEvent else Heap.ltEvent) with
    | .nil =>
      if orEqual then
        match h.binaryHandler w v Heap.ltEvent with
        | .nil => .fail
        | f => .ask f [w, v] true "lt"
      else .fail
    | f => .ask f [v, w] false (if orEqual then "le" else "lt")

/-- Compares two values. -/
def judge (h : Heap) (op : CompareOp) (v w : Value) : Verdict :=
  match op with
  | .eq =>
    if v.same w then .known true
    else
      match v, w with
      | .table _, .table _ =>
        match h.binaryHandler v w Heap.eqEvent with
        | .nil => .known false
        | f => .ask f [v, w] false "eq"
      | _, _ => .known false
  | .lt => judgeOrder h false v w
  | .le => judgeOrder h true v w
  | .gt => judgeOrder h false w v
  | .ge => judgeOrder h true w v

/-- The two values of a comparison in the order in which it compares them. -/
def ordered (op : CompareOp) (v w : Value) : Value × Value :=
  match op with
  | .gt | .ge => (w, v)
  | _ => (v, w)

/-- Carries out a comparison whose outcome is used as `p` says once negations are told. -/
def compare (a : Activation) (h : Heap) (op : CompareOp) (v w : Value)
    (use : Activation → Bool → Activation) (p : Bool → Pending) : Progress :=
  match judge h op v w with
  | .known b => .go (use a b) h
  | .ask f args negated event =>
    .call { a with pending := p negated } h f args (some ⟨.metamethod, bytes event⟩) true
  | .fail =>
    let (v, w) := ordered op v w
    .fail a h (h.compareFault v w)

/-- The message for a bad value of a loop. -/
def loopFault (h : Heap) (what : String) (v : Value) : Bytes :=
  bytes ("bad 'for' " ++ what ++ " (number expected, got ") ++ h.typeName v ++ bytes ")"

/-- The number of further rounds of a loop over integers. -/
def rounds (first last step : Int64) : Option Nat :=
  if 0 < step then
    if first ≤ last then
      some ((last.toInt - first.toInt).toNat / step.toInt.toNat)
    else none
  else if last ≤ first then
    some ((first.toInt - last.toInt).toNat / (-step.toInt).toNat)
  else none

/-- The limit of a loop over integers, cut to the range of integers; nothing if no integer on the
way is within the limit. -/
def intLimit (first step : Int64) (last : Number) : Option Int64 :=
  let bound : Option Int64 := match last with
    | .int n => some n
    | .float x =>
      let whole : Option Int :=
        (Numeric.floorOf? x).map fun low =>
          if 0 < step ∨ (Numeric.wholeOf? x).isSome = true then low else low + 1
      match whole.bind Number.intOfInt? with
      | some n => some n
      | none =>
        if 0 < x then (if 0 < step then some Int64.maxValue else none)
        else if 0 < step then none
        else some Int64.minValue
  bound.bind fun n => if (if 0 < step then n < first else first < n) then none else some n

/-- Starts a loop over numbers whose first value, limit and step are in slots. The slots then hold
the next value, the rounds left or the limit, and the step. A string that writes a number counts as
that number, but it makes the loop one over doubles unless it is the limit. -/
def numericPrep (a : Activation) (h : Heap) (base exit : Nat) : Progress :=
  let first := a.slots.getD base .nil
  let last := a.slots.getD (base + 1) .nil
  let step := a.slots.getD (base + 2) .nil
  let skip : Progress := .go { a with pc := exit } h
  match first, step with
  | .int i, .int s =>
    if s = 0 then .fail a h (bytes "'for' step is zero")
    else
      match numberOf? last with
      | none => .fail a h (loopFault h "limit" last)
      | some last =>
        match (intLimit i s last).bind fun n => rounds i n s with
        | none => skip
        | some n =>
          let a := (a.setSlot (base + 1) (.int (Int64.ofNat n))).setSlot (base + 3) (.int i)
          .go a h
  | _, _ =>
    match numberOf? last, numberOf? step, numberOf? first with
    | none, _, _ => .fail a h (loopFault h "limit" last)
    | _, none, _ => .fail a h (loopFault h "step" step)
    | _, _, none => .fail a h (loopFault h "initial value" first)
    | some last, some step, some first =>
      let x := first.toFloat
      let y := last.toFloat
      let s := step.toFloat
      if s == 0 then .fail a h (bytes "'for' step is zero")
      else if (if 0 < s then y < x else x < y) then skip
      else
        let a := (((a.setSlot base (.float x)).setSlot (base + 1) (.float y)).setSlot (base + 2)
          (.float s)).setSlot (base + 3) (.float x)
        .go a h

/-- Goes on to the next round of a loop over numbers, if there is one. -/
def numericLoop (a : Activation) (base body : Nat) : Activation :=
  match a.slots.getD base .nil, a.slots.getD (base + 1) .nil, a.slots.getD (base + 2) .nil with
  | .int i, .int n, .int s =>
    if n.toUInt64 = 0 then a
    else
      let i := i + s
      let a := ((a.setSlot (base + 1) (.int (n - 1))).setSlot base (.int i)).setSlot (base + 3)
        (.int i)
      { a with pc := body }
  | .float x, .float y, .float s =>
    let x := x + s
    if (if 0 < s then x ≤ y else y ≤ x) then
      let a := (a.setSlot base (.float x)).setSlot (base + 3) (.float x)
      { a with pc := body }
    else a
  | _, _, _ => a

/-- The variables to be closed from a slot on: the innermost of them, and the others. -/
def toClose (a : Activation) (level : Nat) : Option (Value × List (Nat × Value)) :=
  match a.closing with
  | (slot, v) :: rest => if level ≤ slot then some (v, rest) else none
  | [] => none

/-- Calls the function that closes a variable, and comes back to the same instruction. -/
def closeOne (a : Activation) (h : Heap) (v : Value) (rest : List (Nat × Value)) : Progress :=
  .call { a with closing := rest, pc := a.pc - 1, pending := .results .none } h
    (h.event v Heap.closeEvent) [v, .nil] (some ⟨.metamethod, bytes "close"⟩) true

/-- The cells that a new closure takes along. -/
def captures (a : Activation) (p : Proto) : Array Nat :=
  p.captured.map fun c => match c.source with
    | .local id => a.cells.getD id 0
    | .outer i => a.captured.getD i 0

/-- Stores values in a table under consecutive integers. -/
def storeItems (id start : Nat) (values : List Value) (h : Heap) : Heap :=
  h.modifyTable id fun t =>
    let t := if t.items.size < start - 1 + values.length
      then t.resize (start - 1 + values.length) t.room else t
    (values.foldl (fun ((t, n) : Table × Nat) v => (t.insert (.int (Int64.ofNat n)) v, n + 1))
      (t, start)).1

/-- Carries out the instruction at hand. -/
def step (a : Activation) (h : Heap) : Progress :=
  match a.proto.code[a.pc]? with
  | none => .return h []
  | some i =>
    let a := { a with pc := a.pc + 1 }
    match i with
    | .push o =>
      let (v, a) := a.fetch h o
      .go (a.push v) h
    | .outer i => .go (a.push (h.cell (a.captured.getD i 0))) h
    | .setOuter i o =>
      let (v, a) := a.fetch h o
      let id := a.captured.getD i 0
      .go a (h.setCell id v)
    | .setSlot n o =>
      let (v, a) := a.fetch h o
      .go (a.setSlot n v) h
    | .setCell n o =>
      let (v, a) := a.fetch h o
      let id := a.cells.getD n 0
      .go a (h.setCell id v)
    | .newCell n o =>
      let (v, a) := a.fetch h o
      let (id, h) := h.newCell v
      .go { a with cells := a.cells.set! n id } h
    | .varargs w => .go (a.accept w a.varargs) h
    | .closure i =>
      match a.proto.children[i]? with
      | some p =>
        let (id, h) := h.newClosure ⟨p, a.captures p⟩
        .go (a.push (.closure id)) h
      | none => .go (a.push .nil) h
    | .newTable slot items room =>
      let (id, h) := h.newTable (.sized items room)
      .go (a.setSlot slot (.table id)) h
    | .setItems slot start count spread =>
      let (values, a) := a.takeList count spread
      match a.slots.getD slot .nil with
      | .table id => .go a (storeItems id start values h)
      | _ => .go a h
    | .index t k origin =>
      let (t, k, a) := a.fetchTwo h t k
      a.access h (h.get t k) (.results .one) origin
    | .setIndex t k v origin =>
      let (v, a) := a.fetch h v
      let (t, k, a) := a.fetchTwo h t k
      match h.set t k v with
      | (.done _, h) => .go a h
      | (.call f args, h) =>
        .call { a with pending := .results .none } h f args
          (some ⟨.metamethod, bytes "newindex"⟩) true
      | (x, h) => a.access h x (.results .none) origin
    | .method o name origin =>
      let (t, a) := a.fetch h o
      match h.get t (.str name) with
      | .done f => .go ((a.push f).push t) h
      | .call f args =>
        .call { a with pending := .method t } h f args
          (some ⟨.metamethod, bytes "index"⟩) true
      | x => a.access h x (.results .one) origin
    | .unary op o origin =>
      let (v, a) := a.fetch h o
      let ask (what : String) : Progress :=
        match h.event v (Heap.unaryEvent op) with
        | .nil =>
          match op, v.number? with
          | .bnot, some _ =>
            .fail a h (bytes "number" ++ originText origin ++
              bytes " has no integer representation")
          | _, _ => .fail a h (h.typeFault what v origin)
        | f =>
          .call { a with pending := .results .one } h f [v, v]
            (some ⟨.metamethod, Heap.eventName (Heap.unaryEvent op)⟩) true
      match op with
      | .not => .go (a.push (.bool (!v.truthy))) h
      | .neg =>
        match negate v with
        | .value v => .go (a.push v) h
        | _ => ask "perform arithmetic on"
      | .bnot =>
        match complement v with
        | .value v => .go (a.push v) h
        | _ => ask "perform bitwise operation on"
      | .len =>
        match v with
        | .str s => .go (a.push (.ofNat s.size)) h
        | .table id =>
          match h.event v Heap.lenEvent with
          | .nil => .go (a.push (.ofNat (h.table id).length)) h
          | _ => ask "get length of"
        | _ => ask "get length of"
    | .binary op x y left right =>
      let (v, w, a) := a.fetchTwo h x y
      match applyBinary op v w with
      | .value r => .go (a.push r) h
      | .fail message => .fail a h (bytes message)
      | .ask =>
        match h.binaryHandler v w (Heap.binaryEvent op) with
        | .nil => .fail a h (h.operandFault op v w left right)
        | f =>
          .call { a with pending := .results .one } h f [v, w]
            (some ⟨.metamethod, Heap.eventName (Heap.binaryEvent op)⟩) true
    | .concat origins =>
      let (values, a) := a.take origins.length
      match (values.zip origins).reverse with
      | (v, o) :: rest => concat h a v o rest
      | [] => .go (a.push .nil) h
    | .compare op negated x y =>
      let (v, w, a) := a.fetchTwo h x y
      a.compare h op v w (fun a b => a.push (.bool (b != negated))) fun n => .truth (n != negated)
    | .jump target => .go { a with pc := target } h
    | .jumpIf expected o target =>
      let (v, a) := a.fetch h o
      .go (if v.truthy = expected then { a with pc := target } else a) h
    | .jumpCompare op expected x y target =>
      let (v, w, a) := a.fetchTwo h x y
      a.compare h op v w (fun a b => if b = expected then { a with pc := target } else a)
        fun n => .branch (expected != n) target
    | .jumpKeep expected target =>
      match a.stack with
      | v :: rest =>
        if v.truthy = expected then .go { a with pc := target } h
        else .go { a with stack := rest } h
      | [] => .go a h
    | .call count spread w origin =>
      let (args, a) := a.takeList count spread
      let (f, a) := a.fetch h .pop
      .call { a with pending := .results w } h f args origin false
    | .tailCall count spread origin =>
      let (args, a) := a.takeList count spread
      let (f, a) := a.fetch h .pop
      .tailCall a h f args origin
    | .return count spread =>
      match a.toClose 0 with
      | some (v, rest) => a.closeOne h v rest
      | none =>
        let (values, _) := a.takeList count spread
        .return h values
    | .numericPrep base exit => a.numericPrep h base exit
    | .numericLoop base body => .go (a.numericLoop base body) h
    | .genericPrep base =>
      match a.slots.getD (base + 3) .nil with
      | .nil | .bool false => .go a h
      | v =>
        match h.event v Heap.closeEvent with
        | .nil => .fail a h (bytes "variable '(for state)' got a non-closable value")
        | _ => .go { a with closing := (base + 3, v) :: a.closing } h
    | .genericCall base count =>
      let slot (i : Nat) : Value := a.slots.getD (base + i) .nil
      .call { a with pending := .results (.count count) } h (slot 0) [slot 1, slot 2]
        (some ⟨.forIterator, bytes "for iterator"⟩) true
    | .genericLoop base count body =>
      let (values, a) := a.take count
      match values with
      | .nil :: _ | [] => .go a h
      | control :: _ =>
        let a := (values.zipIdx (base + 4)).foldl (fun a (v, n) => a.setSlot n v)
          (a.setSlot (base + 2) control)
        .go { a with pc := body } h
    | .close level =>
      match a.toClose level with
      | some (v, rest) => a.closeOne h v rest
      | none => .go a h
    | .mark slot o name =>
      match (a.fetch h o).1 with
      | .nil | .bool false => .go a h
      | v =>
        match h.event v Heap.closeEvent with
        | .nil =>
          .fail a h (bytes "variable '" ++ name ++ bytes "' got a non-closable value")
        | _ => .go { a with closing := (slot, v) :: a.closing } h

/-- Takes in the results of a call. -/
def receive (a : Activation) (h : Heap) (values : List Value) : Progress :=
  let b := (values.headD .nil).truthy
  match a.pending with
  | .results w => .go (a.accept w values) h
  | .method t => .go ((a.push (values.headD .nil)).push t) h
  | .truth negated => .go (a.push (.bool (b != negated))) h
  | .branch expected target => .go (if b = expected then { a with pc := target } else a) h
  | .concat origins =>
    let (rest, a) := a.take origins.length
    concat h a (values.headD .nil) none (rest.reverse.zip origins)

end Activation

end ScriptWorker.Script

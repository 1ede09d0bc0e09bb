import ScriptWorker.Script.Activation

/-!
# The machine

The machine runs functions of the language and actions of built-in functions on a stack of frames,
one stack for each coroutine. One step carries out one instruction or one part of an action. What
the built-in functions do is a parameter, so nothing here depends on any of them. The machine has no
system of its own: a step may come to a request, and `runOn` puts the requests to a system.
-/

set_option autoImplicit false

namespace ScriptWorker.Script

/-- How deeply the machine's own calls may be nested. -/
def depthLimit : Nat := 200

/-- How deeply they may be nested while errors are handled. -/
def depthLimitForErrors : Nat := 220

/-- How many values the frames of a coroutine may hold. -/
def heightLimit : Nat := 1000000

/-- A built-in function that is running: which one, and what the place of its call says it comes
from. -/
structure Context where
  self : Builtin
  origin : Option Origin

/-- How many more values they may hold while an error about that limit is handled. -/
def heightReserve : Nat := 200

/-- How deeply calls are nested at a frame, and how many values the frames up to it hold. -/
structure Level where
  depth : Nat
  height : Nat
  /-- Whether there were too many, and the error about it has not been handled yet. -/
  overflowed : Bool

/-- A frame that waits for what is above it. -/
inductive Frame : Type 1 where
  | script (a : Activation) (l : Level)
  /-- A built-in function that waits for results. -/
  | native (c : Context) (l : Level) (k : List Value → Action (List Value))
  /-- A built-in function that waits for results or an error. -/
  | guard (c : Context) (l : Level) (handler : Option Value)
      (k : Except Value (List Value) → Action (List Value))
  /-- A built-in function that waits for a coroutine. -/
  | resumed (c : Context) (l : Level) (k : Except Value (List Value) → Action (List Value))
  /-- An error handler is running; its result takes the error's place. The error may have been
  raised by a built-in function. -/
  | handling (l : Level) (raiser : Option Context)
  /-- A variable is being closed because of an error; the others follow. -/
  | unwinding (l : Level) (error : Value) (closing : List Value)

namespace Frame

/-- What the call that a frame waits for says its function comes from. -/
def calling : Frame → Option Origin
  | .script a _ => a.calling
  | _ => none

/-- A frame as traces show it, given the frames below. A call from outside is not shown. -/
def site? (f : Frame) (below : List Frame) : Option Site :=
  match f with
  | .script a _ => some (a.site (below.head?.bind calling))
  | .guard _ _ (some (.builtin .describeError _)) _ => none
  | .native c .. | .guard c .. | .resumed c .. | .handling _ (some c) =>
    some (.builtin c.self c.origin)
  | .handling _ none | .unwinding .. => none

end Frame

/-- What the machine does next. -/
inductive Control : Type 1 where
  | run (a : Activation)
  | act (c : Context) (t : Action (List Value))
  /-- Hands results to the topmost frame. -/
  | deliver (values : List Value)
  /-- Raises an error, which may be that of a built-in function. -/
  | raise (error : Value) (raiser : Option Context)
  /-- Hands an error to the topmost guard once the given variables are closed. -/
  | unwind (error : Value) (closing : List Value)
  /-- The process has ended. -/
  | exited

/-- A coroutine that is not running. -/
structure Thread : Type 1 where
  /-- Whether it can be resumed. -/
  suspended : Bool
  /-- The function that it starts with, until it has started. -/
  start : Option Value
  frames : List Frame
  /-- The error that ended it. -/
  error : Option Value
  /-- The variables that wait to be closed after an error. -/
  closing : List Value

/-- The machine. -/
structure Machine : Type 1 where
  control : Control
  frames : List Frame
  level : Level
  heap : Heap
  /-- The running coroutine; 0 is the main program. -/
  current : Nat
  threads : Array Thread
  /-- The coroutines that wait for the running one, each with its frames. -/
  resumers : List (Nat × List Frame)

namespace Machine

/-- What a step comes to: another step, one that follows the answer to a request, or the end of the
main program or of the process. -/
inductive Step : Type 1 where
  | more (m : Machine)
  | ask (r : Request) (k : r.Answer → Machine)
  | done (result : Except Value (List Value)) (m : Machine)
  | exited (m : Machine)

/-- The place of a frame as messages start with it. -/
def placeOf : Frame → Bytes
  | .script a _ => a.place
  | _ => .empty

/-- Whether coroutines can yield across a frame. -/
def Frame.yields : Frame → Bool
  | .native .. | .handling .. => false
  | _ => true

/-- The functions that frames belong to, as traces show them. -/
def sites : List Frame → List Site
  | [] => []
  | f :: below => (f.site? below).toList ++ sites below

/-- How a coroutine stands. -/
def statusOf (current : Nat) (resumers : List (Nat × List Frame)) (threads : Array Thread)
    (id : Nat) : Status :=
  if id = current then .running
  else if resumers.any (·.1 == id) then .normal
  else
    match threads[id]? with
    | some t => if t.suspended then .suspended else .dead
    | none => .dead

/-- What a built-in function can see. -/
def view (m : Machine) (c : Context) : View :=
  let frames := m.frames
  { place := fun n =>
      match n with
      | 0 => .empty
      | n + 1 => ((frames[n]?).map placeOf).getD .empty
    origin := c.origin
    self := c.self
    thread := m.current
    yieldable := m.current != 0 && frames.all Frame.yields
    status := statusOf m.current m.resumers m.threads
    depth := m.level.depth
    sites := sites frames }

/-- Raises an error with a message, which gets the place of the topmost frame in front. -/
def fail (m : Machine) (message : Bytes) : Machine :=
  let place := match m.frames with
    | f :: _ => placeOf f
    | [] => .empty
  { m with control := .raise (.str (place ++ message)) none }

section

variable (start : Builtin → Nat → List Value → Action (List Value))

/-- Calls a function that is one, at a level. -/
def enter (m : Machine) (f : Value) (args : List Value) (origin : Option Origin) : Machine :=
  match f with
  | .closure id =>
    match m.heap.closures[id]? with
    | some c =>
      let height := m.level.height + c.proto.slots + 2
      let limit := if m.level.overflowed then heightLimit + heightReserve else heightLimit
      if height ≤ limit then
        { m with
          control := .run (.enter c args)
          level := { m.level with height := height } }
      else if m.level.overflowed then
        { m with control := .unwind (.ofText "error in error handling") [] }
      else fail { m with level := { m.level with overflowed := true } } (bytes "stack overflow")
    | none => { m with control := .deliver [] }
  | .builtin b memory => { m with control := .act ⟨b, origin⟩ (start b memory args) }
  | _ => { m with control := .deliver [] }

/-- Calls a value. `extra` says that the machine's own calls get deeper by it, also where that is
too deep: the handler of that error runs deeper still. -/
def call (m : Machine) (f : Value) (args : List Value) (origin : Option Origin) (extra : Bool) :
    Machine :=
  match m.heap.callee Heap.chainLimit f args with
  | .error (.notCallable v) => m.fail (m.heap.typeFault "call" v origin)
  | .error .endless => m.fail (bytes "stack overflow")
  | .ok (f, args) =>
    if extra then
      let m := { m with level := { m.level with depth := m.level.depth + 1 } }
      if m.level.depth = depthLimit then m.fail (bytes "C stack overflow")
      else if depthLimitForErrors ≤ m.level.depth then
        { m with control := .unwind (.ofText "error in error handling") [] }
      else enter start m f args origin
    else enter start m f args origin

/-- Goes on after an instruction. -/
def advance (p : Progress) (frames : List Frame) (level : Level) (current : Nat)
    (threads : Array Thread) (resumers : List (Nat × List Frame)) : Machine :=
  match p with
  | .go a h => ⟨.run a, frames, level, h, current, threads, resumers⟩
  | .return h values => ⟨.deliver values, frames, level, h, current, threads, resumers⟩
  | .call a h f args origin extra =>
    call start ⟨.deliver [], .script a level :: frames, level, h, current, threads, resumers⟩
      f args origin extra
  | .tailCall a h f args origin =>
    match h.callee Heap.chainLimit f args with
    | .ok (.closure id, args) =>
      let below := level.height - (a.proto.slots + 2)
      enter start ⟨.deliver [], frames, { level with height := below }, h, current, threads,
        resumers⟩ (.closure id) args origin
    | _ =>
      let a := { a with pending := .results .all }
      call start ⟨.deliver [], .script a level :: frames, level, h, current, threads, resumers⟩
        f args origin false
  | .fail a h message =>
    fail ⟨.deliver [], .script a level :: frames, level, h, current, threads, resumers⟩ message

/-- Ends the running coroutine, or suspends it, and hands an outcome to the one that resumed it. -/
def giveBack (m : Machine) (t : Thread) (outcome : Except Value (List Value)) : Machine :=
  match m.resumers with
  | (id, .resumed c l k :: frames) :: resumers =>
    { m with
      control := .act c (k outcome)
      frames := frames
      level := l
      current := id
      threads := m.threads.set! m.current t
      resumers := resumers }
  | (id, frames) :: resumers =>
    { m with
      control := .deliver []
      frames := frames
      current := id
      threads := m.threads.set! m.current t
      resumers := resumers }
  | [] => { m with control := .deliver [] }

/-- A coroutine that has ended. -/
def ended (error : Option Value) (closing : List Value) : Thread :=
  ⟨false, none, [], error, closing⟩

/-- Hands results to the topmost frame. -/
def deliver (m : Machine) (values : List Value) : Step :=
  match m.frames with
  | [] =>
    if m.current = 0 then .done (.ok values) m
    else .more (m.giveBack (ended none []) (.ok values))
  | f :: frames =>
    match f with
    | .script a l =>
      .more (advance start (a.receive m.heap values) frames l m.current m.threads m.resumers)
    | .native c l k => .more { m with control := .act c (k values), frames := frames, level := l }
    | .guard c l _ k =>
      .more { m with control := .act c (k (.ok values)), frames := frames, level := l }
    | .resumed c l k =>
      .more { m with control := .act c (k (.ok values)), frames := frames, level := l }
    | .handling l _ =>
      .more { m with control := .unwind (values.headD .nil) [], frames := frames, level := l }
    | .unwinding l error closing =>
      .more { m with control := .unwind error closing, frames := frames, level := l }

/-- The error handler that applies at a stack of frames, also while variables are closed. -/
def handler? : List Frame → Option Value
  | [] => none
  | .guard _ _ handler _ :: _ => handler
  | _ :: frames => handler? frames

/-- Raises an error: its handler runs first, if there is one. -/
def raise (m : Machine) (error : Value) (raiser : Option Context) : Machine :=
  match handler? m.frames with
  | some f =>
    call start { m with frames := .handling m.level raiser :: m.frames } f [error] none true
  | none => { m with control := .unwind error [] }

/-- The frames up to the topmost guard are given up: the variables of theirs that wait to be
closed, after the given ones (the last of those first), and the frames from the guard on. -/
def abandon (found : List Value) : List Frame → List Value × List Frame
  | [] => (found.reverse, [])
  | .script a _ :: frames => abandon ((a.closing.map (·.2)).reverse ++ found) frames
  | .unwinding _ _ closing :: frames => ((closing.reverse ++ found).reverse, frames)
  | .guard c l h k :: frames => (found.reverse, .guard c l h k :: frames)
  | _ :: frames => abandon found frames

/-- Hands an error to the topmost guard, closing variables first. -/
def unwind (m : Machine) (error : Value) (closing : List Value) : Step :=
  let (more, frames) := abandon [] m.frames
  match frames, more ++ closing with
  | [], closing =>
    if m.current = 0 then
      match closing with
      | v :: rest =>
        .more (call start { m with frames := [.unwinding m.level error rest] }
          (m.heap.event v Heap.closeEvent) [v, error] (some ⟨.metamethod, bytes "close"⟩) true)
      | [] => .done (.error error) { m with frames := [] }
    else .more (m.giveBack (ended (some error) closing) (.error error))
  | frames, v :: rest =>
    let level := match frames with
      | .guard _ l _ _ :: _ => l
      | _ => m.level
    .more (call start { m with frames := .unwinding level error rest :: frames, level := level }
      (m.heap.event v Heap.closeEvent) [v, error] (some ⟨.metamethod, bytes "close"⟩) true)
  | .guard c l _ k :: frames, [] =>
    .more { m with control := .act c (k (.error error)), frames := frames, level := l }
  | _ :: frames, [] => .more { m with control := .unwind error [], frames := frames }

/-- Carries out a part of an action. -/
def work (m : Machine) (c : Context) (t : Action (List Value)) : Step :=
  match t with
  | .done values => .more { m with control := .deliver values }
  | .raise error => .more { m with control := .raise error (some c) }
  | .view k => .more { m with control := .act c (k (m.view c)) }
  | .heap act k =>
    let ⟨_, frames, level, heap, current, threads, resumers⟩ := m
    let (b, heap) := act heap
    .more ⟨.act c (k b), frames, level, heap, current, threads, resumers⟩
  | .ask r k => .ask r fun a => { m with control := .act c (k a) }
  | .exit status => .ask (.exit status) fun _ => { m with control := .exited }
  | .call f args k =>
    .more (call start { m with frames := .native c m.level k :: m.frames } f args none true)
  | .guarded f args handler k =>
    .more (call start { m with frames := .guard c m.level handler k :: m.frames } f args none true)
  | .spawn f k =>
    let id := m.threads.size
    .more { m with
      control := .act c (k id)
      threads := m.threads.push ⟨true, some f, [], none, []⟩ }
  | .resume id args k =>
    match m.threads[id]? with
    | some t =>
      let m := { m with
        frames := t.frames
        level := ⟨m.level.depth + 1, 0, false⟩
        current := id
        threads := m.threads.set! id (ended none [])
        resumers := (m.current, .resumed c m.level k :: m.frames) :: m.resumers }
      match t.start with
      | some f => .more (call start m f args none false)
      | none => .more { m with control := .deliver args }
    | none => .more { m with control := .act c (k (.ok [])) }
  | .yield values k =>
    let refuse (message : String) : Step :=
      .more { m with control := .raise (.ofText message) (some c) }
    if m.current = 0 then refuse "attempt to yield from outside a coroutine"
    else if m.frames.all Frame.yields then
      .more (m.giveBack ⟨true, none, .native c m.level k :: m.frames, none, []⟩ (.ok values))
    else refuse "attempt to yield across a C-call boundary"
  | .reap id k =>
    match m.threads[id]? with
    | some t =>
      let (closing, _) := abandon [] t.frames
      .more { m with
        control := .act c (k (closing ++ t.closing, t.error))
        threads := m.threads.set! id (ended none []) }
    | none => .more { m with control := .act c (k ([], none)) }

/-- Carries out one step. -/
def step (m : Machine) : Step :=
  match m with
  | ⟨.run a, frames, level, heap, current, threads, resumers⟩ =>
    .more (advance start (a.step heap) frames level current threads resumers)
  | ⟨.act c t, frames, level, heap, current, threads, resumers⟩ =>
    work start ⟨.deliver [], frames, level, heap, current, threads, resumers⟩ c t
  | ⟨.deliver values, frames, level, heap, current, threads, resumers⟩ =>
    deliver start ⟨.deliver [], frames, level, heap, current, threads, resumers⟩ values
  | ⟨.raise error raiser, frames, level, heap, current, threads, resumers⟩ =>
    .more (raise start ⟨.deliver [], frames, level, heap, current, threads, resumers⟩ error raiser)
  | ⟨.unwind error closing, frames, level, heap, current, threads, resumers⟩ =>
    unwind start ⟨.deliver [], frames, level, heap, current, threads, resumers⟩ error closing
  | ⟨.exited, frames, level, heap, current, threads, resumers⟩ =>
    .exited ⟨.exited, frames, level, heap, current, threads, resumers⟩

/-- What a run comes to. -/
inductive Rest : Type 1 where
  /-- The steps are used up. -/
  | running (m : Machine)
  /-- The main program has ended. -/
  | done (result : Except Value (List Value)) (m : Machine)
  /-- The process has ended. -/
  | exited (m : Machine)

/-- Carries out so many steps on a system, or fewer if the main program or the process ends
before. -/
def runOn : Nat → System → Machine → Rest × System
  | 0, system, m => (.running m, system)
  | n + 1, system, m =>
    match step start m with
    | .more m => runOn n system m
    | .ask r k => runOn n (system.after r) (k (system.answer r))
    | .done result m => (.done result m, system)
    | .exited m => (.exited m, system)

end

end Machine

end ScriptWorker.Script

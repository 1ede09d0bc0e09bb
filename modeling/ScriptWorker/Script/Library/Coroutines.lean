import ScriptWorker.Script.Library.Texts

/-!
# Functions on coroutines
-/

set_option autoImplicit false

namespace ScriptWorker.Script.Library

open Script.Action

/-- An argument that is a coroutine. -/
def threadArg (args : Args) (n : Nat) : Action Nat :=
  match arg args n with
  | .thread id => return id
  | _ => badType args n "coroutine"

/-- How a coroutine stands. -/
def statusOf (id : Nat) : Action Status := .view fun v => .done (v.status id)

/-- How deeply calls are nested. -/
def currentDepth : Action Nat := .view fun v => .done v.depth

/-- Resumes a coroutine, unless it cannot be resumed. -/
def resumeThread (id : Nat) (args : Args) : Action (Except Value (List Value)) := do
  match ← statusOf id with
  | .suspended =>
    if 200 ≤ (← currentDepth) then return .error (.ofText "C stack overflow")
    else Action.resume id args .done
  | .dead => return .error (.ofText "cannot resume dead coroutine")
  | _ => return .error (.ofText "cannot resume non-suspended coroutine")

def coCreate (args : Args) : Results := do
  if Heap.isFunction (arg args 1) then
    Action.spawn (arg args 1) fun id => .done [.thread id]
  else badType args 1 "function"

def coResume (args : Args) : Results := do
  match ← resumeThread (← threadArg args 1) (args.drop 1) with
  | .ok values => return .bool true :: values
  | .error e => return [.bool false, e]

def coStatus (args : Args) : Results := do
  return [.ofText (← statusOf (← threadArg args 1)).text]

def coRunning (_ : Args) : Results := .view fun v => .done [.thread v.thread, .bool (v.thread = 0)]

def coIsYieldable (args : Args) : Results :=
  match arg args 1 with
  | .thread id => .view fun v => .done [.bool (if id = v.thread then v.yieldable else id != 0)]
  | _ => .view fun v => .done [.bool v.yieldable]

def coYield (args : Args) : Results := Action.yield args .done

/-- Closes the variables of a coroutine one after another; an error takes the place of the one
before. -/
def closeAll : List Value → Option Value → Action (Option Value)
  | [], e => return e
  | v :: rest, e => do
    let f ← read fun h => h.event v Heap.closeEvent
    match ← Action.guarded f [v, e.getD .nil] none .done with
    | .ok _ => closeAll rest e
    | .error e => closeAll rest (some e)

/-- Ends a coroutine and gives the error that it ended with, if there is one. -/
def closeThread (id : Nat) : Action (Option Value) := do
  let (closing, e) ← Action.reap id .done
  closeAll closing e

def coClose (args : Args) : Results := do
  let id ← threadArg args 1
  match ← statusOf id with
  | .suspended | .dead =>
    match ← closeThread id with
    | none => return [.bool true]
    | some e => return [.bool false, e]
  | s => failText ("cannot close a " ++ s.text ++ " coroutine")

def coWrap (args : Args) : Results := do
  if Heap.isFunction (arg args 1) then
    Action.spawn (arg args 1) fun id => .done [.builtin .coWrapped id]
  else badType args 1 "function"

def coWrapped (id : Nat) (args : Args) : Results := do
  let wasSuspended := (← statusOf id) == .suspended
  match ← resumeThread id args with
  | .ok values => return values
  | .error e =>
    let e ←
      if wasSuspended then do
        pure ((← closeThread id).getD e)
      else pure e
    match e with
    | .str s => fail s
    | e => .raise e

end ScriptWorker.Script.Library

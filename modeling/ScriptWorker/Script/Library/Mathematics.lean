import ScriptWorker.Script.Library.Texts

/-!
# Mathematical functions

The functions of the library `math`.
-/

set_option autoImplicit false

namespace ScriptWorker.Script.Library

open Script.Action Numeric

/-- The double nearest to the circumference of a circle of diameter one. -/
def pi : Float := 3.141592653589793

/-- A function on doubles. -/
def onFloat (f : Float → Float) (args : Args) : Results := do
  return [.float (f (← numberArg args 1).toFloat)]

/-- A double as an integer where it is one in range. -/
def settle (x : Float) : Value :=
  match Number.intOfFloat? x with
  | some n => .int n
  | none => .float x

/-- An argument that is a number; a string counts as the double that it writes. -/
def measureArg (args : Args) (n : Nat) : Action Number := do
  match arg args n with
  | .int i => return .int i
  | _ => return .float (← numberArg args n).toFloat

def mathFloor (args : Args) : Results := do
  match ← measureArg args 1 with
  | .int n => return [.int n]
  | .float x => return [settle x.floor]

def mathCeil (args : Args) : Results := do
  match ← measureArg args 1 with
  | .int n => return [.int n]
  | .float x => return [settle x.ceil]

def mathAbs (args : Args) : Results := do
  match ← measureArg args 1 with
  | .int n => return [.int (if n < 0 then -n else n)]
  | .float x => return [.float x.abs]

def mathFmod (args : Args) : Results := do
  match ← measureArg args 1, ← measureArg args 2 with
  | .int a, .int b =>
    requireArg (b != 0) 2 "zero"
    return [.int (Int64.ofInt (a.toInt.tmod b.toInt))]
  | a, b => return [.float (remainder a.toFloat b.toFloat)]

def mathModf (args : Args) : Results := do
  match ← measureArg args 1 with
  | .int n => return [.int n, .float 0]
  | .float x =>
    let whole := if x < 0 then x.ceil else x.floor
    return [.float whole, .float (if whole == x then 0 else x - whole)]

def mathSqrt : Args → Results := onFloat Float.sqrt

def mathUlt (args : Args) : Results := do
  let a ← intArg args 1
  let b ← intArg args 2
  return [.bool (decide ((Int64.ofInt a).toUInt64 < (Int64.ofInt b).toUInt64))]

def mathLog (args : Args) : Results := do
  let x := (← numberArg args 1).toFloat
  if isAbsent args 2 then return [.float x.log]
  else
    let base := (← numberArg args 2).toFloat
    let r := if base == 2 then x.log2 else if base == 10 then x.log10 else x.log / base.log
    return [.float r]

def mathAtan (args : Args) : Results := do
  let y := (← numberArg args 1).toFloat
  let x ← if isAbsent args 2 then pure 1 else do pure (← numberArg args 2).toFloat
  return [.float (Float.atan2 y x)]

def mathPow (args : Args) : Results := do
  let x := (← numberArg args 1).toFloat
  return [.float (x.pow (← numberArg args 2).toFloat)]

def mathLdexp (args : Args) : Results := do
  let x := (← numberArg args 1).toFloat
  let e ← intArg args 2
  let e := max (-5000) (min 5000 e)
  match parts x with
  | .finite negative m k =>
    let (n, d) := scaled m 1 2 (-(k + e))
    return [.float (nearest negative n d)]
  | _ => return [.float x]

def mathFrexp (args : Args) : Results := do
  let x := (← numberArg args 1).toFloat
  match parts x with
  | .finite negative m k =>
    if m = 0 then return [.float x, .int 0]
    else
      let size := m.log2 + 1
      return [.float (nearest negative m (Nat.pow 2 size)), .int (Int64.ofInt (k + size))]
  | _ => return [.float x, .int 0]

/-- The value that no later one takes the place of, among one value and those after it. `yields`
says whether the first of two values gives way to the other. -/
def settledOn (yields : Value → Value → Action Bool) : Value → List Value → Action Value
  | best, [] => return best
  | best, v :: rest => do settledOn yields (if ← yields best v then v else best) rest

def mathMax (args : Args) : Results := do
  return [← settledOn (fun best v => lessThan best v) (← anyArg args 1) (args.drop 1)]

def mathMin (args : Args) : Results := do
  return [← settledOn (fun best v => lessThan v best) (← anyArg args 1) (args.drop 1)]

def mathToInteger (args : Args) : Results := do
  match (numberOf? (arg args 1)).bind Number.toInt? with
  | some n => return [.int n]
  | none => do
    let _ ← anyArg args 1
    return [.nil]

def mathType (args : Args) : Results := do
  match ← anyArg args 1 with
  | .int _ => return [.ofText "integer"]
  | .float _ => return [.ofText "float"]
  | _ => return [.nil]

/-! ## Random numbers -/

/-- A word turned to the left. -/
def rotate (x : UInt64) (n : UInt64) : UInt64 := (x <<< n) ||| (x >>> (64 - n))

/-- The next random word. -/
def nextRandom (g : Generator) : UInt64 × Generator :=
  let s2 := g.s2 ^^^ g.s0
  let s3 := g.s3 ^^^ g.s1
  let result := rotate (g.s1 * 5) 7 * 9
  (result, ⟨g.s0 ^^^ s3, g.s1 ^^^ s2, s2 ^^^ (g.s1 <<< 17), rotate s3 45⟩)

/-- A generator that starts from two words. -/
def seeded (a b : UInt64) : Generator :=
  let rec skip : Nat → Generator → Generator
    | 0, g => g
    | n + 1, g => skip n (nextRandom g).2
  skip 16 ⟨a, 0xff, b, 0⟩

/-- The generator, which the system seeds before its first use. -/
def generator : Action Generator := do
  match ← read (·.generator) with
  | some g => return g
  | none =>
    let (a, b) ← request .seed
    return seeded a b

/-- Takes a random word. -/
def drawRandom : Action UInt64 := do
  let (r, g) := nextRandom (← generator)
  change fun h => { h with generator := some g }
  return r

/-- The least number of the form `2 ^ k - 1` that is not below a number. -/
def maskAbove (n : Nat) : Nat := if n = 0 then 0 else Nat.pow 2 (n.log2 + 1) - 1

/-- A random number up to a limit, drawing again while it is too great. -/
def projectRandom (limit : Nat) : Nat → UInt64 → Action Nat
  | 0, _ => return 0
  | fuel + 1, r => do
    let n := r.toNat % (maskAbove limit + 1)
    if n ≤ limit then return n else projectRandom limit fuel (← drawRandom)

def mathRandom (args : Args) : Results := do
  let r ← drawRandom
  let between_ (low high : Int) : Results := do
    requireArg (decide (low ≤ high)) args.length "interval is empty"
    let n ← projectRandom (high - low).toNat 1000 r
    return [.int (Int64.ofInt (low + n))]
  match args.length with
  | 0 => return [.float ((r >>> 11).toFloat * (0.5 / 4503599627370496.0))]
  | 1 =>
    let high ← intArg args 1
    if high = 0 then return [.int r.toInt64] else between_ 1 high
  | 2 => between_ (← intArg args 1) (← intArg args 2)
  | _ => failText "wrong number of arguments"

/-- The words that a generator is to start from. -/
def seedArgs (args : Args) : Action (UInt64 × UInt64) := do
  if args.isEmpty then request .seed
  else
    let a : Int := match ← numberArg args 1 with
      | .int n => n.toInt
      | .float x => ((Number.intOfFloat? x).map (·.toInt)).getD x.toBits.toNat
    let b ← intArgOr args 2 0
    return ((Int64.ofInt a).toUInt64, (Int64.ofInt b).toUInt64)

def mathRandomSeed (args : Args) : Results := do
  let (a, b) ← seedArgs args
  change fun h => { h with generator := some (seeded a b) }
  return [.int a.toInt64, .int b.toInt64]

end ScriptWorker.Script.Library

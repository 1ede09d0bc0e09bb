import ScriptWorker.Script.Library.Format
import ScriptWorker.Script.Library.Pattern
import ScriptWorker.Script.Action

/-!
# Functions on strings

The functions of the library `string`, except those that pack values, and the arithmetic of
strings.
-/

set_option autoImplicit false

namespace ScriptWorker.Script.Library

open Script.Action

/-- The result of a built-in function. -/
abbrev Results := Action (List Value)

/-- The longest string that functions build. -/
def longestText : Nat := 0x7FFFFFFF

/-- A string as a result. -/
def text (s : List UInt8) : Value := .str s.toByteArray

/-- The first position of a range, counted from one; negative ones count from the end. -/
def startOf (i : Int) (size : Nat) : Nat :=
  if 0 < i then i.toNat
  else if i = 0 then 1
  else if i < -(size : Int) then 1
  else (size + i + 1).toNat

/-- The last position of a range. -/
def endOf (i : Int) (size : Nat) : Nat :=
  if (size : Int) < i then size
  else if 0 ≤ i then i.toNat
  else if i < -(size : Int) then 0
  else (size + i + 1).toNat

/-! ## Simple functions -/

def strLen (args : Args) : Results := do return [.ofNat (← stringArg args 1).size]

def strSub (args : Args) : Results := do
  let s ← stringArg args 1
  let i := startOf (← intArg args 2) s.size
  let j := endOf (← intArgOr args 3 (-1)) s.size
  return [.str (if i ≤ j then s.extract (i - 1) j else .empty)]

def strReverse (args : Args) : Results := do
  return [text (← stringArg args 1).data.toList.reverse]

/-- Replaces every byte of a string. -/
def strMap (f : UInt8 → UInt8) (args : Args) : Results := do
  return [text ((← stringArg args 1).data.toList.map f)]

def lowerByte (b : UInt8) : UInt8 := if between 'A' 'Z' b then b + 32 else b

def upperByte (b : UInt8) : UInt8 := if between 'a' 'z' b then b - 32 else b

/-- Repeats a string with another one in between. -/
def repeatBytes (s separator : Bytes) : Nat → Bytes → Bytes
  | 0, out => out
  | 1, out => out ++ s
  | n + 2, out => repeatBytes s separator (n + 1) (out ++ s ++ separator)

def strRep (args : Args) : Results := do
  let s ← stringArg args 1
  let n ← intArg args 2
  let separator ← stringArgOr args 3 .empty
  if n ≤ 0 ∨ s.size + separator.size = 0 then return [.str .empty]
  else if longestText / n.toNat < s.size + separator.size then
    failText "resulting string too large"
  else return [.str (repeatBytes s separator n.toNat .empty)]

def strByte (args : Args) : Results := do
  let s ← stringArg args 1
  let from_ ← intArgOr args 2 1
  let i := startOf from_ s.size
  let j := endOf (← intArgOr args 3 i) s.size
  if j < i then return []
  else return ((s.extract (i - 1) j).data.toList.map fun b => .ofNat b.toNat)

def strChar (args : Args) : Results := do
  let found ← (List.range args.length).mapM fun i => do
    let n ← intArg args (i + 1)
    requireArg (decide (0 ≤ n ∧ n ≤ 255)) (i + 1) "value out of range"
    return n.toNat.toUInt8
  return [text found]

/-! ## Searching -/

/-- Carries out a search, whose errors are raised with the place of the caller. -/
def trying {α : Type} (r : Except String α) : Action α :=
  match r with
  | .ok a => return a
  | .error message => failText message

/-- The value of a capture. -/
def captureValue (subject : Bytes) (c : Pattern.Capture) : Action Value :=
  match c.extent with
  | .opened => failText "unfinished capture"
  | .position => return .ofNat (c.start + 1)
  | .length n => return .str (subject.extract c.start (c.start + n))

/-- The values of the captures of a match; without captures, the match itself if `whole` is set. -/
def captureValues (subject : Bytes) (s e : Nat) (captures : Pattern.Captures) (whole : Bool) :
    Action (List Value) :=
  if captures.isEmpty && whole then return [.str (subject.extract s e)]
  else captures.toList.mapM (captureValue subject)

/-- Searches a string for a pattern; `find` asks for the place of the match. -/
def searchText (find : Bool) (args : Args) : Results := do
  let s ← stringArg args 1
  let p ← stringArg args 2
  let init := startOf (← intArgOr args 3 1) s.size - 1
  if s.size < init then return [.nil]
  else if find && ((arg args 4).truthy || Pattern.isPlain p) then
    match Pattern.findPlain s p (s.size + 1) init with
    | some i => return [.ofNat (i + 1), .ofNat (i + p.size)]
    | none => return [.nil]
  else
    let q : Pattern.Problem := ⟨s, p⟩
    match ← trying (q.search q.anchored (s.size + 1) init) with
    | some (i, e, captures) =>
      let values ← captureValues s i e captures (!find)
      return if find then .ofNat (i + 1) :: .ofNat e :: values else values
    | none => return [.nil]

def strGmatch (args : Args) : Results := do
  let s ← stringArg args 1
  let p ← stringArg args 2
  let init := startOf (← intArgOr args 3 1) s.size - 1
  let id ← transact fun h =>
    (h.searches.size,
      { h with searches := h.searches.push ⟨s, p, min init (s.size + 1), none⟩ })
  return [.builtin .strGmatchStep id]

/-- The next match from a position on that does not end where the one before did. -/
def nextMatch (q : Pattern.Problem) (lastEnd : Option Nat) :
    Nat → Nat → Except String (Option (Nat × Nat × Pattern.Captures))
  | 0, _ => .ok none
  | fuel + 1, s =>
    if q.subject.size < s then .ok none
    else do
      match ← q.matchAt false s with
      | some (e, captures) =>
        if lastEnd = some e then nextMatch q lastEnd fuel (s + 1) else return some (s, e, captures)
      | none => nextMatch q lastEnd fuel (s + 1)

def strGmatchStep (id : Nat) : Results := do
  match ← read fun h => h.searches[id]? with
  | none => return [.nil]
  | some g =>
    let q : Pattern.Problem := ⟨g.subject, g.pattern⟩
    match ← trying (nextMatch q g.lastEnd (g.subject.size + 2) g.position) with
    | none => return [.nil]
    | some (s, e, captures) =>
      change fun h =>
        { h with searches := h.searches.set! id { g with position := e, lastEnd := some e } }
      captureValues g.subject s e captures true

/-! ## Replacing -/

/-- The replacement that a text describes for a match. -/
def describedReplacement (subject : Bytes) (s e : Nat) (captures : Pattern.Captures) :
    List UInt8 → List UInt8 → Action (List UInt8)
  | [], out => return out.reverse
  | b :: rest, out =>
    if b == byte '%' then
      match rest with
      | c :: rest =>
        if c == byte '%' then describedReplacement subject s e captures rest (c :: out)
        else if c == byte '0' then
          describedReplacement subject s e captures rest
            ((subject.extract s e).data.toList.reverse ++ out)
        else if isDigitByte c then do
          let n := c.toNat - 48
          let v ← match captures[n - 1]? with
            | some capture => captureValue subject capture
            | none =>
              if n = 1 then pure (.str (subject.extract s e))
              else failText ("invalid capture index %" ++ toString n ++ " in replacement string")
          describedReplacement subject s e captures rest
            (((textOf? v).getD .empty).data.toList.reverse ++ out)
        else failText "invalid use of '%' in replacement string"
      | [] => failText "invalid use of '%' in replacement string"
    else describedReplacement subject s e captures rest (b :: out)

/-- The replacement for a match, and whether it differs from it by intent. -/
def replacement (r : Value) (subject : Bytes) (s e : Nat) (captures : Pattern.Captures) :
    Action (List UInt8) := do
  let keep := (subject.extract s e).data.toList
  let given ←
    match r with
    | .table _ => do
      let key ← captureValues subject s e captures true
      getField r (key.headD .nil)
    | .closure _ | .builtin .. => do
      callOne r (← captureValues subject s e captures true)
    | v => do
      let described := ((textOf? v).getD .empty).data.toList
      return ← describedReplacement subject s e captures described []
  match given with
  | .nil | .bool false => return keep
  | v =>
    match textOf? v with
    | some t => return t.data.toList
    | none => failText ("invalid replacement value (a " ++ v.typeName ++ ")")

/-- Replaces matches from a position on, at most `most` more of them. -/
def replaceFrom (q : Pattern.Problem) (anchored : Bool) (r : Value) :
    Nat → Nat → Option Nat → Nat → Nat → List UInt8 → Action (List UInt8 × Nat)
  | 0, s, _, _, count, out =>
    return (out.reverse ++ (q.subject.extract s q.subject.size).data.toList, count)
  | fuel + 1, s, lastEnd, most, count, out => do
    let finish : Action (List UInt8 × Nat) :=
      return (out.reverse ++ (q.subject.extract s q.subject.size).data.toList, count)
    if most = 0 then finish
    else
      let found ← trying (q.matchAt anchored s)
      match found with
      | some (e, captures) =>
        if lastEnd = some e then
          match q.subjectAt? s with
          | some b =>
            if anchored then
              return ((b :: out).reverse ++
                (q.subject.extract (s + 1) q.subject.size).data.toList, count)
            else replaceFrom q anchored r fuel (s + 1) lastEnd most count (b :: out)
          | none => finish
        else
          let new ← replacement r q.subject s e captures
          let out := new.reverse ++ out
          if anchored then
            return (out.reverse ++ (q.subject.extract e q.subject.size).data.toList, count + 1)
          else replaceFrom q anchored r fuel e (some e) (most - 1) (count + 1) out
      | none =>
        match q.subjectAt? s with
        | some b =>
          if anchored then finish
          else replaceFrom q anchored r fuel (s + 1) lastEnd most count (b :: out)
        | none => finish

def strGsub (args : Args) : Results := do
  let s ← stringArg args 1
  let p ← stringArg args 2
  let r := arg args 3
  match r with
  | .table _ | .closure _ | .builtin .. | .str _ | .int _ | .float _ => pure ()
  | _ => badType args 3 "string/function/table"
  let most ← intArgOr args 4 (s.size + 1)
  let q : Pattern.Problem := ⟨s, p⟩
  let (result, count) ←
    replaceFrom q q.anchored r (2 * s.size + 4) 0 none most.toNat 0 []
  return [text result, .ofNat count]

/-! ## Formatting -/

/-- A value as a literal of the language. -/
def literal (args : Args) (n : Nat) : Action (List UInt8) :=
  match arg args n with
  | .str s => return Format.quote s
  | .int i => return Format.numberLiteral (.int i)
  | .float x => return Format.numberLiteral (.float x)
  | .nil | .bool _ => return (← textOf (arg args n)).data.toList
  | _ => badArgument n (bytes "value has no literal form")

/-- Writes the argument of a number as a conversion says. -/
def convert (args : Args) (n : Nat) (modifiers : List UInt8) (letter : Option UInt8) :
    Action (List UInt8) := do
  let whole : Bytes := (byte '%' :: modifiers ++ letter.toList).toByteArray
  let invalid {α : Type} : Action α := fail (bytes "invalid conversion '" ++ whole ++
    bytes "' to 'format'")
  let spec (flags : String) (precise : Bool) : Action Format.Spec :=
    match Format.readSpec? modifiers flags precise with
    | some s => return s
    | none => invalid
  let integer : Action Int64 := do return Int64.ofInt (← intArg args n)
  let number : Action Float := do return (← numberArg args n).toFloat
  match letter.map fun b => Char.ofNat b.toNat with
  | some 'c' => do
    let s ← spec "-" false
    return s.pad [(← integer).toUInt64.toUInt8]
  | some 'd' | some 'i' => do
    let i ← integer
    return (← spec "-+ 0" true).decimal i
  | some 'u' => do
    let i ← integer
    return (← spec "-0" true).unsigned i
  | some 'o' => do
    let i ← integer
    return (← spec "-#0" true).octal i
  | some 'x' => do
    let i ← integer
    return (← spec "-#0" true).hexadecimal false i
  | some 'X' => do
    let i ← integer
    return (← spec "-#0" true).hexadecimal true i
  | some 'a' => do
    let s ← spec "-+ #0" true
    return s.hexFloating false (← number)
  | some 'A' => do
    let s ← spec "-+ #0" true
    return s.hexFloating true (← number)
  | some 'f' => do
    let x ← number
    return (← spec "-+ #0" true).fixed x
  | some 'e' => do
    let x ← number
    return (← spec "-+ #0" true).scientific false x
  | some 'E' => do
    let x ← number
    return (← spec "-+ #0" true).scientific true x
  | some 'g' => do
    let x ← number
    return (← spec "-+ #0" true).general false x
  | some 'G' => do
    let x ← number
    return (← spec "-+ #0" true).general true x
  | some 'p' => do
    let s ← spec "-" false
    return s.pad (identityText (arg args n)).data.toList
  | some 'q' =>
    if modifiers.isEmpty then literal args n
    else failText "specifier '%q' cannot have modifiers"
  | some 's' => do
    let t ← textOf (arg args n)
    if modifiers.isEmpty then return t.data.toList
    else
      requireArg (!(t.data.contains 0)) n "string contains zeros"
      let s ← spec "-" true
      match s.precision with
      | none => return if 100 ≤ t.size then t.data.toList else s.pad t.data.toList
      | some p => return s.pad (t.data.toList.take p)
  | _ => invalid

/-- Goes through a format string; `n` is the number of the argument that was used last. -/
def formatFrom (args : Args) : Nat → Nat → List UInt8 → List UInt8 → Action (List UInt8)
  | 0, _, _, out => return out.reverse
  | fuel + 1, n, format, out => do
    match format with
    | [] => return out.reverse
    | 37 :: 37 :: rest => formatFrom args fuel n rest (37 :: out)
    | 37 :: rest =>
      let n := n + 1
      if args.length < n then badArgument n (bytes "no value")
      else
        let (modifiers, rest) := rest.span Format.isModifier
        if Format.longest ≤ modifiers.length then
          failText "invalid format string to 'format'"
        else
          let new ← convert args n modifiers rest.head?
          formatFrom args fuel n (rest.drop 1) (new.reverse ++ out)
    | b :: rest => formatFrom args fuel n rest (b :: out)

def strFormat (args : Args) : Results := do
  let format ← stringArg args 1
  return [text (← formatFrom args (format.size + 1) 1 format.data.toList [])]

/-! ## Arithmetic -/

/-- The arithmetic of operands of which one is a string: both are read as numbers, or else the
second operand's metatable is asked. -/
def strArithmetic (op : BinaryOp) (name : String) (unary : Bool) (args : Args) : Results := do
  let a := arg args 1
  let b := arg args 2
  match numberOf? a, numberOf? b with
  | some x, some y =>
    let outcome := if unary then negate (.ofNumber x) else onNumbers op x y
    match outcome with
    | .value v => return [v]
    | .fail message => failText message
    | .ask => return [.nil]
  | _, _ =>
    let f ← read fun h => h.event b (bytes ("__" ++ name))
    match b, f with
    | .str _, _ | _, .nil => do
      let (s, t) ← read fun h => (h.typeName a, h.typeName b)
      fail (bytes ("attempt to " ++ name ++ " a '") ++ s ++ bytes "' with a '" ++ t ++ bytes "'")
    | _, f => return [← callOne f [a, b]]

end ScriptWorker.Script.Library

import ScriptWorker.Script.Bytes

/-!
# Patterns

Patterns are a small language for searching texts: classes of bytes, sets, repetitions, captures
and balanced pairs. Matching goes through the pattern from left to right and backs up where a
repetition could be shorter or longer.
-/

set_option autoImplicit false

namespace ScriptWorker.Script.Pattern

/-- The most captures of a pattern. -/
def captureLimit : Nat := 32

/-- How deeply repetitions and captures may be nested while matching. -/
def depthLimit : Nat := 200

/-- The extent of a capture. -/
inductive Extent where
  /-- It has not been closed. -/
  | opened
  /-- It is a position only. -/
  | position
  | length (n : Nat)

/-- A capture: where it starts, and its extent. -/
structure Capture where
  start : Nat
  extent : Extent

/-- The captures of a match, in order of their opening. -/
abbrev Captures := Array Capture

/-- What is matched: a text and a pattern. -/
structure Problem where
  subject : Bytes
  pattern : Bytes

namespace Problem

variable (q : Problem)

/-- The byte of the pattern at a place; past its end comes zero. -/
def at_ (p : Nat) : UInt8 := (byteAt? q.pattern p).getD 0

/-- The byte of the text at a place. -/
def subjectAt? (s : Nat) : Option UInt8 := byteAt? q.subject s

/-! ## Classes and sets -/

/-- A byte that shows and is neither a letter, a digit nor a blank. -/
def isPunctuation (b : UInt8) : Bool := 0x21 ≤ b && b < 0x7F && !isLetterByte b && !isDigitByte b

/-- Whether a byte is in the class of a letter; the class of a capital letter is the complement. -/
def inClass (b c : UInt8) : Bool :=
  let lower := if between 'A' 'Z' c then c + 32 else c
  let found? : Option Bool :=
    match Char.ofNat lower.toNat with
    | 'a' => some (isLetterByte b)
    | 'c' => some (b < 0x20 || b == 0x7F)
    | 'd' => some (isDigitByte b)
    | 'g' => some (0x21 ≤ b && b < 0x7F)
    | 'l' => some (between 'a' 'z' b)
    | 'p' => some (isPunctuation b)
    | 's' => some (isBlankByte b)
    | 'u' => some (between 'A' 'Z' b)
    | 'w' => some (isLetterByte b || isDigitByte b)
    | 'x' => some (isHexByte b)
    | 'z' => some (b == 0)
    | _ => none
  match found? with
  | some found => if lower == c then found else !found
  | none => b == c

/-- The end of a set whose items go on at a place; `first` says that a bracket there is an item. -/
def setEnd : Nat → Nat → Bool → Except String Nat
  | 0, _, _ => .error "malformed pattern (missing ']')"
  | fuel + 1, p, first =>
    if q.pattern.size ≤ p then .error "malformed pattern (missing ']')"
    else if q.at_ p == byte ']' && !first then .ok (p + 1)
    else if q.at_ p == byte '%' then setEnd fuel (p + 2) false
    else setEnd fuel (p + 1) false

/-- The end of the single item at a place of the pattern. -/
def itemEnd (p : Nat) : Except String Nat :=
  if q.at_ p == byte '%' then
    if q.pattern.size ≤ p + 1 then .error "malformed pattern (ends with '%')" else .ok (p + 2)
  else if q.at_ p == byte '[' then
    let start := if q.at_ (p + 1) == byte '^' then p + 2 else p + 1
    q.setEnd (q.pattern.size + 1) start true
  else .ok (p + 1)

/-- Whether a byte is among the items of a set from one place of the pattern to another. -/
def inItems (b : UInt8) (last : Nat) : Nat → Nat → Bool
  | 0, _ => false
  | fuel + 1, p =>
    if last ≤ p then false
    else if q.at_ p == byte '%' then
      inClass b (q.at_ (p + 1)) || inItems b last fuel (p + 2)
    else if q.at_ (p + 1) == byte '-' && p + 2 < last then
      (q.at_ p ≤ b && b ≤ q.at_ (p + 2)) || inItems b last fuel (p + 3)
    else q.at_ p == b || inItems b last fuel (p + 1)

/-- Whether a byte is in the set from its opening bracket to the place of its closing one. -/
def inSet (b : UInt8) (p last : Nat) : Bool :=
  if q.at_ (p + 1) == byte '^' then !(q.inItems b last (q.pattern.size + 1) (p + 2))
  else q.inItems b last (q.pattern.size + 1) (p + 1)

/-- Whether the text at a place starts with a single item, which ends at `ep`. -/
def single (s p ep : Nat) : Bool :=
  match q.subjectAt? s with
  | none => false
  | some b =>
    match Char.ofNat (q.at_ p).toNat with
    | '.' => true
    | '%' => inClass b (q.at_ (p + 1))
    | '[' => q.inSet b p (ep - 1)
    | _ => q.at_ p == b

/-! ## Pieces of a match -/

/-- The end of a balanced pair that starts at a place. -/
def balancedEnd (opening closing : UInt8) : Nat → Nat → Nat → Option Nat
  | 0, _, _ => none
  | fuel + 1, s, depth =>
    match q.subjectAt? s with
    | none => none
    | some b =>
      if b == closing then
        if depth = 1 then some (s + 1) else balancedEnd opening closing fuel (s + 1) (depth - 1)
      else if b == opening then balancedEnd opening closing fuel (s + 1) (depth + 1)
      else balancedEnd opening closing fuel (s + 1) depth

/-- How many times a single item can be repeated from a place on. -/
def repeats (p ep : Nat) : Nat → Nat → Nat → Nat
  | 0, _, n => n
  | fuel + 1, s, n => if q.single s p ep then repeats p ep fuel (s + 1) (n + 1) else n

/-- Whether the bytes of a capture stand at a place of the text. -/
def sameAt (start s : Nat) : Nat → Bool
  | 0 => true
  | n + 1 => q.subjectAt? start == q.subjectAt? s && sameAt (start + 1) (s + 1) n

/-- The number of the capture that is to be closed. -/
def openCapture (captures : Captures) : Except String Nat :=
  let found := (List.range captures.size).reverse.find? fun i =>
    match captures[i]? with
    | some ⟨_, .opened⟩ => true
    | _ => false
  match found with
  | some i => .ok i
  | none => .error "invalid pattern capture"

/-- A match: its end and its captures. -/
abbrev Found := Except String (Option (Nat × Captures))

/-- Tries counts from `n` down to 0. -/
def downFrom (attempt : Nat → Found) : Nat → Found
  | 0 => attempt 0
  | n + 1 =>
    match attempt (n + 1) with
    | .ok none => downFrom attempt n
    | found => found

/-- Tries places from `s` on as long as the single item can be repeated. -/
def upFrom (attempt : Nat → Found) (p ep : Nat) : Nat → Nat → Found
  | 0, s => attempt s
  | fuel + 1, s =>
    match attempt s with
    | .ok none => if q.single s p ep then upFrom attempt p ep fuel (s + 1) else .ok none
    | found => found

/-- Matches the pattern from place `p` on with the text from place `s` on. -/
def matchFrom : Nat → Nat → Nat → Nat → Captures → Found
  | 0, _, _, _, _ => .ok none
  | fuel + 1, depth, s, p, captures =>
    if depth = 0 then .error "pattern too complex"
    else if q.pattern.size ≤ p then .ok (some (s, captures))
    else
      let next (depth s p : Nat) (captures : Captures) : Found :=
        matchFrom fuel depth s p captures
      let open_ (extent : Extent) (p : Nat) : Found :=
        if captureLimit ≤ captures.size then .error "too many captures"
        else next (depth - 1) s p (captures.push ⟨s, extent⟩)
      let repeated : Found := do
        let ep ← q.itemEnd p
        match Char.ofNat (q.at_ ep).toNat with
        | '?' =>
          if q.single s p ep then
            match ← next (depth - 1) (s + 1) (ep + 1) captures with
            | some found => return some found
            | none => next depth s (ep + 1) captures
          else next depth s (ep + 1) captures
        | '+' =>
          if q.single s p ep then
            let n := q.repeats p ep (q.subject.size + 1) (s + 1) 0
            downFrom (fun i => next (depth - 1) (s + 1 + i) (ep + 1) captures) n
          else return none
        | '*' =>
          let n := q.repeats p ep (q.subject.size + 1) s 0
          downFrom (fun i => next (depth - 1) (s + i) (ep + 1) captures) n
        | '-' =>
          q.upFrom (fun s => next (depth - 1) s (ep + 1) captures) p ep (q.subject.size + 1) s
        | _ => if q.single s p ep then next depth (s + 1) ep captures else return none
      match Char.ofNat (q.at_ p).toNat with
      | '(' =>
        if q.at_ (p + 1) == byte ')' then open_ .position (p + 2) else open_ .opened (p + 1)
      | ')' => do
        let i ← openCapture captures
        let start := (captures.getD i ⟨0, .opened⟩).start
        next (depth - 1) s (p + 1) (captures.set! i ⟨start, .length (s - start)⟩)
      | '$' => if p + 1 = q.pattern.size then .ok (if s = q.subject.size then some (s, captures)
          else none) else repeated
      | '%' =>
        match Char.ofNat (q.at_ (p + 1)).toNat with
        | 'b' =>
          if q.pattern.size ≤ p + 3 then
            .error "malformed pattern (missing arguments to '%b')"
          else if q.subjectAt? s != some (q.at_ (p + 2)) then .ok none
          else
            match q.balancedEnd (q.at_ (p + 2)) (q.at_ (p + 3)) (q.subject.size + 1) (s + 1) 1 with
            | some s => next depth s (p + 4) captures
            | none => .ok none
        | 'f' =>
          if q.at_ (p + 2) != byte '[' then .error "missing '[' after '%f' in pattern"
          else do
            let ep ← q.itemEnd (p + 2)
            let before := if s = 0 then 0 else (q.subjectAt? (s - 1)).getD 0
            let here := (q.subjectAt? s).getD 0
            if !(q.inSet before (p + 2) (ep - 1)) && q.inSet here (p + 2) (ep - 1) then
              next depth s ep captures
            else return none
        | c =>
          if c.isDigit then
            let n := c.toNat - '0'.toNat
            match (if n = 0 then none else captures[n - 1]?) with
            | some ⟨start, .length size⟩ =>
              if size ≤ q.subject.size - s && q.sameAt start s size then
                next depth (s + size) (p + 2) captures
              else .ok none
            | some ⟨_, .position⟩ => .ok none
            | _ => .error ("invalid capture index %" ++ toString n)
          else repeated
      | _ => repeated

/-- Matches the whole pattern, without its anchor, at a place of the text. -/
def matchAt (anchored : Bool) (s : Nat) : Found :=
  q.matchFrom (q.pattern.size + 2) depthLimit s (if anchored then 1 else 0) #[]

/-- Whether the pattern is bound to the start of the text. -/
def anchored : Bool := q.at_ 0 == byte '^'

/-- The first match from a place on: its start, its end and its captures. -/
def search (anchored : Bool) : Nat → Nat → Except String (Option (Nat × Nat × Captures))
  | 0, _ => .ok none
  | fuel + 1, s => do
    match ← q.matchAt anchored s with
    | some (e, captures) => return some (s, e, captures)
    | none => if anchored || q.subject.size ≤ s then return none else search anchored fuel (s + 1)

end Problem

/-! ## Plain searches -/

/-- Whether a pattern has no byte with a meaning of its own. -/
def isPlain (pattern : Bytes) : Bool :=
  !(pattern.data.any fun b => "^$*+?.([%-".toList.any fun c => byte c == b)

/-- Whether a text stands at a place in another one. -/
def standsAt (s t : Bytes) (i : Nat) : Nat → Bool
  | 0 => true
  | n + 1 => byteAt? s (i + n) == byteAt? t n && standsAt s t i n

/-- The first place from `i` on where a text stands in another one. -/
def findPlain (s t : Bytes) : Nat → Nat → Option Nat
  | 0, _ => none
  | fuel + 1, i =>
    if s.size < i + t.size then none
    else if standsAt s t i t.size then some i
    else findPlain s t fuel (i + 1)

end ScriptWorker.Script.Pattern

import ScriptWorker.Json.Fault

/-!
# Reading JSON text

Readers take the unread text and give a value with the rest, or stop with a cause and a place.
Containers may nest to a limit; what is skipped without being kept may nest without one, and is
checked less closely (numbers of any size, any `\u` escapes).
-/

set_option autoImplicit false

namespace ScriptWorker.Json

open Numeric

/-- A reader's answer. -/
abbrev Reading := Except Stop

/-- Stops before the rest. -/
def stopBefore {α : Type} (cause : Cause) (rest : List Char) : Reading α :=
  .error ⟨cause, rest, 0, false⟩

/-- Stops after the first byte of the rest. -/
def stopAt {α : Type} (cause : Cause) (rest : List Char) : Reading α :=
  .error ⟨cause, rest, 1, false⟩

/-- The blanks between tokens. -/
def isGap (c : Char) : Bool := c == ' ' || c == '\n' || c == '\t' || c == '\r'

/-- The rest after any blanks. -/
def skipGap (s : List Char) : List Char := s.dropWhile isGap

/-- Reads the given letters. -/
def readWord : List Char → List Char → Reading (List Char)
  | [], rest => .ok rest
  | _ :: _, [] => stopBefore .endInValue []
  | w :: word, c :: rest => if c = w then readWord word rest else stopBefore .wantedWord rest

/-! ## Numbers -/

/-- The value of a decimal digit. -/
def digitValue (c : Char) : Nat := c.toNat - 48

/-- Reads digits into a number while it stays at most `limit`, counting them. -/
def gather (limit : Nat) (n count : Nat) : List Char → Nat × Nat × List Char
  | [] => (n, count, [])
  | c :: rest =>
    if c.isDigit ∧ n * 10 + digitValue c ≤ limit then
      gather limit (n * 10 + digitValue c) (count + 1) rest
    else (n, count, c :: rest)

/-- Whether a digit comes next. -/
def digitNext : List Char → Bool
  | c :: _ => c.isDigit
  | [] => false

/-- The greatest significand. -/
def greatestSignificand : Nat := 0xFFFFFFFFFFFFFFFF

/-- The greatest written exponent. -/
def greatestExponent : Nat := 0x7FFFFFFF

/-- The double `significand * 10 ^ e` as computed in doubles: one product or quotient with a power
of ten, after as many divisions by `10 ^ 308` as bring the exponent into range. There is none
where the product is infinite or the exponent stays too great. -/
def scaleBy : Nat → Float → Int → Option Float
  | 0, f, _ => some f
  | fuel + 1, f, e =>
    if e.natAbs ≤ 308 then
      let power := nearest false (Nat.pow 10 e.natAbs) 1
      if 0 ≤ e then
        let product := f * power
        match parts product with
        | .infinite _ => none
        | _ => some product
      else some (f / power)
    else if f == 0.0 then some f
    else if 0 ≤ e then none
    else scaleBy fuel (f / nearest false (Nat.pow 10 308) 1) (e + 308)

/-- The double with the given significand, exponent and sign. -/
def makeFloat (negative : Bool) (significand : Nat) (e : Int) (rest : List Char) :
    Reading (Value × List Char) :=
  match scaleBy 5 (nearest false significand 1) e with
  | none => stopBefore .numberOutOfRange rest
  | some f => .ok (.float (if negative then -f else f), rest)

/-- Whether an exponent is positive, and the text after its sign. -/
def exponentSign : List Char → Bool × List Char
  | '+' :: rest => (true, rest)
  | '-' :: rest => (false, rest)
  | rest => (true, rest)

/-- Reads the digits of an exponent. -/
def readPower (negative : Bool) (significand : Nat) (start : Int) (positive : Bool)
    (s : List Char) : Reading (Value × List Char) :=
  match s with
  | [] => stopBefore .endInValue []
  | c :: rest =>
    if c.isDigit then
      let (e, _, rest) := gather greatestExponent (digitValue c) 0 rest
      if digitNext rest then
        if significand ≠ 0 ∧ positive then stopBefore .numberOutOfRange (rest.drop 1)
        else .ok (.float (if negative then -0.0 else 0.0), rest.dropWhile Char.isDigit)
      else makeFloat negative significand (if positive then start + e else start - e) rest
    else stopBefore .badNumber rest

/-- Reads an exponent after its mark. -/
def readExponent (negative : Bool) (significand : Nat) (start : Int) (s : List Char) :
    Reading (Value × List Char) :=
  let (positive, s) := exponentSign s
  readPower negative significand start positive s

/-- Reads what may follow the digits of a double. -/
def readFloatEnd (negative : Bool) (significand : Nat) (e : Int) (s : List Char) :
    Reading (Value × List Char) :=
  match s with
  | 'e' :: rest | 'E' :: rest => readExponent negative significand e rest
  | _ => makeFloat negative significand e s

/-- Reads the digits after the point. Digits that no longer fit the significand are dropped. -/
def readFraction (negative : Bool) (significand : Nat) (start : Int) (s : List Char) :
    Reading (Value × List Char) :=
  let (n, count, rest) := gather greatestSignificand significand 0 s
  if digitNext rest then
    readFloatEnd negative n (start - count) (rest.dropWhile Char.isDigit)
  else if count = 0 then
    match rest with
    | [] => stopAt .endInValue []
    | _ => stopAt .badNumber rest
  else readFloatEnd negative n (start - count) rest

/-- The whole number with the given sign, or the double nearest to it where it has no place among
the whole numbers (negative zero among them). -/
def makeInt (negative : Bool) (n : Nat) : Value :=
  if negative then
    if 0 < n ∧ n ≤ 0x8000000000000000 then .int (-n) else .float (-nearest false n 1)
  else .int n

/-- Reads what may follow the digits of a whole number. -/
def readIntEnd (negative : Bool) (n : Nat) (s : List Char) : Reading (Value × List Char) :=
  match s with
  | '.' :: rest => readFraction negative n 0 rest
  | 'e' :: rest | 'E' :: rest => readExponent negative n 0 rest
  | _ => .ok (makeInt negative n, s)

/-- Reads what may follow the digits of a whole number that has more of them than fit; `skipped`
counts those that do not. -/
def readLargeEnd (negative : Bool) (n : Nat) (skipped : Int) (s : List Char) :
    Reading (Value × List Char) :=
  match s with
  | '.' :: rest => readFraction negative n skipped rest
  | _ => readFloatEnd negative n skipped s

/-- Reads a number after its sign. -/
def readNumber (negative : Bool) (s : List Char) : Reading (Value × List Char) :=
  match s with
  | [] => stopBefore .endInValue []
  | '0' :: rest =>
    if digitNext rest then stopAt .badNumber rest else readIntEnd negative 0 rest
  | c :: rest =>
    if c.isDigit then
      let (n, _, rest) := gather greatestSignificand (digitValue c) 0 rest
      if digitNext rest then
        let after := rest.dropWhile Char.isDigit
        readLargeEnd negative n (rest.length - after.length) after
      else readIntEnd negative n rest
    else stopBefore .badNumber rest

/-! ## Strings -/

/-- Reads four hexadecimal digits. Four bytes are taken before they are looked at. -/
def readHex4 (s : List Char) : Reading (Nat × List Char) :=
  let refuse : Reading (Nat × List Char) :=
    if (s.take 4).foldl (fun n c => n + c.utf8Size) 0 < 4 then stopBefore .endInString []
    else .error ⟨.badEscape, s, 4, false⟩
  match s with
  | a :: b :: c :: d :: rest =>
    match Text.Hex.value? a, Text.Hex.value? b, Text.Hex.value? c, Text.Hex.value? d with
    | some w, some x, some y, some z => .ok (((w * 16 + x) * 16 + y) * 16 + z, rest)
    | _, _, _, _ => refuse
  | _ => refuse

/-- Reads the escape of a code unit, after `\u`. -/
def readUnicode (s : List Char) : Reading (Char × List Char) := do
  let (n, rest) ← readHex4 s
  if 0xDC00 ≤ n ∧ n ≤ 0xDFFF then stopBefore .loneSurrogate rest
  else if n < 0xD800 ∨ 0xDBFF < n then return (Char.ofNat n, rest)
  else
    match rest with
    | [] => stopBefore .endInString []
    | '\\' :: rest =>
      match rest with
      | [] => stopBefore .endInString []
      | 'u' :: rest =>
        let (m, rest) ← readHex4 rest
        if m < 0xDC00 ∨ 0xDFFF < m then stopBefore .loneSurrogate rest
        else return (Char.ofNat ((n - 0xD800) * 0x400 + (m - 0xDC00) + 0x10000), rest)
      | _ => stopAt .hexEscapeEnds rest
    | _ => stopAt .hexEscapeEnds rest

/-- The character of a short escape. -/
def shortEscape? : Char → Option Char
  | '"' => some '"'
  | '\\' => some '\\'
  | '/' => some '/'
  | 'b' => some '\x08'
  | 'f' => some '\x0c'
  | 'n' => some '\n'
  | 'r' => some '\r'
  | 't' => some '\t'
  | _ => none

/-- Reads a string after its opening quote; `out` holds its characters so far, last first. -/
def readStringFrom : Nat → List Char → List Char → Reading (String × List Char)
  | 0, _, s => stopBefore .endInString s
  | _ + 1, _, [] => stopBefore .endInString []
  | fuel + 1, out, c :: rest =>
    match c with
    | '"' => .ok (String.ofList out.reverse, rest)
    | '\\' =>
      match rest with
      | [] => stopBefore .endInString []
      | 'u' :: rest =>
        match readUnicode rest with
        | .error stop => .error stop
        | .ok (c, rest) => readStringFrom fuel (c :: out) rest
      | e :: after =>
        match shortEscape? e with
        | some c => readStringFrom fuel (c :: out) after
        | none => stopAt .badEscape rest
    | c =>
      if c.toNat < 0x20 then stopBefore .controlInString rest
      else readStringFrom fuel (c :: out) rest

/-- Skips a string after its opening quote. -/
def skipStringFrom : Nat → List Char → Reading (List Char)
  | 0, s => stopBefore .endInString s
  | _ + 1, [] => stopBefore .endInString []
  | fuel + 1, c :: rest =>
    match c with
    | '"' => .ok rest
    | '\\' =>
      match rest with
      | [] => stopBefore .endInString []
      | 'u' :: rest =>
        match readHex4 rest with
        | .error stop => .error stop
        | .ok (_, rest) => skipStringFrom fuel rest
      | e :: after =>
        if (shortEscape? e).isSome then skipStringFrom fuel after else stopAt .badEscape rest
    | c =>
      if c.toNat < 0x20 then stopBefore .controlInString (c :: rest)
      else skipStringFrom fuel rest

/-! ## Containers -/

/-- Reads the items of an array up to, but without, its closing bracket. `item` gets the state and
gives back the next one, with `false` to stop behind this item. -/
def foldItems {σ : Type} (item : σ → List Char → Reading ((σ × Bool) × List Char)) :
    Nat → Bool → σ → List Char → Reading (σ × List Char)
  | 0, _, _, s => stopAt .endInList s
  | fuel + 1, first, state, s =>
    let step (s : List Char) : Reading (σ × List Char) := do
      let ((state, more), rest) ← item state s
      if more then foldItems item fuel false state rest else return (state, rest)
    match skipGap s with
    | [] => stopAt .endInList []
    | c :: rest =>
      if c = ']' then .ok (state, c :: rest)
      else if first then step (c :: rest)
      else if c = ',' then
        match skipGap rest with
        | [] => stopAt .endInValue []
        | c :: rest => if c = ']' then stopAt .trailingComma (c :: rest) else step (c :: rest)
      else stopAt .wantedCommaOrBracket (c :: rest)

/-- Reads the end of an array after its items. -/
def closeItems (s : List Char) : Reading (List Char) :=
  match skipGap s with
  | [] => stopAt .endInList []
  | ']' :: rest => .ok rest
  | ',' :: rest =>
    match skipGap rest with
    | ']' :: rest => stopAt .trailingComma (']' :: rest)
    | rest => stopAt .trailingCharacters rest
  | rest => stopAt .trailingCharacters rest

/-- Reads the end of an object after its members. -/
def closeMembers (s : List Char) : Reading (List Char) :=
  match skipGap s with
  | [] => stopAt .endInObject []
  | '\x7d' :: rest => .ok rest
  | ',' :: rest => stopAt .trailingComma (',' :: rest)
  | rest => stopAt .trailingCharacters rest

/-- Reads the colon after a key. -/
def readColon (s : List Char) : Reading (List Char) :=
  match skipGap s with
  | [] => stopAt .endInObject []
  | ':' :: rest => .ok rest
  | rest => stopAt .wantedColon rest

/-- Reads the members of an object up to, but without, its closing brace. `member` gets the state
and the key, and reads from the colon on. -/
def foldMembers {σ : Type} (size : Nat) (member : σ → String → List Char → Reading (σ × List Char)) :
    Nat → Bool → σ → List Char → Reading (σ × List Char)
  | 0, _, _, s => stopAt .endInObject s
  | fuel + 1, first, state, s =>
    let step (s : List Char) : Reading (σ × List Char) := do
      let (key, rest) ← readStringFrom size [] s
      let (state, rest) ← member state key rest
      foldMembers size member fuel false state rest
    match skipGap s with
    | [] => stopAt .endInObject []
    | c :: rest =>
      if c = '\x7d' then .ok (state, c :: rest)
      else if first then if c = '"' then step rest else stopAt .keyNotString (c :: rest)
      else if c = ',' then
        match skipGap rest with
        | [] => stopAt .endInValue []
        | '"' :: rest => step rest
        | '\x7d' :: rest => stopAt .trailingComma ('\x7d' :: rest)
        | rest => stopAt .keyNotString rest
      else stopAt .wantedCommaOrBrace (c :: rest)

/-- Reads a value that nests containers at most `depth - 1` deep; `size` bounds the length of the
text. -/
def readValue (size : Nat) : Nat → List Char → Reading (Value × List Char)
  | depth, s =>
    match skipGap s with
    | [] => stopAt .endInValue []
    | c :: rest =>
      match c with
      | 'n' => do return (.null, ← readWord ['u', 'l', 'l'] rest)
      | 't' => do return (.bool true, ← readWord ['r', 'u', 'e'] rest)
      | 'f' => do return (.bool false, ← readWord ['a', 'l', 's', 'e'] rest)
      | '-' => readNumber true rest
      | '"' => do
        let (text, rest) ← readStringFrom size [] rest
        return (.string text, rest)
      | '[' =>
        match depth with
        | 0 | 1 => stopAt .tooDeep (c :: rest)
        | depth + 2 => do
          let item (items : List Value) (s : List Char) :
              Reading ((List Value × Bool) × List Char) := do
            let (value, rest) ← readValue size (depth + 1) s
            return ((value :: items, true), rest)
          let (items, rest) ← foldItems item size true [] rest
          return (.array items.reverse, ← closeItems rest)
      | '\x7b' =>
        match depth with
        | 0 | 1 => stopAt .tooDeep (c :: rest)
        | depth + 2 => do
          let member (members : List (String × Value)) (key : String) (s : List Char) :
              Reading (List (String × Value) × List Char) := do
            let (value, rest) ← readValue size (depth + 1) (← readColon s)
            return ((key, value) :: members, rest)
          let (members, rest) ← foldMembers size member size true [] rest
          return (.ofMembers members.reverse, ← closeMembers rest)
      | c => if c.isDigit then readNumber false (c :: rest) else stopAt .wantedValue (c :: rest)

/-! ## Skipping -/

/-- Skips the sign and the digits of an exponent. -/
def skipPower (s : List Char) : Reading (List Char) :=
  match (exponentSign s).2 with
  | c :: rest =>
    if c.isDigit then .ok (rest.dropWhile Char.isDigit) else stopBefore .badNumber rest
  | [] => stopBefore .badNumber []

/-- Skips an exponent, if there is one. -/
def skipExponent (s : List Char) : Reading (List Char) :=
  match s with
  | 'e' :: rest | 'E' :: rest => skipPower rest
  | rest => .ok rest

/-- Skips the digits of a whole number. -/
def skipWhole (s : List Char) : Reading (List Char) :=
  match s with
  | '0' :: rest => if digitNext rest then stopAt .badNumber rest else .ok rest
  | c :: rest =>
    if c.isDigit then .ok (rest.dropWhile Char.isDigit) else stopBefore .badNumber rest
  | [] => stopBefore .badNumber []

/-- Skips the point and the digits of a fraction, if there is one. -/
def skipFraction (s : List Char) : Reading (List Char) :=
  match s with
  | '.' :: rest =>
    if digitNext rest then .ok (rest.dropWhile Char.isDigit) else stopAt .badNumber rest
  | rest => .ok rest

/-- Skips digits and whatever else a number holds, after its sign. -/
def skipNumber (s : List Char) : Reading (List Char) := do
  skipExponent (← skipFraction (← skipWhole s))

/-- An open container. -/
inductive Bracket where
  | list
  | object

mutual

/-- Skips a value, then the rest of the containers that are open around it. -/
def skipValueFrom (size : Nat) : Nat → List Bracket → List Char → Reading (List Char)
  | 0, _, s => stopAt .endInValue s
  | fuel + 1, open_, s =>
    match skipGap s with
    | [] => stopAt .endInValue []
    | c :: rest =>
      match c with
      | 'n' => do skipCloseFrom size fuel open_ true (← readWord ['u', 'l', 'l'] rest)
      | 't' => do skipCloseFrom size fuel open_ true (← readWord ['r', 'u', 'e'] rest)
      | 'f' => do skipCloseFrom size fuel open_ true (← readWord ['a', 'l', 's', 'e'] rest)
      | '-' => do skipCloseFrom size fuel open_ true (← skipNumber rest)
      | '"' => do skipCloseFrom size fuel open_ true (← skipStringFrom size rest)
      | '[' => skipCloseFrom size fuel (.list :: open_) false rest
      | '\x7b' => skipCloseFrom size fuel (.object :: open_) false rest
      | c =>
        if c.isDigit then do skipCloseFrom size fuel open_ true (← skipNumber (c :: rest))
        else stopAt .wantedValue (c :: rest)

/-- Skips to the next value in the innermost open container, or past its end; `comma` says whether
a value has just ended. -/
def skipCloseFrom (size : Nat) :
    Nat → List Bracket → Bool → List Char → Reading (List Char)
  | 0, _, _, s => stopAt .endInValue s
  | _ + 1, [], _, s => .ok s
  | fuel + 1, .list :: outer, comma, s =>
    match skipGap s with
    | [] => stopAt .endInList []
    | ']' :: rest => skipCloseFrom size fuel outer true rest
    | c :: rest =>
      if comma then
        if c = ',' then skipValueFrom size fuel (.list :: outer) rest
        else stopAt .wantedCommaOrBracket (c :: rest)
      else skipValueFrom size fuel (.list :: outer) (c :: rest)
  | fuel + 1, .object :: outer, comma, s =>
    let member (s : List Char) : Reading (List Char) :=
      match skipGap s with
      | [] => stopAt .endInObject []
      | '"' :: rest => do
        skipValueFrom size fuel (.object :: outer) (← readColon (← skipStringFrom size rest))
      | rest => stopAt .keyNotString rest
    match skipGap s with
    | [] => stopAt .endInObject []
    | '\x7d' :: rest => skipCloseFrom size fuel outer true rest
    | c :: rest =>
      if comma then
        if c = ',' then member rest else stopAt .wantedCommaOrBrace (c :: rest)
      else member (c :: rest)

end

/-- Skips one value. -/
def skipValue (size : Nat) (s : List Char) : Reading (List Char) :=
  skipValueFrom size (2 * size + 2) [] s

/-! ## Whole texts -/

/-- How deep containers may nest, and one. -/
def depthLimit : Nat := 128

/-- Reads a whole text: a value and nothing but blanks after it. -/
def readAll {α : Type} (read : Nat → List Char → Reading (α × List Char)) (text : List Char) :
    Except Fault α :=
  let result : Reading α := do
    let (value, rest) ← read (text.length + 1) text
    match skipGap rest with
    | [] => return value
    | rest => stopAt .trailingCharacters rest
  match result with
  | .ok value => .ok value
  | .error stop => .error (stop.fault text)

/-- The value of a text. -/
def parse (text : String) : Except Fault Value :=
  readAll (fun size => readValue size depthLimit) text.toList

end ScriptWorker.Json

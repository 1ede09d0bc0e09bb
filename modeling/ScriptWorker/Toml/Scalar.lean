import ScriptWorker.Json.Value
import ScriptWorker.Numeric.Binary64

/-!
# Scalars of TOML

Blanks, strings, numbers and dates. A reader takes the text from a place on and gives what stands
there with the rest, or stops with the rest from the place that it cannot read.
-/

set_option autoImplicit false

namespace ScriptWorker.Toml

/-- What reading comes to: a result, or the text from the place that cannot be read. -/
abbrev Reading (α : Type) := Except (List Char) α

/-! ## Blanks -/

/-- A space or a tab. -/
def isGap (c : Char) : Bool := c = ' ' || c = '\t'

/-- The text after spaces and tabs. -/
def skipGap (s : List Char) : List Char := s.dropWhile isGap

/-- A character that may stand in comments and literal strings: a tab, or no control character. -/
def isShown (c : Char) : Bool := c = '\t' || (0x20 ≤ c.toNat && c.toNat != 0x7F)

/-- The text after a comment, if one stands here. -/
def skipComment : List Char → List Char
  | '#' :: rest => rest.dropWhile isShown
  | s => s

/-- The text after a line break, if one stands here. -/
def afterBreak? : List Char → Option (List Char)
  | '\n' :: rest | '\r' :: '\n' :: rest => some rest
  | _ => none

/-- The text of the next line, where nothing but a comment is left on this one. -/
def nextLine (s : List Char) : Reading (List Char) :=
  let rest := skipComment (skipGap s)
  match rest, afterBreak? rest with
  | [], _ => .ok []
  | _, some rest => .ok rest
  | rest, none => .error rest

/-- The text after blanks, comments and line breaks; `fuel` bounds their number. -/
def skipLines : Nat → List Char → List Char
  | 0, s => s
  | fuel + 1, s =>
    let rest := skipComment (skipGap s)
    match afterBreak? rest with
    | some rest => skipLines fuel rest
    | none => rest

/-! ## Strings -/

/-- The value of a hexadecimal digit. -/
def hexDigit? (c : Char) : Option Nat :=
  if c.isDigit then some (c.toNat - 48)
  else if 'a' ≤ c && c ≤ 'f' then some (c.toNat - 87)
  else if 'A' ≤ c && c ≤ 'F' then some (c.toNat - 55)
  else none

/-- The character of a code point that is written with so many hexadecimal digits. -/
def readCodePoint (count : Nat) (s : List Char) : Reading (Char × List Char) :=
  match (s.take count).mapM hexDigit? with
  | some digits =>
    let n := digits.foldl (fun n d => 16 * n + d) 0
    if digits.length = count ∧ n.isValidChar then .ok (Char.ofNat n, s.drop count)
    else .error s
  | none => .error s

/-- The character that an escape after its backslash stands for. -/
def readEscape : List Char → Reading (Char × List Char)
  | 'b' :: rest => .ok ('\x08', rest)
  | 't' :: rest => .ok ('\t', rest)
  | 'n' :: rest => .ok ('\n', rest)
  | 'f' :: rest => .ok ('\x0c', rest)
  | 'r' :: rest => .ok ('\r', rest)
  | '"' :: rest => .ok ('"', rest)
  | '\\' :: rest => .ok ('\\', rest)
  | 'u' :: rest => readCodePoint 4 rest
  | 'U' :: rest => readCodePoint 8 rest
  | s => .error s

/-- Reads the inside of a string on one line, after the characters `done`, the last one first. -/
def readInline (quote : Char) (escapes : Bool) : Nat → List Char → List Char → Reading (String × List Char)
  | 0, _, s => .error s
  | _, _, [] => .error []
  | fuel + 1, done, c :: rest =>
    if c = quote then .ok (String.ofList done.reverse, rest)
    else if escapes && c = '\\' then do
      let (c, rest) ← readEscape rest
      readInline quote escapes fuel (c :: done) rest
    else if isShown c then readInline quote escapes fuel (c :: done) rest
    else .error (c :: rest)

/-- Reads the inside of a string on several lines. Up to two quotes may stand in front of the three
that close it, and a backslash at the end of a line takes the blanks after it away. -/
def readBlock (quote : Char) (escapes : Bool) : Nat → List Char → List Char → Reading (String × List Char)
  | 0, _, s => .error s
  | _, _, [] => .error []
  | fuel + 1, done, c :: rest =>
    if c = quote then
      let quotes := (c :: rest).takeWhile (· = quote)
      let count := min quotes.length 5
      let rest := (c :: rest).drop count
      if count < 3 then readBlock quote escapes fuel (List.replicate count quote ++ done) rest
      else .ok (String.ofList (List.replicate (count - 3) quote ++ done).reverse, rest)
    else if escapes && c = '\\' then
      match afterBreak? (skipGap rest) with
      | some rest =>
        let blank (c : Char) : Bool := isGap c || c = '\n' || c = '\r'
        readBlock quote escapes fuel done (rest.dropWhile blank)
      | none => do
        let (c, rest) ← readEscape rest
        readBlock quote escapes fuel (c :: done) rest
    else
      match afterBreak? (c :: rest) with
      | some rest => readBlock quote escapes fuel ('\n' :: done) rest
      | none =>
        if isShown c then readBlock quote escapes fuel (c :: done) rest else .error (c :: rest)

/-- Reads a string from its opening quote on. -/
def readString (quote : Char) (escapes : Bool) (s : List Char) : Reading (String × List Char) :=
  match s with
  | a :: b :: c :: rest =>
    if a = quote ∧ b = quote ∧ c = quote then
      readBlock quote escapes s.length [] ((afterBreak? rest).getD rest)
    else readInline quote escapes s.length [] (b :: c :: rest)
  | s => readInline quote escapes s.length [] (s.drop 1)

/-! ## Numbers -/

/-- Digits without the underscores between them. -/
def ungroup? (isOne : Char → Bool) (s : List Char) : Option (List Char) :=
  let groups := s.splitOnP (· == '_')
  if groups.all fun g => !g.isEmpty && g.all isOne then some groups.flatten else none

/-- The number that digits to a base write. -/
def inBase (base : Nat) (digits : List Char) : Nat :=
  digits.foldl (fun n c => base * n + (hexDigit? c).getD 0) 0

/-- A whole number in the range of 64 bits. -/
def wholeValue? (n : Int) : Option Json.Value :=
  if -0x8000000000000000 ≤ n ∧ n < 0x8000000000000000 then some (.int n) else none

/-- A whole number to another base than ten, after its mark. -/
def based? (base : Nat) (s : List Char) : Option Json.Value := do
  let digits ← ungroup? (fun c => (hexDigit? c).any (· < base)) s
  wholeValue? (inBase base digits)

/-- Decimal digits that do not start with a zero that could be left out. -/
def plainDigits? (s : List Char) : Option (List Char) :=
  match ungroup? Char.isDigit s with
  | some ('0' :: _ :: _) => none
  | digits => digits

/-- A decimal number without its sign. -/
def decimal? (negative : Bool) (s : List Char) : Option Json.Value := do
  let (whole, rest) := s.span fun c => c.isDigit || c = '_'
  let whole ← plainDigits? whole
  let (fraction, rest) ← match rest with
    | '.' :: rest => do
      let (fraction, rest) := rest.span fun c => c.isDigit || c = '_'
      pure (some (← ungroup? Char.isDigit fraction), rest)
    | rest => pure (none, rest)
  let exponent : Option Int ← match rest with
    | [] => pure none
    | mark :: rest => do
      guard (mark = 'e' || mark = 'E')
      let (below, digits) := match rest with
        | '-' :: rest => (true, rest)
        | '+' :: rest => (false, rest)
        | rest => (false, rest)
      let n : Int := inBase 10 (← ungroup? Char.isDigit digits)
      pure (some (if below then -n else n))
  match fraction, exponent with
  | none, none =>
    let n : Int := inBase 10 whole
    wholeValue? (if negative then -n else n)
  | fraction, exponent =>
    let fraction := fraction.getD []
    let x := Numeric.nearestDecimal negative (inBase 10 (whole ++ fraction))
      (exponent.getD 0 - fraction.length)
    guard x.isFinite
    return .float x

/-- The value of a number; there is none for digits that are too large. Infinities and what is no number have none. -/
def number? (s : List Char) : Option Json.Value :=
  match s with
  | '0' :: 'x' :: rest => based? 16 rest
  | '0' :: 'o' :: rest => based? 8 rest
  | '0' :: 'b' :: rest => based? 2 rest
  | s =>
    let (negative, s) := match s with
      | '-' :: rest => (true, rest)
      | '+' :: rest => (false, rest)
      | s => (false, s)
    if s = ['i', 'n', 'f'] ∨ s = ['n', 'a', 'n'] then some .null else decimal? negative s

/-! ## Dates -/

/-- Reads a number of exactly so many digits in a range. -/
def readField (count low high : Nat) (s : List Char) : Reading (Nat × List Char) :=
  let digits := s.take count
  let n := inBase 10 digits
  if digits.length = count ∧ digits.all Char.isDigit ∧ low ≤ n ∧ n ≤ high then
    .ok (n, s.drop count)
  else .error s

/-- Goes past a character. -/
def expect (c : Char) (s : List Char) : Reading (List Char) :=
  match s with
  | d :: rest => if c = d then .ok rest else .error s
  | [] => .error []

/-- How many days a month has. -/
def daysIn (year month : Nat) : Nat :=
  if month = 2 then
    if year % 4 = 0 ∧ (year % 100 ≠ 0 ∨ year % 400 = 0) then 29 else 28
  else if month = 4 ∨ month = 6 ∨ month = 9 ∨ month = 11 then 30
  else 31

/-- Goes past a time of day. -/
def skipTime (s : List Char) : Reading (List Char) := do
  let (_, s) ← readField 2 0 23 s
  let (_, s) ← readField 2 0 59 (← expect ':' s)
  let (_, s) ← readField 2 0 60 (← expect ':' s)
  match s with
  | '.' :: rest =>
    match rest with
    | c :: _ => if c.isDigit then return rest.dropWhile Char.isDigit else throw rest
    | [] => throw rest
  | s => return s

/-- Goes past the distance from universal time, if one stands here. -/
def skipOffset (s : List Char) : Reading (List Char) :=
  match s with
  | 'Z' :: rest | 'z' :: rest => .ok rest
  | '+' :: rest | '-' :: rest => do
    let (_, rest) ← readField 2 0 23 rest
    let (_, rest) ← readField 2 0 59 (← expect ':' rest)
    return rest
  | s => .ok s

/-- Goes past a date and the time of day that may follow it. -/
def skipDate (s : List Char) : Reading (List Char) := do
  let (year, s) ← readField 4 0 9999 s
  let (month, s) ← readField 2 1 12 (← expect '-' s)
  let (_, s) ← readField 2 1 (daysIn year month) (← expect '-' s)
  match s with
  | 'T' :: rest | 't' :: rest => skipOffset (← skipTime rest)
  | ' ' :: d :: rest => if d.isDigit then skipOffset (← skipTime (d :: rest)) else return s
  | s => return s

/-- The name of the one member that stands for a date. -/
def dateKey : String := "$__toml_private_datetime"

/-- Whether a date or a time of day starts here. -/
def startsDate (s : List Char) : Bool :=
  let digits := s.takeWhile Char.isDigit
  match digits.length, s.drop digits.length with
  | 4, '-' :: _ => true
  | 2, ':' :: _ => true
  | _, _ => false

/-- Reads a date or a time of day. -/
def readDate (s : List Char) : Reading (Json.Value × List Char) := do
  let rest ← if (s.drop 2).head? = some ':' then skipTime s else skipDate s
  let text := String.ofList (s.take (s.length - rest.length))
  return (.object [(dateKey, .string text)], rest)

/-- A character of numbers. -/
def isNumberChar (c : Char) : Bool :=
  c.isAlphanum || c = '_' || c = '+' || c = '-' || c = '.'

/-- Reads a number, a date or a time of day. -/
def readNumber (s : List Char) : Reading (Json.Value × List Char) :=
  if startsDate s then readDate s
  else
    let (token, rest) := s.span isNumberChar
    match number? token with
    | some v => .ok (v, rest)
    | none => .error s

end ScriptWorker.Toml

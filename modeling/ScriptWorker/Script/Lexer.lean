import ScriptWorker.Script.Token

/-!
# From bytes to tokens

A program is read a token at a time. Blanks and comments stand between tokens; a line break is
one byte or the two different ones of a pair. Each reader gets the bytes that are left and the
line it is on, and gives what it read with the bytes and the line after it.
-/

set_option autoImplicit false

namespace ScriptWorker.Script.Lexer

/-- What is left of the program, and its line. -/
structure Rest where
  bytes : List UInt8
  line : Nat

/-- A token's spelling so far, last byte first. -/
abbrev Buffer := List UInt8

/-- The bytes after a line break; the other byte of a pair goes with it. -/
def afterBreak (b : UInt8) (rest : List UInt8) : List UInt8 :=
  match rest with
  | c :: more => if isLineBreak c && c != b then more else rest
  | [] => []

/-- An error near what has been read of a token. -/
def failNear {α : Type} (line : Nat) (message : String) (buffer : Buffer) :
    Except SyntaxError α :=
  .error (.nearText line message (quoted buffer.reverse.toByteArray))

/-- An error at the end of the program. -/
def failAtEnd {α : Type} (line : Nat) (message : String) : Except SyntaxError α :=
  .error (.nearText line message (Script.bytes "<eof>"))

/-! ## Numerals -/

/-- Whether a byte marks an exponent. -/
def isExponentMark (hex : Bool) (b : UInt8) : Bool :=
  if hex then b == byte 'p' || b == byte 'P' else b == byte 'e' || b == byte 'E'

/-- Gathers the bytes that a numeral may hold. -/
def numeralFrom (hex : Bool) (buffer : Buffer) : List UInt8 → Buffer × List UInt8
  | [] => (buffer, [])
  | b :: rest =>
    if isExponentMark hex b then
      match rest with
      | s :: more =>
        if s = byte '+' ∨ s = byte '-' then numeralFrom hex (s :: b :: buffer) more
        else numeralFrom hex (b :: buffer) (s :: more)
      | [] => (b :: buffer, [])
    else if isHexByte b || b == byte '.' then numeralFrom hex (b :: buffer) rest
    else (buffer, b :: rest)

/-- Gathers the bytes of a numeral from its first one on. -/
def gatherNumeral (buffer : Buffer) : List UInt8 → Buffer × List UInt8
  | 48 :: x :: rest =>
    if x = byte 'x' ∨ x = byte 'X' then numeralFrom true (x :: 48 :: buffer) rest
    else numeralFrom false (48 :: buffer) (x :: rest)
  | b :: rest => numeralFrom false (b :: buffer) rest
  | [] => (buffer, [])

/-- Takes along a letter that touches a numeral. -/
def takeLetter : Buffer × List UInt8 → Buffer × List UInt8
  | (buffer, b :: rest) => if isNameStart b then (b :: buffer, rest) else (buffer, b :: rest)
  | (buffer, []) => (buffer, [])

/-- Reads a numeral; `buffer` may hold a point in front of it. A letter that touches it spoils
it. -/
def readNumeral (buffer : Buffer) (s : Rest) : Except SyntaxError (Token × Rest) :=
  let (buffer, rest) := takeLetter (gatherNumeral buffer s.bytes)
  match Number.ofBytes? buffer.reverse with
  | some n => .ok (⟨.number n, s.line, buffer.reverse.toByteArray⟩, ⟨rest, s.line⟩)
  | none => failNear s.line "malformed number" buffer

/-! ## Long brackets -/

/-- Reads `=` signs and the bracket that closes their row. The level is the number of signs if
that bracket is there. -/
def readLevel (bracket : UInt8) (buffer : Buffer) (count : Nat) :
    List UInt8 → Option Nat × Nat × Buffer × List UInt8
  | [] => (none, count, buffer, [])
  | b :: rest =>
    if b = byte '=' then readLevel bracket (b :: buffer) (count + 1) rest
    else if b = bracket then (some count, count, buffer, b :: rest)
    else (none, count, buffer, b :: rest)

/-- Reads a long string or comment after its opening. `text` gathers the contents and `buffer`
the spelling, both last byte first. -/
def readLong (what : String) (start level : Nat) :
    Nat → Buffer → Buffer → Rest → Except SyntaxError (Bytes × Buffer × Rest)
  | 0, _, _, s => failAtEnd s.line what
  | fuel + 1, text, buffer, s =>
    match s.bytes with
    | [] =>
      failAtEnd s.line ("unfinished long " ++ what ++ " (starting at line " ++ toString start ++ ")")
    | b :: rest =>
      if b = byte ']' then
        match readLevel (byte ']') (b :: buffer) 0 rest with
        | (some n, _, buffer', more) =>
          if n = level then
            .ok (text.reverse.toByteArray, byte ']' :: buffer', ⟨more.drop 1, s.line⟩)
          else
            readLong what start level fuel (List.replicate n (byte '=') ++ b :: text) buffer'
              ⟨more, s.line⟩
        | (none, n, buffer', more) =>
          readLong what start level fuel (List.replicate n (byte '=') ++ b :: text) buffer'
            ⟨more, s.line⟩
      else if isLineBreak b then
        readLong what start level fuel (0x0A :: text) (0x0A :: buffer)
          ⟨afterBreak b rest, s.line + 1⟩
      else readLong what start level fuel (b :: text) (b :: buffer) ⟨rest, s.line⟩

/-- Reads a long string or comment after its opening, without a line break that follows it. -/
def readLongBody (size : Nat) (what : String) (level : Nat) (buffer : Buffer) (s : Rest) :
    Except SyntaxError (Bytes × Buffer × Rest) :=
  let start := s.line
  let s := match s.bytes with
    | b :: rest => if isLineBreak b then ⟨afterBreak b rest, s.line + 1⟩ else s
    | [] => s
  readLong what start level size [] buffer s

/-! ## Short strings -/

/-- A refused escape: the byte it stops at is quoted with it. -/
def failEscape {α : Type} (line : Nat) (message : String) (buffer : Buffer)
    (rest : List UInt8) : Except SyntaxError α :=
  failNear line message (rest.take 1 ++ buffer)

/-- Reads decimal digits of an escape, at most `n`. -/
def readDecimal : Nat → Nat → Buffer → List UInt8 → Nat × Buffer × List UInt8
  | 0, value, buffer, rest => (value, buffer, rest)
  | n + 1, value, buffer, rest =>
    match rest with
    | b :: more =>
      if isDigitByte b then readDecimal n (value * 10 + (b.toNat - 48)) (b :: buffer) more
      else (value, buffer, rest)
    | [] => (value, buffer, rest)

/-- Reads further hexadecimal digits of a code point. -/
def readPoint (line : Nat) (value : Nat) (buffer : Buffer) :
    List UInt8 → Except SyntaxError (Nat × Buffer × List UInt8)
  | [] => .ok (value, buffer, [])
  | b :: rest =>
    if isHexByte b then
      if value ≤ 0x7FFFFFFF / 16 then
        readPoint line (value * 16 + hexValue b) (b :: buffer) rest
      else failEscape line "UTF-8 value too large" buffer (b :: rest)
    else .ok (value, buffer, b :: rest)

/-- What an escape gives: bytes for the string, and the rest. -/
abbrev Escaped := List UInt8 × Rest

/-- The byte that a backslash with one more byte stands for. -/
def letterEscape? (b : UInt8) : Option UInt8 :=
  match Char.ofNat b.toNat with
  | 'a' => some 0x07
  | 'b' => some 0x08
  | 'f' => some 0x0C
  | 'n' => some 0x0A
  | 'r' => some 0x0D
  | 't' => some 0x09
  | 'v' => some 0x0B
  | '\\' | '"' | '\'' => some b
  | _ => none

/-- Reads the two hexadecimal digits of a byte. -/
def readByteEscape (buffer : Buffer) (s : Rest) : Except SyntaxError Escaped :=
  match s.bytes with
  | [] => failEscape s.line "hexadecimal digit expected" buffer []
  | h :: rest =>
    if isHexByte h then
      match rest with
      | [] => failEscape s.line "hexadecimal digit expected" (h :: buffer) []
      | l :: rest =>
        if isHexByte l then .ok ([(hexValue h * 16 + hexValue l).toUInt8], ⟨rest, s.line⟩)
        else failEscape s.line "hexadecimal digit expected" (h :: buffer) (l :: rest)
    else failEscape s.line "hexadecimal digit expected" buffer (h :: rest)

/-- Reads the hexadecimal digits of a code point, in braces. -/
def readPointEscape (buffer : Buffer) (s : Rest) : Except SyntaxError Escaped :=
  match s.bytes with
  | 0x7B :: rest =>
    match rest with
    | [] => failEscape s.line "hexadecimal digit expected" (0x7B :: buffer) []
    | h :: more =>
      if isHexByte h then
        match readPoint s.line (hexValue h) (h :: 0x7B :: buffer) more with
        | .error e => .error e
        | .ok (value, _, 0x7D :: rest) => .ok (encodePoint value, ⟨rest, s.line⟩)
        | .ok (_, buffer, rest) => failEscape s.line "missing '\x7d'" buffer rest
      else failEscape s.line "hexadecimal digit expected" (0x7B :: buffer) rest
  | rest => failEscape s.line "missing '\x7b'" buffer rest

/-- Reads up to three decimal digits of a byte. -/
def readDecimalEscape (buffer : Buffer) (s : Rest) : Except SyntaxError Escaped :=
  let (value, buffer, rest) := readDecimal 3 0 buffer s.bytes
  if value ≤ 255 then .ok ([value.toUInt8], ⟨rest, s.line⟩)
  else failEscape s.line "decimal escape too large" buffer rest

/-- Reads an escape after its backslash; `buffer` ends with that backslash. -/
def readEscape (buffer : Buffer) (s : Rest) : Except SyntaxError Escaped :=
  match s.bytes with
  | [] => .ok ([], s)
  | b :: rest =>
    match letterEscape? b with
    | some c => .ok ([c], ⟨rest, s.line⟩)
    | none =>
      if isLineBreak b then .ok ([0x0A], ⟨afterBreak b rest, s.line + 1⟩)
      else if b = byte 'x' then readByteEscape (b :: buffer) ⟨rest, s.line⟩
      else if b = byte 'u' then readPointEscape (b :: buffer) ⟨rest, s.line⟩
      else if isDigitByte b then readDecimalEscape buffer ⟨b :: rest, s.line⟩
      else failEscape s.line "invalid escape sequence" buffer (b :: rest)

/-- Skips blanks, counting lines. -/
def skipBlanks : Nat → Rest → Rest
  | 0, s => s
  | fuel + 1, s =>
    match s.bytes with
    | b :: rest =>
      if isLineBreak b then skipBlanks fuel ⟨afterBreak b rest, s.line + 1⟩
      else if isBlankByte b then skipBlanks fuel ⟨rest, s.line⟩
      else s
    | [] => s

/-- Reads a string after its opening quote. `buffer` holds that quote and the contents so far. -/
def readString (quote : UInt8) :
    Nat → Buffer → Rest → Except SyntaxError (Buffer × Rest)
  | 0, _, s => failAtEnd s.line "unfinished string"
  | fuel + 1, buffer, s =>
    match s.bytes with
    | [] => failAtEnd s.line "unfinished string"
    | b :: rest =>
      if b = quote then .ok (b :: buffer, ⟨rest, s.line⟩)
      else if isLineBreak b then failNear s.line "unfinished string" buffer
      else if b = byte '\\' then
        match rest with
        | 0x7A :: rest => readString quote fuel buffer (skipBlanks fuel ⟨rest, s.line⟩)
        | rest => do
          let (contents, s) ← readEscape (b :: buffer) ⟨rest, s.line⟩
          readString quote fuel (contents.reverse ++ buffer) s
      else readString quote fuel (b :: buffer) ⟨rest, s.line⟩

/-! ## Tokens -/

/-- A mark that is read. -/
def markAt (m : Mark) (rest : List UInt8) (line : Nat) : Except SyntaxError (Token × Rest) :=
  .ok (⟨.mark m, line, Script.bytes m.text⟩, ⟨rest, line⟩)

/-- A single byte that is read. -/
def charAt (b : UInt8) (rest : List UInt8) (line : Nat) : Except SyntaxError (Token × Rest) :=
  .ok (⟨.char (Char.ofNat b.toNat), line, [b].toByteArray⟩, ⟨rest, line⟩)

/-- The level of the long bracket that opens here, and what follows it. -/
def longOpening? : List UInt8 → Option (Nat × List UInt8)
  | [] => none
  | b :: rest =>
    if b = byte '[' then
      match readLevel (byte '[') [] 0 rest with
      | (some level, _, _, more) => some (level, more.drop 1)
      | (none, _) => none
    else none

/-- Skips a comment after its two dashes. -/
def skipComment (size : Nat) (s : Rest) : Except SyntaxError Rest :=
  match longOpening? s.bytes with
  | some (level, rest) =>
    match readLongBody size "comment" level [] ⟨rest, s.line⟩ with
    | .error e => .error e
    | .ok (_, _, s) => .ok s
  | none => .ok ⟨s.bytes.dropWhile (!isLineBreak ·), s.line⟩

/-- Reads a long string, or the single bracket that does not start one. -/
def readBracket (size : Nat) (b : UInt8) (rest : List UInt8) (line : Nat) :
    Except SyntaxError (Token × Rest) :=
  match readLevel b [b] 0 rest with
  | (some level, _, buffer, more) =>
    match readLongBody size "string" level (b :: buffer) ⟨more.drop 1, line⟩ with
    | .error e => .error e
    | .ok (text, buffer, s) => .ok (⟨.string text, s.line, buffer.reverse.toByteArray⟩, s)
  | (none, 0, _, _) => charAt b rest line
  | (none, _, buffer, _) => failNear line "invalid long string delimiter" buffer

/-- Reads a string in quotes. -/
def readQuoted (size : Nat) (quote : UInt8) (rest : List UInt8) (line : Nat) :
    Except SyntaxError (Token × Rest) :=
  match readString quote size [quote] ⟨rest, line⟩ with
  | .error e => .error e
  | .ok (buffer, s) =>
    let spelling := buffer.reverse
    let text := (spelling.drop 1).dropLast
    .ok (⟨.string text.toByteArray, s.line, spelling.toByteArray⟩, s)

/-- The longest operator of more than one byte that comes next, and what follows it. -/
def operator? (s : List UInt8) : Option (Mark × List UInt8) :=
  (Mark.operators.find? fun m => m.spelling.isPrefixOf s).map fun m =>
    (m, s.drop m.spelling.length)

/-- Reads a name or a reserved word. -/
def readName (s : List UInt8) (line : Nat) : Token × Rest :=
  let (name, rest) := s.span isNameByte
  let name := name.toByteArray
  match Mark.ofWord? name with
  | some m => (⟨.mark m, line, Script.bytes m.text⟩, ⟨rest, line⟩)
  | none => (⟨.name name, line, name⟩, ⟨rest, line⟩)

/-- Reads what starts with a byte that is neither blank nor the start of a comment. -/
def readVisible (size : Nat) (b : UInt8) (rest : List UInt8) (line : Nat) :
    Except SyntaxError (Token × Rest) :=
  if b = byte '[' then readBracket size b rest line
  else if b = byte '"' ∨ b = byte '\'' then readQuoted size b rest line
  else
    match operator? (b :: rest) with
    | some (m, rest) => markAt m rest line
    | none =>
      if isDigitByte b then readNumeral [] ⟨b :: rest, line⟩
      else if b = byte '.' ∧ rest.head?.any isDigitByte then readNumeral [b] ⟨rest, line⟩
      else if isNameStart b then .ok (readName (b :: rest) line)
      else charAt b rest line

/-- Reads the next token; `size` bounds the length of the program. -/
def next (size : Nat) : Nat → Rest → Except SyntaxError (Token × Rest)
  | 0, s => .ok (⟨.eof, s.line, .empty⟩, s)
  | fuel + 1, s =>
    match s.bytes with
    | [] => .ok (⟨.eof, s.line, .empty⟩, s)
    | b :: rest =>
      if isLineBreak b then next size fuel ⟨afterBreak b rest, s.line + 1⟩
      else if isBlankByte b then next size fuel ⟨rest, s.line⟩
      else if b = byte '-' then
        match rest with
        | 0x2D :: rest =>
          match skipComment size ⟨rest, s.line⟩ with
          | .ok s => next size fuel s
          | .error e => .error e
        | rest => charAt b rest s.line
      else readVisible size b rest s.line

/-- The tokens of a program, and the error that ends them, if one does. The end of the program is
no token. -/
def tokensFrom (size : Nat) :
    Nat → List Token → Rest → List Token × Option SyntaxError × Nat
  | 0, out, s => (out.reverse, none, s.line)
  | fuel + 1, out, s =>
    match next size size s with
    | .error e => (out.reverse, some e, s.line)
    | .ok (⟨.eof, _, _⟩, s) => (out.reverse, none, s.line)
    | .ok (token, s) => tokensFrom size fuel (token :: out) s

/-- The tokens of a program, the error that ends them, and the line of the end. -/
def tokens (program : List UInt8) : List Token × Option SyntaxError × Nat :=
  let size := program.length + 1
  tokensFrom size size [] ⟨program, 1⟩

end ScriptWorker.Script.Lexer

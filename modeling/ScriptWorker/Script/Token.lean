import ScriptWorker.Script.Numeral

/-!
# Tokens

The tokens of a program, and the errors that name them.
-/

set_option autoImplicit false

namespace ScriptWorker.Script

/-- Reserved words and operators of more than one character. -/
inductive Mark where
  | and | break | do | else | elseif | end | false | for | function | goto | if | in | local
  | nil | not | or | repeat | return | then | true | until | while
  | floorDiv | concat | dots | eq | ge | le | ne | shl | shr | doubleColon
  deriving DecidableEq

namespace Mark

/-- The spelling of a mark. -/
def text : Mark → String
  | .and => "and" | .break => "break" | .do => "do" | .else => "else" | .elseif => "elseif"
  | .end => "end" | .false => "false" | .for => "for" | .function => "function"
  | .goto => "goto" | .if => "if" | .in => "in" | .local => "local" | .nil => "nil"
  | .not => "not" | .or => "or" | .repeat => "repeat" | .return => "return" | .then => "then"
  | .true => "true" | .until => "until" | .while => "while"
  | .floorDiv => "//" | .concat => ".." | .dots => "..." | .eq => "==" | .ge => ">="
  | .le => "<=" | .ne => "~=" | .shl => "<<" | .shr => ">>" | .doubleColon => "::"

/-- The reserved words. -/
def words : List Mark :=
  [.and, .break, .do, .else, .elseif, .end, .false, .for, .function, .goto, .if, .in, .local,
    .nil, .not, .or, .repeat, .return, .then, .true, .until, .while]

/-- The operators of more than one character, a longer one in front of those that start it. -/
def operators : List Mark :=
  [.dots, .concat, .floorDiv, .eq, .ge, .le, .ne, .shl, .shr, .doubleColon]

/-- The bytes of a mark. -/
def spelling (m : Mark) : List UInt8 := (bytes m.text).data.toList

/-- The reserved words by their bytes. -/
def spelled : List (Bytes × Mark) := words.map fun m => (bytes m.text, m)

/-- The reserved word of a spelling. -/
def ofWord? (name : Bytes) : Option Mark := (spelled.find? (·.1 == name)).map (·.2)

end Mark

/-- What a token is. -/
inductive Kind where
  | name (s : Bytes)
  | string (s : Bytes)
  | number (n : Number)
  | mark (m : Mark)
  /-- Any other byte, as the character of that code. -/
  | char (c : Char)
  | eof

/-- A token, with the line on which it ends and its text as error messages quote it. -/
structure Token where
  kind : Kind
  line : Nat
  spelling : Bytes

/-- Words in quotes, up to a zero byte. -/
def quoted (s : Bytes) : Bytes := bytes "'" ++ upToZero s ++ bytes "'"

/-- The name of a byte in messages. -/
def charText (c : Char) : Bytes :=
  if isShown c.toNat.toUInt8 then bytes (String.ofList ['\'', c, '\''])
  else bytes ("'<\\" ++ toString c.toNat ++ ">'")

/-- The name of a token in messages. -/
def Token.near (t : Token) : Bytes :=
  match t.kind with
  | .name _ | .string _ | .number _ => quoted t.spelling
  | .mark m => bytes ("'" ++ m.text ++ "'")
  | .char c => charText c
  | .eof => bytes "<eof>"

/-- Why a program is refused: the line and the words, or a message without a place. -/
inductive SyntaxError where
  | at (line : Nat) (message : Bytes)
  | bare (message : Bytes)

/-- An error near a token. -/
def SyntaxError.nearText (line : Nat) (message : String) (near : Bytes) : SyntaxError :=
  .at line (bytes message ++ bytes " near " ++ near)

/-- The wording of the error, in a chunk of the given name. -/
def SyntaxError.message (chunk : Bytes) : SyntaxError → Bytes
  | .at line message => chunk ++ bytes (":" ++ toString line ++ ": ") ++ message
  | .bare message => message

end ScriptWorker.Script

import ScriptWorker.Script.System

/-!
# A system in memory

A host keeps its files in memory. It starts no other programs, its clock stands still, and it knows
no calendar and no locale but the usual one. Code that is kept outside stays as it is.
-/

set_option autoImplicit false

namespace ScriptWorker.Script

/-- An open file. -/
structure OpenFile where
  /-- The contents, by their number. -/
  contents : Nat
  position : Nat
  reads : Bool
  writes : Bool
  /-- Whether everything is written at the end. -/
  appends : Bool

/-- What a host remembers. -/
structure Host where
  environment : List (Bytes × Bytes)
  /-- The contents that names stand for. -/
  names : List (Bytes × Nat)
  contents : Array Bytes
  /-- The files that have been opened; closed ones leave a gap. -/
  opened : Array (Option OpenFile)
  /-- The code that is kept outside. -/
  kept : Array Proto

namespace Host

/-- A host without files, on which programs start with the given variables. -/
def empty (environment : List (Bytes × Bytes)) : Host where
  environment := environment
  names := []
  contents := #[.empty, .empty, .empty]
  opened := #[some ⟨0, 0, true, false, false⟩, some ⟨1, 0, false, true, true⟩,
    some ⟨2, 0, false, true, true⟩]
  kept := #[]

/-! ## Failures -/

def notFound : SystemError := ⟨bytes "No such file or directory", 2⟩
def notOpen : SystemError := ⟨bytes "Bad file descriptor", 9⟩
def unavailable : SystemError := ⟨bytes "Resource temporarily unavailable", 11⟩
def badPosition : SystemError := ⟨bytes "Invalid argument", 22⟩

/-! ## Opening and closing -/

/-- An open file by its number. -/
def file? (h : Host) (n : Nat) : Option OpenFile := (h.opened[n]?).join

/-- Makes new contents, with a name if there is one. -/
def make (h : Host) (name : Option Bytes) : Nat × Host :=
  let n := h.contents.size
  let names := match name with
    | some name => (name, n) :: h.names
    | none => h.names
  (n, { h with names, contents := h.contents.push .empty })

/-- Notes that a file has been opened. -/
def note (h : Host) (f : OpenFile) : Except SystemError Nat × Host :=
  (.ok h.opened.size, { h with opened := h.opened.push (some f) })

/-- Opens a file in a mode, which starts with `r`, `w` or `a`. -/
def openFile (h : Host) (name mode : Bytes) : Except SystemError Nat × Host :=
  let letter := byteAt? mode 0
  let updates := mode.data.toList.contains (byte '+')
  match h.names.lookup name with
  | some n =>
    if letter = some (byte 'r') then note h ⟨n, 0, true, updates, false⟩
    else if letter = some (byte 'w') then
      note { h with contents := h.contents.set! n .empty } ⟨n, 0, updates, true, false⟩
    else note h ⟨n, 0, updates, true, true⟩
  | none =>
    if letter = some (byte 'r') then (.error notFound, h)
    else
      let (n, h) := h.make (some name)
      note h ⟨n, 0, updates, true, letter = some (byte 'a')⟩

/-- Does something with an open file, which is then left as said. -/
def withFile {α : Type} (h : Host) (n : Nat)
    (f : OpenFile → Except SystemError α × Option OpenFile × Array Bytes) :
    Except SystemError α × Host :=
  match h.file? n with
  | some o =>
    let (result, o, contents) := f o
    (result, { h with opened := h.opened.set! n o, contents })
  | none => (.error notOpen, h)

/-! ## Reading and writing -/

/-- The digits at the start of a text, and what follows them. -/
def digits (hexadecimal : Bool) (s : List UInt8) : List UInt8 × List UInt8 :=
  if hexadecimal then s.span isHexByte else s.span isDigitByte

/-- A byte at the start of a text that is one of some, and what follows it. -/
def oneOf (wanted : List Char) : List UInt8 → List UInt8 × List UInt8
  | b :: rest => if wanted.any (byte · == b) then ([b], rest) else ([], b :: rest)
  | [] => ([], [])

/-- The longest start of a text with which a numeral could start. -/
def numeralStart (s : List UInt8) : List UInt8 :=
  let (sign, s) := oneOf ['+', '-'] s
  let (zero, s) := oneOf ['0'] s
  let (mark, s) := if zero.isEmpty then ([], s) else oneOf ['x', 'X'] s
  let hexadecimal := !mark.isEmpty
  let (whole, s) := digits hexadecimal s
  let (point, s) := oneOf ['.'] s
  let (part, s) := if point.isEmpty then ([], s) else digits hexadecimal s
  let before := sign ++ zero ++ mark ++ whole ++ point ++ part
  if zero.isEmpty && whole.isEmpty && part.isEmpty then before
  else
    let (exponent, s) := oneOf (if hexadecimal then ['p', 'P'] else ['e', 'E']) s
    if exponent.isEmpty then before
    else
      let (sign, s) := oneOf ['+', '-'] s
      before ++ exponent ++ sign ++ (digits false s).1

/-- What is read where the given text is left, and how many bytes that takes. -/
def readLeft (format : ReadFormat) (left : List UInt8) : Option Bytes × Nat :=
  match format with
  | .all => (some left.toByteArray, left.length)
  | .bytes count =>
    if left.isEmpty then (none, 0)
    else ((some (left.take count).toByteArray), min count left.length)
  | .line keepEnd =>
    let (line, rest) := left.span (· != 0x0A)
    match rest with
    | _ :: _ =>
      (some (if keepEnd then line ++ [0x0A] else line).toByteArray, line.length + 1)
    | [] => (if line.isEmpty then none else some line.toByteArray, line.length)
  | .numeral =>
    let (blank, rest) := left.span isBlankByte
    let numeral := numeralStart rest
    (some numeral.toByteArray, blank.length + numeral.length)

/-- Reads from an open file. -/
def readFile (h : Host) (n : Nat) (format : ReadFormat) :
    Except SystemError (Option Bytes) × Host :=
  h.withFile n fun o =>
    if o.reads then
      let left := (h.contents.getD o.contents .empty).data.toList.drop o.position
      let (found, taken) := readLeft format left
      (.ok found, some { o with position := o.position + taken }, h.contents)
    else (.error notOpen, some o, h.contents)

/-- Contents with a text at a position; a gap is filled with zeros. -/
def writeAt (contents : List UInt8) (position : Nat) (text : List UInt8) : List UInt8 :=
  contents.take position ++ List.replicate (position - contents.length) 0 ++ text ++
    contents.drop (position + text.length)

/-- Writes to an open file. -/
def writeFile (h : Host) (n : Nat) (text : Bytes) : Except SystemError Unit × Host :=
  h.withFile n fun o =>
    if o.writes then
      let old := (h.contents.getD o.contents .empty).data.toList
      let position := if o.appends then old.length else o.position
      let new := (writeAt old position text.data.toList).toByteArray
      (.ok (), some { o with position := position + text.size }, h.contents.set! o.contents new)
    else (.error notOpen, some o, h.contents)

/-- Moves in an open file. -/
def seekFile (h : Host) (n : Nat) (whence : String) (offset : Int64) :
    Except SystemError Int64 × Host :=
  h.withFile n fun o =>
    let start : Nat :=
      if whence = "set" then 0
      else if whence = "cur" then o.position
      else (h.contents.getD o.contents .empty).size
    let position : Int := start + offset.toInt
    if position < 0 then (.error badPosition, some o, h.contents)
    else (.ok (Int64.ofInt position), some { o with position := position.toNat }, h.contents)

/-! ## Answers -/

/-- A name that has not been given before. -/
def freshName (h : Host) : Bytes := bytes ("/tmp/lua_" ++ toString h.contents.size)

/-- Whether a name is one of the usual locale. -/
def isUsualLocale (name : Bytes) : Bool :=
  name == .empty || name == bytes "C" || name == bytes "POSIX"

/-- The answer to a request, and what the host then remembers. -/
def respond (h : Host) : (r : Request) → r.Answer × Host
  | .clock => (0, h)
  | .now => (0, h)
  | .calendar .. => (none, h)
  | .moment c => ((none, c), h)
  | .formatTime .. => (.empty, h)
  | .seed => ((0, 0), h)
  | .variable name => (h.environment.lookup name, h)
  | .locale _ none => (some (bytes "C"), h)
  | .locale _ (some name) => (if isUsualLocale name then some (bytes "C") else none, h)
  | .hasShell => (false, h)
  | .execute _ => (.ok (.exited 127), h)
  | .exit _ => ((), h)
  | .remove name =>
    match h.names.lookup name with
    | some _ => (.ok (), { h with names := h.names.filter (·.1 != name) })
    | none => (.error notFound, h)
  | .rename old new =>
    match h.names.lookup old with
    | some n =>
      let others := h.names.filter fun (name, _) => name != old && name != new
      (.ok (), { h with names := (new, n) :: others })
    | none => (.error notFound, h)
  | .temporaryName =>
    let name := h.freshName
    (some name, (h.make (some name)).2)
  | .open name mode => h.openFile name mode
  | .start .. => (.error unavailable, h)
  | .temporaryFile =>
    let (n, h) := h.make none
    h.note ⟨n, 0, true, true, false⟩
  | .close file => h.withFile file fun _ => (.ok (), none, h.contents)
  | .finish _ => (.error notOpen, h)
  | .read file format => h.readFile file format
  | .write file text => h.writeFile file text
  | .seek file whence offset => h.seekFile file whence offset
  | .buffer file .. => h.withFile file fun o => (.ok (), some o, h.contents)
  | .flush file => h.withFile file fun o => (.ok (), some o, h.contents)
  | .dump code _ => (bytes (toString h.kept.size), { h with kept := h.kept.push code })
  | .undump form =>
    (((String.fromUTF8? form).bind String.toNat?).bind (h.kept[·]?), h)

/-- The system that a host is. -/
def system (h : Host) : System := .ofState respond h

end Host

/-- A system without files and without variables. -/
def System.bare : System := (Host.empty []).system

end ScriptWorker.Script

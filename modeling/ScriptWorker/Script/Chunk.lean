import ScriptWorker.Script.Compile
import ScriptWorker.Script.Grammar
import ScriptWorker.Script.Heap

/-!
# Chunks

A chunk is a piece of source with a name. The name says in its first byte how messages show it:
after `=` as it stands, after `@` as the end of a path, and otherwise as the first line of a text.
`Chunk.load` gives the code of a chunk, or the message that refuses it.
-/

set_option autoImplicit false

namespace ScriptWorker.Script.Chunk

/-- How many bytes of a name messages show. -/
def shownLimit : Nat := 59

/-- How many bytes of a text messages show. -/
def textLimit : Nat := 45

/-- The first bytes of a string. -/
def firstBytes (n : Nat) (s : Bytes) : Bytes := s.extract 0 n

/-- A chunk's name as messages show it. -/
def shownName (name : Bytes) : Bytes :=
  let rest := name.extract 1 name.size
  match byteAt? name 0 with
  | some 0x3D => firstBytes shownLimit rest
  | some 0x40 =>
    if rest.size ≤ shownLimit then rest
    else bytes "..." ++ rest.extract (rest.size - (shownLimit - 3)) rest.size
  | _ =>
    let line := (name.data.toList.takeWhile (· != 0x0A)).toByteArray
    let shown :=
      if line.size = name.size ∧ name.size < textLimit then name
      else firstBytes textLimit line ++ bytes "..."
    bytes "[string \"" ++ shown ++ bytes "\"]"

/-! ## Compiled chunks -/

/-- The byte that starts a compiled chunk. -/
def compiledMark : UInt8 := 0x1B

/-- A part of the header of a compiled chunk: its bytes and what it means if others are there. -/
structure HeaderPart where
  expected : List UInt8
  fault : String

/-- The header of a compiled chunk after its first byte. -/
def header : List HeaderPart := [
  ⟨[0x4C, 0x75, 0x61], "not a binary chunk"⟩,
  ⟨[0x54], "version mismatch"⟩,
  ⟨[0], "format mismatch"⟩,
  ⟨[0x19, 0x93, 0x0D, 0x0A, 0x1A, 0x0A], "corrupted chunk"⟩,
  ⟨[4], "Instruction size mismatch"⟩,
  ⟨[8], "lua_Integer size mismatch"⟩,
  ⟨[8], "lua_Number size mismatch"⟩,
  ⟨[0x78, 0x56, 0, 0, 0, 0, 0, 0], "integer format mismatch"⟩,
  ⟨[0, 0, 0, 0, 0, 0x28, 0x77, 0x40], "float format mismatch"⟩]

/-- The form of a compiled chunk behind a good header, or what is wrong with the header. -/
def compiledForm : List HeaderPart → List UInt8 → Except String (List UInt8)
  | [], s => .ok s
  | part :: parts, s =>
    if s.length < part.expected.length then .error "truncated chunk"
    else if s.take part.expected.length = part.expected then
      compiledForm parts (s.drop part.expected.length)
    else .error part.fault

/-- A compiled chunk. -/
def compiled (form : Bytes) : Bytes :=
  (compiledMark :: header.flatMap (·.expected)).toByteArray ++ form

/-- A chunk's name as messages about compiled chunks show it. -/
def compiledName (name : Bytes) : Bytes :=
  match byteAt? name 0 with
  | some 0x3D | some 0x40 => name.extract 1 name.size
  | some 0x1B => bytes "binary string"
  | _ => name

/-- The message about a chunk of a kind that is not allowed. -/
def modeFault (kind : String) (mode : Bytes) : Bytes :=
  bytes ("attempt to load a " ++ kind ++ " chunk (mode is '") ++ mode ++ bytes "')"

/-- The message about a bad compiled chunk. -/
def compiledFault (name : Bytes) (fault : String) : Bytes :=
  compiledName (upToZero name) ++ bytes (": bad binary format (" ++ fault ++ ")")

/-- What is found in a chunk. -/
inductive Found where
  | code (p : Proto)
  /-- Compiled code, whose form only the system knows. -/
  | compiled (form : Bytes)
  | refused (message : Bytes)

/-- Looks at a chunk and compiles it if it is a text, at the given nesting. `mode` holds the letter
`t` where text is allowed and `b` where compiled code is. -/
def load (name source mode : Bytes) (depth : Nat) : Found :=
  let allows (c : Char) : Bool := mode.data.toList.contains (byte c)
  match source.data.toList with
  | 0x1B :: rest =>
    if allows 'b' then
      match compiledForm header rest with
      | .ok form => .compiled form.toByteArray
      | .error fault => .refused (compiledFault name fault)
    else .refused (modeFault "binary" mode)
  | s =>
    if allows 't' then
      let shown := shownName (upToZero name)
      match Grammar.program s depth with
      | .ok f => .code (Compile.program shown (16 * s.length + 64) f)
      | .error e => .refused (e.message shown)
    else .refused (modeFault "text" mode)

/-- A function for the code of a chunk, with a table of its own or shared as its environment. Other
variables that it takes along have no value. -/
def close (p : Proto) (environment : Value) (h : Heap) : Value × Heap :=
  let (cell, h) := h.newCell environment
  let rest := Array.range' h.cells.size (p.captured.size - 1)
  let h := { h with cells := h.cells ++ rest.map fun _ => Value.nil }
  let (id, h) := h.newClosure ⟨p, #[cell] ++ rest⟩
  (.closure id, h)

end ScriptWorker.Script.Chunk

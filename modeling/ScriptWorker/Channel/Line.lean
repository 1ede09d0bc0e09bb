import ScriptWorker.Text.Utf8

/-!
# Lines of a byte stream

A segment extends through the next newline, or to the end. Its line is its text without the
newline and one carriage return at the end.
-/

set_option autoImplicit false

namespace ScriptWorker.Channel

/-- The byte that ends a line. -/
def newline : UInt8 := 0x0A

/-- The segments of the bytes, given those of the segment that is open (last first) and the
finished segments (last first). -/
def segmentsFrom (done : List (List UInt8)) (open_ : List UInt8) :
    List UInt8 → List (List UInt8)
  | [] => (if open_.isEmpty then done else open_.reverse :: done).reverse
  | b :: rest =>
    if b = newline then segmentsFrom ((b :: open_).reverse :: done) [] rest
    else segmentsFrom done (b :: open_) rest

/-- The segments of the bytes in order. -/
def segments (bytes : List UInt8) : List (List UInt8) := segmentsFrom [] [] bytes

/-- Whether a segment ends with a newline. -/
def terminated (segment : List UInt8) : Bool := segment.getLast? == some newline

/-- Takes one character off the end, if it is there. -/
def dropEnd (c : Char) (s : List Char) : List Char :=
  if s.getLast? = some c then s.dropLast else s

/-- The text of a line without its terminator. -/
def stripTerminator (s : List Char) : List Char := dropEnd '\r' (dropEnd '\n' s)

/-- The line of a segment. Invalid bytes are replaced. -/
def lineOf (segment : List UInt8) : String :=
  String.ofList (stripTerminator (Text.Utf8.decodeLossy segment))

end ScriptWorker.Channel

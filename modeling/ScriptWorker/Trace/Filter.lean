import ScriptWorker.Text.Blank
import ScriptWorker.Text.Word
import ScriptWorker.Trace

/-!
# Filters of events

A filter is a list of directives with commas between them. Of the directives that concern an event,
the most specific one says down to which level events are shown. A directive has the form
`target[span\{fields\}]=level`, of which any part but one may be left out; as no event stands inside
a span, directives that name one concern no event.
-/

set_option autoImplicit false

namespace ScriptWorker.Trace

/-- The greatest level that is shown, or `none` where nothing is. -/
abbrev Threshold := Option Level

/-- The rank of a level, the one that matters most first. -/
def Level.rank : Level → Nat
  | .error => 1
  | .warn => 2
  | .info => 3
  | .debug => 4
  | .trace => 5

/-- Whether a threshold lets a level pass. -/
def Threshold.admits (t : Threshold) (l : Level) : Bool :=
  match t with
  | none => false
  | some least => decide (l.rank ≤ least.rank)

/-- The names of thresholds, in the order of their numbers. -/
def thresholds : List (String × Threshold) := [
  ("off", none), ("error", some .error), ("warn", some .warn), ("info", some .info),
  ("debug", some .debug), ("trace", some .trace)]

/-- A field that an event must have, and whether its value matters. -/
structure FieldMatch where
  name : String
  hasValue : Bool

/-- A directive. -/
structure Directive where
  threshold : Threshold
  /-- What the target starts with. -/
  target : Option String
  span : Option String
  field : Option FieldMatch

/-- Why a filter is not accepted. -/
inductive FilterFault where
  | directive
  | level

/-- The wording of a fault. -/
def FilterFault.message : FilterFault → String
  | .directive => "invalid filter directive"
  | .level => "error parsing level filter: expected one of \"off\", \"error\", \"warn\", " ++
    "\"info\", \"debug\", \"trace\", or a number 0-5"

namespace Directive

/-! ## Reading -/

/-- The threshold of a number or a name. -/
def threshold? (text : List Char) : Option Threshold :=
  let digits := match text with
    | '+' :: rest => rest
    | s => s
  if !digits.isEmpty && digits.all Char.isDigit then
    let n := digits.foldl (fun n c => 10 * n + (c.toNat - 48)) 0
    thresholds[n]?.map (·.2)
  else
    let name := String.ofList (text.map Char.toLower)
    (thresholds.find? (·.1 == name)).map (·.2)

/-- The threshold after an equals sign, where none means all levels. -/
def readThreshold (text : List Char) : Except FilterFault Threshold :=
  if text.isEmpty then .ok (some .trace)
  else
    match threshold? text with
    | some t => .ok t
    | none => .error .level

/-- Whether a directive may start with a character. -/
def canStart (c : Char) : Bool := c = '-' || c = ':' || c = '_' || Text.isWord c

/-- The place of the first character from a place on that is one of some. -/
def find? (stops s : List Char) (start : Nat) : Option Nat :=
  ((s.drop start).findIdx? stops.contains).map (start + ·)

/-- The text between two places. -/
def slice (s : List Char) (start stop : Nat) : List Char := (s.drop start).take (stop - start)

/-- A field of a directive, with what is to be its value after an equals sign. -/
def fieldOf (s : List Char) : FieldMatch :=
  let (name, rest) := s.span (· != '=')
  ⟨String.ofList name, !rest.isEmpty⟩

/-- Reads what follows the part in brackets. -/
def readAfterSpan (d : Directive) (whole s : List Char) (i : Nat) : Except FilterFault Directive :=
  match s[i]? with
  | none => .ok d
  | some '=' => do return { d with threshold := ← readThreshold (whole.drop (i + 1)) }
  | some _ => .error .directive

/-- Reads the part in brackets from a place on, and what follows it. -/
def readSpan (d : Directive) (whole s : List Char) (start : Nat) :
    Except FilterFault Directive :=
  match find? [']', '\x7b'] s start with
  | none => .error .directive
  | some i =>
    let name := slice whole start i
    if s[i]? = some ']' then
      readAfterSpan { d with span := some (String.ofList name) } whole s (i + 1)
    else
      let span := if name.isEmpty then none else some (String.ofList name)
      match find? ['\x7d'] s (i + 1) with
      | none => .error .directive
      | some j =>
        let field := slice whole (i + 1) j
        if field.isEmpty || s[j + 1]? != some ']' then .error .directive
        else readAfterSpan { d with span, field := some (fieldOf field) } whole s (j + 2)

/-- A text without the blanks around it. -/
def trim (s : List Char) : List Char :=
  ((s.dropWhile Text.isBlank).reverse.dropWhile Text.isBlank).reverse

/-- Reads a directive. Its parts are found in the text without the blanks around it, and are taken
from the same places of the text as it stands. -/
def read (text : String) : Except FilterFault Directive :=
  let whole := text.toList
  let s := trim whole
  let all : Directive := ⟨some .trace, none, none, none⟩
  match s with
  | '[' :: _ => readSpan all whole s 1
  | c :: _ =>
    if canStart c then
      match find? ['=', '['] s 0 with
      | some i =>
        let d := { all with target := some (String.ofList (slice whole 0 i)) }
        if s[i]? = some '=' then do
          return { d with threshold := ← readThreshold (whole.drop (i + 1)) }
        else readSpan d whole s (i + 1)
      | none =>
        match threshold? whole with
        | some threshold => .ok { all with threshold }
        | none => .ok { all with target := some text }
    else .error .directive
  | [] => .error .directive

/-! ## Meaning -/

/-- Whether a directive says anything about events outside spans. -/
def isStatic (d : Directive) : Bool := d.span.isNone && d.field.all (!·.hasValue)

/-- Whether a directive says anything about what stands in spans. -/
def isDynamic (d : Directive) : Bool := d.span.isSome || d.field.isSome

/-- Whether two directives concern the same events. -/
def sameScope (d e : Directive) : Bool :=
  d.target == e.target && d.field.map (·.name) == e.field.map (·.name)

/-- Whether a directive is more specific than another one: by the length of the target, then by
whether it names a field, then by that name. -/
def beats (d e : Directive) : Bool :=
  let length (d : Directive) : Nat := (d.target.map (·.utf8ByteSize + 1)).getD 0
  if length d = length e then
    match d.field, e.field with
    | some f, some g => decide (g.name < f.name)
    | some _, none => true
    | none, _ => false
  else decide (length e < length d)

/-- Whether a directive concerns an event. -/
def concerns (d : Directive) (e : Event) : Bool :=
  d.target.all (fun t => t.toList.isPrefixOf e.target.toList) &&
    d.field.all fun f => f.name == "message" || e.fields.any (·.1 == f.name)

end Directive

/-- A filter: directives about events. -/
structure Filter where
  directives : List Directive

namespace Filter

/-- Adds a directive, which takes the place of one about the same events. -/
def add (fs : List Directive) (d : Directive) : List Directive :=
  fs.filter (!d.sameScope ·) ++ [d]

/-- The filter that a text describes. One that says nothing shows errors. -/
def parse (text : String) : Except FilterFault Filter := do
  let pieces := (text.splitOn ",").filter (!·.isEmpty)
  let all ← pieces.mapM Directive.read
  let static := (all.filter fun d => !d.isDynamic) ++ all.filter Directive.isDynamic
  let static := (static.filter Directive.isStatic).foldl add []
  if static.isEmpty && !all.any Directive.isDynamic then
    return ⟨[⟨some .error, none, none, none⟩]⟩
  else return ⟨static⟩

/-- The most specific of the directives that concern an event. -/
def directiveFor? (f : Filter) (e : Event) : Option Directive :=
  (f.directives.filter (·.concerns e)).foldl
    (fun best d =>
      match best with
      | none => some d
      | some b => if d.beats b then some d else some b)
    none

/-- Whether an event is shown. -/
def admits (f : Filter) (e : Event) : Bool :=
  match f.directiveFor? e with
  | some d => d.threshold.admits e.level
  | none => false

end Filter

end ScriptWorker.Trace

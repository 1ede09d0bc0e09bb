import ScriptWorker.Script.Library.CodePoints
import ScriptWorker.Script.Library.Coroutines
import ScriptWorker.Script.Library.Mathematics
import ScriptWorker.Script.Library.Modules
import ScriptWorker.Script.Library.Packing
import ScriptWorker.Script.Library.Tables

/-!
# What the built-in functions do

`Library.start` is the parameter that the machine takes: the action of each built-in function for
its arguments.
-/

set_option autoImplicit false

namespace ScriptWorker.Script.Library

open Script.Action

def fieldOf (args : Args) : Results := do return [← getField (arg args 1) (arg args 2)]

/-! ## Traces -/

/-- What a trace of calls starts with. -/
def traceHead : Bytes := bytes "\nstack traceback:"

/-- How many calls a trace shows from its start, and how many from its end. -/
def firstShown : Nat := 10
@[inherit_doc firstShown] def lastShown : Nat := 11

/-- The name of a function in a trace. A function that a global variable leads to goes by that. -/
def siteName (h : Heap) : Site → Bytes
  | .builtin f origin =>
    match f.path?, origin with
    | some path, _ => bytes ("function '" ++ path ++ "'")
    | none, some o => bytes (o.kind.text ++ " '") ++ o.name ++ bytes "'"
    | none, none => bytes "?"
  | .script chunk _ definition origin =>
    match origin with
    | some o =>
      if o.kind = .global ∧ Heap.isFunction (h.rawGet Heap.globals (.str o.name)) = true then
        bytes "function '" ++ o.name ++ bytes "'"
      else bytes (o.kind.text ++ " '") ++ o.name ++ bytes "'"
    | none =>
      if definition = 0 then bytes "main chunk"
      else bytes "function <" ++ chunk ++ bytes (":" ++ toString definition ++ ">")

/-- The line of a call in a trace. -/
def siteLine (h : Heap) (s : Site) : Bytes :=
  let place := match s with
    | .builtin .. => bytes "[C]"
    | .script chunk line _ _ => chunk ++ bytes (":" ++ toString line)
  bytes "\n\t" ++ place ++ bytes ": in " ++ siteName h s

/-- The lines of a trace: first the handler that writes it, then the calls. Of many lines those in
the middle are skipped. -/
def traceLines (h : Heap) (sites : List Site) : Bytes :=
  let lines := bytes "\n\t[C]: in ?" :: sites.map (siteLine h)
  let shown :=
    if lines.length ≤ firstShown + lastShown + 1 then lines
    else
      let skipped := bytes ("\n\t...\t(skipping " ++
        toString (lines.length - (firstShown + lastShown + 1)) ++ " levels)")
      lines.take firstShown ++ skipped :: lines.drop (lines.length - lastShown)
  shown.foldl (· ++ ·) .empty

/-- A message up to its first zero byte, with a trace of the calls behind it. -/
def traced (h : Heap) (sites : List Site) (message : Bytes) : Bytes :=
  upToZero message ++ (traceHead ++ traceLines h sites)

/-- The text of an error with a trace; errors of the host stay as they are. -/
def describeError (args : Args) : Results := do
  match arg args 1 with
  | .fault message => return [.fault message]
  | e =>
    let message ← textOf e
    .view fun v => do return [.str (← read fun h => traced h v.sites message)]

/-- The action of a built-in function. -/
def start (b : Builtin) (memory : Nat) (args : Args) : Results :=
  match b with
  -- basic
  | .assert => assertTrue args
  | .collectgarbage => collectGarbage args
  | .dofile => doFile args
  | .error => raiseError args
  | .getmetatable => getMetatable args
  | .ipairs => itemsOf args
  | .ipairsStep => nextItem args
  | .load => loadChunk args
  | .loadfile => loadFile args
  | .next => nextEntry args
  | .pairs => pairsOf args
  | .pcall => protectedCall args
  | .print => printLine args
  | .rawequal => rawEqual args
  | .rawget => rawGet args
  | .rawlen => rawLen args
  | .rawset => rawSet args
  | .require => require args
  | .select => select args
  | .setmetatable => setMetatable args
  | .tonumber => toNumber args
  | .tostring => toText args
  | .type => typeOf args
  | .warn => warn args
  | .xpcall => protectedCallWith args
  -- coroutines
  | .coClose => coClose args
  | .coCreate => coCreate args
  | .coIsYieldable => coIsYieldable args
  | .coResume => coResume args
  | .coRunning => coRunning args
  | .coStatus => coStatus args
  | .coWrap => coWrap args
  | .coWrapped => coWrapped memory args
  | .coYield => coYield args
  -- strings
  | .strByte => strByte args
  | .strChar => strChar args
  | .strDump => dumpFunction args
  | .strFind => searchText true args
  | .strFormat => strFormat args
  | .strGmatch => strGmatch args
  | .strGmatchStep => strGmatchStep memory
  | .strGsub => strGsub args
  | .strLen => strLen args
  | .strLower => strMap lowerByte args
  | .strMatch => searchText false args
  | .strPack => strPack args
  | .strPackSize => strPackSize args
  | .strRep => strRep args
  | .strReverse => strReverse args
  | .strSub => strSub args
  | .strUnpack => strUnpack args
  | .strUpper => strMap upperByte args
  | .strAdd => strArithmetic .add "add" false args
  | .strSubtract => strArithmetic .sub "sub" false args
  | .strMul => strArithmetic .mul "mul" false args
  | .strMod => strArithmetic .mod "mod" false args
  | .strPow => strArithmetic .pow "pow" false args
  | .strDiv => strArithmetic .div "div" false args
  | .strIdiv => strArithmetic .idiv "idiv" false args
  | .strUnm => strArithmetic .sub "unm" true args
  -- tables
  | .tabConcat => tabConcat args
  | .tabInsert => tabInsert args
  | .tabMove => tabMove args
  | .tabPack => tabPack args
  | .tabRemove => tabRemove args
  | .tabSort => tabSort args
  | .tabUnpack => tabUnpack args
  -- mathematics
  | .mathAbs => mathAbs args
  | .mathAcos => onFloat Float.acos args
  | .mathAsin => onFloat Float.asin args
  | .mathAtan => mathAtan args
  | .mathCeil => mathCeil args
  | .mathCos => onFloat Float.cos args
  | .mathCosh => onFloat Float.cosh args
  | .mathDeg => onFloat (· * (180.0 / pi)) args
  | .mathExp => onFloat Float.exp args
  | .mathFloor => mathFloor args
  | .mathFmod => mathFmod args
  | .mathFrexp => mathFrexp args
  | .mathLdexp => mathLdexp args
  | .mathLog => mathLog args
  | .mathLog10 => onFloat Float.log10 args
  | .mathMax => mathMax args
  | .mathMin => mathMin args
  | .mathModf => mathModf args
  | .mathPow => mathPow args
  | .mathRad => onFloat (· * (pi / 180.0)) args
  | .mathRandom => mathRandom args
  | .mathRandomSeed => mathRandomSeed args
  | .mathSin => onFloat Float.sin args
  | .mathSinh => onFloat Float.sinh args
  | .mathSqrt => mathSqrt args
  | .mathTan => onFloat Float.tan args
  | .mathTanh => onFloat Float.tanh args
  | .mathToInteger => mathToInteger args
  | .mathType => mathType args
  | .mathUlt => mathUlt args
  -- code points
  | .utfChar => utfChar args
  | .utfCodepoint => utfCodepoint args
  | .utfCodes => utfCodes args
  | .utfLen => utfLen args
  | .utfOffset => utfOffset args
  | .utfStep => utfStep true args
  | .utfLaxStep => utfStep false args
  -- the system
  | .osClock => osClock args
  | .osDate => osDate args
  | .osDiffTime => osDiffTime args
  | .osExecute => osExecute args
  | .osExit => osExit args
  | .osGetenv => osGetenv args
  | .osRemove => osRemove args
  | .osRename => osRename args
  | .osSetLocale => osSetLocale args
  | .osTime => osTime args
  | .osTmpName => osTmpName args
  | .ioClose => ioClose args
  | .ioFlush => ioFlush args
  | .ioInput => ioInput args
  | .ioLines => ioLines args
  | .ioOpen => ioOpen args
  | .ioOutput => ioOutput args
  | .ioPopen => ioPopen args
  | .ioRead => ioRead args
  | .ioTmpFile => ioTmpFile args
  | .ioType => ioType args
  | .ioWrite => ioWrite args
  | .ioWriteMethod => ioWriteMethod args
  | .ioLinesStep => ioLinesStep memory
  | .fileClose => fileClose args
  | .fileFlush => fileFlush args
  | .fileLines => fileLines args
  | .fileRead => fileRead args
  | .fileSeek => fileSeek args
  | .fileSetBuffer => fileSetBuffer args
  | .fileWrite => fileWrite args
  | .fileFinish => fileFinish args
  | .fileText => fileText args
  -- modules
  | .packageLoadLib => packageLoadLib args
  | .packageSearchPath => packageSearchPath args
  | .packageSearcher => packageSearcher memory args
  -- for callers from outside
  | .fieldOf => fieldOf args
  | .describeError => describeError args

end ScriptWorker.Script.Library

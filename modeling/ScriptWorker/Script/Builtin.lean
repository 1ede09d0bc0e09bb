/-!
# Built-in functions

The functions that a program finds in its environment, with the names under which it finds them.
-/

set_option autoImplicit false

namespace ScriptWorker.Script

/-- A function that is not written in the language. -/
inductive Builtin where
  -- basic
  | assert | collectgarbage | dofile | error | getmetatable | ipairs | load | loadfile | next
  | pairs | pcall | print | rawequal | rawget | rawlen | rawset | require | select | setmetatable
  | tonumber | tostring | type | warn | xpcall
  /-- What `ipairs` iterates with. -/
  | ipairsStep
  -- coroutines
  | coClose | coCreate | coIsYieldable | coResume | coRunning | coStatus | coWrap | coYield
  /-- What `coroutine.wrap` gives for a coroutine. -/
  | coWrapped
  -- strings
  | strByte | strChar | strDump | strFind | strFormat | strGmatch | strGsub | strLen | strLower
  | strMatch | strPack | strPackSize | strRep | strReverse | strSub | strUnpack | strUpper
  /-- What `string.gmatch` iterates with. -/
  | strGmatchStep
  /-- The arithmetic of strings. -/
  | strAdd | strSubtract | strMul | strMod | strPow | strDiv | strIdiv | strUnm
  -- tables
  | tabConcat | tabInsert | tabMove | tabPack | tabRemove | tabSort | tabUnpack
  -- mathematics
  | mathAbs | mathAcos | mathAsin | mathAtan | mathCeil | mathCos | mathCosh | mathDeg | mathExp
  | mathFloor | mathFmod | mathFrexp | mathLdexp | mathLog | mathLog10 | mathMax | mathMin
  | mathModf | mathPow | mathRad | mathRandom | mathRandomSeed | mathSin | mathSinh | mathSqrt
  | mathTan | mathTanh | mathToInteger | mathType | mathUlt
  -- code points
  | utfChar | utfCodepoint | utfCodes | utfLen | utfOffset
  /-- What `utf8.codes` iterates with, where it is strict and where it is lax. -/
  | utfStep | utfLaxStep
  -- the system
  | osClock | osDate | osDiffTime | osExecute | osExit | osGetenv | osRemove | osRename
  | osSetLocale | osTime | osTmpName
  | ioClose | ioFlush | ioInput | ioLines | ioOpen | ioOutput | ioPopen | ioRead | ioTmpFile
  | ioType | ioWrite
  /-- The method that writes to the standard output. -/
  | ioWriteMethod
  /-- What `io.lines` iterates with. -/
  | ioLinesStep
  -- the methods of files
  | fileClose | fileFlush | fileLines | fileRead | fileSeek | fileSetBuffer | fileWrite
  /-- What closes a file that is no longer used, and what gives its text. -/
  | fileFinish | fileText
  -- modules
  | packageLoadLib | packageSearchPath | packageSearcher
  -- for callers from outside
  /-- Reads a field. -/
  | fieldOf
  /-- Turns an error into one that can leave the language. -/
  | describeError
  deriving DecidableEq

namespace Builtin

/-- The functions of a library by their names there. -/
def basic : List (String × Builtin) := [
  ("assert", .assert), ("collectgarbage", .collectgarbage), ("dofile", .dofile),
  ("error", .error), ("getmetatable", .getmetatable), ("ipairs", .ipairs), ("load", .load),
  ("loadfile", .loadfile), ("next", .next), ("pairs", .pairs), ("pcall", .pcall),
  ("print", .print), ("rawequal", .rawequal), ("rawget", .rawget), ("rawlen", .rawlen),
  ("rawset", .rawset), ("require", .require), ("select", .select),
  ("setmetatable", .setmetatable), ("tonumber", .tonumber), ("tostring", .tostring),
  ("type", .type), ("warn", .warn), ("xpcall", .xpcall)]

@[inherit_doc basic]
def coroutines : List (String × Builtin) := [
  ("close", .coClose), ("create", .coCreate), ("isyieldable", .coIsYieldable),
  ("resume", .coResume), ("running", .coRunning), ("status", .coStatus), ("wrap", .coWrap),
  ("yield", .coYield)]

@[inherit_doc basic]
def strings : List (String × Builtin) := [
  ("byte", .strByte), ("char", .strChar), ("dump", .strDump), ("find", .strFind),
  ("format", .strFormat), ("gmatch", .strGmatch), ("gsub", .strGsub), ("len", .strLen),
  ("lower", .strLower), ("match", .strMatch), ("pack", .strPack), ("packsize", .strPackSize),
  ("rep", .strRep), ("reverse", .strReverse), ("sub", .strSub), ("unpack", .strUnpack),
  ("upper", .strUpper)]

/-- The functions by which strings take part in arithmetic. -/
def stringEvents : List (String × Builtin) := [
  ("__add", .strAdd), ("__sub", .strSubtract), ("__mul", .strMul), ("__mod", .strMod),
  ("__pow", .strPow), ("__div", .strDiv), ("__idiv", .strIdiv), ("__unm", .strUnm)]

@[inherit_doc basic]
def tables : List (String × Builtin) := [
  ("concat", .tabConcat), ("insert", .tabInsert), ("move", .tabMove), ("pack", .tabPack),
  ("remove", .tabRemove), ("sort", .tabSort), ("unpack", .tabUnpack)]

@[inherit_doc basic]
def mathematics : List (String × Builtin) := [
  ("abs", .mathAbs), ("acos", .mathAcos), ("asin", .mathAsin), ("atan", .mathAtan),
  ("ceil", .mathCeil), ("cos", .mathCos), ("cosh", .mathCosh), ("deg", .mathDeg),
  ("exp", .mathExp), ("floor", .mathFloor), ("fmod", .mathFmod), ("frexp", .mathFrexp),
  ("ldexp", .mathLdexp), ("log", .mathLog), ("log10", .mathLog10), ("max", .mathMax),
  ("min", .mathMin), ("modf", .mathModf), ("pow", .mathPow), ("rad", .mathRad),
  ("random", .mathRandom), ("randomseed", .mathRandomSeed), ("sin", .mathSin),
  ("sinh", .mathSinh), ("sqrt", .mathSqrt), ("tan", .mathTan), ("tanh", .mathTanh),
  ("tointeger", .mathToInteger), ("type", .mathType), ("ult", .mathUlt)]

@[inherit_doc basic]
def codePoints : List (String × Builtin) := [
  ("char", .utfChar), ("codepoint", .utfCodepoint), ("codes", .utfCodes), ("len", .utfLen),
  ("offset", .utfOffset)]

@[inherit_doc basic]
def system : List (String × Builtin) := [
  ("clock", .osClock), ("date", .osDate), ("difftime", .osDiffTime), ("execute", .osExecute),
  ("exit", .osExit), ("getenv", .osGetenv), ("remove", .osRemove), ("rename", .osRename),
  ("setlocale", .osSetLocale), ("time", .osTime), ("tmpname", .osTmpName)]

@[inherit_doc basic]
def files : List (String × Builtin) := [
  ("close", .ioClose), ("flush", .ioFlush), ("input", .ioInput), ("lines", .ioLines),
  ("open", .ioOpen), ("output", .ioOutput), ("popen", .ioPopen), ("read", .ioRead),
  ("tmpfile", .ioTmpFile), ("type", .ioType), ("write", .ioWrite)]

/-- The methods of files by their names. -/
def fileMethods : List (String × Builtin) := [
  ("close", .fileClose), ("flush", .fileFlush), ("lines", .fileLines), ("read", .fileRead),
  ("seek", .fileSeek), ("setvbuf", .fileSetBuffer), ("write", .fileWrite)]

@[inherit_doc basic]
def packages : List (String × Builtin) := [
  ("loadlib", .packageLoadLib), ("searchpath", .packageSearchPath)]

/-- The libraries that are tables of functions, by their names. -/
def libraries : List (String × List (String × Builtin)) := [
  ("coroutine", coroutines), ("string", strings), ("table", tables), ("math", mathematics),
  ("utf8", codePoints), ("os", system), ("io", files), ("package", packages)]

/-- The name of a function from the global variables on, if a global leads to it. -/
def path? (b : Builtin) : Option String :=
  match basic.find? (·.2 = b) with
  | some (name, _) => some name
  | none =>
    libraries.findSome? fun (library, functions) =>
      (functions.find? (·.2 = b)).map fun (name, _) => library ++ "." ++ name

end Builtin

end ScriptWorker.Script

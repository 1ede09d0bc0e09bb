import ScriptWorker.Json.Value
import ScriptWorker.Numeric.Decimal
import ScriptWorker.Text.Hex

/-!
# Compact JSON text

The one text of each value: no blanks, members in key order, strings with the short escapes where
there are some and `\u00xx` for the other control characters, doubles by their shortest digits.
-/

set_option autoImplicit false

namespace ScriptWorker.Json

open Numeric

/-- Doubles are positional for decimal exponents from -5 to 15 and always show that they are no
whole numbers, by a point or by an exponent. -/
def floatLayout : Layout := ⟨-5, some 15, true, 1⟩

/-- The text of a double. Numbers that JSON lacks are written as `null`. -/
def floatText (x : Float) : String :=
  match parts x with
  | .finite negative m e => String.ofList (signed negative (floatLayout.shortestText m e))
  | _ => "null"

/-- One character inside a string. -/
def escapeChar (c : Char) : List Char :=
  match c with
  | '"' => ['\\', '"']
  | '\\' => ['\\', '\\']
  | '\x08' => ['\\', 'b']
  | '\t' => ['\\', 't']
  | '\n' => ['\\', 'n']
  | '\x0c' => ['\\', 'f']
  | '\r' => ['\\', 'r']
  | c =>
    if c.toNat < 0x20 then
      ['\\', 'u', '0', '0', Text.Hex.digit (c.toNat / 16), Text.Hex.digit (c.toNat % 16)]
    else [c]

/-- The text of a string. -/
def stringText (s : String) : String :=
  String.ofList ('"' :: (s.toList.flatMap escapeChar ++ ['"']))

mutual

/-- Writes a value at the end of `out`. -/
def Value.write (out : String) : Value → String
  | .null => out ++ "null"
  | .bool true => out ++ "true"
  | .bool false => out ++ "false"
  | .int n => out ++ toString n
  | .float x => out ++ floatText x
  | .string s => out ++ stringText s
  | .array [] => out ++ "[]"
  | .array (item :: items) => writeItems (item.write (out ++ "[")) items ++ "]"
  | .object [] => out ++ "\x7b\x7d"
  | .object ((key, value) :: members) =>
    writeMembers (value.write (out ++ "\x7b" ++ stringText key ++ ":")) members ++ "\x7d"

/-- Writes the items after the first one. -/
def writeItems (out : String) : List Value → String
  | [] => out
  | item :: items => writeItems (item.write (out ++ ",")) items

/-- Writes the members after the first one. -/
def writeMembers (out : String) : List (String × Value) → String
  | [] => out
  | (key, value) :: members =>
    writeMembers (value.write (out ++ "," ++ stringText key ++ ":")) members

end

/-- The text of a value. -/
def Value.render (v : Value) : String := v.write ""

end ScriptWorker.Json

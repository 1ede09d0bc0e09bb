/-!
# Hexadecimal bytes
-/

set_option autoImplicit false

namespace ScriptWorker.Text.Hex

/-- The lower-case digit of a value below sixteen. -/
def digit (n : Nat) : Char :=
  if n < 10 then Char.ofNat (48 + n) else Char.ofNat (87 + n)

/-- The value of a hexadecimal digit of either case. -/
def value? (c : Char) : Option Nat :=
  if '0' ≤ c ∧ c ≤ '9' then some (c.toNat - 48)
  else if 'a' ≤ c ∧ c ≤ 'f' then some (c.toNat - 87)
  else if 'A' ≤ c ∧ c ≤ 'F' then some (c.toNat - 55)
  else none

/-- Two lower-case digits for each byte. -/
def encode (bytes : List UInt8) : String :=
  String.ofList (bytes.flatMap fun b => [digit (b.toNat / 16), digit (b.toNat % 16)])

/-- The bytes of a text of digit pairs. -/
def decode? (s : List Char) : Option (List UInt8) :=
  go [] s
where
  go (out : List UInt8) : List Char → Option (List UInt8)
    | [] => some out.reverse
    | [_] => none
    | a :: b :: rest =>
      match value? a, value? b with
      | some x, some y => go ((16 * x + y).toUInt8 :: out) rest
      | _, _ => none

end ScriptWorker.Text.Hex

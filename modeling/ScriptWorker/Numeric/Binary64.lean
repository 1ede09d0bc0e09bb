/-!
# Doubles as exact numbers

A double taken apart into sign, mantissa and exponent, and the double nearest to a quotient of
whole numbers. All arithmetic is exact, so every reader and printer of numbers rests on these two.
-/

set_option autoImplicit false

namespace ScriptWorker.Numeric

/-- What a double stands for; a finite one is `mantissa * 2 ^ exponent` with its sign. -/
inductive Parts where
  | nan
  | infinite (negative : Bool)
  | finite (negative : Bool) (mantissa : Nat) (exponent : Int)

/-- The parts of a double. -/
def parts (x : Float) : Parts :=
  let bits := x.toBits.toNat
  let negative := decide (0x8000000000000000 ≤ bits)
  let biased : Nat := bits / 0x10000000000000 % 0x800
  let fraction := bits % 0x10000000000000
  if biased = 2047 then if fraction = 0 then .infinite negative else .nan
  else if biased = 0 then .finite negative fraction (-1074)
  else .finite negative (0x10000000000000 + fraction) ((biased : Int) - 1075)

/-- A quotient rounded to the nearest whole number, a tie to the even one. -/
def roundDiv (num den : Nat) : Nat :=
  let quotient := num / den
  let twice := 2 * (num % den)
  if twice < den then quotient
  else if den < twice then quotient + 1
  else quotient + quotient % 2

/-- The quotient `num / (den * base ^ e)` as a quotient of whole numbers. -/
def scaled (num den base : Nat) (e : Int) : Nat × Nat :=
  match e with
  | .ofNat k => (num, den * Nat.pow base k)
  | .negSucc k => (num * Nat.pow base (k + 1), den)

/-- The bits of the double nearest to a quotient, a tie to the even mantissa. Quotients past the
greatest double round to infinity. -/
def nearestBits (num den : Nat) : Nat :=
  if num = 0 then 0
  else
    let guess : Int := (num.log2 : Int) - (den.log2 : Int)
    let (n, d) := scaled num den 2 guess
    let exponent : Int := max ((if d ≤ n then guess else guess - 1) - 52) (-1074)
    let (n, d) := scaled num den 2 exponent
    min ((exponent + 1074).toNat * 0x10000000000000 + roundDiv n d) (0x7FF * 0x10000000000000)

/-- The double nearest to a quotient, with a sign. -/
def nearest (negative : Bool) (num den : Nat) : Float :=
  Float.ofBits ((if negative then 0x8000000000000000 else 0) + nearestBits num den).toUInt64

/-- The double nearest to a whole number. -/
def nearestInt (n : Int) : Float := nearest (decide (n < 0)) n.natAbs 1

/-- The double nearest to `digits * 10 ^ e`. Exponents that leave the range of doubles whatever
the rounding are cut off before the power is formed. -/
def nearestDecimal (negative : Bool) (digits : Nat) (e : Int) : Float :=
  let size : Int := digits.log2 / 3 + 1
  if digits = 0 ∨ e + size < -400 then nearest negative 0 1
  else if 400 < e then nearest negative (Nat.pow 2 1100) 1
  else
    let (n, d) := scaled digits 1 10 (-e)
    nearest negative n d

/-- The whole number that a double is, if it is one. -/
def wholeOf? (x : Float) : Option Int :=
  match parts x with
  | .finite negative m (.ofNat e) =>
    let n : Int := m * Nat.pow 2 e
    some (if negative then -n else n)
  | .finite negative m (.negSucc e) =>
    if m % Nat.pow 2 (e + 1) = 0 then
      let n : Int := (m / Nat.pow 2 (e + 1) : Nat)
      some (if negative then -n else n)
    else none
  | _ => none

/-- The greatest whole number not above a finite double. -/
def floorOf? (x : Float) : Option Int :=
  match parts x with
  | .finite negative m e =>
    let (n, d) := scaled m 1 2 (-e)
    let n : Int := n
    some ((if negative then -n else n).fdiv d)
  | _ => none

/-- The remainder of two doubles with the sign of the first, computed exactly. -/
def remainder (x y : Float) : Float :=
  match parts x, parts y with
  | .finite negative m e, .finite _ m' e' =>
    if m' = 0 then 0.0 / 0.0
    else
      let low := min e e'
      let r := (m * Nat.pow 2 (e - low).toNat) % (m' * Nat.pow 2 (e' - low).toNat)
      let (n, d) := scaled r 1 2 (-low)
      nearest negative n d
  | .finite .., .infinite _ => x
  | _, _ => 0.0 / 0.0

end ScriptWorker.Numeric

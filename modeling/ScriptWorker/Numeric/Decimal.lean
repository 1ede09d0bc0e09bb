import ScriptWorker.Numeric.Binary64

/-!
# Decimal texts of doubles

`shortest` finds the fewest digits that read back as a given double, and of those the nearest.
`Layout` says how digits and a decimal exponent become text, and `fixed`, `scientific` and
`general` round to a given number of digits first.
-/

set_option autoImplicit false

namespace ScriptWorker.Numeric

/-- Whether `num / den` is at least `10 ^ k`. -/
def reachesPower (num den : Nat) (k : Int) : Bool :=
  let (n, d) := scaled num den 10 k
  d ≤ n

/-- The decimal exponent of a positive quotient: the greatest `k` with `10 ^ k` at most it. -/
def decimalExponent (num den : Nat) : Int :=
  let guess : Int := (((num.log2 : Int) - (den.log2 : Int)) * 30103).fdiv 100000
  if reachesPower num den (guess + 1) then guess + 1
  else if reachesPower num den guess then guess
  else guess - 1

/-- Digits without their final zeros, and the exponent that makes up for them. -/
def stripZeros : Nat → Nat → Int → Nat × Int
  | 0, digits, e => (digits, e)
  | fuel + 1, digits, e =>
    if digits % 10 = 0 ∧ digits ≠ 0 then stripZeros fuel (digits / 10) (e + 1) else (digits, e)

/-- Tries the decimals of `count` digits and more, up to seventeen: `low` and `high` bound the
numbers that round to `value`, all three over `den`, and `closed` says whether the bounds do too. -/
def shortestFrom (low value high den : Nat) (closed : Bool) (top : Int) :
    Nat → Nat → Nat × Int
  | 0, _ => (0, 0)
  | fuel + 1, count =>
    let e : Int := top - count + 1
    let (n, d) := scaled value den 10 e
    let below := n / d
    let inside (digits : Nat) : Bool :=
      let (l, b) := scaled low den 10 e
      let (h, _) := scaled high den 10 e
      if closed then l ≤ digits * b && digits * b ≤ h else l < digits * b && digits * b < h
    match inside below, inside (below + 1) with
    | true, true =>
      (if 2 * (n % d) < d ∨ (2 * (n % d) = d ∧ below % 2 = 0) then below else below + 1, e)
    | true, false => (below, e)
    | false, true => (below + 1, e)
    | false, false => shortestFrom low value high den closed top fuel (count + 1)

/-- The shortest digits and their exponent, for the positive double `mantissa * 2 ^ exponent`. -/
def shortest (mantissa : Nat) (exponent : Int) : Nat × Int :=
  let (value, den) := scaled (4 * mantissa) 4 2 (-exponent)
  let unit := value / (4 * mantissa)
  let below := if mantissa = 0x10000000000000 ∧ -1074 < exponent then unit else 2 * unit
  let (digits, e) :=
    shortestFrom (value - below) value (value + 2 * unit) den (mantissa % 2 == 0)
      (decimalExponent value den) 18 1
  stripZeros 20 digits e

/-- How a number is laid out in text. -/
structure Layout where
  /-- The least decimal exponent that is written positionally. -/
  least : Int
  /-- The greatest one, or `none` where every greater one is too. -/
  greatest : Option Int
  /-- Whether a whole number ends in `.0`. -/
  pointZero : Bool
  /-- The least number of digits of a written exponent. -/
  exponentWidth : Nat

/-- The decimal digits of a number. -/
def digitsOf (n : Nat) : List Char := Nat.toDigits 10 n

/-- Digits with zeros in front up to a width. -/
def padLeft (width : Nat) (ds : List Char) : List Char :=
  List.replicate (width - ds.length) '0' ++ ds

/-- A written exponent: mark, sign and digits. -/
def exponentText (width : Nat) (k : Int) : List Char :=
  'e' :: (if k < 0 then '-' else '+') :: padLeft width (digitsOf k.natAbs)

/-- Digits `ds`, the first of which stands for `10 ^ top`, in positional notation. -/
def positional (pointZero : Bool) (ds : List Char) (top : Int) : List Char :=
  match top with
  | .negSucc k => '0' :: '.' :: (List.replicate k '0' ++ ds)
  | .ofNat k =>
    let whole := ds.take (k + 1)
    let rest := ds.drop (k + 1)
    whole ++ List.replicate (k + 1 - whole.length) '0' ++
      (if rest.isEmpty then if pointZero then ['.', '0'] else [] else '.' :: rest)

/-- Digits `ds`, the first of which stands for `10 ^ top`, in scientific notation. -/
def scientificDigits (width : Nat) (ds : List Char) (top : Int) : List Char :=
  match ds with
  | [] => []
  | [d] => d :: exponentText width top
  | d :: rest => d :: '.' :: (rest ++ exponentText width top)

/-- The text of the positive number `digits * 10 ^ e`; zero is written with the exponent zero. -/
def Layout.write (l : Layout) (digits : Nat) (e : Int) : List Char :=
  let ds := digitsOf digits
  let top : Int := if digits = 0 then 0 else e + ds.length - 1
  let fits : Bool := match l.greatest with
    | none => true
    | some g => decide (top ≤ g)
  if l.least ≤ top ∧ fits = true then positional l.pointZero ds top
  else scientificDigits l.exponentWidth ds top

/-- The shortest text of a finite double's absolute value. -/
def Layout.shortestText (l : Layout) (mantissa : Nat) (exponent : Int) : List Char :=
  if mantissa = 0 then l.write 0 0
  else
    let (digits, e) := shortest mantissa exponent
    l.write digits e

/-- A sign in front of the text of a negative number. -/
def signed (negative : Bool) (text : List Char) : List Char :=
  if negative then '-' :: text else text

/-- `num / den` with `places` digits after the point, rounded to nearest, a tie to even. -/
def fixed (num den places : Nat) : List Char :=
  let ds := padLeft (places + 1) (digitsOf (roundDiv (num * Nat.pow 10 places) den))
  let split := ds.length - places
  ds.take split ++ (if places = 0 then [] else '.' :: ds.drop split)

/-- `num / den` rounded to `count` significant digits: the digits and the exponent of the first. -/
def significant (num den count : Nat) : List Char × Int :=
  if num = 0 then (List.replicate count '0', 0)
  else
    let top := decimalExponent num den
    let (n, d) := scaled num den 10 (top - count + 1)
    let digits := roundDiv n d
    if Nat.pow 10 count ≤ digits then (digitsOf (digits / 10), top + 1) else (digitsOf digits, top)

/-- `num / den` with one digit before the point and `places` after it, and an exponent. -/
def scientific (num den places : Nat) (keepPoint : Bool) : List Char :=
  let (ds, top) := significant num den (places + 1)
  match ds with
  | [d] => d :: (if keepPoint then ['.'] else []) ++ exponentText 2 top
  | ds => scientificDigits 2 ds top

/-- Digits without their final zeros, but at least one digit. -/
def dropZeros (ds : List Char) : List Char :=
  match (ds.reverse.dropWhile (· == '0')).reverse with
  | [] => ['0']
  | kept => kept

/-- `num / den` with `count` significant digits, positional for decimal exponents from -4 up to
but without `count`, otherwise scientific. Final zeros go unless `keepZeros` is set. -/
def general (num den count : Nat) (keepZeros : Bool) : List Char :=
  let count := max count 1
  let (ds, top) := significant num den count
  let positionally := decide (-4 ≤ top) && decide (top < count)
  if keepZeros then
    if positionally then
      let text := positional false ds top
      if text.contains '.' then text else text ++ ['.']
    else
      match ds with
      | [d] => d :: '.' :: exponentText 2 top
      | ds => scientificDigits 2 ds top
  else
    let ds := dropZeros ds
    if positionally then positional false ds top else scientificDigits 2 ds top

end ScriptWorker.Numeric

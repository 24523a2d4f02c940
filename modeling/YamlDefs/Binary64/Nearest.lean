import YamlDefs.Text.Digits
import YamlDefs.Binary64.Basic

/-!
# The double nearest to a decimal

* `nearest`: the double nearest to `coefficient · 10^exponent`, ties going to the even significand.
* `ofDecimal?`: the double that a decimal text stands for: a sign, digits with an optional point,
  and an optional exponent.
-/

namespace YamlDefs.Binary64

open YamlDefs.Text

/-- The quotient of two natural numbers rounded to the nearest, a half to the even neighbour. -/
def divideToEven (n d : Nat) : Nat :=
  let q := n / d
  let r := n % d
  if 2 * r < d then q else if d < 2 * r then q + 1 else q + q % 2

/-- The magnitude bits of the double nearest to the fraction `n / d` of units. With a significand
of 53 bits, the bits are the significand plus `2^52` for each power of two taken out of it; a carry
out of the significand goes into the exponent. -/
def magnitudeOfUnits (n d : Nat) : Nat :=
  let shift := (n / d).log2 - 52
  min infinityBits (divideToEven n (d * Nat.pow 2 shift) + shift * Nat.pow 2 52)

/-- The double nearest to a coefficient times a power of ten. Beyond the exponents that any double
reaches, the power itself is not computed. -/
def nearest (negative : Bool) (coefficient : Nat) (exponent : Int) : Binary64 :=
  let size : Int := digitCount coefficient + exponent
  ofMagnitude negative <|
    if coefficient = 0 ∨ size < -400 then 0
    else if 400 < size then infinityBits
    else if exponent < 0 then
      magnitudeOfUnits (coefficient * Nat.pow 2 1074) (Nat.pow 10 exponent.natAbs)
    else
      magnitudeOfUnits (coefficient * Nat.pow 10 exponent.natAbs * Nat.pow 2 1074) 1

/-- The exponent that ends a decimal text, from its `e` on; a text without one has exponent zero. -/
def exponentPart? : List Char → Option Int
  | [] => some 0
  | c :: cs =>
    if c = 'e' ∨ c = 'E' then
      match cs with
      | '+' :: ds => (readNat? 10 ds).map Int.ofNat
      | '-' :: ds => (readNat? 10 ds).map fun n => -(n : Int)
      | ds => (readNat? 10 ds).map Int.ofNat
    else none

/-- The double that a decimal text without a sign stands for: at least one digit, before or after
the point. -/
def unsignedDecimal? (negative : Bool) (cs : List Char) : Option Binary64 :=
  let whole := cs.takeWhile Char.isDigit
  let (fraction, rest) : List Char × List Char :=
    match cs.dropWhile Char.isDigit with
    | '.' :: ds => (ds.takeWhile Char.isDigit, ds.dropWhile Char.isDigit)
    | ds => ([], ds)
  match readNat? 10 (whole ++ fraction), exponentPart? rest with
  | some coefficient, some exponent =>
    some (nearest negative coefficient (exponent - fraction.length))
  | _, _ => none

/-- The double that a decimal text stands for; a sign may precede the digits. -/
def ofDecimal? : List Char → Option Binary64
  | '-' :: cs => unsignedDecimal? true cs
  | '+' :: cs => unsignedDecimal? false cs
  | cs => unsignedDecimal? false cs

end YamlDefs.Binary64

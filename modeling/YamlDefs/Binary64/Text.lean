import YamlDefs.Binary64.Shortest

/-!
# The text of a double

A double is written with its shortest digits. Where the point stands among them decides the form:
positional with a fraction of at least one digit from `0.0001` up to below `1e16`, and
`d.ddde<exponent>` elsewhere.

* `canonicalText`: that text; zeros keep their sign, `nan` has none, infinity is `inf`.
* `plainText`: the positional text of every double, with a fraction only if there is one.
-/

namespace YamlDefs.Binary64

open YamlDefs.Text

/-- Decimal digits without trailing zeros, and the number of places from their beginning to the
point: the value is `0.digits` times ten to the power `point`. -/
structure Digits where
  digits : List Char
  point : Int
deriving DecidableEq, Repr

/-- The digits of a decimal. -/
def Decimal.digits (d : Decimal) : Digits :=
  let all := decimal d.coefficient
  { digits := (all.reverse.dropWhile (· = '0')).reverse
    point := all.length + d.place - finePlaces }

/-- The whole part and the fraction of positional notation. -/
def Digits.positional (d : Digits) : List Char × List Char :=
  let zeros (n : Nat) := List.replicate n '0'
  if d.point ≤ 0 then (['0'], zeros (-d.point).toNat ++ d.digits)
  else
    let p := d.point.toNat
    (d.digits.take p ++ zeros (p - d.digits.length), d.digits.drop p)

/-- Scientific notation: one digit before the point, and an exponent without padding. -/
def Digits.scientific (d : Digits) : List Char :=
  let exponent := decimalInt (d.point - 1)
  match d.digits with
  | [] => '0' :: 'e' :: exponent
  | [c] => c :: 'e' :: exponent
  | c :: cs => c :: '.' :: cs ++ 'e' :: exponent

/-- Whether a double with these digits is written positionally: from `0.0001` to below `1e16`. -/
def Digits.isPositional (d : Digits) : Bool := -3 ≤ d.point && d.point ≤ 16

/-- The digits of a finite double; those of zero are none. -/
def digits (x : Binary64) : Digits :=
  if x.isZero then ⟨[], 0⟩ else x.shortest.digits

/-- The text of the magnitude of a finite double, in the form its size asks for. -/
def magnitudeText (x : Binary64) : List Char :=
  let d := x.digits
  if x.isZero || d.isPositional then
    let (whole, fraction) := d.positional
    whole ++ '.' :: (if fraction.isEmpty then ['0'] else fraction)
  else d.scientific

/-- The text of a double by which it is told from every other. -/
def canonicalText (x : Binary64) : List Char :=
  if x.isNaN then "nan".toList
  else
    let magnitude := if x.isInfinite then "inf".toList else x.magnitudeText
    if x.isNegative then '-' :: magnitude else magnitude

/-- The positional text of a double, without a point if it is whole. -/
def plainText (x : Binary64) : List Char :=
  if x.isNaN then "NaN".toList
  else
    let magnitude :=
      if x.isInfinite then "inf".toList
      else
        let (whole, fraction) := x.digits.positional
        if fraction.isEmpty then whole else whole ++ '.' :: fraction
    if x.isNegative then '-' :: magnitude else magnitude

end YamlDefs.Binary64

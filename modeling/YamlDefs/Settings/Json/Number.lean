import YamlDefs.Binary64.Arithmetic
import YamlDefs.Settings.Setting
import YamlDefs.Text.Reader

/-!
# Numbers in JSON

A number without fraction and exponent is an integer if it fits 64 bits with a sign. Any other is a
double, which comes from as many digits as 64 bits hold and one multiplication or division by a
power of ten, so that it need not be the nearest one.

* `number`: the number in front.
-/

namespace YamlDefs.Settings.Json

open YamlDefs.Text YamlDefs.Text.Reader

/-- A natural number of 64 bits times a power of ten. -/
structure Scaled where
  significand : Nat
  exponent : Int
deriving DecidableEq, Repr

/-- The number that digits go on to while it fits 64 bits, and the digits that are left. -/
def takeDigits (significand : Nat) : List Char → Nat × List Char
  | [] => (significand, [])
  | c :: cs =>
    let longer := significand * 10 + ((digitValue? 10 c).getD 0)
    if longer < Nat.pow 2 64 then takeDigits longer cs else (significand, c :: cs)

/-- What the digits before and after the point come to. Digits that do not fit count as places if
they stand before the point, and not at all behind it. -/
def Scaled.ofDigits (whole fraction : List Char) : Scaled :=
  let (head, wholeLeft) := takeDigits 0 whole
  let (significand, fractionLeft) := takeDigits head fraction
  ⟨significand, wholeLeft.length - (fraction.length - fractionLeft.length)⟩

/-- The largest exponent that is counted. -/
def maxExponent : Int := Int.pow 2 31 - 1

/-- The largest power of ten that a double comes near to. -/
def maxPower : Nat := 308

/-- A double divided by a power of ten, in as many divisions as it takes. -/
def scaledDown (x : Binary64) (places : Nat) : Binary64 :=
  if places ≤ maxPower then x.div (.powerOfTen places)
  else if x.isZero then x
  else scaledDown (x.div (.powerOfTen maxPower)) (places - maxPower)
termination_by places
decreasing_by simp only [maxPower] at *; omega

/-- The double that a number comes to; none if it is too large. -/
def Scaled.toBinary64? (n : Scaled) : Option Binary64 :=
  let x := Binary64.ofNat n.significand
  if n.exponent < 0 then some (scaledDown x n.exponent.natAbs)
  else if n.exponent.toNat ≤ maxPower then
    some (x.mul (.powerOfTen n.exponent.toNat)) |>.filter Binary64.isFinite
  else if n.significand = 0 then some x
  else none

/-- A number after an exponent: its digits, after a sign. An exponent that is too large to count
leaves zero, or a number that is too large as well. -/
def Scaled.raised (n : Scaled) (negative : Bool) (digits : List Char) : Scaled :=
  let raise : Int := (readNat? 10 digits).getD 0
  if maxExponent < raise then
    if negative then ⟨0, 0⟩ else { n with exponent := maxExponent }
  else
    let exponent := if negative then n.exponent - raise else n.exponent + raise
    { n with exponent := max (-maxExponent) (min maxExponent exponent) }

/-- The exponent of a number, if one follows: whether it is negative, and its digits. -/
def exponent : Reader (Option (Bool × List Char)) := do
  let c ← peek
  if c = some 'e' || c = some 'E' then
    let _ ← next
    let sign ← peek
    if sign = some '-' || sign = some '+' then
      let _ ← next
    return some (sign = some '-', ← spanSome Char.isDigit)
  else return none

/-- The integer that digits stand for, if it fits 64 bits with a sign. Zero has no sign. -/
def integer? (negative : Bool) (digits : List Char) : Option Int :=
  (readNat? 10 digits).bind fun n =>
    if negative then if 0 < n ∧ n ≤ Nat.pow 2 63 then some (-(n : Int)) else none
    else if n < Nat.pow 2 63 then some n else none

/-- The number in front. -/
def number : Reader Setting := do
  let negative ← accepts "-"
  let whole ← spanSome Char.isDigit
  if whole.head? = some '0' && whole.length > 1 then failure
  let fraction ← if ← accepts "." then (spanSome Char.isDigit).map some else pure none
  let exponent ← exponent
  match fraction, exponent, integer? negative whole with
  | none, none, some n => return .integer n
  | _, _, _ =>
    let scaled := Scaled.ofDigits whole (fraction.getD [])
    let raised := match exponent with
      | none => scaled
      | some (below, digits) => scaled.raised below digits
    match raised.toBinary64? with
    | some x => return .float (.ofMagnitude negative x.magnitude)
    | none => failure

end YamlDefs.Settings.Json

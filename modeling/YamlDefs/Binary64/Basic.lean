/-!
# Doubles

A double (the interchange format `binary64`) is given by its 64 bits: a sign, eleven bits of
exponent and 52 bits of fraction. Every finite magnitude is a whole number of units of `2^-1074`,
so that comparisons and roundings are questions about natural numbers.

* `magnitude`: the bits below the sign, in which doubles of one sign are ordered.
* `units`: the magnitude of a finite double in units of `2^-1074`; `ulp`: the distance to the next.
* `same`: equality as values, under which the two zeros are equal and so are all NaNs.
-/

namespace YamlDefs

/-- A double, given by its bits. -/
structure Binary64 where
  bits : UInt64
deriving DecidableEq, Repr

namespace Binary64

/-- The magnitude bits of infinity; beyond them are the NaNs. -/
def infinityBits : Nat := 2047 * Nat.pow 2 52

/-- The bits below the sign. -/
def magnitude (x : Binary64) : Nat := x.bits.toNat % Nat.pow 2 63

/-- Whether the sign bit is set. -/
def isNegative (x : Binary64) : Bool := Nat.pow 2 63 ≤ x.bits.toNat

/-- Whether a double is no number. -/
def isNaN (x : Binary64) : Bool := infinityBits < x.magnitude

/-- Whether a double is one of the two infinities. -/
def isInfinite (x : Binary64) : Bool := x.magnitude = infinityBits

/-- Whether a double is a number other than the infinities. -/
def isFinite (x : Binary64) : Bool := x.magnitude < infinityBits

/-- Whether a double is one of the two zeros. -/
def isZero (x : Binary64) : Bool := x.magnitude = 0

/-- The double with the given sign and magnitude bits. -/
def ofMagnitude (negative : Bool) (magnitude : Nat) : Binary64 :=
  ⟨UInt64.ofNat (magnitude % Nat.pow 2 63 + if negative then Nat.pow 2 63 else 0)⟩

/-- Infinity of the given sign. -/
def infinity (negative : Bool) : Binary64 := ofMagnitude negative infinityBits

/-- The NaN without a sign. -/
def nan : Binary64 := ofMagnitude false (infinityBits + Nat.pow 2 51)

/-- The power of two, in units, that separates a double from the next larger magnitude. -/
def scale (x : Binary64) : Nat := x.magnitude / Nat.pow 2 52 - 1

/-- The significand: the magnitude is this many times two to the power `scale`, in units. -/
def significand (x : Binary64) : Nat := x.magnitude - x.scale * Nat.pow 2 52

/-- The distance, in units, from a double to the next larger magnitude. -/
def ulp (x : Binary64) : Nat := Nat.pow 2 x.scale

/-- The magnitude of a finite double in units of `2^-1074`. -/
def units (x : Binary64) : Nat := x.significand * x.ulp

/-- Equality as values: zeros are equal whatever their sign, and NaNs whatever their bits. -/
def same (x y : Binary64) : Bool :=
  x.isNaN && y.isNaN || x.isZero && y.isZero || !x.isNaN && x.bits == y.bits

end Binary64

end YamlDefs

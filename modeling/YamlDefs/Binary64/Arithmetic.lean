import YamlDefs.Binary64.Nearest

/-!
# Arithmetic of doubles

Products and quotients of finite doubles: the exact result, rounded once to the nearest double,
ties going to the even significand.

* `mul`, `div`: the product and the quotient.
* `ofNat`, `powerOfTen`: the doubles nearest to natural numbers.
-/

namespace YamlDefs.Binary64

/-- The number of units of `2^-1074` that make one. -/
def unitsPerOne : Nat := Nat.pow 2 1074

/-- The double nearest to a natural number. -/
def ofNat (n : Nat) : Binary64 := nearest false n 0

/-- The double nearest to a power of ten. -/
def powerOfTen (places : Nat) : Binary64 := nearest false 1 places

/-- The product of two finite doubles. -/
def mul (x y : Binary64) : Binary64 :=
  ofMagnitude (x.isNegative != y.isNegative) (magnitudeOfUnits (x.units * y.units) unitsPerOne)

/-- The quotient of two finite doubles, of which the second is not zero. -/
def div (x y : Binary64) : Binary64 :=
  ofMagnitude (x.isNegative != y.isNegative) (magnitudeOfUnits (x.units * unitsPerOne) y.units)

end YamlDefs.Binary64

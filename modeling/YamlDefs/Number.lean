import YamlDefs.Binary64.Text

/-!
# Numbers

A number is an integer of 64 bits, signed or unsigned, or a double.

* `ofUInt64`: the signed form is preferred, so that `uint` is left for what only it can hold.
* `text`: the canonical text: integers in decimal, doubles with a point, an `e` or a word.
-/

namespace YamlDefs

/-- A number of a source. -/
inductive Number where
  | int (value : Int64)
  | uint (value : UInt64)
  | float (value : Binary64)
deriving DecidableEq, Repr

namespace Number

/-- An unsigned integer, in signed form if it fits. -/
def ofUInt64 (value : UInt64) : Number :=
  if value.toNat < Nat.pow 2 63 then .int (Int64.ofNat value.toNat) else .uint value

/-- The canonical text of a number. -/
def text : Number → String
  | int value => String.ofList (Text.decimalInt value.toInt)
  | uint value => String.ofList (Text.decimal value.toNat)
  | float value => String.ofList value.canonicalText

end Number

end YamlDefs

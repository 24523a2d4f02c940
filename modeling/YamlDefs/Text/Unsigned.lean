import YamlDefs.Text.Digits

/-!
# Unsigned numbers of 64 bits as text

* `readWord?`: the number that decimal digits, with an optional plus sign, stand for, if it fits
  into 64 bits.
-/

namespace YamlDefs.Text

/-- A text without the plus sign that it may begin with. -/
def withoutPlus (cs : List Char) : List Char := if cs.head? = some '+' then cs.drop 1 else cs

/-- The number of 64 bits that decimal digits, after an optional plus sign, stand for. -/
def readWord? (cs : List Char) : Option Nat :=
  (readNat? 10 (withoutPlus cs)).filter (· < Nat.pow 2 64)

end YamlDefs.Text

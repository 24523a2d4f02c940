import YamlDefs.Binary64.Text
import YamlDefs.Text.Unsigned

/-!
# Values of settings

Files of several formats and the environment give values for settings, which are converted to what
the settings need.

* `Setting`: a value as a file gives it.
* `Setting.toLimit?`, `Setting.toText?`: the conversions.
* `SettingTable`: values by their names.
-/

namespace YamlDefs

/-- A value that a file of settings gives. -/
inductive Setting where
  | null
  | bool (value : Bool)
  | integer (value : Int)
  | float (value : Binary64)
  | text (value : String)
  | list (items : List Setting)
  | table (entries : List (String × Setting))
deriving Repr

/-- The largest number of 64 bits. -/
def maxWord : Nat := Nat.pow 2 64 - 1

/-- A text with its ASCII letters in lower case. -/
def lowercase (s : String) : String := String.ofList (s.toList.map Char.toLower)

namespace Setting

/-- A double rounded to a number of 64 bits, a half away from zero. What is below zero becomes zero
and what is too large the largest number. -/
def roundWord (x : Binary64) : Nat :=
  if x.isNaN || x.isNegative then 0
  else if x.isInfinite then maxWord
  else min maxWord ((2 * x.units + Nat.pow 2 1074) / Nat.pow 2 1075)

/-- The limit that a value stands for. Words for truth are one and zero. -/
def toLimit? : Setting → Option Nat
  | bool value => some value.toNat
  | integer value => if 0 ≤ value then some value.toNat else none
  | float value => some (roundWord value)
  | text value =>
    if ["true", "on", "yes"].contains (lowercase value) then some 1
    else if ["false", "off", "no"].contains (lowercase value) then some 0
    else Text.readWord? value.toList
  | null | list _ | table _ => none

/-- The text that a value stands for. -/
def toText? : Setting → Option String
  | bool value => some (if value then "true" else "false")
  | integer value => some (String.ofList (Text.decimalInt value))
  | float value => some (String.ofList value.plainText)
  | text value => some value
  | null | list _ | table _ => none

end Setting

/-- A table of settings, by names of which no two are equal. -/
abbrev SettingTable := List (String × Setting)

end YamlDefs

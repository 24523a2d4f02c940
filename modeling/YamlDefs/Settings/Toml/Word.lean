import YamlDefs.Binary64.Nearest
import YamlDefs.Settings.Setting
import YamlDefs.Settings.Toml.Moment
import YamlDefs.Text.Reader

/-!
# Words in TOML

The values without quotes: truth, integers, doubles, dates and times. A date or a time is kept as
its text.

* `word`: the value of the word in front.
-/

namespace YamlDefs.Settings.Toml

open YamlDefs.Text YamlDefs.Text.Reader

/-- Digits between which single underscores may stand, without them. -/
def withoutUnderscores? (cs : List Char) : Option (List Char) :=
  let isBroken : List Char → Bool := fun cs =>
    cs.head? = some '_' || cs.getLast? = some '_' ||
      (cs.zip (cs.drop 1)).any fun (a, b) => a = '_' && b = '_'
  if isBroken cs || cs.isEmpty then none else some (cs.filter (· ≠ '_'))

/-- The number that digits of a base with underscores stand for. -/
def readGrouped? (base : Nat) (cs : List Char) : Option Nat :=
  (withoutUnderscores? cs).bind (readNat? base)

/-- Decimal digits without superfluous zeros. -/
def readWhole? (cs : List Char) : Option (List Char) :=
  match withoutUnderscores? cs with
  | some digits =>
    if digits.all Char.isDigit && !(digits.head? = some '0' && digits.length > 1) then some digits
    else none
  | none => none

/-- The integer that a word stands for. -/
def integer? (cs : List Char) : Option Int :=
  let value? : Option Int := match cs with
    | '0' :: 'x' :: ds => (readGrouped? 16 ds).map Int.ofNat
    | '0' :: 'o' :: ds => (readGrouped? 8 ds).map Int.ofNat
    | '0' :: 'b' :: ds => (readGrouped? 2 ds).map Int.ofNat
    | '-' :: ds => ((readWhole? ds).bind (readNat? 10)).map fun n => -(n : Int)
    | '+' :: ds => ((readWhole? ds).bind (readNat? 10)).map Int.ofNat
    | ds => ((readWhole? ds).bind (readNat? 10)).map Int.ofNat
  value?.filter fun n => -Int.pow 2 63 ≤ n && n < Int.pow 2 63

/-- The double that a word stands for: it has a fraction, an exponent or both, or is a word for
infinity or NaN. Digits that are too large for a double are refused unless they are negative. -/
def float? (cs : List Char) : Option Binary64 :=
  let (negative, unsigned) := match cs with
    | '-' :: ds => (true, ds)
    | '+' :: ds => (false, ds)
    | ds => (false, ds)
  if unsigned = "inf".toList then some (.infinity negative)
  else if unsigned = "nan".toList then some .nan
  else
    let whole := unsigned.takeWhile fun c => c.isDigit || c = '_'
    let rest := unsigned.dropWhile fun c => c.isDigit || c = '_'
    let (fraction, rest) : Option (List Char) × List Char := match rest with
      | '.' :: ds => (some (ds.takeWhile fun c => c.isDigit || c = '_'),
          ds.dropWhile fun c => c.isDigit || c = '_')
      | ds => (none, ds)
    let exponent? : Option (List Char) := match rest with
      | 'e' :: '-' :: ds | 'E' :: '-' :: ds => (withoutUnderscores? ds).map ('-' :: ·)
      | 'e' :: '+' :: ds | 'E' :: '+' :: ds => withoutUnderscores? ds
      | 'e' :: ds | 'E' :: ds => withoutUnderscores? ds
      | _ => none
    let fraction? := match fraction with
      | none => some []
      | some ds => (withoutUnderscores? ds).map ('.' :: ·)
    let value? := match readWhole? whole, fraction?, exponent? with
      | some w, some f, some e =>
        Binary64.ofDecimal? ((if negative then ['-'] else []) ++ w ++ f ++ 'e' :: e)
      | some w, some f, none =>
        if rest.isEmpty && fraction.isSome then
          Binary64.ofDecimal? ((if negative then ['-'] else []) ++ w ++ f)
        else none
      | _, _, _ => none
    value?.filter fun x => negative || x.isFinite

/-- The value that a word without quotes stands for. -/
def word? (cs : List Char) : Option Setting :=
  if cs = "true".toList then some (.bool true)
  else if cs = "false".toList then some (.bool false)
  else
    match integer? cs, float? cs with
    | some n, _ => some (.integer n)
    | none, some x => some (.float x)
    | none, none => (Moment.read? cs).map fun moment => .text (String.ofList moment.text)

/-- Whether a character belongs to words without quotes. -/
def isWordChar (c : Char) : Bool :=
  c.isAlphanum || c = '+' || c = '-' || c = '.' || c = '_' || c = ':'

/-- A word without quotes. A single space may stand between a date and a time. -/
def word : Reader Setting := do
  let cs ← span isWordChar
  let isDateBeforeTime := hasShape "0000-00-00" cs &&
    match ← get with
    | ' ' :: c :: _ => c.isDigit
    | _ => false
  let cs ← if isDateBeforeTime then
      let _ ← next
      pure (cs ++ ' ' :: (← span isWordChar))
    else pure cs
  match word? cs with
  | some value => return value
  | none => failure

end YamlDefs.Settings.Toml

import YamlDefs.Binary64.Nearest
import YamlDefs.Yaml.Value

/-!
# Core schema

What the text of a scalar means. A plain scalar without a tag is a null, a boolean, an integer, a
double or else a string, in this order; a tag of the core schema insists on one of them.

* `integer?`, `float?`: the texts of integers and doubles.
* `plainValue?`: the value of a plain scalar.
* `tagged?`: the value of a scalar under a full tag.
-/

namespace YamlDefs.Yaml

open YamlDefs.Text (readNat?)

/-- Whether a text is a null; the empty text is one only where no tag insists. -/
def isNullWord (cs : List Char) : Bool :=
  ["~", "null", "Null", "NULL"].any fun w => w.toList = cs

/-- The boolean that a text stands for. -/
def bool? (cs : List Char) : Option Bool :=
  if ["true", "True", "TRUE"].any fun w => w.toList = cs then some true
  else if ["false", "False", "FALSE"].any fun w => w.toList = cs then some false
  else none

/-- Whether a text without its sign is a number with superfluous zeros, which is read as a
string. -/
def isPadded (cs : List Char) : Bool :=
  match cs with
  | '0' :: d :: ds => d.isDigit && ds.all Char.isDigit
  | _ => false

/-- A text without the sign at its head. -/
def withoutSign (cs : List Char) : List Char :=
  match cs with
  | '-' :: rest | '+' :: rest => rest
  | _ => cs

/-- The natural number that a text without a sign stands for: digits after `0x`, `0o` or `0b`, or
decimal digits without superfluous zeros. -/
def magnitude? (cs : List Char) : Option Nat :=
  match cs with
  | '0' :: 'x' :: ds => readNat? 16 ds
  | '0' :: 'o' :: ds => readNat? 8 ds
  | '0' :: 'b' :: ds => readNat? 2 ds
  | _ => if isPadded cs then none else readNat? 10 cs

/-- What the text of an integer stands for. -/
inductive IntegerText where
  | number (value : Numeral)
  /-- An integer beyond 64 bits, which no value can hold. -/
  | tooLarge
deriving DecidableEq, Repr

/-- The integer that a text stands for. Beyond 128 bits a text is no integer at all. -/
def integer? (cs : List Char) : Option IntegerText :=
  match cs with
  | '-' :: rest =>
    match magnitude? rest with
    | some 0 => some (.number (.natural 0))
    | some n =>
      if n ≤ Nat.pow 2 63 then some (.number (.negative (Int64.ofInt (-n))))
      else if n ≤ Nat.pow 2 127 then some .tooLarge
      else none
    | none => none
  | _ =>
    match magnitude? (if cs.head? = some '+' then cs.drop 1 else cs) with
    | some n =>
      if n < Nat.pow 2 64 then some (.number (.natural (UInt64.ofNat n)))
      else if n < Nat.pow 2 128 then some .tooLarge
      else none
    | none => none

/-- Whether a text is a word for infinity, without a sign. -/
def isInfinityWord (cs : List Char) : Bool :=
  [".inf", ".Inf", ".INF"].any fun w => w.toList = cs

/-- Whether a text is a word for a NaN; it has no sign. -/
def isNaNWord (cs : List Char) : Bool :=
  [".nan", ".NaN", ".NAN"].any fun w => w.toList = cs

/-- The double that a text stands for: a word or a finite decimal, after at most one sign. -/
def float? (cs : List Char) : Option Binary64 :=
  let unsigned := withoutSign cs
  let negative := cs.head? = some '-'
  if isInfinityWord unsigned then some (.infinity negative)
  else if isNaNWord cs then some .nan
  else if unsigned.head? = some '+' || unsigned.head? = some '-' then none
  else (Binary64.ofDecimal? cs).filter Binary64.isFinite

/-- The value of a plain scalar. None stands for an integer that no value can hold. -/
def plainValue? (cs : List Char) : Option Value :=
  if cs.isEmpty || isNullWord cs then some .null
  else
    match bool? cs, integer? cs with
    | some b, _ => some (.bool b)
    | none, some (.number n) => some (.number n)
    | none, some .tooLarge => none
    | none, none =>
      match if isPadded (withoutSign cs) then none else float? cs with
      | some x => some (.number (.float x))
      | none => some (.string (String.ofList cs))

/-- The value of a scalar without a tag: only a plain one is resolved. -/
def untagged? (plain : Bool) (cs : List Char) : Option Value :=
  if plain then plainValue? cs else some (.string (String.ofList cs))

/-- The bytes of a text of ASCII characters. -/
def asciiBytes (s : String) : List UInt8 := s.toList.map fun c => UInt8.ofNat c.toNat

/-- The full name of a tag of the core schema. -/
def coreTag (name : String) : List UInt8 := asciiBytes ("tag:yaml.org,2002:" ++ name)

/-- The value of a scalar under a full tag that is not local. The tags for booleans, integers,
doubles and nulls insist on their form; under any other tag a scalar is a string. -/
def underTag? (tag : List UInt8) (cs : List Char) : Option Value :=
  if tag = coreTag "bool" then (bool? cs).map .bool
  else if tag = coreTag "int" then
    match integer? cs with
    | some (.number n) => some (.number n)
    | _ => none
  else if tag = coreTag "float" then (float? cs).map fun x => .number (.float x)
  else if tag = coreTag "null" then if isNullWord cs then some .null else none
  else some (.string (String.ofList cs))

end YamlDefs.Yaml

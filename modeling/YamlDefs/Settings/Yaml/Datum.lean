import YamlDefs.Binary64.Nearest
import YamlDefs.Settings.Setting
import YamlDefs.Yaml.Token

/-!
# Data of settings

What the nodes of a document stand for. Plain scalars without a tag are integers of 64 bits in
decimal or after `0x` or `0o`, the words `true`, `false`, `null` and `~`, decimals, the words for
infinity and what is no number, and else texts. All other scalars without a tag are texts.

* `Datum`: the data.
* `Datum.scalar`: the datum of a scalar under its tag.
* `Datum.mapping?`: the datum of a mapping from its parts; no key is there twice.
* `Datum.setting?`: the setting for a datum. Only texts and integers name settings, and a word for
  a number that has no decimals is none.
-/

namespace YamlDefs.Settings.Yaml

open YamlDefs.Text (readNat? withoutPlus)
open YamlDefs.Yaml (TagText)

/-- A datum of a document. -/
inductive Datum where
  /-- What is left of a scalar that does not fit its tag. -/
  | malformed
  | null
  | bool (value : Bool)
  | integer (value : Int)
  /-- A number as it is written, a decimal or a word. -/
  | real (text : List Char)
  | text (text : List Char)
  | list (items : List Datum)
  | mapping (entries : List (Datum × Datum))
deriving Repr

/-! ## Scalars -/

/-- The integer of 64 bits that digits of a base after an optional sign stand for. -/
def signed? (base : Nat) (cs : List Char) : Option Int :=
  let value? : Option Int := match cs with
    | '-' :: ds => (readNat? base ds).map fun n => -(n : Int)
    | ds => (readNat? base (withoutPlus ds)).map Int.ofNat
  value?.filter fun n => -Int.pow 2 63 ≤ n && n < Int.pow 2 63

/-- The integer that a plain scalar stands for. A mark of the base may come before the sign, and a
plus sign too. -/
def integer? (cs : List Char) : Option Int :=
  let marked := match cs with
    | '0' :: 'x' :: ds => signed? 16 ds
    | '0' :: 'o' :: ds => signed? 8 ds
    | '+' :: ds => signed? 10 ds
    | _ => none
  marked <|> signed? 10 cs

/-- Whether a text is a word for infinity or what is no number. -/
def isRealWord (cs : List Char) : Bool :=
  let unsigned := match cs with
    | '+' :: ds | '-' :: ds => ds
    | ds => ds
  [".inf", ".Inf", ".INF"].contains (String.ofList unsigned) ||
    [".nan", ".NaN", ".NAN"].contains (String.ofList cs)

/-- Whether a text is a decimal or a word for a number. -/
def isReal (cs : List Char) : Bool :=
  isRealWord cs || cs.any Char.isDigit && (Binary64.ofDecimal? cs).isSome

/-- The boolean that a text is the word for. -/
def boolean? (cs : List Char) : Option Bool :=
  if cs = "true".toList then some true
  else if cs = "false".toList then some false
  else none

/-- Whether a text is a word for null. -/
def isNull (cs : List Char) : Bool := cs = ['~'] || cs = "null".toList

namespace Datum

/-- The datum of a plain scalar without a tag. -/
def plain (cs : List Char) : Datum :=
  if isNull cs then .null
  else
    match boolean? cs, integer? cs with
    | some value, _ => .bool value
    | none, some value => .integer value
    | none, none => if isReal cs then .real cs else .text cs

/-- What the tags of the core schema begin with. -/
def coreStart : TagText := "tag:yaml.org,2002:".toUTF8.data.toList

/-- The datum of a plain scalar under a tag of the core schema. -/
def core (kind : TagText) (cs : List Char) : Datum :=
  match String.fromUTF8? ⟨kind.toArray⟩ with
  | some "bool" => ((boolean? cs).map .bool).getD .malformed
  | some "int" => ((signed? 10 cs).map .integer).getD .malformed
  | some "float" => if isReal cs then .real cs else .malformed
  | some "null" => if isNull cs then .null else .malformed
  | _ => .text cs

/-- The datum of a scalar under its tag, which is given by the meaning of its handle and its suffix.
Only plain scalars are more than text, and only without a tag or under one of the core schema. -/
def scalar (tag : Option (TagText × TagText)) (isPlain : Bool) (cs : List Char) : Datum :=
  if !isPlain then .text cs
  else
    match tag with
    | none => .plain cs
    | some (start, kind) => if start = coreStart then .core kind cs else .text cs

/-! ## Mappings -/

mutual

/-- Equality of data. Numbers are told apart as they are written. -/
def same : Datum → Datum → Bool
  | malformed, malformed => true
  | null, null => true
  | bool a, bool b => a == b
  | integer a, integer b => a == b
  | real a, real b => a == b
  | text a, text b => a == b
  | list as, list bs => sameItems as bs
  | mapping as, mapping bs => sameEntries as bs
  | _, _ => false

/-- Equality of lists, item by item. -/
def sameItems : List Datum → List Datum → Bool
  | [], [] => true
  | a :: as, b :: bs => same a b && sameItems as bs
  | _, _ => false

/-- Equality of mappings, entry by entry. -/
def sameEntries : List (Datum × Datum) → List (Datum × Datum) → Bool
  | [], [] => true
  | (a, v) :: as, (b, w) :: bs => same a b && same v w && sameEntries as bs
  | _, _ => false

end

/-- The entries whose parts come one after another. What is malformed is no key: the next part is
one in its place. A key at the end is left out. -/
def pairs : List Datum → List (Datum × Datum)
  | [] => []
  | malformed :: rest => pairs rest
  | [_] => []
  | key :: value :: rest => (key, value) :: pairs rest

/-- The datum of a mapping from its keys and values; no two keys are equal. -/
def mapping? (entries : List (Datum × Datum)) : Option Datum :=
  let entries := pairs (entries.flatMap fun e => [e.1, e.2])
  if entries.Pairwise (fun a b => a.1.same b.1 = false) then some (.mapping entries) else none

/-! ## Settings -/

/-- The name for a key. -/
def name? : Datum → Option String
  | text cs => some (String.ofList cs)
  | integer value => some (String.ofList (Text.decimalInt value))
  | _ => none

mutual

/-- The setting for a datum. -/
def setting? : Datum → Option Setting
  | malformed | null => some .null
  | bool value => some (.bool value)
  | integer value => some (.integer value)
  | real cs => (Binary64.ofDecimal? cs).map .float
  | text cs => some (.text (String.ofList cs))
  | list items => (itemSettings? items).map .list
  | mapping entries => (entrySettings? entries).map .table

/-- The settings for the items of a list. -/
def itemSettings? : List Datum → Option (List Setting)
  | [] => some []
  | item :: rest => do return (← setting? item) :: (← itemSettings? rest)

/-- The entries of a table for those of a mapping. -/
def entrySettings? : List (Datum × Datum) → Option (List (String × Setting))
  | [] => some []
  | (key, value) :: rest => do
    return (← name? key, ← setting? value) :: (← entrySettings? rest)

end

end Datum

end YamlDefs.Settings.Yaml

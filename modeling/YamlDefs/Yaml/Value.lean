import YamlDefs.Node

/-!
# Values

The value of a document: scalars are resolved to nulls, booleans, numbers and strings, and tags
outside the core schema are kept.

* `Numeral.toNumber`: the number for a number of a document.
* `same`: equality of values, by which the keys of a mapping are told apart.
* `text`, `keyText`, `toNode`: the display of a value, the name for a key, and its node.
-/

namespace YamlDefs.Yaml

/-- A number of a document: an integer is negative or not, whatever its size. -/
inductive Numeral where
  | natural (value : UInt64)
  | negative (value : Int64)
  | float (value : Binary64)
deriving DecidableEq, Repr

namespace Numeral

/-- Equality of numbers: integers and doubles differ, and doubles are compared as values. -/
def same : Numeral → Numeral → Bool
  | natural a, natural b => a == b
  | negative a, negative b => a == b
  | float a, float b => a.same b
  | _, _ => false

/-- The number that a document's number stands for. -/
def toNumber : Numeral → Number
  | natural value => .ofUInt64 value
  | negative value => .int value
  | float value => .float value

end Numeral

/-- A value of a document. -/
inductive Value where
  | null
  | bool (value : Bool)
  | number (value : Numeral)
  | string (value : String)
  | sequence (items : List Value)
  | mapping (entries : List (Value × Value))
  /-- A value under a tag, which is given with its exclamation mark. -/
  | tagged (tag : String) (value : Value)
deriving Repr

namespace Value

mutual

/-- Equality of values. The order of the entries of a mapping does not matter. -/
def same : Value → Value → Bool
  | null, null => true
  | bool a, bool b => a == b
  | number a, number b => a.same b
  | string a, string b => a == b
  | sequence as, sequence bs => sameItems as bs
  | mapping as, mapping bs => as.length == bs.length && allWithin as bs
  | tagged s a, tagged t b => s == t && same a b
  | _, _ => false

/-- Equality of sequences, item by item. -/
def sameItems : List Value → List Value → Bool
  | [], [] => true
  | a :: as, b :: bs => same a b && sameItems as bs
  | _, _ => false

/-- Whether each entry of one mapping equals one of another. -/
def allWithin : List (Value × Value) → List (Value × Value) → Bool
  | [], _ => true
  | (key, value) :: rest, bs =>
    bs.any (fun b => same key b.1 && same value b.2) && allWithin rest bs

end

/-- The text of a boolean. -/
def boolText (b : Bool) : String := if b then "true" else "false"

mutual

/-- The display of a value; collections are displayed like the nodes for them. -/
def text : Value → String
  | null => "null"
  | bool value => boolText value
  | number value => value.toNumber.text
  | string value => value
  | sequence items => (Node.sequence (itemNodes items)).text
  | mapping entries => (Node.mapping (entryNodes entries)).text
  | tagged tag value => tag ++ " " ++ value.text

/-- The node for a value. Nulls, booleans and tagged values have none of their own and are kept as
their display. -/
def toNode : Value → Node
  | null => .unsupported "null"
  | bool value => .unsupported (boolText value)
  | number value => .number value.toNumber
  | string value => .string value
  | sequence items => .sequence (itemNodes items)
  | mapping entries => .mapping (entryNodes entries)
  | tagged tag value => .unsupported (tag ++ " " ++ value.text)

/-- The nodes for the items of a sequence. -/
def itemNodes : List Value → List Node
  | [] => []
  | item :: rest => item.toNode :: itemNodes rest

/-- The entries for those of a mapping; a key that is no string is named by its display. -/
def entryNodes : List (Value × Value) → List (String × Node)
  | [] => []
  | (key, value) :: rest => (key.text, value.toNode) :: entryNodes rest

end

/-- The name for a key: a string itself, and the display of any other value. -/
def keyText : Value → String
  | string value => value
  | value => value.text

theorem keyText_eq_text (v : Value) : v.keyText = v.text := by
  cases v <;> simp [keyText, text]

theorem itemNodes_eq_map (items : List Value) : itemNodes items = items.map toNode := by
  induction items with
  | nil => simp [itemNodes]
  | cons item rest ih => rw [itemNodes, ih]; rfl

theorem entryNodes_eq_map (entries : List (Value × Value)) :
    entryNodes entries = entries.map fun e => (e.1.keyText, e.2.toNode) := by
  induction entries with
  | nil => simp [entryNodes]
  | cons e rest ih => rw [entryNodes, ih]; simp [keyText_eq_text]

end Value

end YamlDefs.Yaml

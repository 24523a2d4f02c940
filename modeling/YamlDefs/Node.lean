import YamlDefs.Text.Join
import YamlDefs.Number

/-!
# Nodes

The tree that is compiled: mappings from names to nodes, sequences, numbers and strings. What a
source may hold besides (nulls, booleans and tagged values) is kept as its text, so that it can be
reported.

* `kind`: which of the five forms a node has.
* `get?`: the first entry of a mapping with a key.
* `text`: the display of a node on one line; `literal`: how a declaration writes it.
-/

namespace YamlDefs

/-- A node of a document. -/
inductive Node where
  /-- Entries in order; a key may occur more than once. -/
  | mapping (entries : List (String × Node))
  | sequence (items : List Node)
  | number (value : Number)
  | string (value : String)
  /-- A value that no declaration can hold, given by its text. -/
  | unsupported (text : String)
deriving Repr

/-- The forms of nodes. -/
inductive Kind where
  | mapping
  | sequence
  | number
  | string
  | unsupported
deriving DecidableEq, Repr

/-- The word for a form. -/
def Kind.word : Kind → String
  | mapping => "mapping"
  | sequence => "sequence"
  | number => "number"
  | string => "string"
  | unsupported => "unsupported"

namespace Node

/-- The form of a node. -/
def kind : Node → Kind
  | mapping _ => .mapping
  | sequence _ => .sequence
  | number _ => .number
  | string _ => .string
  | unsupported _ => .unsupported

/-- The entries of a mapping. -/
def entries? : Node → Option (List (String × Node))
  | mapping entries => some entries
  | _ => none

/-- The value of the first entry of a mapping with the given key. -/
def get? (node : Node) (key : String) : Option Node :=
  node.entries?.bind (List.lookup key)

mutual

/-- The display of a node: strings without quotes, entries as `key: value`. -/
def text : Node → String
  | mapping entries => "\x7b" ++ Text.join ", " (entryTexts entries) ++ "\x7d"
  | sequence items => "[" ++ Text.join ", " (itemTexts items) ++ "]"
  | number value => value.text
  | string value => value
  | unsupported text => text

/-- The display of each entry of a mapping. -/
def entryTexts : List (String × Node) → List String
  | [] => []
  | (key, value) :: rest => (key ++ ": " ++ value.text) :: entryTexts rest

/-- The display of each item of a sequence. -/
def itemTexts : List Node → List String
  | [] => []
  | item :: rest => item.text :: itemTexts rest

end

mutual

/-- How a declaration writes a node: strings in double quotes with nothing escaped, the items of a
sequence between spaces in brackets, and its display if it has no such form. -/
def literal : Node → String
  | sequence items => "[ " ++ Text.join " " (itemLiterals items) ++ " ]"
  | number value => value.text
  | string value => "\"" ++ value ++ "\""
  | mapping entries => (mapping entries).text
  | unsupported text => text

/-- How a declaration writes each item of a sequence. -/
def itemLiterals : List Node → List String
  | [] => []
  | item :: rest => item.literal :: itemLiterals rest

end

theorem entryTexts_eq_map (entries : List (String × Node)) :
    entryTexts entries = entries.map fun e => e.1 ++ ": " ++ e.2.text := by
  induction entries with
  | nil => rfl
  | cons e rest ih => rw [entryTexts, ih]; rfl

theorem itemTexts_eq_map (items : List Node) : itemTexts items = items.map text := by
  induction items with
  | nil => rfl
  | cons item rest ih => rw [itemTexts, ih]; rfl

theorem itemLiterals_eq_map (items : List Node) : itemLiterals items = items.map literal := by
  induction items with
  | nil => rfl
  | cons item rest ih => rw [itemLiterals, ih]; rfl

end Node

end YamlDefs

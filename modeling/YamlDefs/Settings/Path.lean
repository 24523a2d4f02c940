import YamlDefs.Settings.Setting

/-!
# Paths of settings

The name of an entry may be a path such as `a.b[2].c`: it then leads from the entry `a` of a table
through its parts to the place of a value. A name that is not a path stands for itself. Names do
not depend on case.

* `SettingPath.of`: the path that a name stands for.
* `Setting.overlaid`: a value after another is laid over it; tables are joined entry by entry.
* `Setting.assigned`: a value after a part of it is assigned. What is in the way gives way.
* `SettingTable.withSource`: a table after the entries of a source have been assigned in it.
-/

namespace YamlDefs

/-- A step from a value to a part of it. -/
inductive SettingStep where
  | name (name : String)
  /-- An item of a list; a negative index counts from the end. -/
  | index (index : Int)
deriving DecidableEq, Repr

/-- The way to the place of a value: an entry of the outermost table, and steps from there. -/
structure SettingPath where
  root : String
  steps : List SettingStep
deriving DecidableEq, Repr

namespace SettingPath

open Text

/-- Whether a character belongs to the names of a path. -/
def isNameChar (c : Char) : Bool := c.isAlphanum || c = '_' || c = '-' || c = ' '

/-- The name at the head of a text, and what comes after it. -/
def name? (cs : List Char) : Option (String × List Char) :=
  let name := cs.takeWhile isNameChar
  if name.isEmpty then none else some (String.ofList name, cs.dropWhile isNameChar)

/-- Whether a character may stand around an index. -/
def isBlank (c : Char) : Bool := c = ' ' || c = '\t' || c = '\r' || c = '\n'

/-- The index that digits after an optional minus sign stand for, if it fits 64 bits. -/
def readIndex? (cs : List Char) : Option Int :=
  let value? : Option Int := match cs with
    | '-' :: ds => (readNat? 10 ds).map fun n => -(n : Int)
    | ds => (readNat? 10 ds).map Int.ofNat
  value?.filter fun n => -Int.pow 2 63 ≤ n && n < Int.pow 2 63

/-- The index at the head of a text, through the bracket that closes it, and what comes after. -/
def index? (cs : List Char) : Option (Int × List Char) :=
  let cs := cs.dropWhile isBlank
  let belongs (c : Char) := c = '-' || c.isDigit
  match readIndex? (cs.takeWhile belongs), (cs.dropWhile belongs).dropWhile isBlank with
  | some index, ']' :: rest => some (index, rest)
  | _, _ => none

/-- The steps that a whole text spells; each takes at least one character, so that there are at
most as many as the last argument says if that is the length. -/
def steps? (cs : List Char) : Nat → Option (List SettingStep)
  | 0 => if cs.isEmpty then some [] else none
  | fuel + 1 =>
    match cs with
    | [] => some []
    | '.' :: cs => do
      let (name, rest) ← name? cs
      return .name name :: (← steps? rest fuel)
    | '[' :: cs => do
      let (index, rest) ← index? cs
      return .index index :: (← steps? rest fuel)
    | _ => none

/-- The path that a text spells. -/
def ofText? (cs : List Char) : Option SettingPath := do
  let (root, rest) ← name? cs
  return ⟨root, ← steps? rest rest.length⟩

/-- The path that the name of an entry stands for. -/
def of (name : String) : SettingPath :=
  let name := lowercase name
  (ofText? name.toList).getD ⟨name, []⟩

end SettingPath

/-- A table after one of its entries is replaced, or added at its end. -/
def SettingTable.insert (name : String) (value : Setting) : SettingTable → SettingTable
  | [] => [(name, value)]
  | (n, old) :: rest =>
    if n = name then (n, value) :: rest else (n, old) :: SettingTable.insert name value rest

namespace Setting

/-- The entries of a value, which has none unless it is a table. -/
def entries : Setting → SettingTable
  | table entries => entries
  | _ => []

/-- The items of a value, which has none unless it is a list. -/
def items : Setting → List Setting
  | list items => items
  | _ => []

mutual

/-- A value after another is laid over it. The entries of a table are laid over those of the value,
and every other value takes its place. -/
def overlaid (old : Option Setting) : Setting → Setting
  | table entries => withEntries (old.getD (.table [])) entries
  | value => value

/-- A value after entries are laid over its own. Without any it stays what it is. -/
def withEntries (old : Setting) : List (String × Setting) → Setting
  | [] => old
  | (name, value) :: rest =>
    let name := lowercase name
    withEntries (.table (SettingTable.insert name (value.overlaid (old.entries.lookup name))
      old.entries)) rest

end

/-- Items after the one at an index is changed; as many as it takes are added to reach it. -/
def changeItem (index : Int) (change : Setting → Setting) (items : List Setting) : List Setting :=
  let place := if 0 ≤ index then index else items.length + index
  if 0 ≤ place then
    let added := List.replicate (place.toNat + 1 - items.length) Setting.null
    (items ++ added).modify place.toNat change
  else items

/-- A value after a part of it is assigned. A part of a list takes the value as it is. -/
def assigned (value : Setting) : List SettingStep → Option Setting → Setting
  | [], old => overlaid old value
  | .name name :: steps, old =>
    let table := (old.map entries).getD []
    .table (SettingTable.insert name (assigned value steps (table.lookup name)) table)
  | .index index :: steps, old =>
    .list (changeItem index
      (fun item => if steps.isEmpty then value else assigned value steps (some item))
      ((old.map items).getD []))

end Setting

/-- The entries of a source of which each name is the last of its kind. -/
def lastOfEach : List (String × Setting) → List (String × Setting)
  | [] => []
  | e :: rest => if rest.any (·.1 = e.1) then lastOfEach rest else e :: lastOfEach rest

/-- A table after a value has been assigned along the path that a name stands for. -/
def SettingTable.assign (table : SettingTable) (name : String) (value : Setting) : SettingTable :=
  let path := SettingPath.of name
  table.insert path.root (value.assigned path.steps (table.lookup path.root))

/-- A table after the entries of a source have been assigned in it. -/
def SettingTable.withSource (table : SettingTable) (source : List (String × Setting)) :
    SettingTable :=
  (lastOfEach source).foldl (fun table e => table.assign e.1 e.2) table

end YamlDefs

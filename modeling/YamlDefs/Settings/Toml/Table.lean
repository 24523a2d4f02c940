import YamlDefs.Settings.Setting

/-!
# Tables in TOML

A document assigns values to paths of keys, each under the table header in front of it. A path or
header that would replace or reopen what is complete is refused.

* `Item`: what a name stands for while the document is read.
* `openTable`, `addTable`: the tables after a header.
* `assign`, `assignUnder`: the tables after a value has been assigned to a path of keys.
* `settings`: the entries that a table has come to.
-/

namespace YamlDefs.Settings.Toml

/-- A table in the making: what may still be added to a name depends on how it came about. -/
inductive Item where
  /-- A complete value. -/
  | value (setting : Setting)
  /-- A table named only on the way to another; a header may still name it. -/
  | path (entries : List (String × Item))
  /-- A table under its own header, or made by a path of keys under one. -/
  | table (byKeys : Bool) (entries : List (String × Item))
  /-- Tables under one header, the last first. -/
  | tables (items : List (List (String × Item)))

/-- Replaces the entry of a name, or adds one at the end. -/
def replace (name : String) (item : Item) : List (String × Item) → List (String × Item)
  | [] => [(name, item)]
  | (n, old) :: rest => if n = name then (n, item) :: rest else (n, old) :: replace name item rest

/-- Assigns a value to a path of keys. Only a table made by a path of keys may take a key at the end
of one; `mayTake` says whether the table at hand may. Tables from headers may be on the way if they
are named on the way to another table only, or are the last of several under one header. -/
def assign (mayTake : Bool) (entries : List (String × Item)) (setting : Setting) :
    List String → Option (List (String × Item))
  | [] => none
  | [name] =>
    if mayTake ∧ (entries.lookup name).isNone then some (entries ++ [(name, .value setting)])
    else none
  | name :: path =>
    match entries.lookup name with
    | none => (assign true [] setting path).map fun inner => entries ++ [(name, .table true inner)]
    | some (.table true inner) =>
      (assign true inner setting path).map fun inner => replace name (.table true inner) entries
    | some (.path inner) =>
      (assign false inner setting path).map fun inner => replace name (.path inner) entries
    | some (.tables (inner :: others)) =>
      (assign false inner setting path).map fun inner =>
        replace name (.tables (inner :: others)) entries
    | some _ => none

/-- Goes down a header from the outermost table, and sets anew what its last name stands for. An
empty header means the outermost table, to which the change is applied. -/
def under (change : List (String × Item) → Option (List (String × Item)))
    (last : Option Item → Option Item) : List String → List (String × Item) →
    Option (List (String × Item))
  | [], entries => change entries
  | [name], entries => (last (entries.lookup name)).map fun item => replace name item entries
  | name :: path, entries =>
    match entries.lookup name with
    | none => (under change last path []).map fun inner => entries ++ [(name, .path inner)]
    | some (.path inner) =>
      (under change last path inner).map fun inner => replace name (.path inner) entries
    | some (.table byKeys inner) =>
      (under change last path inner).map fun inner => replace name (.table byKeys inner) entries
    | some (.tables (inner :: others)) =>
      (under change last path inner).map fun inner =>
        replace name (.tables (inner :: others)) entries
    | some _ => none

/-- Names a table by its header. -/
def openTable (path : List String) (entries : List (String × Item)) :
    Option (List (String × Item)) :=
  under some (fun
    | none => some (.table false [])
    | some (.path inner) => some (.table false inner)
    | some _ => none) path entries

/-- Adds a table to those under one header. -/
def addTable (path : List String) (entries : List (String × Item)) :
    Option (List (String × Item)) :=
  under some (fun
    | none => some (.tables [[]])
    | some (.tables items) => some (.tables ([] :: items))
    | some _ => none) path entries

/-- Assigns a value under a header. -/
def assignUnder (header path : List String) (setting : Setting) (entries : List (String × Item)) :
    Option (List (String × Item)) :=
  let change (inner : List (String × Item)) := assign true inner setting path
  under change (fun
    | some (.table byKeys inner) => (change inner).map (.table byKeys)
    | some (.tables (inner :: others)) => (change inner).map fun inner => .tables (inner :: others)
    | _ => none) header entries

mutual

/-- The value that an item has come to. -/
def Item.setting : Item → Setting
  | .value setting => setting
  | .path entries => .table (settings entries)
  | .table _ entries => .table (settings entries)
  | .tables items => .list (tableSettings items).reverse

/-- The entries that a table has come to. -/
def settings : List (String × Item) → List (String × Setting)
  | [] => []
  | (name, item) :: rest => (name, item.setting) :: settings rest

/-- The tables under one header. -/
def tableSettings : List (List (String × Item)) → List Setting
  | [] => []
  | entries :: rest => .table (settings entries) :: tableSettings rest

end

end YamlDefs.Settings.Toml

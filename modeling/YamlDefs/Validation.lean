import YamlDefs.Identifier
import YamlDefs.Node
import YamlDefs.Rejection

/-!
# Checks

What a name, a depth and a value have to satisfy before a declaration is written.

* `checkName`: the name is an identifier.
* `checkDepth`: the depth is within the limit.
* `checkValue`: the value is a number, a string, or a sequence of such values within the limit,
  an item of a sequence being one level deeper than the sequence.
-/

namespace YamlDefs

/-- The limit on depth if none is given. -/
def defaultLimit : Nat := 128

/-- Rejects a name that is not an identifier. -/
def checkName (name : String) : Except Rejection Unit :=
  match Identifier.ofString? name with
  | some _ => .ok ()
  | none => .error (.invalidName name)

/-- Rejects a depth beyond the limit. -/
def checkDepth (limit depth : Nat) : Except Rejection Unit :=
  if limit < depth then .error (.tooDeep depth) else .ok ()

mutual

/-- Rejects a value at a depth, for the first fault in it: its depth before its form, and a
sequence before its items. -/
def checkValue (limit depth : Nat) (value : Node) : Except Rejection Unit := do
  checkDepth limit depth
  match value with
  | .number _ => .ok ()
  | .string _ => .ok ()
  | .sequence items => checkItems limit (depth + 1) items
  | .mapping entries => .error (.invalidValue (Node.mapping entries).text)
  | .unsupported text => .error (.invalidValue (Node.unsupported text).text)

/-- Rejects the items of a sequence for the first fault among them. -/
def checkItems (limit depth : Nat) : List Node → Except Rejection Unit
  | [] => .ok ()
  | item :: rest => do
    checkValue limit depth item
    checkItems limit depth rest

end

end YamlDefs

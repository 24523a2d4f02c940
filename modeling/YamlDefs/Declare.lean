import YamlDefs.Output
import YamlDefs.Validation

/-!
# Declarations of a tree

A mapping is announced by its comment, and its entries follow it, one level deeper; every other
node becomes a constant.

* `declareConstant`, `declareEvaluation`: one declaration, after its checks.
* `declareNode`: a named node with all that is below it, in document order up to the first fault.
* `compileNode`: the text for the entries of a root mapping.
-/

namespace YamlDefs

open Writing

/-- Writes the definition of a constant whose value stands at a depth. -/
def declareConstant (limit depth : Nat) (name : String) (value : Node) : Writing Unit := do
  require (checkName name)
  require (checkValue limit depth value)
  push (.constant name value)

/-- Writes the evaluation of a constant. -/
def declareEvaluation (name : String) : Writing Unit := do
  require (checkName name)
  push (.evaluation name)

mutual

/-- Writes a named node that stands at a depth. -/
def declareNode (limit depth : Nat) (name : String) (node : Node) : Writing Unit := do
  require (checkName name)
  require (checkDepth limit depth)
  match node with
  | .mapping entries =>
    push (.structureNamed name)
    declareEntries limit (depth + 1) entries
  | .sequence items => declareConstant limit depth name (.sequence items)
  | .number value => declareConstant limit depth name (.number value)
  | .string value => declareConstant limit depth name (.string value)
  | .unsupported text => throw (.invalidValue text)

/-- Writes the entries of a mapping, in order, up to the first that is rejected. -/
def declareEntries (limit depth : Nat) : List (String × Node) → Writing Unit
  | [] => pure ()
  | (name, node) :: rest => do
    declareNode limit depth name node
    declareEntries limit depth rest

end

/-- Writes a whole document: its root must be a mapping, whose entries stand at the first level. -/
def declareDocument (limit : Nat) : Node → Writing Unit
  | .mapping entries => declareEntries limit 1 entries
  | _ => throw .rootNotMapping

/-- The text of a document, or why it has none. -/
def compileNode (limit : Nat) (root : Node) : Except Rejection String :=
  match declareDocument limit root .empty with
  | .ok () out => .ok out.text
  | .error cause _ => .error cause

end YamlDefs

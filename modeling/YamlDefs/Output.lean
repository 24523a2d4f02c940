import YamlDefs.Text.Join
import YamlDefs.Node
import YamlDefs.Rejection

/-!
# Output

What has been written so far, as units: each declaration is one unit, and so is the comment that
announces a structure.

* `Declaration.text`: how a unit is written.
* `Output.push`, `Output.text`: a unit more at the end; all units, one on a line after the other.
* `Writing`: steps that may add units and may be rejected; what they have added then stays.
-/

namespace YamlDefs

/-- One unit of output. -/
inductive Declaration where
  /-- A line given as it is. -/
  | line (text : String)
  /-- The comment before the contents of a mapping. -/
  | structureNamed (name : String)
  /-- The definition of a constant. -/
  | constant (name : String) (value : Node)
  /-- The evaluation of a constant. -/
  | evaluation (name : String)
deriving Repr

/-- How a unit is written. -/
def Declaration.text : Declaration → String
  | line text => text
  | structureNamed name => "%\x7b\nЭто структура " ++ name ++ "\n%\x7d"
  | constant name value => "def " ++ name ++ " := " ++ value.literal
  | evaluation name => "!( " ++ name ++ " )"

/-- The units written so far. -/
structure Output where
  units : Array Declaration
deriving Repr

namespace Output

/-- Nothing written yet. -/
def empty : Output := ⟨#[]⟩

/-- One unit more at the end. -/
def push (out : Output) (unit : Declaration) : Output := ⟨out.units.push unit⟩

/-- Whether nothing has been written. -/
def isEmpty (out : Output) : Bool := out.units.isEmpty

/-- All units, with a line feed between each two. -/
def text (out : Output) : String := Text.join "\n" (out.units.toList.map Declaration.text)

@[simp] theorem toList_units_empty : empty.units.toList = [] := rfl

@[simp] theorem toList_units_push (out : Output) (unit : Declaration) :
    (out.push unit).units.toList = out.units.toList ++ [unit] := by
  simp [push]

end Output

/-- Steps on an output that may be rejected; a rejection leaves what was written before it. -/
abbrev Writing := EStateM Rejection Output

namespace Writing

/-- Adds a unit. -/
def push (unit : Declaration) : Writing Unit := fun out => .ok () (out.push unit)

/-- Goes on if a check passed, and is rejected for its cause if not. -/
def require (check : Except Rejection Unit) : Writing Unit := fun out =>
  match check with
  | .ok () => .ok () out
  | .error cause => .error cause out

end Writing

end YamlDefs

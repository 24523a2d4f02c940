import YamlDefs.Declare

/-!
# Counting levels in words

Depths are natural numbers, so the level below another one always exists. In words of 64 bits the
greatest has no next one: counting goes on with zero there or breaks off, and under a limit on words
a level zero would be within every limit.

* `Counting`: a way of counting levels in words. `wrapping` goes on with zero, `checked` breaks off,
  `upTo` breaks off at levels above a limit as well.
* `Counting.declareNode`, `Counting.declareDocument`: the declarations that count so.
-/

namespace YamlDefs

open Writing

/-- A way of counting levels in words. -/
structure Counting where
  /-- The level below a level; none where the counting breaks off. -/
  next : UInt64 → Option UInt64

/-- Declaring by a way of counting: nothing comes out where the counting breaks off. -/
abbrev Counted := OptionT Writing

/-- Rejects a level beyond the limit, where both are words. -/
def checkLevel (limit depth : UInt64) : Except Rejection Unit :=
  if limit < depth then .error (.tooDeep depth.toNat) else .ok ()

namespace Counting

/-- Goes on with zero behind the greatest word. -/
def wrapping : Counting := ⟨fun depth => some (depth + 1)⟩

/-- Breaks off behind the greatest word. -/
def checked : Counting :=
  ⟨fun depth => if depth.toNat + 1 < UInt64.size then some (depth + 1) else none⟩

/-- Breaks off behind the greatest word, and at every level above a limit. -/
def upTo (limit : UInt64) : Counting :=
  ⟨fun depth => if depth ≤ limit then checked.next depth else none⟩

/-- The level below a level. -/
def below (count : Counting) (depth : UInt64) : Counted UInt64 :=
  OptionT.mk (pure (count.next depth))

mutual

/-- Checks a value at a level as `YamlDefs.checkValue` does. -/
def checkValue (count : Counting) (limit depth : UInt64) (value : Node) : Counted Unit := do
  require (checkLevel limit depth)
  match value with
  | .number _ => pure ()
  | .string _ => pure ()
  | .sequence items => count.checkItems limit depth items
  | .mapping entries => require (.error (.invalidValue (Node.mapping entries).text))
  | .unsupported text => require (.error (.invalidValue (Node.unsupported text).text))

/-- Checks the items of a sequence at a level; for each of them the level below is counted anew. -/
def checkItems (count : Counting) (limit depth : UInt64) : List Node → Counted Unit
  | [] => pure ()
  | item :: rest => do
    count.checkValue limit (← count.below depth) item
    count.checkItems limit depth rest

end

/-- Writes the definition of a constant as `YamlDefs.declareConstant` does. -/
def declareConstant (count : Counting) (limit depth : UInt64) (name : String) (value : Node) :
    Counted Unit := do
  require (checkName name)
  count.checkValue limit depth value
  push (.constant name value)

mutual

/-- Writes a named node at a level as `YamlDefs.declareNode` does. -/
def declareNode (count : Counting) (limit depth : UInt64) (name : String) (node : Node) :
    Counted Unit := do
  require (checkName name)
  require (checkLevel limit depth)
  match node with
  | .mapping entries =>
    push (.structureNamed name)
    count.declareEntries limit depth entries
  | .sequence items => count.declareConstant limit depth name (.sequence items)
  | .number value => count.declareConstant limit depth name (.number value)
  | .string value => count.declareConstant limit depth name (.string value)
  | .unsupported text => require (.error (.invalidValue text))

/-- Writes the entries of a mapping at a level; for each of them the level below is counted anew. -/
def declareEntries (count : Counting) (limit depth : UInt64) : List (String × Node) → Counted Unit
  | [] => pure ()
  | (name, node) :: rest => do
    count.declareNode limit (← count.below depth) name node
    count.declareEntries limit depth rest

end

/-- Writes a whole document as `YamlDefs.declareDocument` does. -/
def declareDocument (count : Counting) (limit : UInt64) : Node → Counted Unit
  | .mapping entries => forM entries fun e => count.declareNode limit 1 e.1 e.2
  | _ => require (.error .rootNotMapping)

end Counting

end YamlDefs

/-!
# Identifiers

A name of a declaration begins with a capital letter or an underscore and goes on with letters,
digits and underscores, all of them ASCII.

* `isIdentifier`: that condition, on the characters of a name.
* `Identifier`: a name that satisfies it, made by `Identifier.ofString?`.
-/

namespace YamlDefs

/-- Whether an identifier may begin with a character. -/
def isNameStart (c : Char) : Bool := c = '_' || c.isUpper

/-- Whether an identifier may go on with a character. -/
def isNameChar (c : Char) : Bool := c = '_' || c.isAlphanum

/-- Whether a text is an identifier. -/
def isIdentifier (name : List Char) : Bool :=
  match name with
  | [] => false
  | c :: cs => isNameStart c && cs.all isNameChar

/-- A text that satisfies the grammar of names. -/
structure Identifier where
  name : String
  isIdentifier_name : isIdentifier name.toList = true
deriving DecidableEq

/-- The identifier that a text is, if it is one. -/
def Identifier.ofString? (name : String) : Option Identifier :=
  if h : isIdentifier name.toList then some ⟨name, h⟩ else none

theorem Identifier.ofString?_eq_some_iff {name : String} {i : Identifier} :
    Identifier.ofString? name = some i ↔ isIdentifier name.toList = true ∧ i.name = name := by
  unfold Identifier.ofString?
  split
  · next h =>
    rw [Option.some.injEq]
    refine ⟨fun e => ⟨h, e ▸ rfl⟩, fun e => ?_⟩
    cases i
    simp_all
  · next h => simp_all

end YamlDefs

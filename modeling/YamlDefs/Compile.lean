import YamlDefs.Declare
import YamlDefs.Tag.Scan
import YamlDefs.Yaml.Value

/-!
# Compiling a source

The tag scan comes first, then the reading of the document, then the declarations of its tree. The
reading is left to a library.

* `Yaml.Reader`: such a library.
* `parse`: the tree of a source.
* `compile`: the text of a source, or why it is rejected.
* `parse_eq_unsupportedTag_iff`, `compile_of_found`: whatever the library, a tag that the scan finds
  is what the source is rejected for.
-/

namespace YamlDefs

/-- A library that reads documents: the value of a source, or what is wrong with it, in its own
words. -/
abbrev Yaml.Reader := String → Except String Yaml.Value

/-- Why a source has no tree. -/
inductive ParseFault where
  /-- A tag outside the core schema stands in it. -/
  | unsupportedTag (found : Tag.Found)
  /-- It is not well-formed; the cause is in the words of the reader. -/
  | malformed (cause : String)
deriving DecidableEq, Repr

/-- The text by which a fault is reported. -/
def ParseFault.message : ParseFault → String
  | unsupportedTag found =>
    "unsupported tag " ++ found.tag ++ " at line " ++ String.ofList (Text.decimal found.line)
  | malformed cause => cause

/-- The rejection that a fault of a source comes to. -/
def ParseFault.rejection : ParseFault → Rejection
  | unsupportedTag found => .invalidValue found.tag
  | malformed cause => .malformed cause

/-- The tree of a source. A tag outside the core schema is reported even if the source is malformed
behind it. -/
def parse (read : Yaml.Reader) (source : String) : Except ParseFault Node :=
  match Tag.findUnsupported? source with
  | some found => .error (.unsupportedTag found)
  | none =>
    match read source with
    | .ok value => .ok value.toNode
    | .error cause => .error (.malformed cause)

/-- The text of a source under a limit on depth. -/
def compile (read : Yaml.Reader) (limit : Nat) (source : String) : Except Rejection String :=
  match parse read source with
  | .ok root => compileNode limit root
  | .error fault => .error fault.rejection

variable {read : Yaml.Reader} {source : String} {found : Tag.Found}

/-- A source is rejected for a tag just if the scan finds this tag. -/
theorem parse_eq_unsupportedTag_iff :
    parse read source = .error (.unsupportedTag found) ↔
      Tag.findUnsupported? source = some found := by
  unfold parse
  cases Tag.findUnsupported? source with
  | none => cases read source <;> simp
  | some first => simp

theorem compile_of_found (h : Tag.findUnsupported? source = some found) (limit : Nat) :
    compile read limit source = .error (.invalidValue found.tag) := by
  rw [compile, parse_eq_unsupportedTag_iff.mpr h]
  rfl

end YamlDefs

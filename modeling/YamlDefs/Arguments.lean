import YamlDefs.Text.Unsigned

/-!
# Command-line arguments

The program says which options it takes, and a library reads its arguments by them: what each option
is given, or that there is nothing to be done but to print a text. The program only looks up what
its four options were given.

* `OptionSpec`, `Command`: options, and the command line of a program.
* `Matches`: what options are given; `Matches.set_self`, `Matches.set_of_ne`, `Matches.set_comm`.
* `Halt`: why a command line asks for nothing to be done.
* `ArgumentReader`: a library that reads arguments.
* `PathOption`: the options of the program that take a path.
* `Arguments`: what all its options say; `Arguments.command`, `Arguments.ofMatches`.
-/

namespace YamlDefs

/-! ## Options -/

/-- What an option takes for its value. -/
inductive ValueKind where
  | path
  /-- A number of 64 bits. -/
  | word
deriving DecidableEq, Repr

/-- The values of a kind. -/
abbrev ValueKind.Value : ValueKind → Type
  | path => String
  | word => Nat

/-- The value that a text stands for: a path is any text but the empty one, and a number is written
in decimal. -/
def ValueKind.read? : (kind : ValueKind) → String → Option kind.Value
  | path, text => if text.isEmpty then none else some text
  | word, text => Text.readWord? text.toList

/-- An option that takes one value. -/
structure OptionSpec where
  /-- The long name. -/
  name : String
  /-- The name of one letter, if there is one. -/
  letter : Option Char
  kind : ValueKind
  /-- The word that stands for the value where the option is explained. -/
  valueName : String
  /-- What the option is for. -/
  about : String
deriving DecidableEq, Repr

/-- The command line of a program. Its options apart, there is one that asks for help and one that
asks for the version. -/
structure Command where
  name : String
  version : String
  /-- What the program is for. -/
  about : String
  options : List OptionSpec
deriving Repr

/-- The names of options can be told from each other, from those of the two options that every
program has, and from the values after them. -/
structure Command.Valid (c : Command) : Prop where
  names : (c.options.map (·.name)).Nodup
  letters : (c.options.filterMap (·.letter)).Nodup
  free : ∀ o ∈ c.options, o.name ∉ ["help", "version"] ∧ o.letter ∉ [some 'h', some 'V']
  plain : ∀ o ∈ c.options, o.name ≠ "" ∧ '=' ∉ o.name.toList ∧ o.letter ≠ some '-'

/-- What each option is given. -/
abbrev Matches := (o : OptionSpec) → Option o.kind.Value

namespace Matches

/-- No option is given anything. -/
def empty : Matches := fun _ => none

/-- An option is given a value. -/
def set (m : Matches) (o : OptionSpec) (value : o.kind.Value) : Matches := fun p =>
  if h : o = p then some (h ▸ value) else m p

variable {m : Matches} {o p : OptionSpec}

@[simp] theorem set_self (value : o.kind.Value) : m.set o value o = some value := by
  simp [set]

theorem set_of_ne (value : o.kind.Value) (h : o ≠ p) : m.set o value p = m p := by
  simp [set, h]

/-- It does not matter which of two options is given its value first. -/
theorem set_comm {v : o.kind.Value} {w : p.kind.Value} (h : o ≠ p) :
    (m.set o v).set p w = (m.set p w).set o v := by
  funext q
  by_cases hp : p = q
  · subst hp
    rw [set_self, set_of_ne _ h, set_self]
  · by_cases ho : o = q
    · subst ho
      rw [set_of_ne _ hp, set_self, set_self]
    · simp only [set_of_ne, hp, ho, ne_eq, not_false_eq_true]

end Matches

/-! ## Reading arguments -/

/-- What is wrong with a command line. -/
inductive Misuse where
  /-- An argument is no known option and belongs to none. -/
  | unknownArgument
  /-- An option stands without a value, or with an empty path. -/
  | missingValue
  /-- A limit is not a number of 64 bits. -/
  | malformedNumber
  /-- An option stands twice. -/
  | repeatedOption
  /-- A value is attached to an option that takes none. -/
  | unwantedValue
deriving DecidableEq, Repr

/-- Why a command line asks for nothing to be done. -/
inductive Halt where
  | help
  | version
  | misuse (fault : Misuse)
deriving DecidableEq, Repr

/-- A library that reads arguments. -/
structure ArgumentReader where
  /-- What arguments give to the options of a program, or why there is nothing to be done. -/
  read : Command → List String → Except Halt Matches
  /-- What is printed if there is nothing to be done. -/
  text : Command → List String → Halt → String

/-- The arguments by which an option may be given a value, character by character. A value that
stands after the option must not look like an option itself, as all but a single dash do that begin
with a dash. -/
inductive OptionSpec.Gives (o : OptionSpec) (value : List Char) : List (List Char) → Prop where
  | apart {l : Char} : o.letter = some l → (value.head? = some '-' → value = ['-']) →
      Gives o value [['-', l], value]
  | joined {l : Char} : o.letter = some l → value ≠ [] → value.head? ≠ some '=' →
      value.head? ≠ some '-' → Gives o value ['-' :: l :: value]
  | equals {l : Char} : o.letter = some l → Gives o value ['-' :: l :: '=' :: value]
  | longApart : (value.head? = some '-' → value = ['-']) →
      Gives o value ['-' :: '-' :: o.name.toList, value]
  | longEquals : Gives o value ['-' :: '-' :: (o.name.toList ++ '=' :: value)]

/-- What such a library is documented to do: without arguments no option is given anything, and an
option that is given a value in one of the ways above, in front of arguments that are read without
it, is given that value besides. -/
structure ArgumentReader.Documented (r : ArgumentReader) : Prop where
  nothing : ∀ c : Command, c.Valid → r.read c [] = .ok .empty
  option : ∀ c : Command, c.Valid → ∀ o ∈ c.options, ∀ (text : String) (value : o.kind.Value)
    (args : List (List Char)) (rest : List String) (m : Matches), o.Gives text.toList args →
    o.kind.read? text = some value → r.read c rest = .ok m → m o = none →
    r.read c (args.map String.ofList ++ rest) = .ok (m.set o value)

/-! ## The arguments of the program -/

/-- The options that take a path. -/
inductive PathOption where
  | input
  | output
  | config
deriving DecidableEq, Repr

namespace PathOption

/-- The long name. -/
def name : PathOption → String
  | input => "input"
  | output => "output"
  | config => "config"

/-- The name of one letter. -/
def letter : PathOption → Char
  | input => 'i'
  | output => 'o'
  | config => 'c'

/-- What the option is for. -/
def about : PathOption → String
  | input => "Read YAML from this file instead of standard input"
  | output => "Write the translation to this file instead of standard output"
  | config => "Load configuration from this file instead of config/conflang"

/-- The option among those that take a value. -/
def spec (option : PathOption) : OptionSpec where
  name := option.name
  letter := some option.letter
  kind := .path
  valueName := "FILE"
  about := option.about

end PathOption

/-- What the options of a command line say. -/
structure Arguments where
  /-- The file to compile; standard input if there is none. -/
  input : Option String := none
  /-- The file to write; standard output if there is none. -/
  output : Option String := none
  /-- The only file of settings. -/
  config : Option String := none
  /-- The limit on depth. -/
  maxDepth : Option Nat := none
deriving DecidableEq, Repr

namespace Arguments

/-- The option that takes the limit. -/
def limitOption : OptionSpec where
  name := "max-depth"
  letter := none
  kind := .word
  valueName := "N"
  about := "Deepest mapping/sequence nesting accepted"

/-- The command line of the program. -/
def command : Command where
  name := "conflang"
  version := "0.1.0"
  about := "Command-line front end for the conflang translator"
  options := [PathOption.input.spec, PathOption.output.spec, PathOption.config.spec, limitOption]

theorem command_valid : command.Valid := ⟨by decide, by decide, by decide, by decide⟩

/-- What is given to the options of the program. -/
def ofMatches (m : Matches) : Arguments :=
  ⟨m PathOption.input.spec, m PathOption.output.spec, m PathOption.config.spec, m limitOption⟩

/-- The limit in force: the option's, or else the given one of the settings. -/
def limit (a : Arguments) (configured : Nat) : Nat := a.maxDepth.getD configured

end Arguments

/-- What a list of arguments says by a library. -/
def ArgumentReader.arguments (r : ArgumentReader) (args : List String) : Except Halt Arguments :=
  (r.read Arguments.command args).map Arguments.ofMatches

end YamlDefs

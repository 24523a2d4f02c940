import YamlDefs.Environment.Variables
import YamlDefs.Files
import YamlDefs.Settings.Setting

/-!
# Reading settings

A library reads settings from sources, of which the later ones have the last word, and converts the
values that they give.

* `SettingsSource`: a file, or the variables of the environment.
* `SettingsReader`: such a library.
* `SettingsReader.lookups`: the paths at which a file of settings is looked for.
* `SettingsReader.Documented`: what such a library is documented to do.
-/

namespace YamlDefs

/-- A source of settings. -/
inductive SettingsSource where
  /-- The file at a path, or, if there is none, one at the path with one more extension. -/
  | file (path : String) (required : Bool)
  /-- The variables whose names begin with a word, whatever the case, and an underscore. -/
  | environment (start : String)
deriving DecidableEq, Repr

/-- A library that reads settings. What goes wrong is told in its own words. -/
structure SettingsReader where
  /-- The extensions of the names of files that it can read. -/
  extensions : List String
  /-- The table of values that sources give, from what a run can see of chance, files and
  variables. -/
  build : Nat → Files → Variables → List SettingsSource → Except String SettingTable
  /-- The text that a value stands for. -/
  text : Setting → Except String String
  /-- The number of 64 bits that a value stands for. -/
  word : Setting → Except String Nat

/-- A path, given in reverse, without slashes and points at its end that do not name anything. -/
def withoutIdleEnd : List Char → List Char
  | '/' :: cs => withoutIdleEnd cs
  | '.' :: '/' :: cs => withoutIdleEnd cs
  | cs => cs

/-- A path with one more extension for its last name; none if it does not end with a name. -/
def withExtension? (path extension : String) : Option String :=
  let trimmed := String.ofList (withoutIdleEnd path.toList.reverse).reverse
  let last := ((Files.steps trimmed).getLastD "/")
  if last = "." ∨ last = ".." ∨ last = "/" then none else some (trimmed ++ "." ++ extension)

/-- The paths at which a file of settings is looked for: the given path, and unless a file is there
the path with each extension. -/
def SettingsReader.lookups (r : SettingsReader) (fs : Files) (path : String) : List String :=
  if fs.isFile path then [path] else path :: r.extensions.filterMap (withExtension? path)

/-- What such a library is documented to do: a single file gives its values by what can be read at
the paths at which it is looked for, and by nothing else. -/
structure SettingsReader.Documented (r : SettingsReader) : Prop where
  file : ∀ chance (fs gs : Files) (vars vars' : Variables) path required,
    (∀ p ∈ r.lookups fs path, (fs.read? p).toOption = (gs.read? p).toOption) →
    (r.build chance fs vars [.file path required]).toOption =
      (r.build chance gs vars' [.file path required]).toOption

end YamlDefs

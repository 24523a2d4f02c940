import YamlDefs.Settings.Ini
import YamlDefs.Settings.Json.Document
import YamlDefs.Settings.Path
import YamlDefs.Settings.Reader
import YamlDefs.Settings.Toml.Document
import YamlDefs.Settings.Yaml.Document
import YamlDefs.Text.Utf8

/-!
# A reader of settings

Files are read in one of four formats, told by their extensions; other libraries may know more. In
which order formats are tried is left to chance.

* `Format`: the formats.
* `settingsFile?`: the file that a path means.
* `SettingsReader.own`: the reader.
-/

namespace YamlDefs

/-- The formats of files of settings. -/
inductive Format where
  | toml
  | json
  | yaml
  | ini
deriving DecidableEq, Repr

namespace Format

/-- All formats. -/
def all : List Format := [toml, json, yaml, ini]

/-- The extensions of the names of files in a format. -/
def suffixes : Format → List String
  | toml => ["toml"]
  | json => ["json"]
  | yaml => ["yaml", "yml"]
  | ini => ["ini"]

/-- The extensions that formats have, with the formats. -/
def extensions (formats : List Format) : List (String × Format) :=
  formats.flatMap fun format => format.suffixes.map (·, format)

/-- The table that a text in a format stands for. -/
def read? (format : Format) (cs : List Char) : Option (List (String × Setting)) :=
  match format with
  | toml => Settings.readToml? cs
  | json => Settings.readJson? cs
  | yaml => Settings.readYaml? cs
  | ini => Settings.readIni? cs

end Format

/-- Things in an order that chance decides; each order comes up for some number. -/
def arranged {α : Type} (chance : Nat) : List α → List α
  | [] => []
  | x :: rest =>
    (arranged (chance / (rest.length + 1)) rest).insertIdx (chance % (rest.length + 1)) x

/-- The extension of the last name of a path: what comes after its last point, if anything comes
before. -/
def extension? (path : String) : Option String :=
  let name := ((Files.names path).getLastD "").toList.reverse
  match name.dropWhile (· ≠ '.') with
  | '.' :: _ :: _ => some (String.ofList (name.takeWhile (· ≠ '.')).reverse)
  | _ => none

/-- The file of settings that a path means, with its format: the file at the path if its extension
is known, or, if there is none, a file with one more extension. -/
def settingsFile? (chance : Nat) (fs : Files) (path : String) : Option (String × Format) :=
  if fs.isFile path then
    ((extension? path).bind fun e => (Format.extensions Format.all).lookup e).map (path, ·)
  else
    (Format.extensions (arranged chance Format.all)).findSome? fun (e, format) =>
      ((withExtension? path e).filter fs.isFile).map (·, format)

/-- What a path of settings leads to. -/
inductive SettingsFile where
  | absent
  | malformed
  | table (entries : List (String × Setting))

/-- What a path of settings leads to. A file that holds no text is as good as none. -/
def SettingsFile.of (chance : Nat) (fs : Files) (path : String) : SettingsFile :=
  match settingsFile? chance fs path with
  | none => .absent
  | some (file, format) =>
    match (fs.read? file).toOption.bind Text.decode? with
    | none => .absent
    | some text =>
      match format.read? text.toList with
      | some entries => .table entries
      | none => .malformed

namespace SettingsReader

/-- The settings that variables give, whose names do not depend on case. The first of equal
variables counts. -/
def ofVariables (start : String) (vars : Variables) : List (String × Setting) :=
  let start := (lowercase start ++ "_").toList
  vars.reverse.filterMap fun (name, value) =>
    let name := (lowercase name).toList
    if start.isPrefixOf name then some (String.ofList (name.drop start.length), .text value)
    else none

/-- A table after one more source. The words for what is wrong are left out. -/
def withSource (chance : Nat) (fs : Files) (vars : Variables) (table : SettingTable) :
    SettingsSource → Except String SettingTable
  | .file path required =>
    match SettingsFile.of chance fs path with
    | .absent => if required then .error "" else .ok table
    | .malformed => .error ""
    | .table entries => .ok (table.withSource entries)
  | .environment start => .ok (table.withSource (ofVariables start vars))

/-- The reader. -/
def own : SettingsReader where
  extensions := (Format.extensions Format.all).map (·.1)
  build chance fs vars sources := sources.foldlM (withSource chance fs vars) []
  text value := value.toText?.elim (.error "") .ok
  word value := value.toLimit?.elim (.error "") .ok

end SettingsReader

end YamlDefs

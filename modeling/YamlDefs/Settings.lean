import YamlDefs.Settings.Reader
import YamlDefs.Validation

/-!
# Settings

The settings of a run: a limit on depth and a level of logging. They come from one file that is
named, or else from a file in its usual place and from the environment, which has the last word.
The reading is left to a library.

* `Settings.ofTable`: the settings of a table, with defaults for what it does not name.
* `Settings.loadFrom`: the settings of a named file, which must be there.
* `Settings.load`: the settings without a named file. If the sources cannot be read, none of them
  counts; if a value does not fit, there are no settings.
-/

namespace YamlDefs

/-- The settings of a run. -/
structure Settings where
  logLevel : String
  maxDepth : Nat
deriving DecidableEq, Repr

namespace Settings

/-- The settings if nothing gives any. -/
def default : Settings := ⟨"warn", defaultLimit⟩

/-- Where the file of settings usually is, without its extension. -/
def usualPlace : String := "config/conflang"

/-- What the names of variables for settings begin with. -/
def variableStart : String := "CONFLANG"

/-- The settings after one more value. Names that are not known do not matter. -/
def take (r : SettingsReader) (s : Settings) (entry : String × Setting) :
    Except String Settings :=
  if entry.1 = "log_level" then do return { s with logLevel := ← r.text entry.2 }
  else if entry.1 = "max_depth" then do return { s with maxDepth := ← r.word entry.2 }
  else return s

/-- The settings of a table; what it does not name has its default. -/
def ofTable (r : SettingsReader) (table : SettingTable) : Except String Settings :=
  table.foldlM (take r) default

/-- The settings of a named file. -/
def loadFrom (r : SettingsReader) (chance : Nat) (fs : Files) (vars : Variables) (path : String) :
    Except String Settings := do
  ofTable r (← r.build chance fs vars [.file path true])

/-- The settings of the file in the usual place and of variables. -/
def load (r : SettingsReader) (chance : Nat) (fs : Files) (vars : Variables) :
    Except String Settings :=
  match r.build chance fs vars [.file usualPlace false, .environment variableStart] with
  | .ok table => ofTable r table
  | .error _ => .ok default

end Settings

end YamlDefs

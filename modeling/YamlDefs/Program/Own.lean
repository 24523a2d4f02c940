import YamlDefs.Arguments.Reader
import YamlDefs.Environment.DotEnv
import YamlDefs.Program
import YamlDefs.Settings.Load
import YamlDefs.Yaml.Read

/-!
# The program with its own readers

Readers take the places of the libraries. Where these would tell in their own words what is wrong,
the readers say nothing.

* `Yaml.Reader.own`, `Logger.own`: a reader of documents, and a log whose lines are left out.
* `Libraries.own`: all of them.
-/

namespace YamlDefs

/-- The reader of documents. -/
def Yaml.Reader.own : Yaml.Reader := fun source => (Yaml.read? source).elim (.error "") .ok

/-- A log for which every text is one of a filter. -/
def Logger.own : Logger where
  isFilter _ := true
  install taken _ := if taken then .error "" else .ok ()

theorem Logger.own_documented : Logger.own.Documented := ⟨fun _ => rfl⟩

/-- The readers in the places of the libraries. -/
def Libraries.own : Libraries where
  arguments := .own
  extend := Variables.loadNearest
  settings := .own
  logger := .own
  yaml := .own

end YamlDefs

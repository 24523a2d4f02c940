import YamlDefs.Settings.Yaml.Grammar
import YamlDefs.Settings.Yaml.Lexer

/-!
# Settings in YAML

Files of settings are read by the rules of YAML 1.2, with one document at most.

* `readYaml?`: the table that a YAML text stands for. Its root must be a mapping; without a document
  the table is empty.
-/

namespace YamlDefs.Settings

/-- The table that a YAML text stands for. -/
def readYaml? (cs : List Char) : Option (List (String × Setting)) := do
  let tokens ← Yaml.tokens? (Yaml.glyphs cs)
  match ← Yaml.document? tokens with
  | none => return []
  | some (.mapping entries) => Yaml.Datum.entrySettings? entries
  | some _ => none

end YamlDefs.Settings

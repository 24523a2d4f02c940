import YamlDefs.Settings.Setting
import YamlDefs.Text.Blank
import YamlDefs.Text.Reader
import YamlDefs.Text.Unsigned

/-!
# Settings in INI form

A line `key = value` or `key : value` gives a text; a line `[section]` puts the keys after it into
a table. A semicolon or number sign at the beginning of a line makes it a comment.

* `readIni?`: the table that such a text stands for.
-/

namespace YamlDefs.Settings.Ini

open YamlDefs.Text YamlDefs.Text.Reader

/-- Text up to one of the given characters, which stays, with backslash escapes resolved; the text
so far comes in reverse. At the end of the input it is refused unless `endAllowed`. -/
def textUntil (stops : List Char) (endAllowed : Bool) (text : List Char) : Nat → Reader (List Char)
  | 0 => failure
  | fuel + 1 => do
    match ← peek with
    | none => if endAllowed then return text.reverse else failure
    | some c =>
      if stops.contains c then return text.reverse
      let _ ← next
      if c ≠ '\\' then textUntil stops endAllowed (c :: text) fuel
      else
        match ← next with
        | '0' => textUntil stops endAllowed ('\x00' :: text) fuel
        | 'a' => textUntil stops endAllowed ('\x07' :: text) fuel
        | 'b' => textUntil stops endAllowed ('\x08' :: text) fuel
        | 't' => textUntil stops endAllowed ('\t' :: text) fuel
        | 'r' => textUntil stops endAllowed ('\r' :: text) fuel
        | 'n' => textUntil stops endAllowed ('\n' :: text) fuel
        | '\n' => textUntil stops endAllowed text fuel
        | 'x' =>
          match readNat? 16 (withoutPlus (← take 4)) with
          | some n =>
            if h : n.isValidChar then
              textUntil stops endAllowed (Char.ofNatAux n h :: text) fuel
            else failure
          | none => failure
        | c => textUntil stops endAllowed (c :: text) fuel

/-- The rest of a value: a part in quotes, if it begins with one, and then the rest of the line. The
blanks around all of it do not belong to it. -/
def value (fuel : Nat) : Reader (List Char) := do
  let quoted ← match ← peek with
    | some c =>
      if c = '"' || c = '\'' then do
        let _ ← next
        let quoted ← textUntil [c] false [] fuel
        let _ ← next
        pure quoted
      else pure []
    | none => pure []
  return trim (quoted ++ (← textUntil ['\n', '\r'] true [] fuel))

/-- A line of a text: the header of a section, or a key. -/
inductive Entry where
  | header (name : String)
  | key (name value : String)

/-- The entries of the rest of a text; `atStart` says whether it begins with a line. A comment must
begin with its line. -/
def entries (atStart : Bool) : Nat → Reader (List Entry)
  | 0 => failure
  | fuel + 1 => do
    let blanks ← span isBlank
    let atStart := (blanks.getLast?.map fun c => decide (c = '\n')).getD atStart
    match ← peek with
    | none => return []
    | some ';' | some '#' =>
      unless atStart do failure
      skip (· ≠ '\n')
      entries false fuel
    | some '[' =>
      let _ ← next
      let name := String.ofList (trim (← textUntil [']'] false [] fuel))
      let _ ← next
      return .header name :: (← entries false fuel)
    | some _ =>
      let name := trim (← textUntil ['=', ':'] false [] fuel)
      if name.isEmpty then failure
      let _ ← next
      skip fun c => isBlank c && c ≠ '\n' && c ≠ '\r'
      let text ← value fuel
      return .key (String.ofList name) (String.ofList text) :: (← entries false fuel)

/-- The keys before the first header of a text, and the sections after it. -/
def sections : List Entry → List (String × Setting) × List (String × Setting)
  | [] => ([], [])
  | .key name value :: rest =>
    let (keys, others) := sections rest
    ((name, .text value) :: keys, others)
  | .header name :: rest =>
    let (keys, others) := sections rest
    ([], (name, .table keys) :: others)

/-- The table that entries stand for. -/
def table (entries : List Entry) : List (String × Setting) :=
  let (keys, others) := sections entries
  keys ++ others

end Ini

/-- The table that a text in INI form stands for. -/
def readIni? (cs : List Char) : Option (List (String × Setting)) :=
  (Text.Reader.readAll (Ini.entries true (2 * cs.length + 2)) cs).map Ini.table

end YamlDefs.Settings

import YamlDefs.Settings.Toml.Table
import YamlDefs.Settings.Toml.Text
import YamlDefs.Settings.Toml.Word

/-!
# Documents in TOML

* `value`: strings, words, arrays and inline tables.
* `lines`: the lines of a document, each a header or an assignment.
* `readToml?`: the table that a document stands for.
-/

namespace YamlDefs.Settings.Toml

open YamlDefs.Text YamlDefs.Text.Reader

/-- How many arrays and inline tables may be nested in each other, and how many keys a path may
have. -/
def nestingLimit : Nat := 79

/-- One key of a path. -/
def keyPart (fuel : Nat) : Reader String := do
  match ← peek with
  | some '"' =>
    let _ ← next
    stringFrom '"' [] fuel
  | some '\'' =>
    let _ ← next
    stringFrom '\'' [] fuel
  | _ => return String.ofList (← spanSome fun c => c.isAlphanum || c = '_' || c = '-')

/-- The keys of a path, with blanks around them. -/
def keys : Nat → Reader (List String)
  | 0 => failure
  | fuel + 1 => do
    skip isBlank
    let part ← keyPart fuel
    skip isBlank
    if ← accepts "." then return part :: (← keys fuel) else return [part]

/-- A path of keys. -/
def keyPath (fuel : Nat) : Reader (List String) := do
  let path ← keys fuel
  if nestingLimit < path.length then failure else return path

mutual

/-- A value in which as many collections may be nested as `depth` says. -/
def value (depth : Nat) : Nat → Reader Setting
  | 0 => failure
  | fuel + 1 => do
    match ← peek, depth with
    | some '"', _ => return .text (← string '"' fuel)
    | some '\'', _ => return .text (← string '\'' fuel)
    | some '[', depth + 1 =>
      let _ ← next
      return .list (← items depth fuel)
    | some '\x7b', depth + 1 =>
      let _ ← next
      skip isBlank
      if ← accepts "\x7d" then return .table []
      else return .table (settings (← members depth [] fuel))
    | _, _ => word

/-- The items of an array, through its closing bracket. A comma may follow the last. -/
def items (depth : Nat) : Nat → Reader (List Setting)
  | 0 => failure
  | fuel + 1 => do
    skipLines fuel
    if ← accepts "]" then return []
    else
      let item ← value depth fuel
      skipLines fuel
      if ← accepts "]" then return [item]
      else
        expect ","
        return item :: (← items depth fuel)

/-- The members of an inline table after those so far, through its closing brace. -/
def members (depth : Nat) (entries : List (String × Item)) :
    Nat → Reader (List (String × Item))
  | 0 => failure
  | fuel + 1 => do
    let path ← keyPath fuel
    expect "="
    skip isBlank
    let setting ← value depth fuel
    skip isBlank
    match assign true entries setting path with
    | none => failure
    | some entries =>
      if ← accepts "\x7d" then return entries
      else
        expect ","
        members depth entries fuel

end

/-- The rest of a document, after the header in force and the entries so far. -/
def lines (header : List String) (entries : List (String × Item)) :
    Nat → Reader (List (String × Item))
  | 0 => failure
  | fuel + 1 => do
    skipLines fuel
    if ← atEnd then return entries
    else if ← accepts "[[" then
      let path ← keyPath fuel
      expect "]]"
      lineEnd
      match addTable path entries with
      | some entries => lines path entries fuel
      | none => failure
    else if ← accepts "[" then
      let path ← keyPath fuel
      expect "]"
      lineEnd
      match openTable path entries with
      | some entries => lines path entries fuel
      | none => failure
    else
      let path ← keyPath fuel
      expect "="
      skip isBlank
      let setting ← value nestingLimit fuel
      lineEnd
      match assignUnder header path setting entries with
      | some entries => lines header entries fuel
      | none => failure

end Toml

/-- The table that a TOML document stands for. A byte order mark may stand before it. -/
def readToml? (cs : List Char) : Option (List (String × Setting)) :=
  let text := if cs.head? = some '\uFEFF' then cs.drop 1 else cs
  (Text.Reader.readAll (Toml.lines [] [] (4 * cs.length + 4)) text).map Toml.settings

end YamlDefs.Settings

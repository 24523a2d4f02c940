import YamlDefs.Settings.Json.Number

/-!
# Documents in JSON

* `readJson?`: the table that a JSON text stands for; its root must be an object. Collections may
  nest 127 deep, and of members with one name the last counts.
-/

namespace YamlDefs.Settings.Json

open YamlDefs.Text YamlDefs.Text.Reader

/-- Whether a character may stand between tokens. -/
def isBlank (c : Char) : Bool := c = ' ' || c = '\t' || c = '\n' || c = '\r'

/-- Four hexadecimal digits. -/
def codeUnit : Reader Nat := do
  match readNat? 16 (← take 4) with
  | some n => return n
  | none => failure

/-- The character after `\u`: a code unit, or a pair of surrogates. -/
def escapedUnit : Reader Char := do
  let high ← codeUnit
  if 0xD800 ≤ high && high < 0xDC00 then
    expect "\\u"
    let low ← codeUnit
    if 0xDC00 ≤ low && low < 0xE000 then
      return Char.ofNat (0x10000 + (high - 0xD800) * 0x400 + (low - 0xDC00))
    else failure
  else if 0xDC00 ≤ high && high < 0xE000 then failure
  else return Char.ofNat high

/-- The character after a backslash. -/
def escape : Reader Char := do
  match ← next with
  | '"' => return '"'
  | '\\' => return '\\'
  | '/' => return '/'
  | 'b' => return '\x08'
  | 'f' => return '\x0C'
  | 'n' => return '\n'
  | 'r' => return '\r'
  | 't' => return '\t'
  | 'u' => escapedUnit
  | _ => failure

/-- The rest of a string, after the text so far (in reverse), through its closing quote. -/
def stringFrom (text : List Char) : Nat → Reader String
  | 0 => failure
  | fuel + 1 => do
    match ← next with
    | '"' => return String.ofList text.reverse
    | '\\' => stringFrom ((← escape) :: text) fuel
    | c => if c.toNat < 0x20 then failure else stringFrom (c :: text) fuel

mutual

/-- A value that may nest as many collections as `depth` says. -/
def value (depth : Nat) : Nat → Reader Setting
  | 0 => failure
  | fuel + 1 => do
    skip isBlank
    let result ← match ← peek, depth with
      | some '"', _ => do
        let _ ← next
        return .text (← stringFrom [] fuel)
      | some '[', depth + 1 => do
        let _ ← next
        skip isBlank
        if ← accepts "]" then pure (.list []) else pure (.list (← items depth fuel))
      | some '\x7b', depth + 1 => do
        let _ ← next
        skip isBlank
        if ← accepts "\x7d" then pure (.table []) else pure (.table (← members depth fuel))
      | some 't', _ => do
        expect "true"
        pure (.bool true)
      | some 'f', _ => do
        expect "false"
        pure (.bool false)
      | some 'n', _ => do
        expect "null"
        pure .null
      | some c, _ => if c = '-' || c.isDigit then number else failure
      | none, _ => failure
    return result

/-- The items of an array, through its closing bracket. -/
def items (depth : Nat) : Nat → Reader (List Setting)
  | 0 => failure
  | fuel + 1 => do
    let item ← value depth fuel
    skip isBlank
    if ← accepts "]" then return [item]
    else
      expect ","
      return item :: (← items depth fuel)

/-- The members of an object, through its closing brace. -/
def members (depth : Nat) : Nat → Reader (List (String × Setting))
  | 0 => failure
  | fuel + 1 => do
    skip isBlank
    expect "\""
    let name ← stringFrom [] fuel
    skip isBlank
    expect ":"
    let member ← value depth fuel
    skip isBlank
    if ← accepts "\x7d" then return [(name, member)]
    else
      expect ","
      return (name, member) :: (← members depth fuel)

end

/-- A whole text: one value with blanks around it. -/
def document (fuel : Nat) : Reader Setting := do
  let root ← value 127 fuel
  skip isBlank
  return root

end Json

/-- The table that a JSON text stands for. -/
def readJson? (cs : List Char) : Option (List (String × Setting)) :=
  match Text.Reader.readAll (Json.document (2 * cs.length + 2)) cs with
  | some (.table entries) => some entries
  | _ => none

end YamlDefs.Settings

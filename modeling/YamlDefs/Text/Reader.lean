/-!
# Readers

A reader takes characters off the front of a text, and may refuse. The formats of settings are read
with these.

* `peek`, `next`: the character in front, left there or taken.
* `span`: the longest front of characters of a class.
* `accepts`, `expect`: a word in front, if it is there, or else a refusal.
-/

namespace YamlDefs.Text

/-- A step that takes characters off the front of a text, or refuses. -/
abbrev Reader := StateT (List Char) Option

namespace Reader

/-- The character in front. -/
def peek : Reader (Option Char) := do return (← get).head?

/-- Takes the character in front; refuses at the end. -/
def next : Reader Char := do
  match ← get with
  | [] => failure
  | c :: cs =>
    set cs
    return c

/-- Takes the longest front of characters of a class. -/
def span (p : Char → Bool) : Reader (List Char) := do
  let cs ← get
  set (cs.dropWhile p)
  return cs.takeWhile p

/-- Takes the longest front of characters of a class, and at least one. -/
def spanSome (p : Char → Bool) : Reader (List Char) := do
  let taken ← span p
  if taken.isEmpty then failure else return taken

/-- Drops the longest front of characters of a class. -/
def skip (p : Char → Bool) : Reader Unit := modify (·.dropWhile p)

/-- Takes a word if it is in front. -/
def accepts (word : String) : Reader Bool := do
  let cs ← get
  if word.toList.isPrefixOf cs then
    set (cs.drop word.length)
    return true
  else return false

/-- Takes a word; refuses if it is not in front. -/
def expect (word : String) : Reader Unit := do
  unless ← accepts word do failure

/-- Whether nothing is left. -/
def atEnd : Reader Bool := do return (← get).isEmpty

/-- Takes exactly the given count of characters. -/
def take (count : Nat) : Reader (List Char) := do
  let cs ← get
  if cs.length < count then failure
  else
    set (cs.drop count)
    return cs.take count

/-- The result of a reader on a text of which it must take all. -/
def readAll {α : Type} (reader : Reader α) (cs : List Char) : Option α :=
  match reader.run cs with
  | some (a, []) => some a
  | _ => none

end Reader

end YamlDefs.Text

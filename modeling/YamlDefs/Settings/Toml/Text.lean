import YamlDefs.Text.Digits
import YamlDefs.Text.Reader

/-!
# Text in TOML

Blanks, comments, line breaks and strings.

* `skipLines`, `lineEnd`: what may stand between the lines of a document, and at their ends.
* `string`: a string of one line or of several, by its quotes.
-/

namespace YamlDefs.Settings.Toml

open YamlDefs.Text YamlDefs.Text.Reader

/-- Whether a character is a space or a tab. -/
def isBlank (c : Char) : Bool := c = ' ' || c = '\t'

/-- Whether a character may stand in comments and strings: no control character but the tab. -/
def isPrintable (c : Char) : Bool := c = '\t' || 0x20 ≤ c.toNat && c.toNat ≠ 0x7F

/-- A line feed, which a carriage return may precede. -/
def newline : Reader Unit := do
  if ← accepts "\r\n" then return () else expect "\n"

/-- What may end a line: blanks and a comment. -/
def lineRest : Reader Unit := do
  skip isBlank
  if ← accepts "#" then skip isPrintable

/-- The end of a line or of the document. -/
def lineEnd : Reader Unit := do
  lineRest
  unless ← atEnd do newline

/-- Blanks, comments and line breaks, as many as there are. -/
def skipLines : Nat → Reader Unit
  | 0 => failure
  | fuel + 1 => do
    lineRest
    match ← peek with
    | some '\n' | some '\r' =>
      newline
      skipLines fuel
    | _ => return ()

/-- The character with the code of the given count of hexadecimal digits. -/
def coded (width : Nat) : Reader Char := do
  match readNat? 16 (← take width) with
  | some n => if h : n.isValidChar then return Char.ofNatAux n h else failure
  | none => failure

/-- The character after a backslash. -/
def escape : Reader Char := do
  match ← next with
  | 'b' => return '\x08'
  | 't' => return '\t'
  | 'n' => return '\n'
  | 'f' => return '\x0C'
  | 'r' => return '\r'
  | '"' => return '"'
  | '\\' => return '\\'
  | 'u' => coded 4
  | 'U' => coded 8
  | _ => failure

/-- The rest of a string of one line, after the text so far (in reverse), through its quote. -/
def stringFrom (quote : Char) (text : List Char) : Nat → Reader String
  | 0 => failure
  | fuel + 1 => do
    let c ← next
    if c = quote then return String.ofList text.reverse
    else if c = '\\' && quote = '"' then stringFrom quote ((← escape) :: text) fuel
    else if isPrintable c then stringFrom quote (c :: text) fuel
    else failure

/-- Whether a backslash ends its line, so that all white space after it is left out. -/
def atLineBackslash : Reader Bool := do
  match (← get).dropWhile isBlank with
  | '\n' :: _ | '\r' :: '\n' :: _ => return true
  | _ => return false

/-- What is left of a text after the white space at its head, line breaks included. -/
def afterGap : List Char → List Char
  | '\r' :: '\n' :: cs => afterGap cs
  | c :: cs => if isBlank c || c = '\n' then afterGap cs else c :: cs
  | [] => []

/-- The rest of a string of several lines, after the text so far (in reverse), through its three
quotes; up to two more quotes before them belong to the text. Every line break reads as a line
feed. -/
def longStringFrom (quote : Char) (text : List Char) : Nat → Reader String
  | 0 => failure
  | fuel + 1 => do
    let quotes := (← get).takeWhile (· = quote)
    if quotes.length ≥ 3 then
      let count := min quotes.length 5
      let _ ← take count
      return String.ofList (text.reverse ++ List.replicate (count - 3) quote)
    if ← accepts "\r\n" then longStringFrom quote ('\n' :: text) fuel
    else
      let c ← next
      if c = '\\' && quote = '"' then
        if ← atLineBackslash then
          modify afterGap
          longStringFrom quote text fuel
        else longStringFrom quote ((← escape) :: text) fuel
      else if isPrintable c || c = '\n' then longStringFrom quote (c :: text) fuel
      else failure

/-- A string, from its opening quote. -/
def string (quote : Char) (fuel : Nat) : Reader String := do
  if ← accepts (String.ofList [quote, quote, quote]) then
    unless ← accepts "\r\n" do
      let _ ← accepts "\n"
    longStringFrom quote [] fuel
  else
    let _ ← next
    stringFrom quote [] fuel

end YamlDefs.Settings.Toml

import YamlDefs.Environment.Variables
import YamlDefs.Files
import YamlDefs.Text.Alphanumeric
import YamlDefs.Text.Blank
import YamlDefs.Text.Utf8

/-!
# Files of variables

A file named `.env` gives variables, one on a line as `NAME=value`, to the environment of a run. A
variable that has a value keeps it. Quotes let a value go over lines; `$NAME` stands for the value
of a variable. The first line that is malformed ends the file, and what is before it holds.

* `logicalLine`: the line at the head of a text, with the lines that its quotes join to it.
* `assignment?`: the variable and value of a line.
* `Variables.load`: the environment after a file; `Variables.loadNearest`: after the nearest file in
  the working directory or above it.
-/

namespace YamlDefs.DotEnv

open YamlDefs.Text

/-! ## Lines -/

/-- Where a character stands with regard to the quotes of a line. -/
inductive Quoting where
  | plain
  | blank
  | escaped
  | single
  | singleEscaped
  | double
  | doubleEscaped
deriving DecidableEq, Repr

/-- How a character changes the quoting. -/
def Quoting.after (q : Quoting) (c : Char) : Quoting :=
  let opened : Quoting :=
    if c = '\\' then .escaped else if c = '"' then .double else if c = '\'' then .single else .plain
  match q with
  | .plain => if isBlank c && c ≠ '\n' && c ≠ '\r' then .blank else opened
  | .blank => opened
  | .escaped => .plain
  | .double => if c = '\\' then .doubleEscaped else if c = '"' then .plain else .double
  | .doubleEscaped => .double
  | .single => if c = '\\' then .singleEscaped else if c = '\'' then .plain else .single
  | .singleEscaped => .single

/-- What follows the line feed that ends a line. -/
def afterLineFeed (cs : List Char) : List Char := (cs.dropWhile (· ≠ '\n')).drop 1

/-- The rest of a line after the text read so far (in reverse), and what comes after it. A line ends
where no quote is open, or at a comment. None if the text ends first. -/
def logicalLineFrom (q : Quoting) (text : List Char) :
    List Char → Option (List Char × List Char)
  | [] => if q = .plain then some (text.reverse, []) else none
  | c :: cs =>
    if q = .blank ∧ c = '#' then some (text.reverse, afterLineFeed cs)
    else if c = '\n' ∧ q.after c = .plain then
      some ((if text.head? = some '\r' then text.drop 1 else text).reverse, cs)
    else logicalLineFrom (q.after c) (c :: text) cs

/-- The line at the head of a text, and what comes after it. A line that is a comment is empty. -/
def logicalLine (cs : List Char) : Option (List Char × List Char) :=
  if (trimStart (cs.takeWhile (· ≠ '\n'))).head? = some '#' then some ([], afterLineFeed cs)
  else logicalLineFrom .plain [] cs

/-! ## Values -/

/-- Whether a name of a variable is being read after a dollar sign. -/
inductive Substitution where
  | none
  /-- A name up to a character that no name has. -/
  | bare (name : List Char)
  /-- A name up to a closing brace. -/
  | braced (name : List Char)
deriving DecidableEq, Repr

/-- What is kept while a value is read. -/
structure Progress where
  /-- The value so far, in reverse. -/
  text : List Char := []
  single : Bool := false
  double : Bool := false
  escaped : Bool := false
  /-- Whether a blank has ended the value. -/
  ended : Bool := false
  substitution : Substitution := .none
deriving Repr

/-- Puts the value of a variable, whose name comes in reverse, after a text in reverse. -/
def substitute (vars : Variables) (name text : List Char) : List Char :=
  ((vars.lookup (String.ofList name.reverse)).getD "").toList.reverse ++ text

/-- The progress after a character of a name that is being read. -/
def substitutionStep (vars : Variables) (p : Progress) (c : Char) : Progress :=
  match p.substitution with
  | .none => p
  | .bare name =>
    if isAlphanumeric c then { p with substitution := .bare (c :: name) }
    else if c = '\x7b' && name.isEmpty then { p with substitution := .braced [] }
    else
      let text := substitute vars name p.text
      if c = '$' then { p with text, substitution := .bare [] }
      else { p with text := c :: text, substitution := .none }
  | .braced name =>
    if c = '\x7d' then { p with text := substitute vars name p.text, substitution := .none }
    else { p with substitution := .braced (c :: name) }

/-- The value of a text after what has been read of it. None if it is malformed. -/
def valueFrom (vars : Variables) (p : Progress) : List Char → Option (List Char)
  | [] =>
    match p.substitution with
    | .braced _ => none
    | .bare name =>
      if p.single || p.double then none else some (substitute vars name p.text).reverse
    | .none => if p.single || p.double then none else some p.text.reverse
  | c :: cs =>
    if p.ended then
      if c = ' ' || c = '\t' then valueFrom vars p cs
      else if c = '#' then valueFrom vars p []
      else none
    else if p.escaped then
      if c = '\\' || c = '\'' || c = '"' || c = '$' || c = ' ' then
        valueFrom vars { p with text := c :: p.text, escaped := false } cs
      else if c = 'n' then valueFrom vars { p with text := '\n' :: p.text, escaped := false } cs
      else none
    else if p.single then
      if c = '\'' then valueFrom vars { p with single := false } cs
      else valueFrom vars { p with text := c :: p.text } cs
    else if p.substitution ≠ .none then valueFrom vars (substitutionStep vars p c) cs
    else if c = '$' then valueFrom vars { p with substitution := .bare [] } cs
    else if c = '\\' then valueFrom vars { p with escaped := true } cs
    else if p.double then
      if c = '"' then valueFrom vars { p with double := false } cs
      else valueFrom vars { p with text := c :: p.text } cs
    else if c = '\'' then valueFrom vars { p with single := true } cs
    else if c = '"' then valueFrom vars { p with double := true } cs
    else if c = ' ' || c = '\t' then valueFrom vars { p with ended := true } cs
    else valueFrom vars { p with text := c :: p.text } cs
termination_by cs => cs.length

/-! ## Assignments -/

/-- The name at the head of a text, and what comes after it. -/
def name? (cs : List Char) : Option (List Char × List Char) :=
  let belongs (c : Char) := c.isAlphanum || c = '_' || c = '.'
  if cs.head?.any fun c => c.isAlpha || c = '_' then
    some (cs.takeWhile belongs, cs.dropWhile belongs)
  else none

/-- What follows the equals sign at the head of a text. -/
def afterEquals? (cs : List Char) : Option (List Char) :=
  match trimStart cs with
  | '=' :: rest => some (trimStart rest)
  | _ => none

/-- What a line says. -/
inductive Line where
  | malformed
  | empty
  | assignment (name value : String)
deriving DecidableEq, Repr

/-- What a line says; the word `export` may stand before a name. -/
def Line.of (vars : Variables) (line : List Char) : Line :=
  let cs := trim line
  if cs.isEmpty || cs.head? = some '#' then .empty
  else
    let named := match name? cs with
      | some (name, rest) =>
        match afterEquals? rest with
        | some value => some (name, value)
        | none =>
          if name = "export".toList then
            (name? (trimStart rest)).bind fun (name, rest) =>
              (afterEquals? rest).map fun value => (name, value)
          else none
      | none => none
    match named with
    | none => .malformed
    | some (name, value) =>
      if value.isEmpty || value.head? = some '#' then .assignment (String.ofList name) ""
      else
        match valueFrom vars {} value with
        | some value => .assignment (String.ofList name) (String.ofList value)
        | none => .malformed

/-- The environment after the lines of a text, of which there are at most as many as the last
argument says. -/
def loadFrom (vars : Variables) (cs : List Char) : Nat → Variables
  | 0 => vars
  | fuel + 1 =>
    if cs.isEmpty then vars
    else
      match logicalLine cs with
      | none => vars
      | some (line, rest) =>
        match Line.of vars line with
        | .malformed => vars
        | .empty => loadFrom vars rest fuel
        | .assignment name value => loadFrom (vars.setAbsent name value) rest fuel

end DotEnv

/-- The words of a text that may be names of variables. -/
def DotEnv.words (text : String) : List String :=
  let words := text.splitToList fun c => !(Text.isAlphanumeric c || c = '_' || c = '.')
  (words.filter (· ≠ "")).eraseDups

/-- The environment after a file of variables. -/
def Variables.load (vars : Variables) (text : String) : Variables :=
  DotEnv.loadFrom vars text.toList (text.length + 1)

/-- The name of a file of variables. -/
def DotEnv.fileName : String := ".env"

/-- The first file that is met from a path on, going up one directory after the other as often as
the last argument says. -/
def DotEnv.nearest? (fs : Files) (path : String) : Nat → Option ByteArray
  | 0 => none
  | above + 1 =>
    match fs.read? path with
    | .ok bytes => some bytes
    | .error _ => nearest? fs ("../" ++ path) above

/-- The environment after the nearest file of variables. None stands farther up than the longest
location of a file leads. -/
def Variables.loadNearest (fs : Files) (vars : Variables) : Variables :=
  match DotEnv.nearest? fs DotEnv.fileName ((fs.files.map (·.1.length)).foldl max 0) with
  | some bytes =>
    let content := Text.withoutMark bytes.data.toList
    vars.load (Text.decodeLines content (content.length + 1))
  | none => vars

end YamlDefs

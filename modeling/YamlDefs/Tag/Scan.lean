import YamlDefs.Text.Blank
import YamlDefs.Text.Lines
import YamlDefs.Tag.Core

/-!
# Scan for tags

Reading a source resolves `!!name` and `!<uri>` silently, whatever they name. So the source is
scanned first, line by line, for the first such tag outside the core schema. The scan knows no
tree: it keeps whether a quote is open, how many flow collections are, and on whose indentation
a block or plain scalar hangs (`Carry`), and, inside a line, whether a node may begin (`Place`).

* `token`: the tag or anchor at the head of a line, and what follows it.
* `step`: one move over a line; `length_rest_of_step`: it never goes back.
* `scanFrom`, `scanLine`: the moves over a whole line.
* `findUnsupported?`: the first tag outside the core schema, with the number of its line.
-/

namespace YamlDefs.Tag

open YamlDefs.Text

/-- What one line leaves for the next. -/
structure Carry where
  /-- The quote character of a quoted scalar that is still open. -/
  quote : Option Char
  /-- How many flow collections are open. -/
  flowDepth : Nat
  /-- The indentation of the line that opened a block scalar; deeper lines belong to it. -/
  blockIndent : Option Nat
  /-- The indentation of the line on which a plain scalar ended; deeper lines may go on with it. -/
  plainIndent : Option Nat
deriving DecidableEq, Repr

/-- Before the first line nothing is open. -/
def Carry.initial : Carry := ⟨none, 0, none, none⟩

/-- Where a scan stands inside a line. -/
structure Place where
  /-- The quote character of the quoted scalar that the scan is in. -/
  quote : Option Char
  /-- How many flow collections are open. -/
  flowDepth : Nat
  /-- Whether a node may begin here, so that `!` starts a tag. -/
  expectNode : Bool
  /-- Whether a plain scalar of a block context is under way. -/
  inPlain : Bool
  /-- Whether the line begins here or the character before was blank, so that `#` is a comment. -/
  afterBlank : Bool
deriving DecidableEq, Repr

/-- The place at the beginning of a line. -/
def Place.start (c : Carry) : Place :=
  { quote := c.quote, flowDepth := c.flowDepth, expectNode := c.quote.isNone,
    inPlain := false, afterBlank := true }

/-- Whether a character separates or closes entries of a flow collection, or opens one. -/
def isFlowMark (c : Char) : Bool :=
  c = ',' || c = '[' || c = ']' || c = '{' || c = '}'

/-- Whether a character goes on with a tag or anchor that is not verbatim. -/
def isTokenChar (inFlow : Bool) (c : Char) : Bool := !(isBlank c || inFlow && isFlowMark c)

/-- Divides what follows the `!` or `&` of a token into the rest of the token and what comes after:
a verbatim token reaches through the first `>`, another one up to a blank or, inside a flow
collection, a flow mark. -/
def token (inFlow : Bool) (cs : List Char) : List Char × List Char :=
  match cs with
  | '<' :: _ =>
    match cs.dropWhile (· != '>') with
    | [] => (cs, [])
    | close :: rest => (cs.takeWhile (· != '>') ++ [close], rest)
  | _ => (cs.takeWhile (isTokenChar inFlow), cs.dropWhile (isTokenChar inFlow))

/-- A token and what comes after it make up the text. -/
theorem token_append (inFlow : Bool) (cs : List Char) :
    (token inFlow cs).1 ++ (token inFlow cs).2 = cs := by
  unfold token
  split
  · next rest =>
    have h := List.takeWhile_append_dropWhile (p := (· != '>')) (l := '<' :: rest)
    split
    · simp
    · next e => rw [e] at h; simpa using h
  · exact List.takeWhile_append_dropWhile

theorem length_token_rest (inFlow : Bool) (cs : List Char) :
    (token inFlow cs).2.length ≤ cs.length := by
  have h := congrArg List.length (token_append inFlow cs)
  rw [List.length_append] at h
  omega

/-- Whether what follows a `|` or `>` makes it the header of a block scalar: indicators, and then
nothing but blanks and a comment. -/
def isBlockHeader (cs : List Char) : Bool :=
  match trimStart (cs.dropWhile fun c => c = '+' || c = '-' || c.isDigit) with
  | [] => true
  | c :: _ => c = '#'

/-- What one move over a line comes to. -/
inductive Move where
  /-- The scan goes on at a place, before the rest of the line. -/
  | on (place : Place) (rest : List Char)
  /-- A comment takes the rest of the line. -/
  | comment (place : Place)
  /-- The header of a block scalar takes the rest of the line. -/
  | block
  /-- A tag outside the core schema stands here. -/
  | found (tag : List Char)
deriving DecidableEq, Repr

/-- One move inside a quoted scalar: a backslash keeps the next character from closing a double
quote, and a doubled quote does not close a single one. -/
def quotedStep (p : Place) (quote c : Char) (cs : List Char) : Move :=
  if quote = '"' ∧ c = '\\' ∨ quote = '\'' ∧ c = '\'' ∧ cs.head? = some '\'' then
    .on { p with afterBlank := false } (cs.drop 1)
  else if c = quote then
    .on { p with quote := none, expectNode := false, afterBlank := false } cs
  else
    .on { p with afterBlank := false } cs

/-- One move over a character that begins no tag, anchor, quote, block scalar or flow collection:
whether a node may follow it. -/
def plainStep (p : Place) (c : Char) (cs : List Char) : Move :=
  if (c = ']' ∨ c = '}') ∧ 0 < p.flowDepth then
    .on { p with flowDepth := p.flowDepth - 1, expectNode := false, afterBlank := false } cs
  else if c = ',' ∧ 0 < p.flowDepth then
    .on { p with expectNode := true, afterBlank := false } cs
  else if (c = ':' ∨ c = '-' ∨ c = '?') ∧ cs.head?.all isBlank then
    .on { p with expectNode := true, inPlain := false, afterBlank := false } cs
  else
    .on { p with expectNode := false, afterBlank := false } cs

/-- One move over a character with which a node may begin. -/
def nodeStep (p : Place) (c : Char) (cs : List Char) : Move :=
  if c = '!' then
    let (tail, rest) := token (0 < p.flowDepth) cs
    if isCore (c :: tail) then .on { p with afterBlank := false } rest else .found (c :: tail)
  else if c = '&' then
    .on { p with afterBlank := false } (token (0 < p.flowDepth) cs).2
  else if c = '"' ∨ c = '\'' then
    .on { p with quote := some c, inPlain := false, afterBlank := false } cs
  else if (c = '|' ∨ c = '>') ∧ isBlockHeader cs then
    .block
  else if c = '[' ∨ c = '{' then
    .on { p with flowDepth := p.flowDepth + 1, afterBlank := false } cs
  else
    plainStep { p with inPlain := p.flowDepth = 0 } c cs

/-- One move over a line, at the character `c` and before the rest `cs`. -/
def step (p : Place) (c : Char) (cs : List Char) : Move :=
  match p.quote with
  | some quote => quotedStep p quote c cs
  | none =>
    if isBlank c then .on { p with afterBlank := true } cs
    else if c = '#' ∧ p.afterBlank then .comment { p with inPlain := false }
    else if p.expectNode then nodeStep p c cs
    else plainStep p c cs

theorem length_rest_of_plainStep {p q : Place} {c : Char} {cs rest : List Char}
    (h : plainStep p c cs = .on q rest) : rest.length ≤ cs.length := by
  unfold plainStep at h
  split at h <;> try split at h
  all_goals try split at h
  all_goals (cases h; exact Nat.le_refl _)

theorem length_rest_of_nodeStep {p q : Place} {c : Char} {cs rest : List Char}
    (h : nodeStep p c cs = .on q rest) : rest.length ≤ cs.length := by
  unfold nodeStep at h
  split at h
  · dsimp only at h
    split at h
    · cases h; exact length_token_rest ..
    · cases h
  · split at h
    · cases h; exact length_token_rest ..
    · split at h
      · cases h; exact Nat.le_refl _
      · split at h
        · cases h
        · split at h
          · cases h; exact Nat.le_refl _
          · exact length_rest_of_plainStep h

/-- A move leaves at most what came after its character. -/
theorem length_rest_of_step {p q : Place} {c : Char} {cs rest : List Char}
    (h : step p c cs = .on q rest) : rest.length ≤ cs.length := by
  unfold step at h
  split at h
  · unfold quotedStep at h
    split at h
    · cases h; simp
    · split at h <;> (cases h; exact Nat.le_refl _)
  · split at h
    · cases h; exact Nat.le_refl _
    · split at h
      · cases h
      · split at h
        · exact length_rest_of_nodeStep h
        · exact length_rest_of_plainStep h

/-- How the scan of a line ends. -/
inductive LineEnd where
  /-- At a place, after the last character or before a comment. -/
  | open (place : Place)
  /-- With the header of a block scalar. -/
  | block (flowDepth : Nat)
  /-- At a tag outside the core schema. -/
  | found (tag : List Char)
deriving DecidableEq, Repr

/-- The moves over the rest of a line, from a place. -/
def scanFrom (p : Place) : List Char → LineEnd
  | [] => .open p
  | c :: cs =>
    match _h : step p c cs with
    | .on q rest => scanFrom q rest
    | .comment q => .open q
    | .block => .block p.flowDepth
    | .found tag => .found tag
termination_by cs => cs.length
decreasing_by
  have := length_rest_of_step _h
  simp only [List.length_cons]
  omega

/-- How many spaces a line begins with. -/
def indentation (line : List Char) : Nat := (line.takeWhile (· = ' ')).length

/-- Whether a line belongs to a block scalar that hangs on an indentation. -/
def continuesBlock (line : List Char) (parent : Nat) : Bool :=
  (trim line).isEmpty || parent < indentation line

/-- Whether a line goes on with a plain scalar that hangs on an indentation. -/
def continuesPlain (line : List Char) (parent : Nat) : Bool :=
  (trim line).isEmpty || parent < indentation line && (trim line).head? != some '#'

/-- Whether a line is a directive or a document marker. -/
def isDirective (line : List Char) : Bool :=
  (trim line).head? = some '%' || trim line = ['-', '-', '-'] || trim line = ['.', '.', '.']

/-- What is carried on after the moves over a line with the given indentation. -/
def LineEnd.carry (indent : Nat) : LineEnd → Except (List Char) Carry
  | .open p =>
    .ok { quote := p.quote, flowDepth := p.flowDepth, blockIndent := none
          plainIndent :=
            if p.inPlain ∧ p.quote = none ∧ p.flowDepth = 0 then some indent else none }
  | .block depth => .ok { quote := none, flowDepth := depth, blockIndent := some indent
                          plainIndent := none }
  | .found tag => .error tag

/-- The moves over a line that belongs to no block or plain scalar of the lines before it. -/
def scanContent (c : Carry) (line : List Char) : Except (List Char) Carry :=
  if c.quote.isNone && isDirective line then .ok { c with blockIndent := none, plainIndent := none }
  else (scanFrom (.start c) line).carry (indentation line)

/-- Scans one line: the tag outside the core schema that it holds, or what it leaves for the
next. -/
def scanLine (c : Carry) (line : List Char) : Except (List Char) Carry :=
  if c.blockIndent.any (continuesBlock line) then .ok c
  else if c.plainIndent.any (continuesPlain line) then .ok { c with blockIndent := none }
  else scanContent c line

/-- A tag found in a source, and the number of its line, counted from one. -/
structure Found where
  tag : String
  line : Nat
deriving DecidableEq, Repr

/-- The first tag outside the core schema on the given lines, of which the first has the given
number. -/
def findOnLines? (c : Carry) (number : Nat) : List (List Char) → Option Found
  | [] => none
  | line :: rest =>
    match scanLine c line with
    | .error tag => some ⟨String.ofList tag, number⟩
    | .ok next => findOnLines? next (number + 1) rest

/-- The first tag of a source outside the core schema. -/
def findUnsupported? (source : String) : Option Found :=
  findOnLines? .initial 1 (lines source.toList)

end YamlDefs.Tag

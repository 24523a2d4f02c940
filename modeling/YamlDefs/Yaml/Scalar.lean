import YamlDefs.Text.Digits
import YamlDefs.Yaml.Glyph

/-!
# Scalars

The texts of quoted, plain and block scalars. Each reader takes the characters from the scalar on
and gives its text and what comes after it; none stands for a scalar that is not well-formed.

Lines of a scalar are folded: a single line feed between two lines reads as a space, further line
breaks as themselves.

* `quoted?`: from after the opening quote through the closing one.
* `plain?`: a scalar without quotes, as far as it reaches.
* `block?`: from after the indicator `|` or `>`, header and contents.
-/

namespace YamlDefs.Yaml

open YamlDefs.Text (readNat? digitValue?)

/-! ## Folding -/

/-- The spaces and line breaks between two words, read as one text: of spaces and tabs only, they
stand for themselves; of one line feed, for a space; of more breaks, for those after the first,
which is kept as well if it is a separator. -/
def foldGap (gap : List Glyph) : List Char :=
  match (gap.filter Glyph.isBreak).map Glyph.char with
  | [] => gap.map Glyph.char
  | ['\n'] => [' ']
  | '\n' :: more => more
  | breaks => breaks

/-- The spaces and line breaks after an escaped line break: only further breaks count. -/
def foldEscapedGap (gap : List Glyph) : List Char :=
  (gap.filter Glyph.isBreak).map Glyph.char

/-! ## Quoted scalars -/

/-- The character for a letter after a backslash that stands for one by itself. -/
def escaped? (c : Char) : Option Char :=
  match c with
  | '0' => some '\x00'
  | 'a' => some '\x07'
  | 'b' => some '\x08'
  | 't' | '\t' => some '\t'
  | 'n' => some '\n'
  | 'v' => some '\x0B'
  | 'f' => some '\x0C'
  | 'r' => some '\r'
  | 'e' => some '\x1B'
  | ' ' => some ' '
  | '"' => some '"'
  | '/' => some '/'
  | '\\' => some '\\'
  | 'N' => some '\u0085'
  | '_' => some '\u00A0'
  | 'L' => some '\u2028'
  | 'P' => some '\u2029'
  | _ => none

/-- How many hexadecimal digits follow a letter after a backslash. -/
def escapeWidth? (c : Char) : Option Nat :=
  match c with
  | 'x' => some 2
  | 'u' => some 4
  | 'U' => some 8
  | _ => none

/-- The character that the given count of hexadecimal digits stands for. -/
def hexChar? (width : Nat) (gs : List Glyph) : Option Char :=
  let digits := (gs.take width).map Glyph.char
  if digits.length < width then none
  else
    match readNat? 16 digits with
    | some n => if h : n.isValidChar then some (Char.ofNatAux n h) else none
    | none => none

/-- The rest of a quoted scalar, after the text read so far (in reverse). -/
def quotedFrom? (single : Bool) (text : List Char) : List Glyph → Option (List Char × List Glyph)
  | [] => none
  | g :: rest =>
    if g.isGap then
      let after := rest.dropWhile Glyph.isGap
      if atDocumentMark after then none
      else quotedFrom? single ((foldGap (g :: rest.takeWhile Glyph.isGap)).reverse ++ text) after
    else if single then
      if g.char = '\'' then
        if atChar '\'' rest then quotedFrom? single ('\'' :: text) (rest.drop 1)
        else some (text.reverse, rest)
      else quotedFrom? single (g.char :: text) rest
    else if g.char = '"' then some (text.reverse, rest)
    else if g.char = '\\' then
      match rest with
      | [] => none
      | e :: rest =>
        if e.isBreak then
          let after := rest.dropWhile Glyph.isGap
          if atDocumentMark after then none
          else quotedFrom? single
            ((foldEscapedGap (rest.takeWhile Glyph.isGap)).reverse ++ text) after
        else
          match escaped? e.char, escapeWidth? e.char with
          | some c, _ => quotedFrom? single (c :: text) rest
          | none, some width =>
            match hexChar? width rest with
            | some c => quotedFrom? single (c :: text) (rest.drop width)
            | none => none
          | none, none => none
    else quotedFrom? single (g.char :: text) rest
termination_by gs => gs.length
decreasing_by
  all_goals simp only [List.length_cons, List.length_drop]
  all_goals first
    | omega
    | exact Nat.lt_succ_of_le (length_dropWhile_le _ _)
    | exact Nat.lt_succ_of_lt (Nat.lt_succ_of_le (length_dropWhile_le _ _))

/-- The text of a quoted scalar, from after its opening quote. -/
def quoted? (single : Bool) (gs : List Glyph) : Option (List Char × List Glyph) :=
  quotedFrom? single [] gs

/-! ## Plain scalars -/

/-- Whether a character separates, opens or closes flow collections. -/
def isFlowIndicator (c : Char) : Bool :=
  c = ',' || c = '[' || c = ']' || c = '{' || c = '}'

/-- The text of a plain scalar, whether a line break follows it, and what comes after it. -/
structure Plain where
  text : List Char
  broken : Bool
  rest : List Glyph
deriving Repr

/-- Whether a gap breaks the line and then holds a tab left of the given column. -/
def hasTabIndent (column : Int) (gap : List Glyph) : Bool :=
  (gap.dropWhile (!·.isBreak)).any fun g => g.char = '\t' && g.column < column

/-- Whether a plain scalar that has to stay right of a column ends before the next line. -/
def endsBefore (inFlow : Bool) (column : Int) (gs : List Glyph) : Bool :=
  atDocumentMark gs || atChar '#' gs || !inFlow && gs.head?.any (·.column < column)

/-- The rest of a plain scalar, after the text read so far and the gap after it (in reverse). The
scalar goes on at `column` or right of it; `broken` says whether the gap breaks the line. -/
def plainFrom? (inFlow : Bool) (column : Int) (text gap : List Char) (broken : Bool) :
    List Glyph → Option Plain
  | [] => some ⟨text.reverse, broken, []⟩
  | g :: rest =>
    if g.isGap then
      let gap := g :: rest.takeWhile Glyph.isGap
      let after := rest.dropWhile Glyph.isGap
      let broken := gap.any Glyph.isBreak
      if hasTabIndent column gap then none
      else if endsBefore inFlow column after then some ⟨text.reverse, broken, after⟩
      else plainFrom? inFlow column text (foldGap gap).reverse broken after
    else if inFlow && g.char = ':' &&
        rest.head?.any (fun n => isFlowIndicator n.char || n.char = '?') then none
    else if g.char = ':' && atGap rest || inFlow && isFlowIndicator g.char then
      some ⟨text.reverse, broken, g :: rest⟩
    else plainFrom? inFlow column (g.char :: gap ++ text) [] false rest
termination_by gs => gs.length
decreasing_by
  all_goals simp only [List.length_cons]
  · exact Nat.lt_succ_of_le (length_dropWhile_le _ _)
  · omega

/-- Reads a plain scalar, whose further lines have to be indented to a column. -/
def plain? (inFlow : Bool) (column : Int) (gs : List Glyph) : Option Plain :=
  plainFrom? inFlow column [] [] false gs

/-! ## Block scalars -/

/-- What becomes of the line breaks at the end of a block scalar. -/
inductive Chomping where
  /-- None is kept. -/
  | strip
  /-- The first is kept. -/
  | clip
  /-- All are kept. -/
  | keep
deriving DecidableEq, Repr

/-- The chomping that an indicator of a header asks for. -/
def Chomping.ofChar? (c : Char) : Option Chomping :=
  match c with
  | '-' => some .strip
  | '+' => some .keep
  | _ => none

/-- The header of a block scalar: its chomping, and its indentation if that is given. -/
structure BlockHeader where
  chomping : Chomping
  indentation : Option Nat
deriving DecidableEq, Repr

/-- The indentation indicator at the head of a text; zero is none. -/
def indentationIndicator (gs : List Glyph) : Option Nat × List Glyph :=
  match gs with
  | g :: rest => if g.char.isDigit then (digitValue? 10 g.char, rest) else (none, gs)
  | [] => (none, [])

/-- The chomping indicator at the head of a text. -/
def chompingIndicator (gs : List Glyph) : Option Chomping × List Glyph :=
  match gs with
  | g :: rest =>
    match Chomping.ofChar? g.char with
    | some chomping => (some chomping, rest)
    | none => (none, gs)
  | [] => (none, [])

/-- The header of a block scalar, in which the two indicators may stand in either order, and the
text from the line break on that ends it. -/
def blockHeader? (gs : List Glyph) : Option (BlockHeader × List Glyph) :=
  let (chomping, indentation, rest) :=
    match chompingIndicator gs with
    | (some chomping, rest) =>
      let (indentation, rest) := indentationIndicator rest
      (some chomping, indentation, rest)
    | (none, rest) =>
      let (indentation, rest) := indentationIndicator rest
      let (chomping, rest) := if indentation.isSome then chompingIndicator rest else (none, rest)
      (chomping, indentation, rest)
  let blank := rest.dropWhile Glyph.isSpaceOrTab
  let rest := if atChar '#' blank then afterLine blank else blank
  if indentation = some 0 then none
  else if atLineEnd rest then some (⟨chomping.getD .clip, indentation⟩, rest)
  else none

/-- Whether a character belongs to blank lines or indentation left of a column; without a column
all spaces do. -/
def isIndent (column : Option Nat) (g : Glyph) : Bool :=
  g.isBreak || g.char = ' ' && column.all (g.column < ·)

/-- Whether a tab stands left of a column, or anywhere if there is none. -/
def atTabIndent (column : Option Nat) (gs : List Glyph) : Bool :=
  gs.head?.any fun g => g.char = '\t' && column.all (g.column < ·)

/-- The line breaks of blank lines before a line that is indented to a column, and the text from
there on; none if a tab stands in the indentation. -/
def blankLines? (column : Option Nat) (gs : List Glyph) : Option (List Char × List Glyph) :=
  let rest := gs.dropWhile (isIndent column)
  if atTabIndent column rest then none
  else some (((gs.takeWhile (isIndent column)).filter Glyph.isBreak).map Glyph.char, rest)

/-- The column to which the blank lines at the head of a block scalar and the line after them reach:
the contents are indented by the longest of these. -/
def reach (gs : List Glyph) : Nat :=
  ((gs.takeWhile (isIndent none)).map fun g => if g.isBreak then 0 else g.column + 1).foldl max 0

/-- The line breaks that are waiting while a block scalar is read, and whether the line before them
begins with a blank. -/
structure Pending where
  /-- The break that ended the line. -/
  first : List Char
  /-- The breaks of the blank lines after it. -/
  more : List Char
  afterBlank : Bool
deriving Repr

/-- The line breaks before a next line: folded ones between two lines that do not begin with a
blank. -/
def Pending.join (p : Pending) (folded beforeBlank : Bool) : List Char :=
  if folded && p.first = ['\n'] && !p.afterBlank && !beforeBlank then
    if p.more.isEmpty then [' '] else p.more
  else p.first ++ p.more

/-- The line breaks at the end of the contents. -/
def Pending.chomp (p : Pending) : Chomping → List Char
  | .strip => []
  | .clip => p.first
  | .keep => p.first ++ p.more

/-- The lines of a block scalar that are indented to a column, after the text read so far (in
reverse). -/
def blockFrom? (folded : Bool) (chomping : Chomping) (column : Nat) (text : List Char)
    (p : Pending) : List Glyph → Option (List Char × List Glyph)
  | [] => some (text.reverse ++ p.chomp chomping, [])
  | g :: rest =>
    if g.column = column then
      let line := g :: rest.takeWhile (!·.isBreak)
      let ending := rest.dropWhile (!·.isBreak)
      let text := (p.join folded g.isSpaceOrTab ++ line.map Glyph.char).reverse ++ text
      match _h : blankLines? (some column) (ending.drop 1) with
      | some (more, after) =>
        blockFrom? folded chomping column text
          ⟨(ending.take 1).map Glyph.char, more, g.isSpaceOrTab⟩ after
      | none => none
    else some (text.reverse ++ p.chomp chomping, g :: rest)
termination_by gs => gs.length
decreasing_by
  unfold blankLines? at _h
  dsimp only at _h
  split at _h
  · cases _h
  · cases _h
    have h₁ := length_dropWhile_le (isIndent (some column)) (ending.drop 1)
    have h₂ : ending.length ≤ rest.length := length_dropWhile_le _ rest
    rw [List.length_drop] at h₁
    simp only [List.length_cons]
    omega

/-- Reads a block scalar, from after its indicator, inside a collection at the column `parent`,
which is negative at the top. An indentation indicator counts from there; without one the first
line decides. -/
def block? (folded : Bool) (parent : Int) (gs : List Glyph) : Option (List Char × List Glyph) := do
  let (header, rest) ← blockHeader? gs
  let contents := rest.drop 1
  let column := match header.indentation with
    | some n => (max parent 0).toNat + n
    | none => max (reach contents) (max (parent + 1).toNat 1)
  let given := header.indentation.map fun _ => column
  let (blank, rest) ← blankLines? given contents
  blockFrom? folded header.chomping column [] ⟨[], blank, false⟩ rest

end YamlDefs.Yaml

import YamlDefs.Settings.Yaml.Glyph
import YamlDefs.Yaml.Scalar

/-!
# Scalars of settings

The texts of quoted, plain and block scalars. Each reader takes the characters from the scalar on
and gives its text and what comes after it; none stands for a scalar that is not well-formed.

Lines of a scalar are folded: a single line feed between two lines reads as a space, further line
breaks as themselves. Lines have to stay right of the collection around them.

* `quoted?`: from after the opening quote through the closing one.
* `plain?`: a scalar without quotes, as far as it reaches.
* `block?`: from after the indicator `|` or `>`, header and contents.
-/

namespace YamlDefs.Settings.Yaml

open YamlDefs.Text (readNat? digitValue?)
open YamlDefs.Yaml (escaped? escapeWidth? isFlowIndicator Chomping BlockHeader length_dropWhile_le)

/-! ## Folding -/

/-- The gap between two words of a scalar, read as text: of blanks only, they stand for themselves;
with one line break, for a space; with more, for those after the first. Only breaks of blank lines
have nothing but blanks before them, so these are the further ones. -/
def foldGap (gap : List Glyph) : List Char :=
  let breaks := gap.filter Glyph.isBreak
  let more := breaks.filter Glyph.leading
  if breaks.isEmpty then gap.map Glyph.char
  else if more.isEmpty then [' ']
  else more.map Glyph.char

/-! ## Quoted scalars -/

/-- The character that the given count of hexadecimal digits stands for. -/
def hexChar? (width : Nat) (gs : List Glyph) : Option Char :=
  let digits := (gs.take width).map Glyph.char
  if digits.length < width then none
  else
    match readNat? 16 digits with
    | some n => if h : n.isValidChar then some (Char.ofNatAux n h) else none
    | none => none

/-- Whether a quoted scalar inside a collection at a column cannot go on after a gap. -/
def endsQuoted (column : Int) (gs : List Glyph) : Bool :=
  gs.head?.any (·.column = 0) && atDocumentMark gs || atEnd gs || isLeftOf column gs

/-- The rest of a quoted scalar inside a collection at a column, after the text read so far (in
reverse). The closing quote may follow an escaped line break wherever it stands. -/
def quotedFrom? (single : Bool) (column : Int) (text : List Char) :
    List Glyph → Option (List Char × List Glyph)
  | [] => none
  | g :: rest =>
    let quote := if single then '\'' else '"'
    if g.isGap then
      let gap := g :: rest.takeWhile Glyph.isGap
      let after := rest.dropWhile Glyph.isGap
      if gap.any (Glyph.isTabIndent column) || endsQuoted column after then none
      else quotedFrom? single column ((foldGap gap).reverse ++ text) after
    else if g.isEnd then none
    else if g.char = quote then
      if single && atChar '\'' rest then quotedFrom? single column ('\'' :: text) (rest.drop 1)
      else some (text.reverse, rest)
    else if !single && g.char = '\\' then
      match rest with
      | [] => none
      | e :: rest =>
        if e.isBreak then
          let gap := rest.takeWhile Glyph.isGap
          let after := rest.dropWhile Glyph.isGap
          let closed := gap.isEmpty && atChar '"' after
          if gap.any (Glyph.isTabIndent column) || endsQuoted column after && !closed then none
          else quotedFrom? single column
            (((gap.filter Glyph.isBreak).map Glyph.char).reverse ++ text) after
        else
          match escaped? e.char, escapeWidth? e.char with
          | some c, _ => quotedFrom? single column (c :: text) rest
          | none, some width =>
            match hexChar? width rest with
            | some c => quotedFrom? single column (c :: text) (rest.drop width)
            | none => none
          | none, none => none
    else quotedFrom? single column (g.char :: text) rest
termination_by gs => gs.length
decreasing_by
  all_goals simp only [List.length_cons, List.length_drop]
  all_goals first
    | omega
    | exact Nat.lt_succ_of_le (length_dropWhile_le _ _)
    | exact Nat.lt_succ_of_lt (Nat.lt_succ_of_le (length_dropWhile_le _ _))

/-- Whether something may follow a quoted scalar on its line: the end of the line, a comma or the
end of a flow collection inside one, and a colon, which outside must be on the line on which the
scalar began. -/
def mayFollowQuoted (inFlow : Bool) (line : Nat) (gs : List Glyph) : Bool :=
  atLineEnd gs || inFlow && (atChar ',' gs || atChar ']' gs || atChar '\x7d' gs) ||
    atChar ':' gs && (inFlow || gs.head?.any (·.line = line))

/-- The text of a quoted scalar that began on a line, from after its opening quote. -/
def quoted? (single inFlow : Bool) (column : Int) (line : Nat) (gs : List Glyph) :
    Option (List Char × List Glyph) := do
  let (text, rest) ← quotedFrom? single column [] gs
  let gap ← lineGap? true rest
  if mayFollowQuoted inFlow line gap.rest then return (text, gap.rest) else failure

/-! ## Plain scalars -/

/-- Whether a plain scalar ends before a character that is not blank. -/
def endsPlain (inFlow : Bool) (gs : List Glyph) : Bool :=
  let separates (gs : List Glyph) := inFlow && gs.head?.any fun g => isFlowIndicator g.char
  atEnd gs || separates gs || atChar ':' gs && (atGap (gs.drop 1) || separates (gs.drop 1))

/-- Whether a plain scalar that has to stay right of a column cannot go on after a gap. -/
def endsAfterGap (inFlow : Bool) (column : Int) (gs : List Glyph) : Bool :=
  !inFlow && isLeftOf column gs || atLeading gs && atDocumentMark gs || atChar '#' gs

/-- Whether a dash and then a comma or a bracket come next. -/
def atLoneDash (gs : List Glyph) : Bool :=
  atChar '-' gs && (gs.drop 1).head?.any fun g => isFlowIndicator g.char

/-- The rest of a plain scalar that has to stay right of a column, after the text read so far and
the gap after it (in reverse). -/
def plainFrom? (inFlow : Bool) (column : Int) (text gap : List Char) :
    List Glyph → Option (List Char × List Glyph)
  | [] => some (text.reverse, [])
  | g :: rest =>
    if g.isGap then
      match _h : gap? column false false false rest with
      | some (more, after) =>
        if endsAfterGap inFlow column after then some (text.reverse, after)
        else if inFlow && atLoneDash after then none
        else plainFrom? inFlow column text (foldGap (g :: more)).reverse after
      | none => none
    else if endsPlain inFlow (g :: rest) then some (text.reverse, g :: rest)
    else plainFrom? inFlow column (g.char :: gap ++ text) [] rest
termination_by gs => gs.length
decreasing_by
  all_goals simp only [List.length_cons]
  · exact Nat.lt_succ_of_le (length_le_of_gap? _h)
  · omega

/-- Reads a plain scalar, which has to stay right of a column. It has at least one character, and
does not begin like a mark of a document at the beginning of a line. -/
def plain? (inFlow : Bool) (column : Int) (gs : List Glyph) : Option (List Char × List Glyph) :=
  if atLeading gs && atDocumentMark gs || inFlow && (isLeftOf column gs || atLoneDash gs) then none
  else plainFrom? inFlow column [] [] gs

/-! ## Block scalars -/

/-- The indentation indicator at the head of a text; zero is none. -/
def indentationIndicator (gs : List Glyph) : Option Nat × List Glyph :=
  match gs with
  | g :: rest => if g.char.isDigit then (digitValue? 10 g.char, rest) else (none, gs)
  | [] => (none, [])

/-- The chomping indicator at the head of a text. -/
def chompingIndicator (gs : List Glyph) : Option Chomping × List Glyph :=
  match gs.head?.bind fun g => Chomping.ofChar? g.char with
  | some chomping => (some chomping, gs.drop 1)
  | none => (none, gs)

/-- The header of a block scalar, in which the two indicators may stand in either order, and the
text from the end of its line on. -/
def blockHeader? (gs : List Glyph) : Option (BlockHeader × List Glyph) :=
  let (chomping, indentation, rest) :=
    match chompingIndicator gs with
    | (some chomping, rest) =>
      let (indentation, rest) := indentationIndicator rest
      (some chomping, indentation, rest)
    | (none, rest) =>
      let (indentation, rest) := indentationIndicator rest
      let (chomping, rest) := if indentation.isSome then chompingIndicator rest else (none, rest)
      (chomping, indentation, rest)
  if indentation = some 0 then none
  else (restOfLine? rest).map fun rest => (⟨chomping.getD .clip, indentation⟩, rest)

/-- Whether a character belongs to blank lines or indentation left of a column; without a column
all spaces do. -/
def isIndent (column : Option Nat) (g : Glyph) : Bool :=
  g.isBreak || g.char = ' ' && column.all (g.column < ·)

/-- The number of blank lines before a line that is indented to a column, and the text from there
on. -/
def blankLines (column : Option Nat) (gs : List Glyph) : Nat × List Glyph :=
  ((gs.takeWhile (isIndent column)).countP Glyph.isBreak, gs.dropWhile (isIndent column))

/-- The column to which the blank lines at the head of a block scalar and the line after them reach:
the contents are indented by the longest of these. -/
def reach (gs : List Glyph) : Nat :=
  ((gs.takeWhile (isIndent none) ++ (gs.dropWhile (isIndent none)).take 1).map
    Glyph.column).foldl max 0

/-- The line breaks that are waiting while a block scalar is read, and whether the line before them
begins with a blank. -/
structure Pending where
  /-- Whether a break ended the line. -/
  broken : Bool
  /-- How many blank lines there are after it. -/
  more : Nat
  afterBlank : Bool
deriving Repr

/-- A count of line breaks as text. -/
def breaks (count : Nat) : List Char := List.replicate count '\n'

/-- The line breaks before a next line: folded ones between two lines that do not begin with a
blank. -/
def Pending.join (p : Pending) (folded beforeBlank : Bool) : List Char :=
  if folded && p.broken && !p.afterBlank && !beforeBlank then
    if p.more = 0 then [' '] else breaks p.more
  else breaks (p.broken.toNat + p.more)

/-- The line breaks at the end of the contents; `missed` says that the end of the text comes where
one more line of them could stand. -/
def Pending.chomp (p : Pending) (missed : Bool) : Chomping → List Char
  | .strip => []
  | .clip => breaks (p.broken.toNat + missed.toNat)
  | .keep => breaks (p.broken.toNat + missed.toNat + p.more)

/-- The lines of a block scalar that are indented to a column, after the text read so far (in
reverse), with what is waiting at their end. Without indentation the mark that ends a document ends
them as well. -/
def blockFrom (folded : Bool) (column : Nat) (text : List Char) (p : Pending) :
    List Glyph → List Char × Pending × List Glyph
  | [] => (text, p, [])
  | g :: rest =>
    if g.column ≠ column || g.isEnd || column = 0 && atMark '.' (g :: rest) then
      (text, p, g :: rest)
    else
      let line := g :: rest.takeWhile (!·.endsLine)
      let text := (p.join folded g.isBlank ++ line.map Glyph.char).reverse ++ text
      if atEnd (afterLine rest) then (text, ⟨false, 0, g.isBlank⟩, afterLine rest)
      else
        let following := (afterLine rest).drop 1
        blockFrom folded column text ⟨true, (blankLines (some column) following).1, g.isBlank⟩
          (blankLines (some column) following).2
termination_by gs => gs.length
decreasing_by
  have h₁ := length_dropWhile_le (isIndent (some column)) ((afterLine rest).drop 1)
  have h₂ : (afterLine rest).length ≤ rest.length := length_dropWhile_le _ rest
  rw [List.length_drop] at h₁
  simp only [blankLines, List.length_cons]
  omega

/-- The text of a block scalar of which nothing but blank lines is there; `started` says that its
header ends with a line break. -/
def blankBlock (started : Bool) (lines : Nat) : Chomping → List Char
  | .strip => []
  | .clip => breaks started.toNat
  | .keep => breaks (if started then max lines 1 else 0)

/-- Reads a block scalar, from after its indicator, inside a collection at the column `parent`,
which is negative at the top. An indentation indicator counts from there; without one the longest
of the first lines decides. -/
def block? (folded : Bool) (parent : Int) (gs : List Glyph) : Option (List Char × List Glyph) := do
  let (header, rest) ← blockHeader? gs
  let started := !atEnd rest
  let contents := if started then rest.drop 1 else rest
  if atChar '\t' contents then failure
  let column := match header.indentation with
    | some n => (max parent 0).toNat + n
    | none => max (reach contents) (parent + 1).toNat
  let (blank, rest) := blankLines (header.indentation.map fun _ => column) contents
  if atEnd rest then return (blankBlock started blank header.chomping, rest)
  if isLeftOf column rest && !isLeftOf (parent + 1) rest then failure
  let (text, p, rest) := blockFrom folded column [] ⟨false, blank, false⟩ rest
  let missed := atEnd rest && !isLeftOf (max parent 1) rest
  return (text.reverse ++ p.chomp missed header.chomping, rest)

end YamlDefs.Settings.Yaml

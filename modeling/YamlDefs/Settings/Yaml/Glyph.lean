/-!
# Characters of settings in their places

The text of a file of settings as characters that know where they stand. A line feed, a carriage
return, and both together are one line break; every other character is what it is. The end of the
text has a place too, at which a zero stands: a zero in a text ends it.

* `glyphs`: the placed characters of a text and its end.
* `gap?`: the blanks and line breaks before what comes next, with the comments among them.
* `lineGap?`: the blanks and the comment before what comes next on a line.
-/

namespace YamlDefs.Settings.Yaml

/-- A character and the place where it stands. -/
structure Glyph where
  char : Char
  line : Nat
  column : Nat
  /-- How many characters are before it. -/
  index : Nat
  /-- Whether nothing but blanks is before it on its line. -/
  leading : Bool
deriving DecidableEq, Repr

/-- Whether a character is a space or a tab. -/
def isBlank (c : Char) : Bool := c = ' ' || c = '\t'

/-- Writes each line break as one line feed. -/
def unifyBreaks : List Char → List Char
  | [] => []
  | '\r' :: '\n' :: cs => '\n' :: unifyBreaks cs
  | c :: cs => (if c = '\r' then '\n' else c) :: unifyBreaks cs

/-- Places characters from a place on, and the end after them. -/
def placed (line column index : Nat) (leading : Bool) : List Char → List Glyph
  | [] => [⟨'\x00', line, column, index, leading⟩]
  | c :: cs =>
    ⟨c, line, column, index, leading⟩ ::
      (if c = '\n' then placed (line + 1) 0 (index + 1) true cs
        else placed line (column + 1) (index + 1) (leading && isBlank c) cs)

/-- The placed characters of a text and its end. -/
def glyphs (text : List Char) : List Glyph :=
  placed 0 0 0 true (unifyBreaks (text.takeWhile (· ≠ '\x00')))

namespace Glyph

/-- Whether a line break stands here. -/
def isBreak (g : Glyph) : Bool := g.char = '\n'

/-- Whether this is the end of the text. -/
def isEnd (g : Glyph) : Bool := g.char = '\x00'

/-- Whether a space or a tab stands here. -/
def isBlank (g : Glyph) : Bool := Yaml.isBlank g.char

/-- Whether a space, a tab or a line break stands here. -/
def isGap (g : Glyph) : Bool := g.isBlank || g.isBreak

/-- Whether a line ends here. -/
def endsLine (g : Glyph) : Bool := g.isBreak || g.isEnd

/-- Whether a tab stands here that indents its line, left of a column. -/
def isTabIndent (column : Int) (g : Glyph) : Bool :=
  g.char = '\t' && g.leading && g.column < column

end Glyph

/-- Whether the given character comes next. -/
def atChar (c : Char) (gs : List Glyph) : Bool := gs.head?.any (·.char = c)

/-- Whether the text ends here. -/
def atEnd (gs : List Glyph) : Bool := gs.head?.all Glyph.isEnd

/-- Whether the line ends here. -/
def atLineEnd (gs : List Glyph) : Bool := gs.head?.all Glyph.endsLine

/-- Whether a gap or the end comes next. -/
def atGap (gs : List Glyph) : Bool := gs.head?.all fun g => g.isGap || g.isEnd

/-- Whether what comes next has only blanks before it on its line. -/
def atLeading (gs : List Glyph) : Bool := gs.head?.any Glyph.leading

/-- Whether what comes next is left of a column. -/
def isLeftOf (column : Int) (gs : List Glyph) : Bool := gs.head?.any (·.column < column)

/-- Whether a mark of three equal characters and a gap come next. -/
def atMark (mark : Char) : List Glyph → Bool
  | a :: b :: c :: rest => a.char = mark && b.char = mark && c.char = mark && atGap rest
  | _ => false

/-- Whether a document begins or ends here, if this is the beginning of a line. -/
def atDocumentMark (gs : List Glyph) : Bool := atMark '-' gs || atMark '.' gs

/-- What is left of a text from the end of its first line on. -/
def afterLine (gs : List Glyph) : List Glyph := gs.dropWhile (!·.endsLine)

/-! ## Gaps -/

/-- The gap at the head of a text, in which `comments` says whether there may be comments. After a
tab that indents a line left of a column the line must hold nothing but a comment; `tabbed` tells
that there was one, and `inComment` that a comment has begun. -/
def gap? (column : Int) (comments tabbed inComment : Bool) :
    List Glyph → Option (List Glyph × List Glyph)
  | [] => some ([], [])
  | g :: rest =>
    if g.isBreak then
      (gap? column comments false false rest).map fun (gap, after) => (g :: gap, after)
    else if g.isEnd then some ([], g :: rest)
    else if inComment || (comments || tabbed) && g.char = '#' then
      gap? column comments tabbed true rest
    else if g.isBlank then
      (gap? column comments (tabbed || g.isTabIndent column) false rest).map
        fun (gap, after) => (g :: gap, after)
    else if tabbed then none
    else some ([], g :: rest)

/-- The blanks before what comes next on a line. -/
structure LineGap where
  /-- Whether a tab is among them. -/
  tab : Bool
  /-- Whether a space is among them. -/
  space : Bool
  rest : List Glyph

/-- The blanks at the head of a text, and a comment if one follows them; `tabs` says whether tabs
count as blanks. A comment must be set apart by a blank. -/
def lineGap? (tabs : Bool) (gs : List Glyph) : Option LineGap :=
  let skipped (g : Glyph) := g.char = ' ' || tabs && g.char = '\t'
  let blank := gs.takeWhile skipped
  let rest := gs.dropWhile skipped
  if !atChar '#' rest then some ⟨atTab blank, atSpace blank, rest⟩
  else if blank.isEmpty then none
  else some ⟨atTab blank, atSpace blank, afterLine rest⟩
where
  atTab (gs : List Glyph) : Bool := gs.any (·.char = '\t')
  atSpace (gs : List Glyph) : Bool := gs.any (·.char = ' ')

/-- The text from the end of the first line on, if the line holds blanks and a comment only. -/
def restOfLine? (gs : List Glyph) : Option (List Glyph) :=
  match lineGap? true gs with
  | some gap => if atLineEnd gap.rest then some gap.rest else none
  | none => none

theorem length_le_of_gap? {column : Int} {comments tabbed inComment : Bool}
    {gs gap rest : List Glyph} (h : gap? column comments tabbed inComment gs = some (gap, rest)) :
    rest.length ≤ gs.length := by
  induction gs generalizing tabbed inComment gap with
  | nil => simp_all [gap?]
  | cons g gs ih =>
    unfold gap? at h
    split at h
    · obtain ⟨⟨gap', rest'⟩, he, h⟩ := Option.map_eq_some_iff.1 h
      cases h
      exact Nat.le_succ_of_le (ih he)
    · split at h
      · cases h
        exact Nat.le_refl _
      · split at h
        · exact Nat.le_succ_of_le (ih h)
        · split at h
          · obtain ⟨⟨gap', rest'⟩, he, h⟩ := Option.map_eq_some_iff.1 h
            cases h
            exact Nat.le_succ_of_le (ih he)
          · split at h
            · cases h
            · cases h
              exact Nat.le_refl _

end YamlDefs.Settings.Yaml

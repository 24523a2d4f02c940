/-!
# Characters in their places

The source of a document as characters that know their line and their place in it. All line breaks
but two are one and the same character here: a line feed, a carriage return, both together, and the
next line control. The line and paragraph separators keep their identity, since a scalar keeps them.

* `isReadable`: the characters that a source may hold.
* `glyphs?`: the placed characters of a source. A byte order mark at its head has a place like any
  other character, so that what follows it does not begin its line.
-/

namespace YamlDefs.Yaml

/-- A character and the place where it stands. -/
structure Glyph where
  char : Char
  line : Nat
  column : Nat
  /-- How many bytes of its line are before it. -/
  offset : Nat
deriving DecidableEq, Repr

/-- Whether a source may hold a character: all but the control characters, noncharacters `U+FFFE`
and `U+FFFF`, tab and the line breaks excepted. -/
def isReadable (c : Char) : Bool :=
  let n := c.toNat
  n = 0x09 || n = 0x0A || n = 0x0D || 0x20 ≤ n && n ≤ 0x7E || n = 0x85 ||
    0xA0 ≤ n && n ≤ 0xFFFD || 0x10000 ≤ n

/-- The byte order mark. -/
def byteOrderMark : Char := '\uFEFF'

/-- Whether a character is a line break, once breaks are unified. -/
def isBreak (c : Char) : Bool := c = '\n' || c = '\u2028' || c = '\u2029'

/-- Whether a character is a space or a tab. -/
def isSpaceOrTab (c : Char) : Bool := c = ' ' || c = '\t'

/-- Writes each line break as one line feed, but keeps the two separators. -/
def unifyBreaks : List Char → List Char
  | [] => []
  | '\r' :: '\n' :: cs => '\n' :: unifyBreaks cs
  | c :: cs => (if c = '\r' ∨ c = '\u0085' then '\n' else c) :: unifyBreaks cs

/-- Places characters from a place on. -/
def placed (line column offset : Nat) : List Char → List Glyph
  | [] => []
  | c :: cs =>
    ⟨c, line, column, offset⟩ ::
      (if isBreak c then placed (line + 1) 0 0 cs
        else placed line (column + 1) (offset + c.utf8Size) cs)

/-- The placed characters of a source, if it holds readable ones only. -/
def glyphs? (source : List Char) : Option (List Glyph) :=
  if source.all isReadable then some (placed 0 0 0 (unifyBreaks source)) else none

namespace Glyph

/-- Whether a line break stands here. -/
def isBreak (g : Glyph) : Bool := Yaml.isBreak g.char

/-- Whether a space or a tab stands here. -/
def isSpaceOrTab (g : Glyph) : Bool := Yaml.isSpaceOrTab g.char

/-- Whether a space, a tab or a line break stands here. -/
def isGap (g : Glyph) : Bool := g.isSpaceOrTab || g.isBreak

end Glyph

/-- Whether nothing or a gap comes next. -/
def atGap (gs : List Glyph) : Bool := gs.head?.all Glyph.isGap

/-- Whether nothing or a line break comes next. -/
def atLineEnd (gs : List Glyph) : Bool := gs.head?.all Glyph.isBreak

/-- Whether the given character comes next. -/
def atChar (c : Char) (gs : List Glyph) : Bool := gs.head?.any (·.char = c)

/-- Whether a line begins here with the given mark of three characters and a gap. -/
def atMark (mark : Char) : List Glyph → Bool
  | a :: b :: c :: rest =>
    a.column = 0 && a.char = mark && b.char = mark && c.char = mark && atGap rest
  | _ => false

/-- Whether a document begins or ends here. -/
def atDocumentMark (gs : List Glyph) : Bool := atMark '-' gs || atMark '.' gs

/-- What is left of a line, from the break on that ends it. -/
def afterLine (gs : List Glyph) : List Glyph := gs.dropWhile (!·.isBreak)

theorem length_dropWhile_le {α : Type} (p : α → Bool) (xs : List α) :
    (xs.dropWhile p).length ≤ xs.length :=
  (List.dropWhile_suffix p).length_le

end YamlDefs.Yaml

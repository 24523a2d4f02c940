import YamlDefs.Settings.Yaml.Property

/-!
# Lexer of settings

The tokens of a text. Block collections are opened and closed by indentation, and what a mapping
or an item of a sequence holds may have to be indented by one column more. Any token that may turn
out to be a key of one line is remembered, and the tokens before a key are put in their place when
the `:` after it is met. A pair inside brackets is a mapping of its own.

* `Lexer`: what the tokens so far leave open.
* `Lexer.next?`: one token, with those that indentation brings before it.
* `tokens?`: all tokens of a text; none if it has a form that no token has.
-/

namespace YamlDefs.Settings.Yaml

open YamlDefs.Yaml (Token isWordChar isFlowIndicator)

/-- A place at which a key may have begun. -/
structure KeyPlace where
  /-- How many tokens were before it. -/
  count : Nat
  line : Nat
  column : Nat
  /-- How many characters were before it. -/
  index : Nat
  /-- Whether the line can only be a key, because it stands at the indentation of a mapping. -/
  required : Bool
deriving DecidableEq, Repr

/-- A column that what follows must not stand left of: that of a block collection, or the one that
the contents of such a collection must reach. -/
structure Level where
  column : Nat
  /-- Whether it is that of a block collection. -/
  opened : Bool
deriving DecidableEq, Repr

/-- What the tokens so far leave open. -/
structure Lexer where
  /-- The tokens so far. -/
  tokens : Array Token
  /-- The columns that count, the innermost first. -/
  levels : List Level
  /-- The place of a possible key outside all flow collections. -/
  blockKey : Option KeyPlace
  /-- The places of possible keys in the open flow collections, the innermost first. -/
  flowKeys : List (Option KeyPlace)
  /-- Whether a key may begin here. -/
  keyAllowed : Bool
  /-- Whether keys belong to a mapping that has been begun, and so not to a pair in brackets. -/
  inMapping : Bool
  /-- For each open bracket, the innermost first, whether a pair in it is open. -/
  pairs : List Bool
  /-- How many characters are before the place at which a colon needs no gap after it. -/
  adjacent : Nat
deriving Repr

namespace Lexer

/-- At the beginning of a text a key may begin, and nothing is open. -/
def initial : Lexer := ⟨#[], [], none, [], true, false, [], 0⟩

/-- Whether a flow collection is open. -/
def inFlow (l : Lexer) : Bool := !l.flowKeys.isEmpty

/-- How deep flow collections may nest. -/
def flowLimit : Nat := 255

/-- The innermost column that counts; negative if there is none. -/
def column (l : Lexer) : Int := (l.levels.head?.map fun v => (v.column : Int)).getD (-1)

/-- One token more. -/
def push (l : Lexer) (token : Token) : Lexer := { l with tokens := l.tokens.push token }

/-- One token more, after the first `count` ones. -/
def insert (l : Lexer) (count : Nat) (token : Token) : Lexer :=
  { l with tokens := l.tokens.take count ++ #[token] ++ l.tokens.drop count }

/-! ## Possible keys -/

/-- The place of a possible key in the innermost collection. -/
def key? (l : Lexer) : Option KeyPlace :=
  match l.flowKeys with
  | [] => l.blockKey
  | key :: _ => key

/-- Sets the place of a possible key in the innermost collection. -/
def setKey (l : Lexer) (key : Option KeyPlace) : Lexer :=
  match l.flowKeys with
  | [] => { l with blockKey := key }
  | _ :: outer => { l with flowKeys := key :: outer }

/-- Gives up the possible key of the innermost collection; one that was required is missed. -/
def dropKey? (l : Lexer) : Option Lexer :=
  if l.key?.any KeyPlace.required then none else some (l.setKey none)

/-- Remembers that a key may begin at a place. It is required at the column of a mapping. -/
def saveKey (l : Lexer) (g : Glyph) : Lexer :=
  let required := !l.inFlow && l.levels.head? = some ⟨g.column, true⟩
  if l.keyAllowed then l.setKey (some ⟨l.tokens.size, g.line, g.column, g.index, required⟩) else l

/-- Whether a key cannot be ended any more at a place: it is limited to its line and to 1024
characters. -/
def isStale (g : Glyph) (key : KeyPlace) : Bool :=
  key.line < g.line || key.index + 1024 < g.index

/-- Gives up a possible key outside flow collections that cannot be ended any more; one that was
required is missed. -/
def dropStale? (l : Lexer) (g : Glyph) : Option Lexer :=
  if !l.inFlow && l.blockKey.any (isStale g) then l.dropKey? else some l

/-! ## Columns -/

/-- Closes the block collections that stand right of a column. -/
def closeTo (l : Lexer) (column : Int) : Lexer :=
  let right (v : Level) : Bool := column < v.column
  if l.inFlow then l
  else
    let closed := (l.levels.takeWhile right).countP Level.opened
    { l with levels := l.levels.dropWhile right
             tokens := l.tokens ++ Array.replicate closed Token.blockEnd }

/-- Opens a block collection at a column, unless one stands there or right of it; its first token
goes after the first `count` tokens. The column that only contents had to reach gives way. -/
def openAt (l : Lexer) (column count : Nat) (start : Token) : Lexer :=
  if l.inFlow then l
  else
    let outer := l.levels.dropWhile fun v => !v.opened && v.column ≤ column
    let l := { l with levels := outer }
    if l.column < (column : Int) then
      { l with levels := ⟨column, true⟩ :: outer }.insert count start
    else l

/-- From here on contents must be indented by one column more than their block collection. -/
def indent (l : Lexer) : Lexer :=
  match l.levels with
  | v :: _ =>
    if !l.inFlow && v.opened then { l with levels := ⟨v.column + 1, false⟩ :: l.levels } else l
  | [] => l

/-- From here on contents must reach the column of their block collection only. -/
def outdent (l : Lexer) : Lexer := { l with levels := l.levels.dropWhile (!·.opened) }

/-! ## Tokens by their first character -/

/-- A mark of a document: it closes all block collections. -/
def documentMark? (l : Lexer) (token : Token) : Option Lexer :=
  (l.closeTo (-1)).dropKey?.map fun l => { l with keyAllowed := false }.push token

/-- A directive: it closes all block collections. -/
def directive? (l : Lexer) (rest : List Glyph) : Option (Lexer × List Glyph) := do
  let l ← (l.closeTo (-1)).dropKey?
  let (token, rest) ← Yaml.directive? rest
  return ({ l with keyAllowed := false }.push token, rest)

/-- The end of a pair in brackets, if one is open in the innermost ones. -/
def closePair (l : Lexer) : Lexer :=
  match l.pairs with
  | true :: outer => { l with pairs := false :: outer, inMapping := false }.push .flowMappingEnd
  | _ => l

/-- The beginning of a flow collection, which may begin a key. -/
def openFlow? (l : Lexer) (g : Glyph) (token : Token) (rest : List Glyph) :
    Option (Lexer × List Glyph) := do
  let l := (l.saveKey g).indent
  if l.flowKeys.length = flowLimit then failure
  let l := { l with flowKeys := none :: l.flowKeys, keyAllowed := true }
  let l := if token = .flowMappingStart then { l with inMapping := true }
    else { l with pairs := false :: l.pairs }
  let gap ← lineGap? true rest
  return (l.push token, gap.rest)

/-- The end of a flow collection. -/
def closeFlow? (l : Lexer) (token : Token) (rest : List Glyph) : Option (Lexer × List Glyph) := do
  let l ← l.dropKey?
  let l := { l with flowKeys := l.flowKeys.drop 1, keyAllowed := false }
  let l := if token = .flowSequenceEnd then { l.closePair with pairs := l.pairs.drop 1 } else l
  let gap ← lineGap? true rest
  let adjacent := match gap.rest.head? with
    | some g => if l.inFlow then g.index else l.adjacent
    | none => l.adjacent
  return ({ l with adjacent }.push token, gap.rest)

/-- A comma between the entries of a flow collection. -/
def flowEntry? (l : Lexer) (rest : List Glyph) : Option (Lexer × List Glyph) := do
  let l ← l.dropKey?
  let gap ← lineGap? true rest
  return ({ l with keyAllowed := true }.closePair.push .flowEntry, gap.rest)

/-- The dash before an item of a block sequence. A tab may not set it apart from another one. -/
def blockEntry? (l : Lexer) (g : Glyph) (rest : List Glyph) : Option (Lexer × List Glyph) := do
  if l.inFlow || !l.keyAllowed then failure
  let l := l.openAt g.column l.tokens.size .blockSequenceStart
  let gap ← lineGap? true rest
  if gap.tab && atChar '-' gap.rest && atGap (gap.rest.drop 1) then failure
  let rest := gap.rest
  let open? := rest.head?.any fun g => g.isBreak || isFlowIndicator g.char
  let l ← (if open? then l.indent else l).dropKey?
  return ({ l with keyAllowed := true }.push .blockEntry, rest)

/-- The question mark before a key of any form. Spaces and line breaks, but no tab, set it apart
from the key. -/
def explicitKey? (l : Lexer) (g : Glyph) (rest : List Glyph) : Option (Lexer × List Glyph) := do
  if !l.inFlow && !l.keyAllowed then failure
  let l := if l.inFlow then { l with inMapping := true }
    else l.openAt g.column l.tokens.size .blockMappingStart
  let l ← l.dropKey?
  let (gap, rest) ← gap? (-1) true false false rest
  if gap.isEmpty || gap.any (·.char = '\t') then failure
  return ({ l with keyAllowed := !l.inFlow }.push .key, rest)

/-- The colon after a key. A key of one line is known for a key only here, so its tokens go to the
place where it began. A tab may not set the colon apart from a word. -/
def value? (l : Lexer) (g : Glyph) (rest : List Glyph) : Option (Lexer × List Glyph) := do
  let inPair := !l.pairs.isEmpty && !l.inMapping
  let l := if inPair then { l with pairs := true :: l.pairs.drop 1 } else l
  let gap ← if atChar '\t' rest then lineGap? true rest else some ⟨false, true, rest⟩
  if !gap.space && gap.rest.head?.any (fun g => isWordChar g.char) then failure
  match l.key? with
  | some key =>
    if inPair && key.line < g.line then failure
    let l := l.insert key.count .key
    let l := if inPair then l.insert key.count .flowMappingStart else l
    let l := ((l.openAt key.column key.count .blockMappingStart).indent).setKey none
    return ({ l with keyAllowed := false }.push .value, gap.rest)
  | none =>
    if !l.inFlow && !l.keyAllowed then failure
    let l := if inPair then l.push .flowMappingStart else l
    let l := (l.openAt g.column l.tokens.size .blockMappingStart).indent
    return ({ l with keyAllowed := !l.inFlow }.push .value, gap.rest)

/-- An anchor, an alias or a tag, which may begin a key. -/
def word? (l : Lexer) (g : Glyph) (word : Option (Token × List Glyph)) :
    Option (Lexer × List Glyph) :=
  word.map fun (token, rest) => ({ l.saveKey g with keyAllowed := false }.push token, rest)

/-- What comes next after blanks, line breaks and comments. In a block context a key may begin on
every new line. -/
def skipGap? (l : Lexer) (gs : List Glyph) : Option (Lexer × List Glyph) :=
  (gap? l.column true false false gs).map fun (gap, rest) =>
    ({ l with keyAllowed := l.keyAllowed || !l.inFlow && gap.any Glyph.isBreak }, rest)

/-- A quoted scalar, which may begin a key. The colon after it needs no gap in a flow collection. -/
def quotedScalar? (l : Lexer) (g : Glyph) (rest : List Glyph) : Option (Lexer × List Glyph) := do
  let l := { l.saveKey g with keyAllowed := false }
  let (text, rest) ← quoted? (g.char = '\'') l.inFlow l.column g.line rest
  let (l, rest) ← l.skipGap? rest
  let adjacent := (rest.head?.map Glyph.index).getD l.adjacent
  return ({ l with adjacent }.push (.scalar false text), rest)

/-- A block scalar, after which a line and so a key may begin. -/
def blockScalar? (l : Lexer) (g : Glyph) (rest : List Glyph) : Option (Lexer × List Glyph) := do
  let l := { l.saveKey g with keyAllowed := true }.outdent
  let (text, rest) ← block? (g.char = '>') l.column rest
  return (l.push (.scalar false text), rest)

/-- A plain scalar, which may begin a key. A key may begin after it only on a new line. -/
def plainScalar? (l : Lexer) (g : Glyph) (rest : List Glyph) : Option (Lexer × List Glyph) := do
  let l := (l.saveKey g).outdent
  let (text, rest) ← plain? l.inFlow (l.column + 1) (g :: rest)
  return ({ l with keyAllowed := atLeading rest }.push (.scalar true text), rest)

/-- Whether a colon is the indicator of a value: a gap follows, or in a flow collection one of its
marks, or what is before it needs no gap after the colon. -/
def isValueColon (l : Lexer) (g : Glyph) (rest : List Glyph) : Bool :=
  atGap rest ||
    l.inFlow && (g.index = l.adjacent || rest.head?.any fun n => isFlowIndicator n.char)

/-- The token that begins with a character, which is not blank. -/
def token? (l : Lexer) (g : Glyph) (rest : List Glyph) : Option (Lexer × List Glyph) :=
  match g.char with
  | '[' => l.openFlow? g .flowSequenceStart rest
  | '\x7b' => l.openFlow? g .flowMappingStart rest
  | ']' => l.closeFlow? .flowSequenceEnd rest
  | '\x7d' => l.closeFlow? .flowMappingEnd rest
  | ',' => l.flowEntry? rest
  | '*' => l.word? g ((anchorName? rest).map fun (name, after) => (.reference name, after))
  | '&' => l.word? g ((anchorName? rest).map fun (name, after) => (.anchor name, after))
  | '!' => l.word? g (tag? l.inFlow (g :: rest))
  | '\'' | '"' => l.quotedScalar? g rest
  | c =>
    if c = '-' && atGap rest then l.blockEntry? g rest
    else if c = '?' && atGap rest then l.explicitKey? g rest
    else if c = ':' && l.isValueColon g rest then l.value? g rest
    else if (c = '|' || c = '>') && !l.inFlow then l.blockScalar? g rest
    else if c = '%' || c = '@' || c = '\x60' then none
    else l.plainScalar? g rest

/-- The end of a text closes all block collections. -/
def finish? (l : Lexer) : Option Lexer :=
  if l.blockKey.any KeyPlace.required then none else some (l.closeTo (-1))

/-- One token, with the ends of the block collections that its indentation closes. -/
def next? (l : Lexer) (g : Glyph) (rest : List Glyph) : Option (Lexer × List Glyph) := do
  let l := l.closeTo g.column
  let first := g.column = 0
  if first && g.char = '%' then l.directive? rest
  else if first && atMark '-' (g :: rest) then
    (l.documentMark? .documentStart).map (·, rest.drop 2)
  else if first && atMark '.' (g :: rest) then
    let l ← l.documentMark? .documentEnd
    (restOfLine? (rest.drop 2)).map (l, ·)
  else if g.column < l.column then none
  else l.token? g rest

/-- The tokens of a text, after those so far; each takes at least one character, so their number is
at most that of the characters. -/
def run? (l : Lexer) (gs : List Glyph) : Nat → Option (Array Token)
  | 0 => none
  | fuel + 1 => do
    let (l, gs) ← l.skipGap? gs
    match gs with
    | [] => l.finish?.map Lexer.tokens
    | g :: rest =>
      let l ← l.dropStale? g
      if g.isEnd then l.finish?.map Lexer.tokens
      else
        let (l, gs) ← l.next? g rest
        l.run? gs fuel

end Lexer

/-- All tokens of a text. -/
def tokens? (gs : List Glyph) : Option (List Token) :=
  (Lexer.initial.run? gs (gs.length + 1)).map Array.toList

end YamlDefs.Settings.Yaml

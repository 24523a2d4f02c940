import YamlDefs.Yaml.Property

/-!
# Lexer

The tokens of a source. Block collections are opened and closed by indentation. Any token that may
turn out to be a key of one line is remembered, and the tokens before a key are put in their place
when the `:` after it is met.

* `Lexer`: what the tokens so far leave open.
* `Lexer.next?`: one token, with those that indentation brings before it.
* `tokens?`: all tokens of a source; none if it has a form that no token has.
-/

namespace YamlDefs.Yaml

/-- A place at which a key may have begun. -/
structure KeyPlace where
  /-- How many tokens were before it. -/
  count : Nat
  line : Nat
  column : Nat
  /-- How many bytes of its line are before it. -/
  offset : Nat
  /-- Whether the line can only be a key, because it stands at the indentation of a mapping. -/
  required : Bool
deriving DecidableEq, Repr

/-- What the tokens so far leave open. -/
structure Lexer where
  /-- The tokens so far. -/
  tokens : Array Token
  /-- The columns of the open block collections, the innermost first. -/
  columns : List Nat
  /-- The place of a possible key outside all flow collections. -/
  blockKey : Option KeyPlace
  /-- The places of possible keys in the open flow collections, the innermost first. -/
  flowKeys : List (Option KeyPlace)
  /-- Whether a key may begin here. -/
  keyAllowed : Bool
deriving Repr

namespace Lexer

/-- At the beginning of a source a key may begin, and nothing is open. -/
def initial : Lexer := ⟨#[], [], none, [], true⟩

/-- Whether a flow collection is open. -/
def inFlow (l : Lexer) : Bool := !l.flowKeys.isEmpty

/-- The column of the innermost block collection; negative if there is none. -/
def column (l : Lexer) : Int := (l.columns.head?.map Int.ofNat).getD (-1)

/-- One token more. -/
def push (l : Lexer) (token : Token) : Lexer := { l with tokens := l.tokens.push token }

/-- The place of a possible key in the innermost collection. -/
def key? (l : Lexer) : Option KeyPlace :=
  match l.flowKeys with
  | [] => l.blockKey
  | key :: _ => key

/-- Sets the place of a possible key in the innermost collection. -/
def setKey (l : Lexer) (key : Option KeyPlace) : Lexer :=
  match l.flowKeys with
  | [] => { l with blockKey := key }
  | _ :: outer => { l with flowKeys := key :: outer }

/-- Gives up the possible key of the innermost collection; one that was required is missed. -/
def dropKey? (l : Lexer) : Option Lexer :=
  if l.key?.any KeyPlace.required then none else some (l.setKey none)

/-- Remembers that a key may begin at a place. -/
def saveKey? (l : Lexer) (g : Glyph) : Option Lexer :=
  if l.keyAllowed then
    l.dropKey?.map fun dropped =>
      dropped.setKey (some ⟨l.tokens.size, g.line, g.column, g.offset,
        !l.inFlow && l.column = g.column⟩)
  else some l

/-- Whether a key cannot be ended any more at a place: it is limited to its line and to 1024
bytes. -/
def isStale (g : Glyph) (key : KeyPlace) : Bool :=
  key.line < g.line || key.offset + 1024 < g.offset

/-- Gives up the possible keys that cannot be ended any more; one that was required is missed. -/
def dropStale? (l : Lexer) (g : Glyph) : Option Lexer :=
  let stale (key : Option KeyPlace) := key.any (isStale g)
  let missed (key : Option KeyPlace) := key.any fun k => isStale g k && k.required
  if missed l.blockKey || l.flowKeys.any missed then none
  else
    let fresh (key : Option KeyPlace) := if stale key then none else key
    some { l with blockKey := fresh l.blockKey, flowKeys := l.flowKeys.map fresh }

/-- Closes the block collections that stand right of a column. -/
def closeTo (l : Lexer) (column : Int) : Lexer :=
  if l.inFlow then l
  else
    let closed := (l.columns.takeWhile fun c : Nat => column < (c : Int)).length
    { l with columns := l.columns.drop closed
             tokens := l.tokens ++ Array.replicate closed Token.blockEnd }

/-- Opens a block collection at a column, unless one stands there or right of it; its first token
goes after the first `count` tokens. -/
def openAt (l : Lexer) (column count : Nat) (start : Token) : Lexer :=
  if !l.inFlow && l.column < column then
    { l with columns := column :: l.columns
             tokens := l.tokens.take count ++ #[start] ++ l.tokens.drop count }
  else l

/-! ## Tokens by their first character -/

/-- A mark of a document: it closes all block collections. -/
def documentMark? (l : Lexer) (token : Token) (rest : List Glyph) : Option (Lexer × List Glyph) :=
  (l.closeTo (-1)).dropKey?.map fun l => ({ l with keyAllowed := false }.push token, rest.drop 2)

/-- A directive: it closes all block collections. -/
def directive? (l : Lexer) (rest : List Glyph) : Option (Lexer × List Glyph) := do
  let l ← (l.closeTo (-1)).dropKey?
  let (token, rest) ← Yaml.directive? rest
  return ({ l with keyAllowed := false }.push token, rest)

/-- The beginning of a flow collection, which may begin a key. -/
def openFlow? (l : Lexer) (g : Glyph) (token : Token) : Option Lexer :=
  (l.saveKey? g).map fun l =>
    { l with flowKeys := none :: l.flowKeys, keyAllowed := true }.push token

/-- The end of a flow collection. -/
def closeFlow? (l : Lexer) (token : Token) : Option Lexer :=
  l.dropKey?.map fun l => { l with flowKeys := l.flowKeys.drop 1, keyAllowed := false }.push token

/-- A comma between the entries of a flow collection. -/
def flowEntry? (l : Lexer) : Option Lexer :=
  l.dropKey?.map fun l => { l with keyAllowed := true }.push .flowEntry

/-- The dash before an item of a block sequence. -/
def blockEntry? (l : Lexer) (g : Glyph) : Option Lexer :=
  if !l.inFlow && !l.keyAllowed then none
  else
    (l.openAt g.column l.tokens.size .blockSequenceStart).dropKey?.map fun l =>
      { l with keyAllowed := true }.push .blockEntry

/-- The question mark before a key of any form. -/
def explicitKey? (l : Lexer) (g : Glyph) : Option Lexer :=
  if !l.inFlow && !l.keyAllowed then none
  else
    (l.openAt g.column l.tokens.size .blockMappingStart).dropKey?.map fun l =>
      { l with keyAllowed := !l.inFlow }.push .key

/-- The colon after a key. A key of one line is known for a key only here, so its tokens go to the
place where it began. -/
def value? (l : Lexer) (g : Glyph) : Option Lexer :=
  match l.key? with
  | some key =>
    let keyed := { l with
      tokens := l.tokens.take key.count ++ #[Token.key] ++ l.tokens.drop key.count }
    let opened := (keyed.openAt key.column key.count .blockMappingStart).setKey none
    some ({ opened with keyAllowed := false }.push .value)
  | none =>
    if !l.inFlow && !l.keyAllowed then none
    else
      let opened := l.openAt g.column l.tokens.size .blockMappingStart
      some ({ opened with keyAllowed := !l.inFlow }.push .value)

/-- An anchor, a tag or a quoted scalar, which may begin a key. -/
def word? (l : Lexer) (g : Glyph) (word : Option (Token × List Glyph)) :
    Option (Lexer × List Glyph) := do
  let l ← l.saveKey? g
  let (token, rest) ← word
  return ({ l with keyAllowed := false }.push token, rest)

/-- A block scalar, after which a line and so a key may begin. -/
def blockScalar? (l : Lexer) (folded : Bool) (rest : List Glyph) : Option (Lexer × List Glyph) := do
  let l ← l.dropKey?
  let (text, rest) ← block? folded l.column rest
  return ({ l with keyAllowed := true }.push (.scalar false text), rest)

/-- A plain scalar, which may begin a key. A key may begin after it only if it ends with its
line. -/
def plainScalar? (l : Lexer) (g : Glyph) (rest : List Glyph) : Option (Lexer × List Glyph) := do
  let l ← l.saveKey? g
  let plain ← plain? l.inFlow (l.column + 1) (g :: rest)
  return ({ l with keyAllowed := plain.broken }.push (.scalar true plain.text), plain.rest)

/-- Whether a plain scalar may begin with a character. A tab and the indicators may not, except for
three of them that text follows. -/
def mayBeginPlain (inFlow : Bool) (c : Char) (rest : List Glyph) : Bool :=
  !("\t-?:,[]\x7b\x7d#&*!|>'\"%@".toList.contains c || c = '\x60') ||
    c = '-' && !rest.head?.any Glyph.isSpaceOrTab ||
    !inFlow && (c = '?' || c = ':') && !atGap rest

/-- The token that begins with a character, which is not blank. -/
def token? (l : Lexer) (g : Glyph) (rest : List Glyph) : Option (Lexer × List Glyph) :=
  let here (l : Option Lexer) := l.map (·, rest)
  let indicator := l.inFlow || atGap rest
  match g.char with
  | '[' => here (l.openFlow? g .flowSequenceStart)
  | '\x7b' => here (l.openFlow? g .flowMappingStart)
  | ']' => here (l.closeFlow? .flowSequenceEnd)
  | '\x7d' => here (l.closeFlow? .flowMappingEnd)
  | ',' => here l.flowEntry?
  | '*' => l.word? g ((anchorName? rest).map fun (name, after) => (.reference name, after))
  | '&' => l.word? g ((anchorName? rest).map fun (name, after) => (.anchor name, after))
  | '!' => l.word? g (tag? l.inFlow (g :: rest))
  | '\'' => l.word? g ((quoted? true rest).map fun (text, after) => (.scalar false text, after))
  | '"' => l.word? g ((quoted? false rest).map fun (text, after) => (.scalar false text, after))
  | c =>
    if c = '-' && atGap rest then here (l.blockEntry? g)
    else if c = '?' && indicator then here (l.explicitKey? g)
    else if c = ':' && indicator then here (l.value? g)
    else if (c = '|' || c = '>') && !l.inFlow then l.blockScalar? (c = '>') rest
    else if mayBeginPlain l.inFlow c rest then l.plainScalar? g rest
    else none

/-- What comes next after blanks, line breaks and comments, and whether a key may begin there: in
a block context it may on every new line. A tab is blank where no indentation can be. -/
def skipBlank (inFlow keyAllowed inComment : Bool) : List Glyph → Bool × List Glyph
  | [] => (keyAllowed, [])
  | g :: rest =>
    if g.isBreak then skipBlank inFlow (!inFlow || keyAllowed) false rest
    else if inComment then skipBlank inFlow keyAllowed true rest
    else if g.char = '#' then skipBlank inFlow keyAllowed true rest
    else if g.char = ' ' || g.char = '\t' && (inFlow || !keyAllowed) ||
        g.char = byteOrderMark && g.column = 0 then
      skipBlank inFlow keyAllowed false rest
    else (keyAllowed, g :: rest)

/-- The end of a source closes all block collections. -/
def finish? (l : Lexer) : Option Lexer := (l.closeTo (-1)).dropKey?

/-- One token, with the ends of the block collections that its indentation closes. -/
def next? (l : Lexer) (g : Glyph) (rest : List Glyph) : Option (Lexer × List Glyph) := do
  let l ← l.dropStale? g
  let l := l.closeTo g.column
  if g.column = 0 && g.char = '%' then l.directive? rest
  else if atMark '-' (g :: rest) then l.documentMark? .documentStart rest
  else if atMark '.' (g :: rest) then l.documentMark? .documentEnd rest
  else l.token? g rest

/-- The tokens of a source, after those so far; each takes at least one character, so their number
is at most that of the characters. -/
def run? (l : Lexer) (gs : List Glyph) : Nat → Option (Array Token)
  | 0 => none
  | fuel + 1 =>
    let (keyAllowed, gs) := skipBlank l.inFlow l.keyAllowed false gs
    let l := { l with keyAllowed }
    match gs with
    | [] => l.finish?.map Lexer.tokens
    | g :: rest =>
      match l.next? g rest with
      | some (l, gs) => l.run? gs fuel
      | none => none

end Lexer

/-- All tokens of a source. -/
def tokens? (gs : List Glyph) : Option (List Token) :=
  (Lexer.initial.run? gs (gs.length + 1)).map Array.toList

end YamlDefs.Yaml

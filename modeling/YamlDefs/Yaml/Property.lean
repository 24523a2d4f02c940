import YamlDefs.Text.Digits
import YamlDefs.Yaml.Scalar
import YamlDefs.Yaml.Token

/-!
# Anchors, tags and directives

The words that come with a node or before a document. Each reader takes the characters from the
word on and gives its token and what comes after it.

* `anchorName?`: the name of an anchor or alias.
* `tag?`: a tag, in its verbatim, named or local form.
* `directive?`: a whole directive line.
-/

namespace YamlDefs.Yaml

open YamlDefs.Text (readNat? digitValue?)

/-- Whether a character belongs to names: a letter, a digit, `_` or `-`. -/
def isWordChar (c : Char) : Bool := c.isAlphanum || c = '_' || c = '-'

/-- The run of name characters at the head of a text, and what comes after it. -/
def word (gs : List Glyph) : List Char × List Glyph :=
  ((gs.takeWhile fun g => isWordChar g.char).map Glyph.char,
    gs.dropWhile fun g => isWordChar g.char)

/-! ## Anchors -/

/-- Whether a character may follow the name of an anchor or alias directly. -/
def mayFollowAnchor (c : Char) : Bool :=
  c = '?' || c = ':' || c = ',' || c = ']' || c = '}' || c = '%' || c = '@' || c = '\x60'

/-- The name of an anchor or alias, from after its indicator. -/
def anchorName? (gs : List Glyph) : Option (List Char × List Glyph) :=
  let (name, rest) := word gs
  if !name.isEmpty && (atGap rest || rest.head?.any fun g => mayFollowAnchor g.char) then
    some (name, rest)
  else none

/-! ## Tags -/

/-- Whether a character may stand in a tag as it is; flow marks only in tags given in full. -/
def isTagChar (full : Bool) (c : Char) : Bool :=
  isWordChar c || ";/?:@&=+$.!~*'()".toList.contains c || full && (c = ',' || c = '[' || c = ']')

/-- How many bytes a character takes whose encoding begins with the given byte. -/
def encodedWidth? (byte : Nat) : Option Nat :=
  if byte < 0x80 then some 1
  else if byte < 0xC0 then none
  else if byte < 0xE0 then some 2
  else if byte < 0xF0 then some 3
  else if byte < 0xF8 then some 4
  else none

/-- The text of a tag up to the first character that cannot stand in it. Percent escapes give bytes;
`pending` is how many bytes the escaped character still wants, which must be escaped as well. -/
def tagText? (full : Bool) (pending : Nat) : List Glyph → Option (TagText × List Glyph)
  | [] => if pending = 0 then some ([], []) else none
  | g :: rest =>
    if g.char = '%' then
      match rest with
      | hi :: lo :: rest =>
        match readNat? 16 [hi.char, lo.char] with
        | some byte =>
          let width? := if pending = 0 then encodedWidth? byte
            else if byte / 0x40 = 2 then some pending else none
          match width? with
          | some width =>
            (tagText? full (width - 1) rest).map fun (text, after) =>
              (UInt8.ofNat byte :: text, after)
          | none => none
        | none => none
      | _ => none
    else if pending ≠ 0 then none
    else if isTagChar full g.char then
      (tagText? full 0 rest).map fun (text, after) => (UInt8.ofNat g.char.toNat :: text, after)
    else some ([], g :: rest)

/-- A tag text that is not empty. A zero byte ends it. -/
def nonemptyTagText? (full : Bool) (gs : List Glyph) : Option (TagText × List Glyph) :=
  match tagText? full 0 gs with
  | some ([], _) => none
  | some (text, rest) => some (text.takeWhile (· ≠ 0), rest)
  | none => none

/-- The handle at the head of a tag, from its `!`, whether it is closed by another `!`, and what
comes after it. -/
def tagHandle? : List Glyph → Option (List Char × Bool × List Glyph)
  | g :: rest =>
    if g.char = '!' then
      let (name, rest) := word rest
      if atChar '!' rest then some ('!' :: name ++ ['!'], true, rest.drop 1)
      else some ('!' :: name, false, rest)
    else none
  | [] => none

/-- A tag from its `!`, without regard to what comes after it. The lone `!` is a tag of its own,
without a handle. -/
def tagToken? (gs : List Glyph) : Option (Token × List Glyph) :=
  if atChar '<' (gs.drop 1) then
    match nonemptyTagText? true (gs.drop 2) with
    | some (text, rest) => if atChar '>' rest then some (.tag [] text, rest.drop 1) else none
    | none => none
  else
    match tagHandle? gs with
    | some (handle, true, rest) =>
      (nonemptyTagText? false rest).map fun (text, after) => (.tag handle text, after)
    | some (handle, false, rest) =>
      match tagText? false 0 rest with
      | some (text, after) =>
        let suffix := ((handle.drop 1).map fun c => UInt8.ofNat c.toNat) ++ text
        let suffix := suffix.takeWhile (· ≠ 0)
        if suffix.isEmpty then some (.tag [] [0x21], after) else some (.tag ['!'] suffix, after)
      | none => none
    | none => none

/-- A tag from its `!`; a gap or, inside a flow collection, a comma must follow. -/
def tag? (inFlow : Bool) (gs : List Glyph) : Option (Token × List Glyph) :=
  match tagToken? gs with
  | some (token, rest) =>
    if atGap rest || inFlow && atChar ',' rest then some (token, rest) else none
  | none => none

/-! ## Directives -/

/-- A number of at most nine decimal digits. -/
def versionNumber? (gs : List Glyph) : Option (Nat × List Glyph) :=
  let digits := (gs.takeWhile fun g => g.char.isDigit).map Glyph.char
  if digits.length ≤ 9 then
    (readNat? 10 digits).map fun n => (n, gs.dropWhile fun g => g.char.isDigit)
  else none

/-- A version, from after the word `YAML`. -/
def versionDirective? (gs : List Glyph) : Option (Token × List Glyph) :=
  match versionNumber? (gs.dropWhile Glyph.isSpaceOrTab) with
  | some (major, rest) =>
    if atChar '.' rest then
      (versionNumber? (rest.drop 1)).map fun (minor, rest) => (.version major minor, rest)
    else none
  | none => none

/-- A handle and its meaning, from after the word `TAG`. -/
def handleDirective? (gs : List Glyph) : Option (Token × List Glyph) :=
  match tagHandle? (gs.dropWhile Glyph.isSpaceOrTab) with
  | some (handle, closed, rest) =>
    if (closed || handle = ['!']) && rest.head?.any Glyph.isSpaceOrTab then
      match nonemptyTagText? true (rest.dropWhile Glyph.isSpaceOrTab) with
      | some (meaning, rest) => if atGap rest then some (.handle handle meaning, rest) else none
      | none => none
    else none
  | none => none

/-- A directive line, from after its `%` through the line break; a comment may end it. -/
def directive? (gs : List Glyph) : Option (Token × List Glyph) :=
  let (name, rest) := word gs
  let content :=
    if !atGap rest then none
    else if name = "YAML".toList then versionDirective? rest
    else if name = "TAG".toList then handleDirective? rest
    else none
  match content with
  | some (token, rest) =>
    let blank := rest.dropWhile Glyph.isSpaceOrTab
    let rest := if atChar '#' blank then afterLine blank else blank
    if atLineEnd rest then some (token, rest.drop 1) else none
  | none => none

end YamlDefs.Yaml

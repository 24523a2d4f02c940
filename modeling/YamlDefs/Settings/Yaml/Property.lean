import YamlDefs.Settings.Yaml.Scalar
import YamlDefs.Yaml.Property

/-!
# Anchors, tags and directives of settings

The words that come with a node or before a document. Each reader takes the characters from the
word on and gives its token and what comes after it. The texts of tags are kept as the bytes that
encode them.

* `anchorName?`: the name of an anchor or alias.
* `tag?`: a tag, in its verbatim, named or local form.
* `directive?`: a whole directive line.
-/

namespace YamlDefs.Settings.Yaml

open YamlDefs.Text (readNat?)
open YamlDefs.Yaml (Token TagText isWordChar isFlowIndicator)

/-! ## Anchors -/

/-- Whether a character may stand in the name of an anchor: any may that is no gap, no byte order
mark and no mark of flow collections. -/
def isAnchorChar (c : Char) : Bool :=
  !(isBlank c || c = '\n' || c = '\x00' || c = '\uFEFF' || isFlowIndicator c)

/-- The name of an anchor or alias, from after its indicator. -/
def anchorName? (gs : List Glyph) : Option (List Char × List Glyph) :=
  let name := gs.takeWhile fun g => isAnchorChar g.char
  if name.isEmpty then none
  else some (name.map Glyph.char, gs.dropWhile fun g => isAnchorChar g.char)

/-! ## Tags -/

/-- Whether a character may stand in a tag; flow marks and `!` only in tags given in full. -/
def isTagChar (full : Bool) (c : Char) : Bool :=
  isWordChar c || "#;/?:@&=+$.~*'()%".toList.contains c || full && ",![]".toList.contains c

/-- The character of a number, if it has one. -/
def char? (n : Nat) : Option Char := if h : n.isValidChar then some (Char.ofNatAux n h) else none

/-- The characters of a tag up to the first that cannot stand in it. A percent escape gives a byte,
which is a character below 128; two bytes in the form of an encoding in two bytes are the
upper and the lower half of the number of one. `upper` is the upper half that has been read. -/
def tagChars? (full : Bool) (upper : Option Nat) : List Glyph → Option (List Char × List Glyph)
  | [] => none
  | g :: rest =>
    if g.char = '%' then
      match rest with
      | hi :: lo :: rest =>
        match readNat? 16 [hi.char, lo.char], upper with
        | some byte, none =>
          if byte < 0x80 then
            (tagChars? full none rest).map fun (text, after) => (Char.ofNat byte :: text, after)
          else if byte / 0x20 = 6 then tagChars? full (some byte) rest
          else none
        | some byte, some first =>
          match (if byte / 0x40 = 2 then char? (0x100 * first + byte) else none) with
          | some c => (tagChars? full none rest).map fun (text, after) => (c :: text, after)
          | none => none
        | none, _ => none
      | _ => none
    else if upper.isSome then none
    else if isTagChar full g.char then
      (tagChars? full none rest).map fun (text, after) => (g.char :: text, after)
    else some ([], g :: rest)

/-- The text of a tag up to the first character that cannot stand in it. -/
def tagText? (full : Bool) (gs : List Glyph) : Option (TagText × List Glyph) :=
  (tagChars? full none gs).map fun (text, rest) => (text.flatMap String.utf8EncodeChar, rest)

/-- The handle at the head of a tag, from its `!`, whether it is closed by another `!`, and what
comes after it. -/
def tagHandle? : List Glyph → Option (List Char × Bool × List Glyph)
  | g :: rest =>
    if g.char = '!' then
      let name := (rest.takeWhile fun g => isWordChar g.char).map Glyph.char
      let rest := rest.dropWhile fun g => isWordChar g.char
      if atChar '!' rest then some ('!' :: name ++ ['!'], true, rest.drop 1)
      else some ('!' :: name, false, rest)
    else none
  | [] => none

/-- A tag from its `!`, without regard to what comes after it. The lone `!` is a tag of its own,
without a handle. -/
def tagToken? (gs : List Glyph) : Option (Token × List Glyph) :=
  if atChar '<' (gs.drop 1) then
    match tagText? true (gs.drop 2) with
    | some (text, rest) => if atChar '>' rest then some (.tag [] text, rest.drop 1) else none
    | none => none
  else
    match tagHandle? gs with
    | some (handle, closed, rest) =>
      match tagText? false rest with
      | some (text, after) =>
        if closed then if text.isEmpty then none else some (.tag handle text, after)
        else
          let suffix := (handle.drop 1).flatMap String.utf8EncodeChar ++ text
          if suffix.isEmpty then some (.tag [] [0x21], after) else some (.tag ['!'] suffix, after)
      | none => none
    | none => none

/-- A tag from its `!`; a gap or, inside a flow collection, one of its marks must follow. -/
def tag? (inFlow : Bool) (gs : List Glyph) : Option (Token × List Glyph) :=
  match tagToken? gs with
  | some (token, rest) =>
    if atGap rest || inFlow && rest.head?.any (fun g => isFlowIndicator g.char) then
      some (token, rest)
    else none
  | none => none

/-! ## Directives -/

/-- A number of at most nine decimal digits. -/
def versionNumber? (gs : List Glyph) : Option (Nat × List Glyph) :=
  let digits := (gs.takeWhile fun g => g.char.isDigit).map Glyph.char
  if digits.length ≤ 9 then
    (readNat? 10 digits).map fun n => (n, gs.dropWhile fun g => g.char.isDigit)
  else none

/-- A version, from after the word `YAML`. -/
def versionDirective? (gs : List Glyph) : Option (Token × List Glyph) :=
  match versionNumber? (gs.dropWhile Glyph.isBlank) with
  | some (major, rest) =>
    if atChar '.' rest then
      (versionNumber? (rest.drop 1)).map fun (minor, rest) => (.version major minor, rest)
    else none
  | none => none

/-- A handle and its meaning, from after the word `TAG`. -/
def handleDirective? (gs : List Glyph) : Option (Token × List Glyph) :=
  match tagHandle? (gs.dropWhile Glyph.isBlank) with
  | some (handle, closed, rest) =>
    let meaning := rest.dropWhile Glyph.isBlank
    let begins := atChar '!' meaning || meaning.head?.any fun g => isTagChar false g.char
    if (closed || handle = ['!']) && begins then
      match tagText? true meaning with
      | some (meaning, rest) => if atGap rest then some (.handle handle meaning, rest) else none
      | none => none
    else none
  | none => none

/-- A directive line, from after its `%` through the line break; a comment may end it. A directive
of any other name stands for the empty handle, which means nothing. -/
def directive? (gs : List Glyph) : Option (Token × List Glyph) :=
  let name := (gs.takeWhile fun g => isWordChar g.char).map Glyph.char
  let rest := gs.dropWhile fun g => isWordChar g.char
  let content :=
    if name.isEmpty || !atGap rest then none
    else if name = "YAML".toList then versionDirective? rest
    else if name = "TAG".toList then handleDirective? rest
    else some (.handle [] [], afterLine rest)
  match content with
  | some (token, rest) =>
    (restOfLine? rest).map fun rest => (token, if atEnd rest then rest else rest.drop 1)
  | none => none

end YamlDefs.Settings.Yaml

import YamlDefs.Yaml.Glyph

/-!
# Tokens

The tokens of a document, in the order in which a reader of its grammar wants them: the beginning
of a block collection and the `key` token stand before the first key, although the source shows
only the `:` after it. The end of the list is the end of the source.
-/

namespace YamlDefs.Yaml

/-- The text of a tag as bytes: percent escapes may name any. -/
abbrev TagText := List UInt8

/-- A token of a document. -/
inductive Token where
  /-- The directive that names a version. -/
  | version (major minor : Nat)
  /-- The directive that gives a tag handle its meaning. -/
  | handle (name : List Char) (meaning : TagText)
  | documentStart
  | documentEnd
  | blockSequenceStart
  | blockMappingStart
  | blockEnd
  | flowSequenceStart
  | flowSequenceEnd
  | flowMappingStart
  | flowMappingEnd
  | blockEntry
  | flowEntry
  | key
  | value
  | reference (name : List Char)
  | anchor (name : List Char)
  /-- A tag by its handle and suffix; a verbatim tag has the empty handle. -/
  | tag (handle : List Char) (suffix : TagText)
  /-- A scalar; it is plain if it was written without quotes and not as a block. -/
  | scalar (plain : Bool) (text : List Char)
deriving DecidableEq, Repr

end YamlDefs.Yaml

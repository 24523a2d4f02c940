import YamlDefs.Yaml.Lexer
import YamlDefs.Yaml.Schema
import YamlDefs.Yaml.Tree

/-!
# Reading a document

The value of a tree: scalars are resolved by the schema, aliases are replaced by what they mean, and
local tags are kept. There are limits on what aliases may build: collections nest at most 128 deep,
and there are at most a hundred replacements for each event of the document.

* `localTag?`: the displayed form of a tag that is kept.
* `Document.value?`: the value of a document, whose mappings have no key twice.
* `read?`: the value of a source.
-/

namespace YamlDefs.Yaml

/-- The form in which a local tag is kept and shown: with one exclamation mark before its name. A
lone exclamation mark is a name. A tag that is no text is not kept. -/
def localTag? (tag : TagText) : Option String :=
  match tag with
  | 0x21 :: rest =>
    let name := if rest.isEmpty then tag else rest
    (String.fromUTF8? ⟨name.toArray⟩).map fun name =>
      match name.toList with
      | '!' :: c :: cs => String.ofList ('!' :: c :: cs)
      | cs => String.ofList ('!' :: cs)
  | _ => none

/-- How deep collections may nest. -/
def nestingLimit : Nat := 128

/-- How many replacements of aliases are left. -/
abbrev Reading := StateT Nat Option

namespace Document

/-- A tree whose root is no alias: the node that an alias means takes its place. -/
def dereference (d : Document) (tree : Tree) : Reading Tree := do
  match tree with
  | .reference slot =>
    match ← get, d.anchored.lookup slot with
    | left + 1, some meant =>
      set left
      return meant
    | _, _ => failure
  | tree => return tree

/-- Entries in order, unless two have the same key. -/
def distinct? (entries : List (Value × Value)) : Option (List (Value × Value)) :=
  if entries.Pairwise (fun a b => a.1.same b.1 = false) then some entries else none

/-- The value of a scalar. The text under a local tag is read as if there were none. -/
def scalarValue? (tag : Option TagText) (plain : Bool) (text : List Char) : Option Value :=
  match tag with
  | none => untagged? plain text
  | some tag =>
    match localTag? tag with
    | some shown => (untagged? plain text).map (.tagged shown)
    | none => if tag.head? = some 0x21 && plain then untagged? plain text else underTag? tag text

/-- A collection under its tag, of which only a local one is kept. -/
def collectionValue (tag : Option TagText) (value : Value) : Value :=
  match tag.bind localTag? with
  | some shown => .tagged shown value
  | none => value

/-- The value of a tree that may nest as many collections as the last argument says. -/
def treeValue (d : Document) (tree : Tree) (depth : Nat) : Reading Value := do
  match ← d.dereference tree, depth with
  | .scalar tag plain text, _ => scalarValue? tag plain text
  | .sequence tag items, depth + 1 =>
    let items ← items.mapM fun item => treeValue d item depth
    return collectionValue tag (.sequence items)
  | .mapping tag entries, depth + 1 =>
    let entries ← entries.mapM fun e => do
      return (← treeValue d e.1 depth, ← treeValue d e.2 depth)
    return collectionValue tag (.mapping (← distinct? entries))
  | _, _ => failure
termination_by structural depth

/-- The value of a document. -/
def value? (d : Document) : Option Value :=
  ((d.treeValue d.root nestingLimit).run (100 * d.events)).map Prod.fst

end Document

/-- The value of a source. None stands for one that is malformed or exceeds a limit. -/
def read? (source : String) : Option Value := do
  let glyphs ← glyphs? source.toList
  let tokens ← tokens? glyphs
  let document ← document? tokens
  document.value?

end YamlDefs.Yaml

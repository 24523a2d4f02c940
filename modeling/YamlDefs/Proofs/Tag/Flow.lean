import YamlDefs.Proofs.Tag.Block

/-!
# Flow collections

Trees of flow sequences and flow mappings, and the pieces in which they are written: brackets, keys
and leaves, commas, colons, and in front of a value its anchor and its tag. Behind a comma the text
may go on in the next line.

* `Flow`: a tree; every value may carry an anchor and a mark (`Properties`).
* `FlowPiece`: a piece of the text; `Flow.pieces`: the pieces of a tree, in order.
* `flowText`: the text of a tree that is the value of a key.
* `marks`: the marks among some pieces, each with the number of its line.
* `firstForeignMark?`: the first mark, in the order of the text, that is not core.
-/

namespace YamlDefs.Tag

/-! ## Trees -/

/-- A tag that may be written inside flow collections. -/
structure FlowMark where
  mark : Mark
  unbroken : mark.Unbroken

/-- What stands in front of a value, in this order. -/
structure Properties where
  anchor? : Option Word
  mark? : Option FlowMark

/-- What stands behind a comma. -/
inductive Gap where
  | space
  /-- A line feed, and the spaces with which the next line begins. -/
  | newline (indent : Nat)

def Gap.text : Gap → List Char
  | space => [' ']
  | newline indent => '\n' :: List.replicate indent ' '

/-- A tree of flow collections over scalars. Each child comes with the gap between it and the comma
before it; in front of the first child there is neither. -/
inductive Flow where
  | scalar (value : Scalar)
  | sequence (items : List (Gap × Properties × Flow))
  | mapping (entries : List (Gap × Scalar × Properties × Flow))

/-! ## Pieces of the text -/

/-- The two kinds of brackets. -/
inductive Bracket where
  | square
  | curly

def Bracket.opening : Bracket → Char
  | square => '['
  | curly => '{'

def Bracket.closing : Bracket → Char
  | square => ']'
  | curly => '}'

/-- A piece of the text of a flow collection. -/
inductive FlowPiece where
  | anchor (name : Word)
  | mark (tag : FlowMark)
  /-- A key or a leaf. -/
  | scalar (value : Scalar)
  | opening (bracket : Bracket)
  | closing (bracket : Bracket)
  | comma (gap : Gap)
  | colon

def FlowPiece.text : FlowPiece → List Char
  | anchor name => '&' :: (name.text ++ [' '])
  | mark tag => tag.mark.text ++ [' ']
  | scalar value => value.text
  | opening bracket => [bracket.opening]
  | closing bracket => [bracket.closing]
  | comma gap => ',' :: gap.text
  | colon => [':', ' ']

def piecesText (ps : List FlowPiece) : List Char := ps.flatMap FlowPiece.text

def Properties.pieces (properties : Properties) : List FlowPiece :=
  (properties.anchor?.map FlowPiece.anchor).toList ++ (properties.mark?.map FlowPiece.mark).toList

mutual

/-- The pieces of a tree. The comma in front of the first child of a collection is left out. -/
def Flow.pieces : Flow → List FlowPiece
  | .scalar value => [.scalar value]
  | .sequence items => .opening .square :: ((itemPieces items).tail ++ [.closing .square])
  | .mapping entries => .opening .curly :: ((entryPieces entries).tail ++ [.closing .curly])

/-- The pieces of the items of a sequence, each behind a comma. -/
def itemPieces : List (Gap × Properties × Flow) → List FlowPiece
  | [] => []
  | (gap, properties, value) :: items =>
    .comma gap :: (properties.pieces ++ (value.pieces ++ itemPieces items))

/-- The pieces of the entries of a mapping, each behind a comma. -/
def entryPieces : List (Gap × Scalar × Properties × Flow) → List FlowPiece
  | [] => []
  | (gap, key, properties, value) :: entries =>
    .comma gap :: .scalar key :: .colon ::
      (properties.pieces ++ (value.pieces ++ entryPieces entries))

end

/-- The pieces of a value with what stands in front of it. -/
def valuePieces (properties : Properties) (value : Flow) : List FlowPiece :=
  properties.pieces ++ value.pieces

/-- The text of a key in the first column and its value. -/
def flowText (key : Identifier) (properties : Properties) (value : Flow) : List Char :=
  key.name.toList ++ ':' :: ' ' :: piecesText (valuePieces properties value)

example :
    flowText ⟨"A", rfl⟩ ⟨none, some ⟨.verbatim ['u'] (by decide) (by decide), trivial⟩⟩
      (.sequence [(.space, ⟨none, none⟩, .scalar (.quoted ['"'] (by decide))),
        (.newline 2, ⟨none, none⟩,
          .mapping [(.space, .quoted [] (by decide), ⟨none, none⟩, .sequence [])])]) =
      "A: !<u> [\"\\\"\",\n  \x7b\"\": []\x7d]".toList := by
  rfl

/-! ## Marks and their lines -/

/-- The marks among some pieces, in order, each with the number of its line, where the first piece
stands on the line with the given number. -/
def marks (number : Nat) : List FlowPiece → List (Mark × Nat)
  | [] => []
  | .mark tag :: ps => (tag.mark, number) :: marks number ps
  | piece :: ps => marks (number + piece.text.count '\n') ps

/-- The first of some marks that is not core, as written, with the number of its line. -/
def firstForeignMark? (ms : List (Mark × Nat)) : Option Found :=
  ms.findSome? fun (mark, number) =>
    if isCore mark.text then none else some ⟨String.ofList mark.text, number⟩

/-- The first mark of a value and all values inside it that is not core. -/
def Flow.firstForeign? (properties : Properties) (value : Flow) : Option Found :=
  firstForeignMark? (marks 1 (valuePieces properties value))

theorem firstForeignMark?_cons (mark : Mark) (number : Nat) (ms : List (Mark × Nat)) :
    firstForeignMark? ((mark, number) :: ms) =
      if isCore mark.text then firstForeignMark? ms
      else some ⟨String.ofList mark.text, number⟩ := by
  unfold firstForeignMark?
  rw [List.findSome?_cons]
  by_cases hcore : isCore mark.text = true <;> simp [hcore]

end YamlDefs.Tag

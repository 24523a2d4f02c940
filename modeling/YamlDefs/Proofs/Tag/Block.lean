import YamlDefs.Identifier
import YamlDefs.Proofs.Tag.Lines
import YamlDefs.Proofs.Tag.Moves

/-!
# Expanded block documents

Trees of block mappings and block sequences, and the lines on which they stand: each collection on
lines of its own, its children two spaces deeper than the key or dash that it hangs from, a scalar
on the line of its key or dash, and a tag in front of both.

* `Mark`: a tag as written, in one of its three spellings.
* `Scalar`: a plain text of words, or a double-quoted text.
* `Block`: a tree; every value below the root may carry a mark.
* `BlockLine`: a line of such a document, apart from its text.
* `Block.lines`, `Block.text`: the lines of a tree and the text of the whole document.
* `Block.firstForeign?`: the first mark, in the order of the lines, that is not core.
* `Block.lines_text`: splitting the text of a document gives the lines of its tree.
-/

namespace YamlDefs.Tag

open YamlDefs.Text

/-! ## Leaves -/

/-- A tag as written. -/
inductive Mark where
  /-- `!!name`. -/
  | secondary (name : List Char) (solid : ∀ c ∈ name, isBlank c = false)
  /-- `!<uri>`. -/
  | verbatim (uri : List Char) (enclosed : '>' ∉ uri) (oneLine : '\n' ∉ uri)
  /-- `!name`, where the name does not make it one of the other spellings. -/
  | primary (name : List Char) (solid : ∀ c ∈ name, isBlank c = false)
      (own : ∀ c ∈ name.head?, c ≠ '!' ∧ c ≠ '<')

def Mark.text : Mark → List Char
  | secondary name _ => '!' :: '!' :: name
  | verbatim uri _ _ => '!' :: '<' :: (uri ++ ['>'])
  | primary name _ _ => '!' :: name

/-- Whether the tag is not cut off inside a flow collection, where a flow mark ends a tag that is
not verbatim. -/
def Mark.Unbroken : Mark → Prop
  | secondary name _ => ∀ c ∈ name, isFlowMark c = false
  | verbatim .. => True
  | primary name _ _ => ∀ c ∈ name, isFlowMark c = false

/-- A word of a plain text. -/
structure Word where
  text : List Char
  ne_nil : text ≠ []
  isAlphanum_of_mem : ∀ c ∈ text, c.isAlphanum = true

theorem Word.isWordChar_of_mem (word : Word) : ∀ c ∈ word.text, isWordChar c = true :=
  fun c hc => isWordChar_of_isAlphanum (word.isAlphanum_of_mem c hc)

theorem Word.exists_text_eq_cons (word : Word) :
    ∃ c cs, word.text = c :: cs ∧ isWordChar c = true := by
  obtain ⟨c, cs, htext⟩ := List.exists_cons_of_ne_nil word.ne_nil
  exact ⟨c, cs, htext, word.isWordChar_of_mem c (by simp [htext])⟩

/-- A text on one line. -/
inductive Scalar where
  /-- Words with single spaces between them. -/
  | plain (first : Word) (more : List Word)
  /-- A text in double quotes. -/
  | quoted (content : List Char) (oneLine : '\n' ∉ content)

def Scalar.text : Scalar → List Char
  | plain first more => first.text ++ more.flatMap fun word => ' ' :: word.text
  | quoted content _ => '"' :: (escape content ++ ['"'])

/-! ## Trees and their lines -/

/-- A tree of block collections over scalars. -/
inductive Block where
  | scalar (value : Scalar)
  | mapping (entries : List (Identifier × Option Mark × Block))
  | sequence (items : List (Option Mark × Block))

/-- What a value hangs from. -/
inductive Marker where
  | key (name : Identifier)
  | dash

def Marker.text : Marker → List Char
  | key name => name.name.toList ++ [':']
  | dash => ['-']

/-- A line: what a value hangs from, the mark of the value, and the value if it is a scalar. -/
structure BlockLine where
  indent : Nat
  marker : Marker
  mark? : Option Mark
  scalar? : Option Scalar

/-- A text with a space in front of it, if there is one. -/
def spaced : Option (List Char) → List Char
  | none => []
  | some cs => ' ' :: cs

/-- What stands behind the key or dash of a line. -/
def BlockLine.tail (l : BlockLine) : List Char :=
  spaced (l.mark?.map Mark.text) ++ spaced (l.scalar?.map Scalar.text)

def BlockLine.text (l : BlockLine) : List Char :=
  List.replicate l.indent ' ' ++ (l.marker.text ++ l.tail)

/-- The mark of a line, as written, if it is not core. -/
def BlockLine.foreign? (l : BlockLine) : Option (List Char) :=
  (l.mark?.map Mark.text).filter fun tag => !isCore tag

/-- The scalar that stands on the line of its key or dash. -/
def Block.scalar? : Block → Option Scalar
  | scalar value => some value
  | _ => none

mutual

/-- The lines of a collection with the given indentation. A scalar has none of its own. -/
def Block.lines (indent : Nat) : Block → List BlockLine
  | .scalar _ => []
  | .mapping entries => entryLines indent entries
  | .sequence items => itemLines indent items

/-- The lines of the entries of a mapping. -/
def entryLines (indent : Nat) : List (Identifier × Option Mark × Block) → List BlockLine
  | [] => []
  | (key, mark?, value) :: entries =>
    ⟨indent, .key key, mark?, value.scalar?⟩ :: value.lines (indent + 2)
      ++ entryLines indent entries

/-- The lines of the items of a sequence. -/
def itemLines (indent : Nat) : List (Option Mark × Block) → List BlockLine
  | [] => []
  | (mark?, value) :: items =>
    ⟨indent, .dash, mark?, value.scalar?⟩ :: value.lines (indent + 2) ++ itemLines indent items

end

/-- The document of a tree. -/
def Block.text (root : Block) : List Char := unlines ((root.lines 0).map BlockLine.text)

/-- The first mark of some lines that is not core, with the number of its line, where the first
line has the given number. -/
def firstForeign? (number : Nat) (ls : List BlockLine) : Option Found :=
  (ls.zipIdx number).findSome? fun (l, n) => l.foreign?.map fun tag => ⟨String.ofList tag, n⟩

theorem firstForeign?_cons (number : Nat) (l : BlockLine) (ls : List BlockLine) :
    firstForeign? number (l :: ls) =
      match l.foreign? with
      | some tag => some ⟨String.ofList tag, number⟩
      | none => firstForeign? (number + 1) ls := by
  unfold firstForeign?
  rw [List.zipIdx_cons, List.findSome?_cons]
  dsimp only
  cases l.foreign? with
  | none => rfl
  | some tag => rfl

/-- The first mark of a document that is not core. -/
def Block.firstForeign? (root : Block) : Option Found := Tag.firstForeign? 1 (root.lines 0)

/-! ## The text as lines -/

/-- An identifier is a word that is not empty. -/
theorem exists_toList_eq_cons (name : Identifier) :
    ∃ c cs, name.name.toList = c :: cs ∧ ∀ d ∈ c :: cs, isWordChar d = true := by
  have h := name.isIdentifier_name
  unfold isIdentifier at h
  split at h
  · cases h
  · next c cs hname =>
    rw [Bool.and_eq_true, List.all_eq_true] at h
    obtain ⟨hc, hcs⟩ := h
    refine ⟨c, cs, hname, List.forall_mem_cons.mpr ⟨?_, fun d hd => ?_⟩⟩
    · simp only [isNameStart, Bool.or_eq_true, decide_eq_true_eq] at hc
      rcases hc with rfl | hc
      · rfl
      · exact isWordChar_of_isAlphanum (isAlphanum_iff.mpr (.inl (isUpper_iff.mp hc)))
    · simpa [isNameChar, isWordChar, or_comm] using hcs d hd

theorem mem_escape {c : Char} {content : List Char} (h : c ∈ escape content) :
    c = '\\' ∨ c ∈ content := by
  induction content with
  | nil => cases h
  | cons d content ih =>
    have hd : c = '\\' ∨ c = d ∨ c ∈ escape content := by
      unfold escape at h
      split at h
      · simpa using h
      · exact .inr (List.mem_cons.mp h)
    rcases hd with hd | hd | hd
    · exact .inl hd
    · exact .inr (by simp [hd])
    · exact (ih hd).imp_right (List.mem_cons_of_mem d)

theorem Mark.isLine_text (mark : Mark) : IsLine mark.text := by
  have hmark : isBlank '!' = false := by decide
  cases mark with
  | secondary name solid =>
    exact isLine_of_not_isBlank
      (List.forall_mem_cons.mpr ⟨hmark, List.forall_mem_cons.mpr ⟨hmark, solid⟩⟩)
  | verbatim uri enclosed oneLine =>
    rw [Mark.text]
    refine ⟨by simp [oneLine], ?_⟩
    rw [← List.cons_append, ← List.cons_append, List.getLast?_concat]
    decide
  | primary name solid own =>
    exact isLine_of_not_isBlank (List.forall_mem_cons.mpr ⟨hmark, solid⟩)

theorem Word.isLine_text (word : Word) : IsLine word.text :=
  isLine_of_not_isBlank fun c hc => isBlank_of_isWordChar (word.isWordChar_of_mem c hc)

theorem isLine_spaces (n : Nat) : IsLine (List.replicate n ' ') := by
  refine ⟨fun h => ?_, fun h => ?_⟩
  · exact absurd (List.eq_of_mem_replicate h) (by decide)
  · exact absurd (List.eq_of_mem_replicate (List.mem_of_getLast? h)) (by decide)

theorem Scalar.isLine_text (value : Scalar) : IsLine value.text := by
  cases value with
  | plain first more =>
    refine first.isLine_text.append ?_
    induction more with
    | nil => exact ⟨by simp, by simp⟩
    | cons word more ih =>
      exact ((isLine_spaces 1).append word.isLine_text).append ih
  | quoted content oneLine =>
    have hescape : '\n' ∉ escape content := fun h =>
      (mem_escape h).elim (by decide) oneLine
    rw [Scalar.text]
    refine ⟨by simp [hescape], ?_⟩
    rw [← List.cons_append, List.getLast?_concat]
    decide

theorem isLine_spaced {text? : Option (List Char)} (h : ∀ cs ∈ text?, IsLine cs) :
    IsLine (spaced text?) := by
  cases text? with
  | none => exact ⟨by simp [spaced], by simp [spaced]⟩
  | some cs => exact (isLine_spaces 1).append (h cs rfl)

theorem Marker.isLine_text (marker : Marker) : IsLine marker.text := by
  cases marker with
  | key name =>
    obtain ⟨c, cs, hname, hword⟩ := exists_toList_eq_cons name
    have hkey : IsLine name.name.toList := by
      rw [hname]
      exact isLine_of_not_isBlank fun d hd => isBlank_of_isWordChar (hword d hd)
    exact hkey.append ⟨by decide, by decide⟩
  | dash => exact ⟨by decide, by decide⟩

theorem BlockLine.isLine_text (l : BlockLine) : IsLine l.text := by
  have hmark : IsLine (spaced (l.mark?.map Mark.text)) := by
    refine isLine_spaced fun cs hcs => ?_
    obtain ⟨mark, -, rfl⟩ := Option.map_eq_some_iff.mp hcs
    exact mark.isLine_text
  have hscalar : IsLine (spaced (l.scalar?.map Scalar.text)) := by
    refine isLine_spaced fun cs hcs => ?_
    obtain ⟨value, -, rfl⟩ := Option.map_eq_some_iff.mp hcs
    exact value.isLine_text
  exact (isLine_spaces l.indent).append (l.marker.isLine_text.append (hmark.append hscalar))

/-- The lines of a document's text are the lines of its tree. -/
theorem Block.lines_text (root : Block) :
    Text.lines root.text = (root.lines 0).map BlockLine.text := by
  refine lines_unlines_of_isLine fun l hl => ?_
  obtain ⟨line, -, rfl⟩ := List.mem_map.mp hl
  exact line.isLine_text

example :
    Block.text (.mapping
      [(⟨"A", rfl⟩, some (.verbatim ['u'] (by decide) (by decide)),
          .sequence [(none, .scalar (.quoted ['!', '"'] (by decide)))]),
        (⟨"B", rfl⟩, none, .scalar (.quoted [] (by decide)))]) =
      "A: !<u>\n  - \"!\\\"\"\nB: \"\"\n".toList := by
  rfl

end YamlDefs.Tag

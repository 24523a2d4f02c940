import YamlDefs.Proofs.Tag.Apart
import YamlDefs.Yaml.Read

/-!
# Plain scalars on several lines

A plain scalar goes on with every line that is deeper than its key. The scan takes it to go on with
the lines that are deeper than the line on which the scalar stands: below a first line that is
itself indented, a line that is no deeper is scanned, and the scalar hangs on that line from then
on.

* `ContinuationLine`: a line of words, or of a tag and words, with which a scalar goes on.
* `foldedText`: a key with a scalar on several lines, the first of them that of the key or one
  below.
* `Enclosed`: each line with a tag that is not core is deeper than a line before it.
* `ContinuationLine.scanLine_deeper`, `ContinuationLine.scanLine_outer`: one line.
* `silent_continuation_iff`: the lines show no tag just if they are enclosed.
* `findUnsupported?_foldedText`: so below a scalar that begins on the line of its key no tag is
  found, and below another one only a tag on a line that is not enclosed.
-/

namespace YamlDefs.Tag

open YamlDefs.Text

variable {r : Nat} {ls : List ContinuationLine}

/-! ## Lines of a plain scalar -/

/-- The tag `!!word`. -/
def Word.secondary (word : Word) : Mark :=
  .secondary word.text fun c hc => isBlank_of_isWordChar (word.isWordChar_of_mem c hc)

/-- A line with which a plain scalar goes on: words, or words behind a tag. -/
structure ContinuationLine where
  indent : Nat
  indented : 0 < indent
  tag? : Option Word
  first : Word
  more : List Word

/-- The words of a line. -/
def ContinuationLine.words (l : ContinuationLine) : Scalar := .plain l.first l.more

/-- What stands behind the indentation of a line. -/
def ContinuationLine.content (l : ContinuationLine) : List Char :=
  match l.tag? with
  | none => l.words.text
  | some tag => tag.secondary.text ++ ' ' :: l.words.text

def ContinuationLine.text (l : ContinuationLine) : List Char :=
  List.replicate l.indent ' ' ++ l.content

/-- The tag of a line, as written, if it is not core. -/
def ContinuationLine.foreign? (l : ContinuationLine) : Option (List Char) :=
  (l.tag?.map fun tag => tag.secondary.text).filter fun tag => !isCore tag

/-- Where a plain scalar begins: on the line of its key, or on a line of its own below it. -/
inductive Beginning where
  | onKeyLine
  | below (indent : Nat) (indented : 0 < indent)

/-- The indentation of the line on which a scalar begins. -/
def Beginning.indent : Beginning → Nat
  | onKeyLine => 0
  | below indent _ => indent

/-- The lines of an entry up to the first word of its scalar. -/
def Beginning.lines (key : Identifier) (first : Word) : Beginning → List (List Char)
  | onKeyLine => [BlockLine.text ⟨0, .key key, none, some (.plain first [])⟩]
  | below indent indented =>
    [BlockLine.text ⟨0, .key key, none, none⟩,
      ContinuationLine.text ⟨indent, indented, none, first, []⟩]

/-- A key in the first column with a plain scalar on several lines. -/
def foldedText (key : Identifier) (beginning : Beginning) (first : Word)
    (ls : List ContinuationLine) : List Char :=
  unlines (beginning.lines key first ++ ls.map ContinuationLine.text)

/-- Each line with a tag that is not core is deeper than a line before it, or than the given
indentation of the first line. -/
def Enclosed (indent : Nat) (ls : List ContinuationLine) : Prop :=
  ∀ before l after, ls = before ++ l :: after → l.foreign?.isSome →
    indent < l.indent ∨ ∃ e ∈ before, e.indent < l.indent

/-! ## One line -/

theorem ContinuationLine.isLine_text (l : ContinuationLine) : IsLine l.text := by
  have hcontent : IsLine l.content := by
    unfold ContinuationLine.content
    split
    · exact l.words.isLine_text
    · next tag _ =>
      exact tag.secondary.isLine_text.append ((isLine_spaces 1).append l.words.isLine_text)
  exact (isLine_spaces l.indent).append hcontent

theorem lines_foldedText (key : Identifier) (beginning : Beginning) (first : Word)
    (ls : List ContinuationLine) :
    Text.lines (foldedText key beginning first ls) =
      beginning.lines key first ++ ls.map ContinuationLine.text := by
  refine lines_unlines_of_isLine fun l hl => ?_
  rcases List.mem_append.mp hl with hl | hl
  · cases beginning with
    | onKeyLine =>
      obtain rfl := List.mem_singleton.mp hl
      exact BlockLine.isLine_text _
    | below indent indented =>
      rcases List.mem_cons.mp hl with rfl | hl
      · exact BlockLine.isLine_text _
      · obtain rfl := List.mem_singleton.mp hl
        exact ContinuationLine.isLine_text _
  · obtain ⟨line, -, rfl⟩ := List.mem_map.mp hl
    exact line.isLine_text

/-- Behind its indentation a line begins with a letter, a digit or an exclamation mark. -/
theorem ContinuationLine.exists_content_eq_cons (l : ContinuationLine) :
    ∃ c cs, l.content = c :: cs ∧ BeginsLine c ∧ c ≠ '#' := by
  unfold ContinuationLine.content
  split
  · obtain ⟨c, cs, htext, hc⟩ := l.first.exists_text_eq_cons
    refine ⟨c, cs ++ l.more.flatMap fun word => ' ' :: word.text, ?_, beginsLine_of_isWordChar hc,
      ne_of_isWordChar hc '#' rfl⟩
    rw [ContinuationLine.words, Scalar.text, htext, List.cons_append]
  · exact ⟨'!', _, rfl, by decide, by decide⟩

/-- A line that is deeper goes on with the scalar. -/
theorem ContinuationLine.scanLine_deeper (l : ContinuationLine) (h : r < l.indent) :
    scanLine ⟨none, 0, none, some r⟩ l.text = .ok ⟨none, 0, none, some r⟩ := by
  obtain ⟨c, cs, htext, hbegins, hsharp⟩ := l.exists_content_eq_cons
  have hplain : continuesPlain l.text r = true := by
    rw [ContinuationLine.text, htext, continuesPlain_replicate_eq hbegins.1]
    simp [h, hsharp]
  simp [scanLine, hplain]

/-- A line that is no deeper is scanned like the first line of a scalar: its tag is found if it is
not core, and otherwise the scalar hangs on it. -/
theorem ContinuationLine.scanLine_outer {plain : Option Nat} (l : ContinuationLine)
    (h : ∀ i ∈ plain, l.indent ≤ i) :
    scanLine ⟨none, 0, none, plain⟩ l.text =
      match l.foreign? with
      | some tag => .error tag
      | none => .ok ⟨none, 0, none, some l.indent⟩ := by
  obtain ⟨c, cs, htext, hbegins, -⟩ := l.exists_content_eq_cons
  have hline : ∀ d ∈ l.content.head?, BeginsLine d := by
    rw [htext]
    exact beginsLine_cons hbegins cs
  have hplain : plain.any (continuesPlain (List.replicate l.indent ' ' ++ l.content)) = false := by
    cases plain with
    | none => rfl
    | some i =>
      rw [htext]
      exact continuesPlain_replicate hbegins.1 (h i rfl)
  rw [ContinuationLine.text, scanLine_spaces rfl hline rfl hplain]
  unfold ContinuationLine.content ContinuationLine.foreign?
  cases l.tag? with
  | none => exact carry_scanFrom_scalar rfl rfl rfl l.indent l.words
  | some tag =>
    rw [scanFrom_mark_space rfl rfl tag.secondary (fun h => by cases h), Option.map_some]
    by_cases hcore : isCore tag.secondary.text = true
    · rw [if_pos hcore, Option.filter_some_neg (by simp [hcore])]
      exact carry_scanFrom_scalar rfl rfl rfl l.indent l.words
    · rw [if_neg hcore, Option.filter_some_pos (by simp [hcore])]
      rfl

/-! ## Lines one after another -/

theorem enclosed_nil (indent : Nat) : Enclosed indent [] := by
  intro before l after h
  simp at h

/-- Only the least indentation of the lines before it counts for a line. -/
theorem enclosed_cons_iff {l : ContinuationLine} :
    Enclosed r (l :: ls) ↔
      (l.foreign?.isSome → r < l.indent) ∧ Enclosed (min r l.indent) ls := by
  have hmin (n : Nat) : min r l.indent < n ↔ r < n ∨ l.indent < n := by omega
  refine ⟨fun h => ⟨fun hl => ?_, fun before m after hls hm => ?_⟩,
    fun ⟨hl, h⟩ before m after hls hm => ?_⟩
  · simpa using h [] l ls rfl hl
  · have hlater := h (l :: before) m after (by rw [hls, List.cons_append]) hm
    simpa [hmin, or_assoc] using hlater
  · cases before with
    | nil =>
      obtain ⟨rfl, -⟩ := List.cons.inj hls
      exact .inl (hl hm)
    | cons e before =>
      obtain ⟨rfl, rfl⟩ := List.cons.inj hls
      have hlater := h before m after rfl hm
      simpa [hmin, or_assoc] using hlater

/-- Behind a scalar that hangs on an indentation the lines show no tag just if they are enclosed. -/
theorem silent_continuation_iff :
    Silent ⟨none, 0, none, some r⟩ (ls.map ContinuationLine.text) ↔ Enclosed r ls := by
  -- the scalar hangs on the least indentation of its lines so far
  induction ls generalizing r with
  | nil => exact iff_of_true (silent_nil _) (enclosed_nil r)
  | cons l ls ih =>
    rw [List.map_cons, silent_cons_iff, enclosed_cons_iff]
    by_cases hdeeper : r < l.indent
    · have hmin : min r l.indent = r := Nat.min_eq_left (Nat.le_of_lt hdeeper)
      rw [l.scanLine_deeper hdeeper, hmin]
      simp [hdeeper, ih]
    · have hle : l.indent ≤ r := Nat.le_of_not_lt hdeeper
      rw [l.scanLine_outer (by simpa using hle), Nat.min_eq_right hle]
      cases l.foreign? with
      | none => simp [ih]
      | some tag => simp [hdeeper]

/-- No line is outside a scalar that begins on the line of its key. -/
theorem enclosed_zero (ls : List ContinuationLine) : Enclosed 0 ls :=
  fun _ l _ _ _ => .inl l.indented

/-- The first lines leave the indentation of the line with the first word. -/
theorem Beginning.foldlM_scanLine (key : Identifier) (beginning : Beginning) (first : Word) :
    (beginning.lines key first).foldlM scanLine .initial =
      .ok ⟨none, 0, none, some beginning.indent⟩ := by
  have hkey (scalar? : Option Scalar) :
      scanLine .initial (BlockLine.text ⟨0, .key key, none, scalar?⟩) =
        .ok ⟨none, 0, none, BlockLine.plainIndent ⟨0, .key key, none, scalar?⟩⟩ :=
    scanLine_text ⟨0, .key key, none, scalar?⟩ (by simp)
  cases beginning with
  | onKeyLine =>
    rw [Beginning.lines, List.foldlM_cons, hkey]
    rfl
  | below indent indented =>
    have hline : scanLine .initial (ContinuationLine.text ⟨indent, indented, none, first, []⟩) =
        .ok ⟨none, 0, none, some indent⟩ :=
      ContinuationLine.scanLine_outer _ (by simp)
    have hnone : (⟨none, 0, none, BlockLine.plainIndent ⟨0, .key key, none, none⟩⟩ : Carry) =
        .initial := rfl
    rw [Beginning.lines, List.foldlM_cons, hkey, hnone]
    exact congrArg (· >>= _) hline

/-- A plain scalar that begins on the line of its key shows no tag on the lines with which it goes
on. One that begins below its key shows none just if each of these lines with a tag that is not core
is deeper than the first line of the scalar or another line before it. -/
theorem findUnsupported?_foldedText (key : Identifier) (beginning : Beginning) (first : Word)
    (ls : List ContinuationLine) :
    (findUnsupported? (String.ofList (foldedText key beginning first ls)) = none ↔
      Enclosed beginning.indent ls) ∧
    findUnsupported? (String.ofList (foldedText key .onKeyLine first ls)) = none := by
  have hiff (beginning : Beginning) :
      findUnsupported? (String.ofList (foldedText key beginning first ls)) = none ↔
        Enclosed beginning.indent ls := by
    rw [findUnsupported?, String.toList_ofList, lines_foldedText,
      findOnLines?_append (beginning.foldlM_scanLine key first), findOnLines?_eq_none_iff,
      silent_continuation_iff]
  exact ⟨hiff beginning, (hiff .onKeyLine).mpr (enclosed_zero ls)⟩

/-- A tag is found inside a scalar that begins below its key, and not if it begins on the line of
its key, though both texts are read as the same string. -/
theorem findUnsupported?_foldedText_below :
    ∃ (first : Word) (ls : List ContinuationLine),
      foldedText ⟨"K", rfl⟩ .onKeyLine first ls = "K: a\n !!x b\n".toList ∧
      foldedText ⟨"K", rfl⟩ (.below 1 Nat.one_pos) first ls = "K:\n a\n !!x b\n".toList ∧
      (∀ beginning ∈ [Beginning.onKeyLine, .below 1 Nat.one_pos],
        (Yaml.read? (String.ofList (foldedText ⟨"K", rfl⟩ beginning first ls))).map
          (Yaml.Value.same (.mapping [(.string "K", .string "a !!x b")])) = some true) ∧
      findUnsupported? (String.ofList (foldedText ⟨"K", rfl⟩ .onKeyLine first ls)) = none ∧
      findUnsupported? (String.ofList (foldedText ⟨"K", rfl⟩ (.below 1 Nat.one_pos) first ls)) =
        some ⟨"!!x", 3⟩ := by
  let a : Word := ⟨['a'], List.cons_ne_nil _ _, List.forall_mem_singleton.mpr rfl⟩
  let b : Word := ⟨['b'], List.cons_ne_nil _ _, List.forall_mem_singleton.mpr rfl⟩
  let x : Word := ⟨['x'], List.cons_ne_nil _ _, List.forall_mem_singleton.mpr rfl⟩
  refine ⟨a, [⟨1, Nat.one_pos, some x, b, []⟩], rfl, rfl, ?_, ?_, ?_⟩
  · rw [List.forall_mem_cons, List.forall_mem_singleton]
    exact ⟨by decide +kernel, by decide +kernel⟩
  · decide +kernel
  · decide +kernel

end YamlDefs.Tag

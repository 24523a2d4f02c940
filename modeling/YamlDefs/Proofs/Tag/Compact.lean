import YamlDefs.Proofs.Tag.BlockScan
import YamlDefs.Yaml.Read

/-!
# Compact block documents

A collection that is an item of a sequence may begin on the line of the item's dash. Its other lines
are then deeper than this line, and if it ends with a plain scalar the scan takes them for more of
the scalar: it does not see the marks that they carry.

* `CompactLine`: a line of such a document; `CompactLine.covered`: it is deeper than a dash line
  above it that ends with a plain scalar.
* `Block.compactLines`, `Block.compactText`: the lines of a tree and the text of the whole document.
* `CompactLine.scanLine_text`, `CompactLine.scanLine_deeper`: a line ends the scan with its mark or
  is passed over, and a deeper one goes on with the plain scalar before it.
* `Covering`: only covered lines go on with a plain scalar; `Block.covering_compactLines`: the lines
  of a tree are such lines.
* `Block.findUnsupported?_compactText`: the scan finds the first mark that is not core on a line
  that is not covered, and so the mark of the expanded document if none before it is covered.
-/

namespace YamlDefs.Tag

open YamlDefs.Text

variable {p : Place} {indent : Nat} {rest : List CompactLine}

/-! ## Trees and their lines -/

/-- A line of a compact document. -/
structure CompactLine extends BlockLine where
  /-- How many dashes stand in front of the key or dash of the value. -/
  dashes : Nat
  /-- Whether the line is deeper than a dash line above it that ends with a plain scalar. -/
  covered : Bool

/-- Dashes, each with a space behind it. -/
def dashesText (n : Nat) : List Char := (List.replicate n ['-', ' ']).flatten

def CompactLine.text (l : CompactLine) : List Char :=
  List.replicate l.indent ' ' ++ (dashesText l.dashes ++ (l.marker.text ++ l.tail))

/-- The line as the scan sees it: without its mark if it is covered. -/
def CompactLine.seen (l : CompactLine) : BlockLine :=
  if l.covered then { l.toBlockLine with mark? := none } else l.toBlockLine

/-- A line below a dash line that ends with a plain scalar. -/
def CompactLine.cover (l : CompactLine) : CompactLine := { l with covered := true }

/-- The lines of an item of a sequence, from the lines of its value: a collection without a mark
begins behind the dash. -/
def onDash (indent : Nat) (mark? : Option Mark) (value : Block) :
    List CompactLine → List CompactLine
  | [] => [⟨⟨indent, .dash, mark?, value.scalar?⟩, 0, false⟩]
  | l :: ls =>
    match mark? with
    | some mark => ⟨⟨indent, .dash, some mark, none⟩, 0, false⟩ :: l :: ls
    | none =>
      { l with indent, dashes := l.dashes + 1 } ::
        if l.plainIndent.isSome then ls.map CompactLine.cover else ls

mutual

/-- The lines of a collection with the given indentation. A scalar has none of its own. -/
def Block.compactLines (indent : Nat) : Block → List CompactLine
  | .scalar _ => []
  | .mapping entries => compactEntryLines indent entries
  | .sequence items => compactItemLines indent items

/-- The lines of the entries of a mapping. -/
def compactEntryLines (indent : Nat) : List (Identifier × Option Mark × Block) → List CompactLine
  | [] => []
  | (key, mark?, value) :: entries =>
    ⟨⟨indent, .key key, mark?, value.scalar?⟩, 0, false⟩ :: value.compactLines (indent + 2)
      ++ compactEntryLines indent entries

/-- The lines of the items of a sequence. -/
def compactItemLines (indent : Nat) : List (Option Mark × Block) → List CompactLine
  | [] => []
  | (mark?, value) :: items =>
    onDash indent mark? value (value.compactLines (indent + 2)) ++ compactItemLines indent items

end

/-- The compact document of a tree. -/
def Block.compactText (root : Block) : List Char :=
  unlines ((root.compactLines 0).map CompactLine.text)

/-! ## Single lines -/

theorem dashesText_succ (n : Nat) : dashesText (n + 1) = '-' :: ' ' :: dashesText n := rfl

theorem CompactLine.isLine_text (l : CompactLine) : IsLine l.text := by
  have hdashes (n : Nat) : IsLine (dashesText n) := by
    induction n with
    | zero => exact ⟨by simp [dashesText], by simp [dashesText]⟩
    | succ n ih => exact IsLine.append (l := ['-', ' ']) ⟨by decide, by decide⟩ ih
  have hline : IsLine (l.marker.text ++ l.tail) :=
    BlockLine.isLine_text { l.toBlockLine with indent := 0 }
  exact (isLine_spaces l.indent).append ((hdashes l.dashes).append hline)

/-- Behind its indentation a line begins with a dash or with the first letter of a key. -/
theorem CompactLine.exists_text_eq (l : CompactLine) :
    ∃ c cs, l.text = List.replicate l.indent ' ' ++ c :: cs ∧ isBlank c = false ∧ c ≠ '#' := by
  unfold CompactLine.text
  cases l.dashes with
  | succ n => exact ⟨'-', _, rfl, by decide, by decide⟩
  | zero =>
    cases l.marker with
    | dash => exact ⟨'-', _, rfl, by decide, by decide⟩
    | key name =>
      obtain ⟨c, cs, hname, hword⟩ := exists_toList_eq_cons name
      have hc := hword c (List.mem_cons_self ..)
      refine ⟨c, cs ++ ([':'] ++ l.tail), ?_, isBlank_of_isWordChar hc, ne_of_isWordChar hc '#' rfl⟩
      simp [dashesText, Marker.text, hname]

theorem CompactLine.isDirective_text (l : CompactLine) : isDirective l.text = false := by
  cases hdashes : l.dashes with
  | zero =>
    have htext : l.text = l.toBlockLine.text := by
      simp [CompactLine.text, BlockLine.text, hdashes, dashesText]
    rw [htext]
    exact l.toBlockLine.isDirective_text
  | succ n =>
    obtain ⟨more, hmore⟩ : ∃ more, l.text = List.replicate l.indent ' ' ++ '-' :: ' ' :: more :=
      ⟨dashesText n ++ (l.marker.text ++ l.tail), by
        simp [CompactLine.text, hdashes, dashesText_succ]⟩
    have htrim : trim l.text = '-' :: trimEnd (' ' :: more) := by
      rw [hmore, trim_replicate (by decide)]
    have hdocument : trimEnd (' ' :: more) ≠ ['-', '-'] := by
      intro h
      obtain ⟨back, hback⟩ := trimEnd_prefix (' ' :: more)
      rw [h] at hback
      cases hback
    simp [isDirective, htrim, hdocument]

/-- Behind the last dash or the key of a line a node may begin. -/
theorem scanFrom_dashesText (hq : p.quote = none) (n : Nat) (marker : Marker) {tail : List Char}
    (htail : ∀ c ∈ tail.head?, isBlank c = true) :
    scanFrom p (dashesText n ++ (marker.text ++ tail)) =
      scanFrom { p with expectNode := true, inPlain := false, afterBlank := false } tail := by
  induction n generalizing p with
  | zero => exact scanFrom_marker hq htail marker
  | succ n ih =>
    rw [dashesText_succ, List.cons_append, List.cons_append,
      scanFrom_indicator_space hq (.inr (.inl rfl)), ih (by exact hq)]

theorem CompactLine.indentation_text (l : CompactLine) : indentation l.text = l.indent := by
  obtain ⟨c, cs, htext, hblank, -⟩ := l.exists_text_eq
  rw [htext, indentation_replicate]
  rintro rfl
  cases hblank

/-- A line that is no deeper than the plain scalar before it ends the scan with its mark, or leaves
the indentation of its own plain scalar. -/
theorem CompactLine.scanLine_text {plain : Option Nat} (l : CompactLine)
    (h : ∀ i ∈ plain, l.indent ≤ i) :
    scanLine ⟨none, 0, none, plain⟩ l.text =
      match l.foreign? with
      | some tag => .error tag
      | none => .ok ⟨none, 0, none, l.plainIndent⟩ := by
  have hplain : plain.any (continuesPlain l.text) = false := by
    obtain ⟨c, cs, htext, hblank, -⟩ := l.exists_text_eq
    cases plain with
    | none => rfl
    | some i => rw [htext]; exact continuesPlain_replicate hblank (h i rfl)
  have hscan : scanLine ⟨none, 0, none, plain⟩ l.text =
      (scanFrom (.start ⟨none, 0, none, plain⟩) l.text).carry l.indent := by
    simp [scanLine, hplain, scanContent, l.isDirective_text, l.indentation_text]
  rw [hscan, CompactLine.text, scanFrom_spaces rfl rfl, scanFrom_dashesText rfl _ _ l.tail_head?]
  exact scanFrom_tail rfl rfl rfl rfl l.toBlockLine

/-- A deeper line goes on with the plain scalar before it. -/
theorem CompactLine.scanLine_deeper {plain : Nat} (l : CompactLine) (h : plain < l.indent) :
    scanLine ⟨none, 0, none, some plain⟩ l.text = .ok ⟨none, 0, none, some plain⟩ := by
  obtain ⟨c, cs, htext, hblank, hcomment⟩ := l.exists_text_eq
  have htrim : trim l.text = c :: trimEnd cs := by
    rw [htext, trim_replicate hblank]
  simp [scanLine, continuesPlain, htrim, l.indentation_text, h, hcomment]

/-! ## Lines one after another -/

/-- Just the covered lines are deeper than the plain scalar before them. -/
def Covering (plain : Option Nat) : List CompactLine → Prop
  | [] => True
  | l :: ls =>
    if l.covered then (∃ i ∈ plain, i < l.indent) ∧ Covering plain ls
    else (∀ i ∈ plain, l.indent ≤ i) ∧ Covering l.plainIndent ls

theorem covering_cons_iff {plain : Option Nat} {l : CompactLine} (h : l.covered = false) :
    Covering plain (l :: rest) ↔ (∀ i ∈ plain, l.indent ≤ i) ∧ Covering l.plainIndent rest := by
  simp [Covering, h]

/-- On such lines the first mark is found that is not core and not covered. -/
theorem findOnLines?_of_covering {plain : Option Nat} {ls : List CompactLine}
    (h : Covering plain ls) (number : Nat) :
    findOnLines? ⟨none, 0, none, plain⟩ number (ls.map CompactLine.text) =
      firstForeign? number (ls.map CompactLine.seen) := by
  induction ls generalizing plain number with
  | nil => rfl
  | cons l ls ih =>
    rw [List.map_cons, List.map_cons, findOnLines?, firstForeign?_cons]
    unfold Covering at h
    split at h
    · next hcovered =>
      obtain ⟨⟨i, hi, hdeeper⟩, hls⟩ := h
      obtain rfl : plain = some i := hi
      have hseen : l.seen.foreign? = none := by
        simp [CompactLine.seen, hcovered, BlockLine.foreign?]
      rw [l.scanLine_deeper hdeeper, hseen]
      exact ih hls (number + 1)
    · next hcovered =>
      obtain ⟨hl, hls⟩ := h
      have hseen : l.seen = l.toBlockLine := by
        simp [CompactLine.seen, hcovered]
      rw [l.scanLine_text hl, hseen]
      cases l.foreign? with
      | none => exact ih hls (number + 1)
      | some tag => rfl

/-- The lines may follow any plain scalar that is no less deep than an indentation. -/
def Uncovered (indent : Nat) (ls : List CompactLine) : Prop :=
  ∀ plain : Option Nat, (∀ i ∈ plain, indent ≤ i) → Covering plain ls

theorem Uncovered.deeper {deeper : Nat} (h : Uncovered indent rest) (hle : indent ≤ deeper) :
    Uncovered deeper rest := by
  intro plain hplain
  exact h plain fun i hi => Nat.le_trans hle (hplain i hi)

/-- The first of such lines is not covered. -/
theorem Uncovered.head {l : CompactLine} (h : Uncovered indent (l :: rest)) :
    l.covered = false ∧ Covering l.plainIndent rest := by
  have hnone := h none (by simp)
  unfold Covering at hnone
  split at hnone
  · obtain ⟨⟨i, hi, -⟩, -⟩ := hnone
    cases hi
  · next hcovered => exact ⟨by simpa using hcovered, hnone.2⟩

/-- A line leaves its own indentation or none. -/
theorem BlockLine.plainIndent_at (l : BlockLine) (n : Nat) :
    { l with indent := n }.plainIndent = l.plainIndent.map fun _ => n := by
  cases hscalar : l.scalar? with
  | none => simp [BlockLine.plainIndent, hscalar]
  | some value => cases value <;> simp [BlockLine.plainIndent, Scalar.plainIndent, hscalar]

theorem BlockLine.eq_indent_of_plainIndent (l : BlockLine) : ∀ i ∈ l.plainIndent, i = l.indent := by
  intro i hi
  rw [l.plainIndent_at l.indent] at hi
  obtain ⟨-, -, rfl⟩ := Option.map_eq_some_iff.mp hi
  rfl

/-- Deeper lines that are covered may stand below a plain scalar. -/
theorem covering_map_cover {i : Nat} {ls : List CompactLine} (hls : ∀ l ∈ ls, i < l.indent)
    (hrest : Covering (some i) rest) : Covering (some i) (ls.map CompactLine.cover ++ rest) := by
  induction ls with
  | nil => exact hrest
  | cons l ls ih =>
    obtain ⟨hl, hmore⟩ := List.forall_mem_cons.mp hls
    exact ⟨⟨i, rfl, hl⟩, ih hmore⟩

/-- The lines of an item come before lines that may follow it. -/
theorem Uncovered.onDash {ls : List CompactLine} (hrest : Uncovered indent rest)
    (hvalue : Uncovered (indent + 2) (ls ++ rest)) (hls : ∀ l ∈ ls, indent < l.indent)
    (mark? : Option Mark) (value : Block) :
    Uncovered indent (Tag.onDash indent mark? value ls ++ rest) := by
  intro plain hplain
  cases ls with
  | nil =>
    refine ⟨hplain, hrest _ fun i hi => ?_⟩
    exact Nat.le_of_eq (BlockLine.eq_indent_of_plainIndent _ i hi).symm
  | cons l ls =>
    cases mark? with
    | some mark => exact ⟨hplain, hvalue none (by simp)⟩
    | none =>
      obtain ⟨hcovered, hmore⟩ := hvalue.head
      have hleft (n : Nat) : { l with indent, dashes := n }.plainIndent =
          l.plainIndent.map fun _ => indent := l.plainIndent_at indent
      rw [Tag.onDash, List.cons_append, covering_cons_iff (by exact hcovered), hleft]
      refine ⟨hplain, ?_⟩
      cases hl : l.plainIndent with
      | none =>
        rw [hl] at hmore
        exact hmore
      | some i =>
        -- the dash line leaves its own indentation, and the lines below it are deeper
        refine covering_map_cover (fun m hm => hls m (List.mem_cons_of_mem l hm)) (hrest _ ?_)
        simp

theorem le_indent_of_mem_onDash {ls : List CompactLine} (hls : ∀ l ∈ ls, indent ≤ l.indent)
    (mark? : Option Mark) (value : Block) :
    ∀ l ∈ onDash indent mark? value ls, indent ≤ l.indent := by
  intro l hl
  cases ls with
  | nil =>
    obtain rfl := List.mem_singleton.mp hl
    exact Nat.le_refl _
  | cons m ls =>
    cases mark? with
    | some mark =>
      rcases List.mem_cons.mp hl with rfl | hl
      · exact Nat.le_refl _
      · exact hls l hl
    | none =>
      rcases List.mem_cons.mp hl with rfl | hl
      · exact Nat.le_refl _
      · split at hl
        · obtain ⟨m', hm', rfl⟩ := List.mem_map.mp hl
          exact hls m' (List.mem_cons_of_mem m hm')
        · exact hls l (List.mem_cons_of_mem m hl)

mutual

theorem Block.le_indent_of_mem_compactLines {indent : Nat} :
    (value : Block) → ∀ l ∈ value.compactLines indent, indent ≤ l.indent
  | .scalar _ => fun _ hl => by cases hl
  | .mapping entries => le_indent_of_mem_compactEntryLines entries
  | .sequence items => le_indent_of_mem_compactItemLines items

theorem le_indent_of_mem_compactEntryLines {indent : Nat} :
    (entries : List (Identifier × Option Mark × Block)) →
      ∀ l ∈ compactEntryLines indent entries, indent ≤ l.indent
  | [] => fun _ hl => by cases hl
  | (key, mark?, value) :: entries => by
    intro l hl
    rw [compactEntryLines, List.cons_append, List.mem_cons, List.mem_append] at hl
    rcases hl with rfl | hl | hl
    · exact Nat.le_refl _
    · have := value.le_indent_of_mem_compactLines l hl
      omega
    · exact le_indent_of_mem_compactEntryLines entries l hl

theorem le_indent_of_mem_compactItemLines {indent : Nat} :
    (items : List (Option Mark × Block)) →
      ∀ l ∈ compactItemLines indent items, indent ≤ l.indent
  | [] => fun _ hl => by cases hl
  | (mark?, value) :: items => by
    intro l hl
    rw [compactItemLines, List.mem_append] at hl
    rcases hl with hl | hl
    · refine le_indent_of_mem_onDash (fun m hm => ?_) mark? value l hl
      have := value.le_indent_of_mem_compactLines m hm
      omega
    · exact le_indent_of_mem_compactItemLines items l hl

end

mutual

theorem Block.uncovered_compactLines {indent : Nat} {rest : List CompactLine}
    (hrest : Uncovered indent rest) :
    (value : Block) → Uncovered indent (value.compactLines indent ++ rest)
  | .scalar _ => hrest
  | .mapping entries => uncovered_compactEntryLines hrest entries
  | .sequence items => uncovered_compactItemLines hrest items

theorem uncovered_compactEntryLines {indent : Nat} {rest : List CompactLine}
    (hrest : Uncovered indent rest) :
    (entries : List (Identifier × Option Mark × Block)) →
      Uncovered indent (compactEntryLines indent entries ++ rest)
  | [] => hrest
  | (key, mark?, value) :: entries => by
    have hmore := uncovered_compactEntryLines hrest entries
    have hvalue := value.uncovered_compactLines (hmore.deeper (Nat.le_add_right indent 2))
    intro plain hplain
    rw [compactEntryLines, List.append_assoc, List.cons_append, covering_cons_iff rfl]
    refine ⟨hplain, ?_⟩
    -- only a scalar leaves an indentation, and it has no lines that would be deeper
    cases value with
    | scalar value =>
      refine hmore _ fun i hi => ?_
      exact Nat.le_of_eq (BlockLine.eq_indent_of_plainIndent _ i hi).symm
    | mapping entries => exact hvalue none (by simp)
    | sequence items => exact hvalue none (by simp)

theorem uncovered_compactItemLines {indent : Nat} {rest : List CompactLine}
    (hrest : Uncovered indent rest) :
    (items : List (Option Mark × Block)) →
      Uncovered indent (compactItemLines indent items ++ rest)
  | [] => hrest
  | (mark?, value) :: items => by
    have hmore := uncovered_compactItemLines hrest items
    have hvalue := value.uncovered_compactLines (hmore.deeper (Nat.le_add_right indent 2))
    rw [compactItemLines, List.append_assoc]
    refine hmore.onDash hvalue (fun l hl => ?_) mark? value
    have := value.le_indent_of_mem_compactLines l hl
    omega

end

/-- Just the covered lines of a tree are deeper than the plain scalar before them. -/
theorem Block.covering_compactLines (root : Block) (indent : Nat) :
    Covering none (root.compactLines indent) := by
  have hnil : Uncovered indent [] := fun _ _ => trivial
  have h := root.uncovered_compactLines hnil none (by simp)
  rwa [List.append_nil] at h

/-! ## The same marks in both styles -/

/-- The marks of some lines that are not core, in their order. -/
def foreignMarks (ls : List BlockLine) : List (List Char) := ls.filterMap BlockLine.foreign?

/-- An item has the same marks, wherever its value begins. -/
theorem foreignMarks_onDash (indent : Nat) (mark? : Option Mark) (value : Block)
    (ls : List CompactLine) :
    foreignMarks ((onDash indent mark? value ls).map CompactLine.toBlockLine) =
      foreignMarks (⟨indent, .dash, mark?, value.scalar?⟩ ::
        ls.map CompactLine.toBlockLine) := by
  cases ls with
  | nil => rfl
  | cons l ls =>
    cases mark? with
    | some mark => rfl
    | none =>
      have hcover : (ls.map CompactLine.cover).map CompactLine.toBlockLine =
          ls.map CompactLine.toBlockLine := by
        simp [CompactLine.cover]
      simp only [onDash]
      split
      · rw [List.map_cons, hcover]
        rfl
      · rfl

theorem foreignMarks_append (ls ms : List BlockLine) :
    foreignMarks (ls ++ ms) = foreignMarks ls ++ foreignMarks ms := List.filterMap_append

/-- The line of a key or dash, and lines with the same marks below it. -/
theorem foreignMarks_cons_congr (l : BlockLine) {ls ms : List BlockLine}
    (h : foreignMarks ls = foreignMarks ms) : foreignMarks (l :: ls) = foreignMarks (l :: ms) := by
  rw [← List.singleton_append, foreignMarks_append, h, ← foreignMarks_append, List.singleton_append]

mutual

theorem Block.foreignMarks_compactLines (indent : Nat) :
    (value : Block) → foreignMarks ((value.compactLines indent).map CompactLine.toBlockLine) =
      foreignMarks (value.lines indent)
  | .scalar _ => rfl
  | .mapping entries => foreignMarks_compactEntryLines indent entries
  | .sequence items => foreignMarks_compactItemLines indent items

theorem foreignMarks_compactEntryLines (indent : Nat) :
    (entries : List (Identifier × Option Mark × Block)) →
      foreignMarks ((compactEntryLines indent entries).map CompactLine.toBlockLine) =
        foreignMarks (entryLines indent entries)
  | [] => rfl
  | (key, mark?, value) :: entries => by
    have hvalue := value.foreignMarks_compactLines (indent + 2)
    rw [compactEntryLines, entryLines, List.map_append, foreignMarks_append, foreignMarks_append,
      foreignMarks_compactEntryLines indent entries]
    exact congrArg (· ++ _) (foreignMarks_cons_congr _ hvalue)

theorem foreignMarks_compactItemLines (indent : Nat) :
    (items : List (Option Mark × Block)) →
      foreignMarks ((compactItemLines indent items).map CompactLine.toBlockLine) =
        foreignMarks (itemLines indent items)
  | [] => rfl
  | (mark?, value) :: items => by
    have hvalue := value.foreignMarks_compactLines (indent + 2)
    rw [compactItemLines, itemLines, List.map_append, foreignMarks_append, foreignMarks_append,
      foreignMarks_compactItemLines indent items, foreignMarks_onDash]
    exact congrArg (· ++ _) (foreignMarks_cons_congr _ hvalue)

end

theorem map_tag_firstForeign? (number : Nat) (ls : List BlockLine) :
    (firstForeign? number ls).map Found.tag = (foreignMarks ls).head?.map String.ofList := by
  induction ls generalizing number with
  | nil => rfl
  | cons l ls ih =>
    rw [firstForeign?_cons, foreignMarks, List.filterMap_cons]
    cases l.foreign? with
    | none => exact ih (number + 1)
    | some tag => rfl

/-! ## The whole document -/

/-- The scan of a compact document finds the first mark that is not core on a line that is not
covered. It is the mark that the scan of the expanded document finds just if it is the first of all
the marks that are not core. -/
theorem Block.findUnsupported?_compactText (root : Block) :
    findUnsupported? (String.ofList root.compactText) =
      Tag.firstForeign? 1 ((root.compactLines 0).map CompactLine.seen) ∧
    ((findUnsupported? (String.ofList root.compactText)).map Found.tag =
        (findUnsupported? (String.ofList root.text)).map Found.tag ↔
      (foreignMarks ((root.compactLines 0).map CompactLine.seen)).head? =
        (foreignMarks ((root.compactLines 0).map CompactLine.toBlockLine)).head?) := by
  have hlines : Text.lines root.compactText = (root.compactLines 0).map CompactLine.text := by
    refine lines_unlines_of_isLine fun l hl => ?_
    obtain ⟨line, -, rfl⟩ := List.mem_map.mp hl
    exact line.isLine_text
  have hcompact : findUnsupported? (String.ofList root.compactText) =
      Tag.firstForeign? 1 ((root.compactLines 0).map CompactLine.seen) := by
    rw [findUnsupported?, String.toList_ofList, hlines]
    exact findOnLines?_of_covering (root.covering_compactLines 0) 1
  have hexpanded : findUnsupported? (String.ofList root.text) =
      Tag.firstForeign? 1 (root.lines 0) := by
    rw [findUnsupported?, String.toList_ofList, root.lines_text]
    exact findOnLines?_of_stepped (root.stepped_lines 0) 1
  refine ⟨hcompact, ?_⟩
  rw [hcompact, hexpanded, map_tag_firstForeign?, map_tag_firstForeign?,
    root.foreignMarks_compactLines 0]
  exact (Option.map_injective fun a b h => String.ofList_injective h).eq_iff

/-- A tag on the line of an item is missed if the first item of the same collection is a plain
scalar on a dash line. -/
theorem Block.findUnsupported?_compactText_sibling :
    ∃ root : Block, root.text = "-\n  - a\n  - !!x b\n".toList ∧
      root.compactText = "- - a\n  - !!x b\n".toList ∧
      ((Yaml.read? (String.ofList root.text)).bind fun value =>
        (Yaml.read? (String.ofList root.compactText)).map value.same) = some true ∧
      findUnsupported? (String.ofList root.text) = some ⟨"!!x", 3⟩ ∧
      findUnsupported? (String.ofList root.compactText) = none := by
  let a : Word := ⟨['a'], List.cons_ne_nil _ _, List.forall_mem_singleton.mpr rfl⟩
  let b : Word := ⟨['b'], List.cons_ne_nil _ _, List.forall_mem_singleton.mpr rfl⟩
  let x : Mark := .secondary ['x'] (List.forall_mem_singleton.mpr (by decide))
  refine ⟨.sequence [(none, .sequence [(none, .scalar (.plain a [])),
    (some x, .scalar (.plain b []))])], rfl, rfl, ?_, ?_, ?_⟩
  · decide +kernel
  · decide +kernel
  · decide +kernel

end YamlDefs.Tag

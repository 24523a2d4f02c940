import YamlDefs.Compile
import YamlDefs.Proofs.Tag.Block

/-!
# The scan of a block document

The scan keeps no tree, only what a line leaves for the next one. In a block document this is at
most the indentation of a plain scalar, and the line after it is never deeper, so that each line is
scanned from the same place and its mark is seen.

* `scanFrom_mark`, `scanFrom_mark_space`, `scanFrom_scalar`, `scanFrom_marker`: the parts of a line,
  where a mark is one token (`Mark.token_text`).
* `scanLine_text`: a line of a document ends the scan with its mark or is passed over.
* `Stepped`: no line goes on with the plain scalar before it; `Block.stepped_lines`: the lines of a
  tree are stepped.
* `findOnLines?_of_stepped`: on stepped lines the first mark that is not core is found.
* `Block.findUnsupported?_text`: so it is in the document of a tree, which is rejected for it.
-/

namespace YamlDefs.Tag

open YamlDefs.Text

variable {p : Place} {rest : List Char}

/-! ## Parts of a line -/

/-- A mark before a blank or the end of the line is one token, if no flow mark cuts it off. -/
theorem Mark.token_text (mark : Mark) {inFlow : Bool} (hflow : inFlow = true → mark.Unbroken)
    (hrest : ∀ c ∈ rest.head?, isBlank c = true) :
    ∃ tail, mark.text = '!' :: tail ∧ token inFlow (tail ++ rest) = (tail, rest) := by
  have hstop : ∀ c ∈ rest.head?, isTokenChar inFlow c = false := by
    intro c hc
    simp [isTokenChar, hrest c hc]
  have hsolid {name : List Char} (hblank : ∀ c ∈ name, isBlank c = false)
      (hmark : inFlow = true → ∀ c ∈ name, isFlowMark c = false) :
      ∀ c ∈ name, isTokenChar inFlow c = true := by
    intro c hc
    cases hin : inFlow with
    | false => simp [isTokenChar, hblank c hc]
    | true => simp [isTokenChar, hblank c hc, hmark hin c hc]
  cases mark with
  | secondary name solid =>
    refine ⟨'!' :: name, rfl, token_name ?_ hstop ?_⟩
    · refine List.forall_mem_cons.mpr ⟨?_, hsolid solid hflow⟩
      cases inFlow <;> decide
    · intro c hc
      obtain rfl : '!' = c := by simpa using hc
      decide
  | verbatim uri enclosed oneLine =>
    refine ⟨'<' :: (uri ++ ['>']), rfl, ?_⟩
    have happ : '<' :: (uri ++ ['>']) ++ rest = '<' :: (uri ++ '>' :: rest) := by simp
    rw [happ]
    exact token_verbatim inFlow enclosed
  | primary name solid own =>
    refine ⟨name, rfl, token_name (hsolid solid hflow) hstop fun c hc => ?_⟩
    cases name with
    | nil =>
      rintro rfl
      exact absurd (hrest '<' hc) (by decide)
    | cons d name =>
      obtain rfl : d = c := by simpa using hc
      exact (own d rfl).2

/-- Where a node may begin, a mark is found if it is not core, and passed over if it is. -/
theorem scanFrom_mark (hq : p.quote = none) (he : p.expectNode = true) (mark : Mark)
    (hflow : 0 < p.flowDepth → mark.Unbroken) (hrest : ∀ c ∈ rest.head?, isBlank c = true) :
    scanFrom p (mark.text ++ rest) =
      if isCore mark.text then scanFrom { p with afterBlank := false } rest
      else .found mark.text := by
  obtain ⟨tail, htext, htoken⟩ :=
    mark.token_text (fun hin => hflow (of_decide_eq_true hin)) hrest
  rw [htext, List.cons_append]
  exact scanFrom_tag hq he htoken

/-- A mark with a space behind it. -/
theorem scanFrom_mark_space (hq : p.quote = none) (he : p.expectNode = true) (mark : Mark)
    (hflow : 0 < p.flowDepth → mark.Unbroken) :
    scanFrom p (mark.text ++ ' ' :: rest) =
      if isCore mark.text then scanFrom { p with afterBlank := true } rest
      else .found mark.text := by
  have hspace : isBlank ' ' = true := by decide
  rw [scanFrom_mark hq he mark hflow (by simpa using hspace), scanFrom_blank (by exact hq) hspace]

/-- What a scalar on a line with the given indentation leaves for the next line. -/
def Scalar.plainIndent (indent : Nat) : Scalar → Option Nat
  | plain .. => some indent
  | quoted .. => none

def Scalar.isPlain : Scalar → Bool
  | plain .. => true
  | quoted .. => false

/-- Further words of a plain text leave the scan where its first word does. -/
theorem scanFrom_more (hq : p.quote = none) (he : p.expectNode = false) (hb : p.afterBlank = false)
    (more : List Word) :
    scanFrom p ((more.flatMap fun word => ' ' :: word.text) ++ rest) = scanFrom p rest := by
  obtain ⟨quote, depth, expectNode, inPlain, afterBlank⟩ := p
  obtain rfl : expectNode = false := he
  obtain rfl : afterBlank = false := hb
  induction more with
  | nil => rfl
  | cons word more ih =>
    rw [List.flatMap_cons, List.append_assoc, List.cons_append, scanFrom_blank hq (by decide),
      scanFrom_word (by exact hq) word.ne_nil word.isWordChar_of_mem]
    exact ih

/-- The moves over a scalar where a node may begin: only a plain one goes on behind the line, and
only in a block. -/
theorem scanFrom_scalar (hq : p.quote = none) (he : p.expectNode = true) (value : Scalar) :
    scanFrom p (value.text ++ rest) = scanFrom
      { p with
        expectNode := false, afterBlank := false,
        inPlain := value.isPlain && p.flowDepth = 0 } rest := by
  cases value with
  | plain first more =>
    rw [Scalar.text, List.append_assoc, scanFrom_word hq first.ne_nil first.isWordChar_of_mem,
      scanFrom_more (by exact hq) rfl rfl]
    simp [he, Scalar.isPlain]
  | quoted content oneLine =>
    rw [Scalar.text, List.cons_append, List.append_assoc, List.singleton_append,
      scanFrom_quoted hq he]
    rfl

/-- A scalar to the end of a line leaves its indentation if it is plain, and nothing if it is
quoted. -/
theorem carry_scanFrom_scalar (hq : p.quote = none) (he : p.expectNode = true)
    (hd : p.flowDepth = 0) (indent : Nat) (value : Scalar) :
    (scanFrom p value.text).carry indent = .ok ⟨none, 0, none, value.plainIndent indent⟩ := by
  rw [← List.append_nil value.text, scanFrom_scalar hq he, scanFrom_nil]
  cases value <;> simp [LineEnd.carry, Scalar.plainIndent, Scalar.isPlain, hq, hd]

theorem spaced_head? (cs : Option (List Char)) : ∀ c ∈ (spaced cs).head?, isBlank c = true := by
  intro c hc
  cases cs with
  | none => cases hc
  | some cs =>
    obtain rfl : ' ' = c := by simpa [spaced] using hc
    decide

theorem BlockLine.tail_head? (l : BlockLine) : ∀ c ∈ l.tail.head?, isBlank c = true := by
  intro c hc
  unfold BlockLine.tail at hc
  cases hm : l.mark? with
  | none =>
    rw [hm] at hc
    exact spaced_head? _ c hc
  | some mark =>
    obtain rfl : ' ' = c := by simpa [hm, spaced] using hc
    decide

/-- The key or dash of a line: a node may follow it. -/
theorem scanFrom_marker (hq : p.quote = none) (hrest : ∀ c ∈ rest.head?, isBlank c = true)
    (marker : Marker) :
    scanFrom p (marker.text ++ rest) =
      scanFrom { p with expectNode := true, inPlain := false, afterBlank := false } rest := by
  cases marker with
  | key name =>
    obtain ⟨c, cs, hname, hword⟩ := exists_toList_eq_cons name
    rw [Marker.text, List.append_assoc, hname,
      scanFrom_word hq (List.cons_ne_nil c cs) hword, List.singleton_append,
      scanFrom_indicator (by exact hq) (.inl rfl) hrest]
  | dash =>
    rw [Marker.text, List.singleton_append, scanFrom_indicator hq (.inr (.inl rfl)) hrest]

/-! ## Whole lines -/

/-- What a line leaves for the next one. -/
def BlockLine.plainIndent (l : BlockLine) : Option Nat :=
  l.scalar?.bind (Scalar.plainIndent l.indent)

/-- The end of a line, from its scalar on, leaves what the line leaves. -/
theorem scanFrom_spaced_scalar (hq : p.quote = none) (he : p.expectNode = true)
    (hd : p.flowDepth = 0) (hp : p.inPlain = false) (l : BlockLine) :
    (scanFrom p (spaced (l.scalar?.map Scalar.text))).carry l.indent =
      .ok ⟨none, 0, none, l.plainIndent⟩ := by
  unfold BlockLine.plainIndent
  cases l.scalar? with
  | none => simp [spaced, scanFrom_nil, LineEnd.carry, hq, hd, hp]
  | some value =>
    rw [Option.map_some, spaced, scanFrom_blank hq (by decide),
      carry_scanFrom_scalar (by exact hq) (by exact he) (by exact hd)]
    rfl

/-- Behind a key or dash, a line ends the scan with its mark or is passed over. -/
theorem scanFrom_tail (hq : p.quote = none) (he : p.expectNode = true) (hd : p.flowDepth = 0)
    (hp : p.inPlain = false) (l : BlockLine) :
    (scanFrom p l.tail).carry l.indent =
      match l.foreign? with
      | some tag => .error tag
      | none => .ok ⟨none, 0, none, l.plainIndent⟩ := by
  unfold BlockLine.tail BlockLine.foreign?
  cases l.mark? with
  | none => exact scanFrom_spaced_scalar hq he hd hp l
  | some mark =>
    rw [Option.map_some, spaced, List.cons_append, scanFrom_blank hq (by decide),
      scanFrom_mark (by exact hq) (by exact he) mark (fun h => by exact absurd hd (Nat.ne_of_gt h))
        (spaced_head? _)]
    by_cases hc : isCore mark.text = true
    · rw [if_pos hc, Option.filter_some_neg (by simp [hc])]
      exact scanFrom_spaced_scalar (by exact hq) (by exact he) (by exact hd) (by exact hp) l
    · rw [if_neg hc, Option.filter_some_pos (by simp [hc])]
      rfl

/-- A key or dash does not begin with a blank, nor as a directive or the end of a document does. -/
theorem Marker.exists_text_eq_cons (marker : Marker) :
    ∃ c cs, marker.text = c :: cs ∧ isBlank c = false ∧ c ≠ '%' ∧ c ≠ '.' ∧
      (c = '-' → cs = []) := by
  cases marker with
  | key name =>
    obtain ⟨c, cs, hname, hword⟩ := exists_toList_eq_cons name
    have hc := hword c (List.mem_cons_self ..)
    refine ⟨c, cs ++ [':'], by rw [Marker.text, hname, List.cons_append], ?_, ?_, ?_, ?_⟩
    · exact isBlank_of_isWordChar hc
    · exact ne_of_isWordChar hc '%' rfl
    · exact ne_of_isWordChar hc '.' rfl
    · intro hdash
      exact absurd hdash (ne_of_isWordChar hc '-' rfl)
  | dash => exact ⟨'-', [], rfl, by decide, by decide, by decide, fun _ => rfl⟩

theorem BlockLine.isDirective_text (l : BlockLine) : isDirective l.text = false := by
  obtain ⟨c, cs, hmarker, hblank, hpercent, hdot, hdash⟩ := l.marker.exists_text_eq_cons
  have htrim : trim l.text = c :: trimEnd (cs ++ l.tail) := by
    rw [BlockLine.text, hmarker, List.cons_append, trim_replicate hblank]
  have hdocument : trim l.text ≠ ['-', '-', '-'] := by
    intro h
    rw [htrim] at h
    obtain ⟨hc, htail⟩ := List.cons.inj h
    rw [hdash hc, List.nil_append] at htail
    -- what is left of the line would begin with a dash, but begins with a space
    obtain ⟨more, hmore⟩ := trimEnd_prefix l.tail
    rw [htail] at hmore
    have hhead := l.tail_head? '-' (by rw [← hmore]; rfl)
    exact absurd hhead (by decide)
  have hdirective : (trim l.text).head? ≠ some '%' := by simp [htrim, hpercent]
  have hend : trim l.text ≠ ['.', '.', '.'] := by simp [htrim, hdot]
  simp [isDirective, hdirective, hdocument, hend]

/-- A line of a document that is no deeper than the plain scalar before it ends the scan with its
mark, or leaves the indentation of its own plain scalar. -/
theorem scanLine_text {plain : Option Nat} (l : BlockLine) (h : ∀ i ∈ plain, l.indent ≤ i) :
    scanLine ⟨none, 0, none, plain⟩ l.text =
      match l.foreign? with
      | some tag => .error tag
      | none => .ok ⟨none, 0, none, l.plainIndent⟩ := by
  obtain ⟨c, cs, hmarker, hblank, -⟩ := l.marker.exists_text_eq_cons
  have htext : l.text = List.replicate l.indent ' ' ++ c :: (cs ++ l.tail) := by
    rw [BlockLine.text, hmarker, List.cons_append]
  have hplain : plain.any (continuesPlain l.text) = false := by
    cases plain with
    | none => rfl
    | some i => rw [htext]; exact continuesPlain_replicate hblank (h i rfl)
  have hspace : c ≠ ' ' := by
    rintro rfl
    cases hblank
  have hindent : indentation l.text = l.indent := by
    rw [htext, indentation_replicate hspace]
  have hscan : scanLine ⟨none, 0, none, plain⟩ l.text =
      (scanFrom (.start ⟨none, 0, none, plain⟩) l.text).carry l.indent := by
    simp [scanLine, hplain, scanContent, l.isDirective_text, hindent]
  rw [hscan, BlockLine.text, scanFrom_spaces rfl rfl, scanFrom_marker rfl l.tail_head?,
    scanFrom_tail rfl rfl rfl rfl]

/-! ## Lines one after another -/

/-- No line is deeper than the plain scalar on the line before it, so none goes on with it. -/
def Stepped (plain : Option Nat) : List BlockLine → Prop
  | [] => True
  | l :: ls => (∀ i ∈ plain, l.indent ≤ i) ∧ Stepped l.plainIndent ls

/-- On stepped lines the first mark that is not core is found. -/
theorem findOnLines?_of_stepped {plain : Option Nat} {ls : List BlockLine}
    (h : Stepped plain ls) (number : Nat) :
    findOnLines? ⟨none, 0, none, plain⟩ number (ls.map BlockLine.text) =
      firstForeign? number ls := by
  induction ls generalizing plain number with
  | nil => rfl
  | cons l ls ih =>
    obtain ⟨hl, hls⟩ := h
    rw [List.map_cons, findOnLines?, scanLine_text l hl, firstForeign?_cons]
    cases l.foreign? with
    | none => exact ih hls (number + 1)
    | some tag => rfl

/-- The lines may follow any plain scalar that is no less deep than an indentation. -/
def Clear (indent : Nat) (ls : List BlockLine) : Prop :=
  ∀ plain : Option Nat, (∀ i ∈ plain, indent ≤ i) → Stepped plain ls

theorem clear_nil (indent : Nat) : Clear indent [] := fun _ _ => trivial

theorem Clear.deeper {indent deeper : Nat} {ls : List BlockLine} (h : Clear indent ls)
    (hle : indent ≤ deeper) : Clear deeper ls := by
  intro plain hplain
  refine h plain fun i hi => ?_
  have := hplain i hi
  omega

/-- The line of a key or dash and the lines of its value come before lines that may follow it. -/
theorem Clear.child {indent : Nat} {rest : List BlockLine} (hrest : Clear indent rest)
    {value : Block} (hvalue : Clear (indent + 2) (value.lines (indent + 2) ++ rest))
    (marker : Marker) (mark? : Option Mark) :
    Clear indent (⟨indent, marker, mark?, value.scalar?⟩ :: value.lines (indent + 2) ++ rest) := by
  intro plain hplain
  refine ⟨hplain, ?_⟩
  -- only a scalar leaves an indentation, and it has no lines that would be deeper
  cases value with
  | scalar value =>
    refine hrest _ fun i hi => ?_
    cases value with
    | plain first more =>
      obtain rfl : indent = i := by
        simpa [BlockLine.plainIndent, Block.scalar?, Scalar.plainIndent] using hi
      exact Nat.le_refl _
    | quoted content oneLine => cases hi
  | mapping entries => exact hvalue none (by simp)
  | sequence items => exact hvalue none (by simp)

mutual

theorem Block.clear_lines {indent : Nat} {rest : List BlockLine} (hrest : Clear indent rest) :
    (value : Block) → Clear indent (value.lines indent ++ rest)
  | .scalar _ => hrest
  | .mapping entries => clear_entryLines hrest entries
  | .sequence items => clear_itemLines hrest items

theorem clear_entryLines {indent : Nat} {rest : List BlockLine} (hrest : Clear indent rest) :
    (entries : List (Identifier × Option Mark × Block)) →
      Clear indent (entryLines indent entries ++ rest)
  | [] => hrest
  | (key, mark?, value) :: entries => by
    have hmore := clear_entryLines hrest entries
    have hvalue := value.clear_lines (hmore.deeper (Nat.le_add_right indent 2))
    rw [entryLines, List.append_assoc]
    exact hmore.child hvalue (.key key) mark?

theorem clear_itemLines {indent : Nat} {rest : List BlockLine} (hrest : Clear indent rest) :
    (items : List (Option Mark × Block)) → Clear indent (itemLines indent items ++ rest)
  | [] => hrest
  | (mark?, value) :: items => by
    have hmore := clear_itemLines hrest items
    have hvalue := value.clear_lines (hmore.deeper (Nat.le_add_right indent 2))
    rw [itemLines, List.append_assoc]
    exact hmore.child hvalue .dash mark?

end

/-- The lines of a tree follow one another without deeper lines behind plain scalars. -/
theorem Block.stepped_lines (root : Block) (indent : Nat) :
    Stepped none (root.lines indent) := by
  have h := root.clear_lines (clear_nil indent) none (by simp)
  rwa [List.append_nil] at h

/-! ## The whole document -/

/-- The scan of a document finds its first mark, in the order of the lines, that is not core, with
its spelling and its line; the reading reports just this mark, and the document is rejected for
it. -/
theorem Block.findUnsupported?_text (root : Block) :
    findUnsupported? (String.ofList root.text) = root.firstForeign? ∧
    ∀ read : Yaml.Reader,
      (∀ found, parse read (String.ofList root.text) = .error (.unsupportedTag found) ↔
        root.firstForeign? = some found) ∧
      ∀ limit found, root.firstForeign? = some found →
        compile read limit (String.ofList root.text) = .error (.invalidValue found.tag) := by
  have hfind : findUnsupported? (String.ofList root.text) = root.firstForeign? := by
    rw [findUnsupported?, String.toList_ofList, root.lines_text]
    exact findOnLines?_of_stepped (root.stepped_lines 0) 1
  refine ⟨hfind, fun read => ⟨fun found => ?_, fun limit found hfound => ?_⟩⟩
  · rw [parse_eq_unsupportedTag_iff, hfind]
  · exact compile_of_found (hfind.trans hfound) limit

end YamlDefs.Tag

import YamlDefs.Proofs.Tag.BlockScan
import YamlDefs.Proofs.Tag.Flow
import YamlDefs.Proofs.Tag.TopLevel

/-!
# The scan of a flow collection

Inside a flow collection the scan keeps how many brackets are open and whether a node may begin. The
end of a line changes neither behind a comma, so the run over the pieces of a collection is the same
on one line and on many.

* `scanFrom_opening`, `scanFrom_closing`, `scanFrom_comma`, `scanFrom_anchor`: single moves.
* `findFrom?_newline`: the end of a line; a line that begins with a piece is scanned (`BeginsLine`).
* `Admits`: where each piece may stand; `Flow.admits_pieces`: the pieces of a tree stand there.
* `findFrom?_pieces`: over such pieces the run finds the first mark that is not core.
* `findUnsupported?_flowText`: so it does in the text of a tree.
-/

namespace YamlDefs.Tag

open YamlDefs.Text

variable {p q : Place} {cs rest : List Char} {indent number depth : Nat} {node : Bool}

/-! ## Moves -/

/-- A bracket that opens a collection where a node may begin. -/
theorem scanFrom_opening (hq : p.quote = none) (he : p.expectNode = true) (bracket : Bracket) :
    scanFrom p (bracket.opening :: rest) =
      scanFrom { p with flowDepth := p.flowDepth + 1, afterBlank := false } rest := by
  have hb : isBlank '[' = false ∧ isBlank '{' = false := by decide
  apply scanFrom_of_on
  cases bracket <;> simp [step, nodeStep, Bracket.opening, hq, he, hb]

/-- A bracket that closes a collection, also where a node may begin. -/
theorem scanFrom_closing (hq : p.quote = none) (hd : 0 < p.flowDepth) (bracket : Bracket) :
    scanFrom p (bracket.closing :: rest) = scanFrom
      { p with
        flowDepth := p.flowDepth - 1, expectNode := false, afterBlank := false,
        inPlain := p.inPlain && !p.expectNode } rest := by
  have hb : isBlank ']' = false ∧ isBlank '}' = false := by decide
  have hdepth : p.flowDepth ≠ 0 := Nat.ne_of_gt hd
  apply scanFrom_of_on
  cases he : p.expectNode <;> cases bracket <;>
    simp [step, nodeStep, plainStep, Bracket.closing, hq, he, hb, hd, hdepth]

/-- Inside a collection a node may begin behind a comma. -/
theorem scanFrom_comma (hq : p.quote = none) (hd : 0 < p.flowDepth) :
    scanFrom p (',' :: rest) = scanFrom
      { p with
        expectNode := true, afterBlank := false, inPlain := p.inPlain && !p.expectNode } rest := by
  have hb : isBlank ',' = false := by decide
  have hdepth : p.flowDepth ≠ 0 := Nat.ne_of_gt hd
  apply scanFrom_of_on
  cases he : p.expectNode <;> simp [step, nodeStep, plainStep, hq, he, hb, hd, hdepth]

/-- An anchor where a node may begin; a node may begin behind it as well. -/
theorem scanFrom_anchor (hq : p.quote = none) (he : p.expectNode = true) (name : Word) :
    scanFrom p ('&' :: (name.text ++ ' ' :: rest)) =
      scanFrom { p with afterBlank := true } rest := by
  have hname : ∀ c ∈ name.text, isTokenChar (decide (0 < p.flowDepth)) c = true := by
    intro c hc
    have hword := name.isWordChar_of_mem c hc
    have hne := ne_of_isWordChar hword
    simp [isTokenChar, isFlowMark, isBlank_of_isWordChar hword, hne ',' rfl, hne '[' rfl,
      hne ']' rfl, hne '{' rfl, hne '}' rfl]
  have hstop : ∀ c ∈ (' ' :: rest).head?, isTokenChar (decide (0 < p.flowDepth)) c = false := by
    intro c hc
    obtain rfl : ' ' = c := by simpa using hc
    have hb : isBlank ' ' = true := by decide
    simp [isTokenChar, hb]
  have hlt : ∀ c ∈ (name.text ++ ' ' :: rest).head?, c ≠ '<' := by
    intro c hc
    obtain ⟨d, ds, hds, hword⟩ := name.exists_text_eq_cons
    obtain rfl : d = c := by simpa [hds] using hc
    exact ne_of_isWordChar hword '<' rfl
  have hstep : step p '&' (name.text ++ ' ' :: rest) =
      .on { p with afterBlank := false } (' ' :: rest) := by
    have hb : isBlank '&' = false := by decide
    simp [step, nodeStep, hq, he, hb, token_name hname hstop hlt]
  rw [scanFrom_of_on hstep, scanFrom_blank (by exact hq) (by decide)]

/-! ## Ends of lines -/

/-- Whether a line that begins with a character, behind its indentation, is scanned: it is neither
blank nor a directive nor a document marker. -/
def BeginsLine (c : Char) : Prop := isBlank c = false ∧ c ≠ '%' ∧ c ≠ '-' ∧ c ≠ '.'

instance (c : Char) : Decidable (BeginsLine c) := inferInstanceAs (Decidable (_ ∧ _))

theorem beginsLine_of_isWordChar {c : Char} (h : isWordChar c = true) : BeginsLine c := by
  have hne := ne_of_isWordChar h
  exact ⟨isBlank_of_isWordChar h, hne '%' rfl, hne '-' rfl, hne '.' rfl⟩

theorem beginsLine_cons {c : Char} (h : BeginsLine c) (line : List Char) :
    ∀ d ∈ (c :: line).head?, BeginsLine d := by
  intro d hd
  obtain rfl : c = d := Option.some.inj hd
  exact h

theorem isDirective_spaces {line : List Char} (h : ∀ c ∈ line.head?, BeginsLine c) (n : Nat) :
    isDirective (List.replicate n ' ' ++ line) = false := by
  cases line with
  | nil =>
    rw [List.append_nil]
    exact isDirective_of_allBlank (allBlank_spaces n)
  | cons c line =>
    obtain ⟨hblank, hpercent, hdash, hdot⟩ := h c rfl
    simp [isDirective, trim_replicate hblank, hpercent, hdash, hdot]

theorem indentation_spaces_append {line : List Char} (h : ∀ c ∈ line.head?, BeginsLine c)
    (n : Nat) : indentation (List.replicate n ' ' ++ line) = n := by
  cases line with
  | nil => simp [indentation]
  | cons c line =>
    refine indentation_replicate ?_
    rintro rfl
    exact absurd (h ' ' rfl).1 (by decide)

/-- Such a line is scanned from where a node may begin, if it goes on with no scalar before it. -/
theorem scanLine_spaces {c : Carry} {line : List Char} {n : Nat} (hq : c.quote = none)
    (hline : ∀ d ∈ line.head?, BeginsLine d)
    (hblock : c.blockIndent.any (continuesBlock (List.replicate n ' ' ++ line)) = false)
    (hplain : c.plainIndent.any (continuesPlain (List.replicate n ' ' ++ line)) = false) :
    scanLine c (List.replicate n ' ' ++ line) =
      (scanFrom ⟨none, c.flowDepth, true, false, true⟩ line).carry n := by
  have hstart : Place.start c = ⟨none, c.flowDepth, true, false, true⟩ := by
    simp [Place.start, hq]
  simp only [scanLine, hblock, hplain, Bool.false_eq_true, if_false, scanContent,
    isDirective_spaces hline, Bool.and_false, indentation_spaces_append hline, hstart]
  rw [scanFrom_spaces rfl rfl]

theorem beginsLine_of_splitOn {line : List Char} {ls : List (List Char)}
    (hsplit : cs.splitOn '\n' = line :: ls) (h : ∀ c ∈ cs.head?, BeginsLine c) :
    ∀ c ∈ line.head?, BeginsLine c := by
  intro c hc
  cases line with
  | nil => cases hc
  | cons d line =>
    obtain rfl : d = c := Option.some.inj hc
    exact h d (head?_of_splitOn hsplit)

/-- The end of a line inside a flow collection: a node may begin in the next line. -/
theorem findFrom?_newline (hq : p.quote = none) (hd : 0 < p.flowDepth)
    (hcs : ∀ c ∈ cs.head?, BeginsLine c) (n : Nat) :
    findFrom? p indent number ('\n' :: (List.replicate n ' ' ++ cs)) =
      findFrom? ⟨none, p.flowDepth, true, false, true⟩ n (number + 1) cs := by
  have hspaces : '\n' ∉ List.replicate n ' ' := fun h => by
    cases List.eq_of_mem_replicate h
  obtain ⟨line, ls, hsplit, hnext⟩ := exists_splitOn_append hspaces cs
  have hbreak : ('\n' :: (List.replicate n ' ' ++ cs)).splitOn '\n' =
      [] :: (List.replicate n ' ' ++ line) :: ls := by
    rw [← hnext]
    exact List.splitOn_append_cons_self [] _
  have hline := beginsLine_of_splitOn hsplit hcs
  have hend : (scanFrom p []).carry indent = .ok ⟨none, p.flowDepth, none, none⟩ := by
    simp [scanFrom_nil, LineEnd.carry, hq, Nat.ne_of_gt hd]
  have hscan : scanLine ⟨none, p.flowDepth, none, none⟩ (List.replicate n ' ' ++ line) =
      (scanFrom ⟨none, p.flowDepth, true, false, true⟩ line).carry n :=
    scanLine_spaces rfl hline rfl rfl
  rw [findFrom?_of_splitOn hbreak, hend]
  dsimp only
  rw [findOnLines?, hscan]
  exact (findFrom?_of_splitOn hsplit _ _ _).symm

/-- A source that does not begin with a blank, a directive or a document marker is scanned as the
value of a key is. -/
theorem findUnsupported?_of_beginsLine (h : ∀ c ∈ cs.head?, BeginsLine c) :
    findUnsupported? (String.ofList cs) = findFrom? .value 0 1 cs := by
  obtain ⟨line, ls, hsplit⟩ := List.exists_cons_of_ne_nil (List.splitOn_ne_nil '\n' cs)
  have hscan : scanLine .initial line = (scanFrom .value line).carry 0 :=
    scanLine_spaces (n := 0) rfl (beginsLine_of_splitOn hsplit h) rfl rfl
  rw [findUnsupported?_eq, String.toList_ofList, hsplit, findOnLines?, hscan]
  exact (findFrom?_of_splitOn hsplit _ _ _).symm

/-! ## Pieces -/

/-- What the scan keeps outside quotes. -/
structure At (depth : Nat) (node : Bool) (p : Place) : Prop where
  quote : p.quote = none
  flowDepth : p.flowDepth = depth
  expectNode : p.expectNode = node

/-- Pieces that may stand inside so many brackets, where a node may begin or behind a node. -/
inductive Admits : Nat → Bool → List FlowPiece → Prop where
  | nil (depth : Nat) (node : Bool) : Admits depth node []
  | anchor (name : Word) {depth : Nat} {ps : List FlowPiece} (more : Admits depth true ps) :
    Admits depth true (.anchor name :: ps)
  | mark (tag : FlowMark) {depth : Nat} {ps : List FlowPiece} (more : Admits depth true ps) :
    Admits depth true (.mark tag :: ps)
  | scalar (value : Scalar) {depth : Nat} {ps : List FlowPiece} (more : Admits depth false ps) :
    Admits depth true (.scalar value :: ps)
  | opening (bracket : Bracket) {depth : Nat} {ps : List FlowPiece}
    (more : Admits (depth + 1) true ps) : Admits depth true (.opening bracket :: ps)
  | closing (bracket : Bracket) {depth : Nat} {node : Bool} {ps : List FlowPiece}
    (more : Admits depth false ps) : Admits (depth + 1) node (.closing bracket :: ps)
  | comma (gap : Gap) {depth : Nat} {ps : List FlowPiece} (more : Admits (depth + 1) true ps) :
    Admits (depth + 1) false (.comma gap :: ps)
  | colon {depth : Nat} {ps : List FlowPiece} (more : Admits depth true ps) :
    Admits depth false (.colon :: ps)

theorem piecesText_cons (piece : FlowPiece) (ps : List FlowPiece) :
    piecesText (piece :: ps) = piece.text ++ piecesText ps := rfl

/-- A line that begins with a piece is scanned. -/
theorem FlowPiece.exists_text_eq_cons (piece : FlowPiece) :
    ∃ c cs, piece.text = c :: cs ∧ BeginsLine c := by
  cases piece with
  | anchor name => exact ⟨'&', _, rfl, by decide⟩
  | mark tag =>
    obtain ⟨cs, hcs⟩ : ∃ cs, tag.mark.text = '!' :: cs := by
      cases tag.mark <;> exact ⟨_, rfl⟩
    exact ⟨'!', cs ++ [' '], by rw [FlowPiece.text, hcs, List.cons_append], by decide⟩
  | scalar value =>
    cases value with
    | plain first more =>
      obtain ⟨c, cs, hcs, hc⟩ := first.exists_text_eq_cons
      refine ⟨c, cs ++ more.flatMap fun word => ' ' :: word.text, ?_, beginsLine_of_isWordChar hc⟩
      rw [FlowPiece.text, Scalar.text, hcs, List.cons_append]
    | quoted content oneLine => exact ⟨'"', _, rfl, by decide⟩
  | opening bracket => cases bracket <;> exact ⟨_, _, rfl, by decide⟩
  | closing bracket => cases bracket <;> exact ⟨_, _, rfl, by decide⟩
  | comma gap => exact ⟨',', _, rfl, by decide⟩
  | colon => exact ⟨':', _, rfl, by decide⟩

theorem beginsLine_piecesText (ps : List FlowPiece) :
    ∀ c ∈ (piecesText ps).head?, BeginsLine c := by
  cases ps with
  | nil => simp [piecesText]
  | cons piece ps =>
    obtain ⟨d, ds, htext, hd⟩ := piece.exists_text_eq_cons
    rw [piecesText_cons, htext]
    exact beginsLine_cons hd _

/-- A piece without a line feed that takes the scan from one place to another. -/
theorem findFrom?_piece {piece : FlowPiece} {ps : List FlowPiece}
    (hmark : ∀ tag, piece ≠ .mark tag) (hline : '\n' ∉ piece.text)
    (hmove : ∀ line, scanFrom p (piece.text ++ line) = scanFrom q line)
    (hps : findFrom? q indent number (piecesText ps) = firstForeignMark? (marks number ps)) :
    findFrom? p indent number (piecesText (piece :: ps)) =
      firstForeignMark? (marks number (piece :: ps)) := by
  rw [piecesText_cons, findFrom?_append hline hmove, hps, marks.eq_3 _ _ _ hmark,
    List.count_eq_zero_of_not_mem hline, Nat.add_zero]

/-- A mark is found if it is not core. -/
theorem findFrom?_mark (hp : At depth true p) (tag : FlowMark) {ps : List FlowPiece}
    (hps : ∀ q, At depth true q →
      findFrom? q indent number (piecesText ps) = firstForeignMark? (marks number ps)) :
    findFrom? p indent number (piecesText (.mark tag :: ps)) =
      firstForeignMark? (marks number (.mark tag :: ps)) := by
  have hline : '\n' ∉ FlowPiece.text (.mark tag) := by
    simp [FlowPiece.text, tag.mark.isLine_text.1]
  have hscan (line : List Char) : scanFrom p (FlowPiece.text (.mark tag) ++ line) =
      if isCore tag.mark.text then scanFrom { p with afterBlank := true } line
      else .found tag.mark.text := by
    rw [FlowPiece.text, List.append_assoc, List.singleton_append]
    exact scanFrom_mark_space hp.quote hp.expectNode tag.mark fun _ => tag.unbroken
  rw [piecesText_cons, marks, firstForeignMark?_cons]
  by_cases hcore : isCore tag.mark.text = true
  · rw [if_pos hcore, findFrom?_append hline fun line => (hscan line).trans (if_pos hcore)]
    exact hps _ ⟨hp.quote, hp.flowDepth, hp.expectNode⟩
  · rw [if_neg hcore]
    exact findFrom?_found hline fun line => (hscan line).trans (if_neg hcore)

/-- Behind a comma a node may begin, on the same line or the next one. -/
theorem findFrom?_comma (hp : At (depth + 1) node p) (gap : Gap) {ps : List FlowPiece}
    (hps : ∀ q indent number, At (depth + 1) true q →
      findFrom? q indent number (piecesText ps) = firstForeignMark? (marks number ps)) :
    findFrom? p indent number (piecesText (.comma gap :: ps)) =
      firstForeignMark? (marks number (.comma gap :: ps)) := by
  have hopen : 0 < p.flowDepth := by
    rw [hp.flowDepth]
    exact Nat.succ_pos depth
  cases gap with
  | space =>
    have hmove (line : List Char) : scanFrom p (FlowPiece.text (.comma .space) ++ line) = scanFrom
        { p with
          expectNode := true, afterBlank := true, inPlain := p.inPlain && !p.expectNode } line :=
      (scanFrom_comma hp.quote hopen).trans (scanFrom_blank hp.quote (by decide))
    exact findFrom?_piece (by simp) (by decide) hmove (hps _ _ _ ⟨hp.quote, hp.flowDepth, rfl⟩)
  | newline n =>
    have hcount : (FlowPiece.text (.comma (.newline n))).count '\n' = 1 := by
      simp [FlowPiece.text, Gap.text, List.count_replicate]
    have htext : piecesText (.comma (.newline n) :: ps) =
        [','] ++ '\n' :: (List.replicate n ' ' ++ piecesText ps) := by
      simp [piecesText_cons, FlowPiece.text, Gap.text]
    rw [htext, findFrom?_append (by decide) fun line => scanFrom_comma hp.quote hopen,
      findFrom?_newline (by exact hp.quote) (by exact hopen) (beginsLine_piecesText ps),
      marks.eq_3 _ _ _ (by simp), hcount]
    exact hps _ _ _ ⟨rfl, hp.flowDepth, rfl⟩

/-- Over such pieces the run finds the first mark that is not core. -/
theorem findFrom?_pieces {ps : List FlowPiece} (h : Admits depth node ps) (hp : At depth node p) :
    findFrom? p indent number (piecesText ps) = firstForeignMark? (marks number ps) := by
  induction h generalizing p indent number with
  | nil depth node => exact findFrom?_nil p indent number
  | anchor name h ih =>
    have hmove (line : List Char) : scanFrom p (FlowPiece.text (.anchor name) ++ line) =
        scanFrom { p with afterBlank := true } line := by
      rw [FlowPiece.text, List.cons_append, List.append_assoc, List.singleton_append,
        scanFrom_anchor hp.quote hp.expectNode]
    exact findFrom?_piece (by simp) (by simp [FlowPiece.text, name.isLine_text.1]) hmove
      (ih ⟨hp.quote, hp.flowDepth, hp.expectNode⟩)
  | mark tag h ih => exact findFrom?_mark hp tag fun q hq => ih hq
  | scalar value h ih =>
    exact findFrom?_piece (by simp) value.isLine_text.1
      (fun line => scanFrom_scalar hp.quote hp.expectNode value)
      (ih ⟨hp.quote, hp.flowDepth, rfl⟩)
  | opening bracket h ih =>
    exact findFrom?_piece (by simp) (by cases bracket <;> decide)
      (fun line => scanFrom_opening hp.quote hp.expectNode bracket)
      (ih ⟨hp.quote, congrArg (· + 1) hp.flowDepth, hp.expectNode⟩)
  | closing bracket h ih =>
    have hopen : 0 < p.flowDepth := by
      rw [hp.flowDepth]
      exact Nat.succ_pos _
    exact findFrom?_piece (by simp) (by cases bracket <;> decide)
      (fun line => scanFrom_closing hp.quote hopen bracket)
      (ih ⟨hp.quote, congrArg (· - 1) hp.flowDepth, rfl⟩)
  | comma gap h ih => exact findFrom?_comma hp gap fun q _ _ hq => ih hq
  | colon h ih =>
    have hmove (line : List Char) : scanFrom p (FlowPiece.text .colon ++ line) = scanFrom
        { p with expectNode := true, inPlain := false, afterBlank := true } line :=
      scanFrom_indicator_space hp.quote (.inl rfl)
    exact findFrom?_piece (by simp) (by decide) hmove (ih ⟨hp.quote, hp.flowDepth, rfl⟩)

/-! ## Trees -/

theorem Properties.admits_pieces {ps : List FlowPiece} (h : Admits depth true ps)
    (properties : Properties) : Admits depth true (properties.pieces ++ ps) := by
  obtain ⟨anchor?, mark?⟩ := properties
  cases anchor? with
  | none =>
    cases mark? with
    | none => exact h
    | some tag => exact .mark tag h
  | some name =>
    cases mark? with
    | none => exact .anchor name h
    | some tag => exact .anchor name (.mark tag h)

/-- The children of a collection without the comma in front of the first, up to its bracket. -/
theorem admits_tail {children rest : List FlowPiece} {bracket : Bracket}
    (hcomma : ∀ piece ∈ children.head?, ∃ gap, piece = .comma gap)
    (h : Admits (depth + 1) false (children ++ .closing bracket :: rest)) :
    Admits (depth + 1) true (children.tail ++ .closing bracket :: rest) := by
  cases children with
  | nil =>
    cases h with
    | closing _ hrest => exact .closing bracket hrest
  | cons piece children =>
    obtain ⟨gap, rfl⟩ := hcomma piece rfl
    cases h with
    | comma _ hchildren => exact hchildren

mutual

/-- The pieces of a tree may stand where a node may begin. -/
theorem Flow.admits_pieces {depth : Nat} {ps : List FlowPiece} (h : Admits depth false ps) :
    (value : Flow) → Admits depth true (value.pieces ++ ps)
  | .scalar value => .scalar value h
  | .sequence items => by
    have hitems := admits_itemPieces (.closing .square h) items
    rw [Flow.pieces, List.cons_append, List.append_assoc]
    refine .opening .square (admits_tail ?_ hitems)
    cases items <;> simp [itemPieces]
  | .mapping entries => by
    have hentries := admits_entryPieces (.closing .curly h) entries
    rw [Flow.pieces, List.cons_append, List.append_assoc]
    refine .opening .curly (admits_tail ?_ hentries)
    cases entries <;> simp [entryPieces]

theorem admits_itemPieces {depth : Nat} {ps : List FlowPiece} (h : Admits (depth + 1) false ps) :
    (items : List (Gap × Properties × Flow)) → Admits (depth + 1) false (itemPieces items ++ ps)
  | [] => h
  | (gap, properties, value) :: items => by
    have hvalue := value.admits_pieces (admits_itemPieces h items)
    rw [itemPieces, List.cons_append, List.append_assoc, List.append_assoc]
    exact .comma gap (properties.admits_pieces hvalue)

theorem admits_entryPieces {depth : Nat} {ps : List FlowPiece} (h : Admits (depth + 1) false ps) :
    (entries : List (Gap × Scalar × Properties × Flow)) →
      Admits (depth + 1) false (entryPieces entries ++ ps)
  | [] => h
  | (gap, key, properties, value) :: entries => by
    have hvalue := value.admits_pieces (admits_entryPieces h entries)
    rw [entryPieces, List.cons_append, List.cons_append, List.cons_append, List.append_assoc,
      List.append_assoc]
    exact .comma gap (.scalar key (.colon (properties.admits_pieces hvalue)))

end

/-! ## The whole text -/

/-- In the text of a tree behind its key the scan finds the first mark that is not core, with its
spelling and its line. -/
theorem findUnsupported?_flowText (key : Identifier) (properties : Properties) (value : Flow) :
    findUnsupported? (String.ofList (flowText key properties value)) =
      value.firstForeign? properties := by
  have hadmits : Admits 0 true (valuePieces properties value) := by
    have hvalue := value.admits_pieces (.nil 0 false)
    rw [List.append_nil] at hvalue
    exact properties.admits_pieces hvalue
  rw [flowText, findUnsupported?_behind_key, findFrom?_pieces hadmits ⟨rfl, rfl, rfl⟩]
  rfl

end YamlDefs.Tag

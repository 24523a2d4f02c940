import YamlDefs.Compile
import YamlDefs.Proofs.Tag.Apart
import YamlDefs.Proofs.Tag.Opaque
import YamlDefs.Yaml.Read

/-!
# A byte order mark

A byte order mark in front of a source is no part of the document. To the scan it is a character
like a letter: a plain scalar begins with it in the first column, and the first line is scanned
inside this scalar.

* `marked`: a source with the mark in front of it; `MarkHidden`: it makes no difference in front of
  a first line.
* `scanLine_byteOrderMark`: how the scan takes the mark.
* `BeginsPlainly`: a first line that begins with a letter, a dash or the like;
  `BeginsPlainly.carry_eq`: it is scanned as it is without the mark.
* `MarkHidden.carry_eq`: what makes no difference on the lines ahead leaves the same.
* `findUnsupported?_marked`: the mark is hidden just in front of the first lines that leave the same
  behind it, and so in front of those that begin plainly.
-/

namespace YamlDefs.Tag

open YamlDefs.Text

variable {line : List Char}

/-! ## Marked sources -/

def byteOrderMark : Char := '\uFEFF'

/-- A source with a byte order mark in front of it. -/
def marked (source : String) : String := String.ofList (byteOrderMark :: source.toList)

/-- The first line of a source, up to its line feed. -/
def firstLine (source : String) : List Char := (source.toList.splitOn '\n').headD []

/-- In front of a source that begins with a line the mark does not change which tag is found. -/
def MarkHidden (line : List Char) : Prop :=
  ∀ source, firstLine source = line → findUnsupported? (marked source) = findUnsupported? source

/-- Inside a plain scalar of the first column. -/
def Place.behindMark : Place :=
  { quote := none, flowDepth := 0, expectNode := false, inPlain := true, afterBlank := false }

/-- A line that begins in the first column with a character of a plain scalar or with an indicator
of a block, and so with no directive, comment, tag, anchor, quote, flow collection or header. -/
structure BeginsPlainly (line : List Char) : Prop where
  head : ∃ c ∈ line.head?, isBlank c = false ∧ c ≠ '#'
  isDirective : isDirective line = false
  opensNode : opensNode line = false

/-! ## The first line -/

theorem isBlank_byteOrderMark : isBlank byteOrderMark = false := by decide

/-- The mark is scanned as the first character of a plain scalar. -/
theorem scanLine_byteOrderMark (line : List Char) :
    scanLine .initial (byteOrderMark :: line) = (scanFrom .behindMark line).carry 0 := by
  have hbegins := beginsLine_cons (show BeginsLine byteOrderMark by decide) line
  have hindicator : ¬(byteOrderMark = ':' ∨ byteOrderMark = '-' ∨ byteOrderMark = '?') := by
    decide
  have hline := scanLine_spaces (c := .initial) (n := 0) rfl hbegins rfl rfl
  have hmove : scanFrom .value (byteOrderMark :: line) = scanFrom .behindMark line :=
    scanFrom_plainChar rfl rfl isBlank_byteOrderMark (by decide) (fun _ => rfl)
      (fun h => hindicator h.1)
  rw [List.replicate_zero, List.nil_append] at hline
  exact hline.trans (congrArg (LineEnd.carry 0) hmove)

/-- Where a node may begin and where a plain scalar goes on, a line that begins plainly is scanned
alike. -/
theorem BeginsPlainly.scanFrom_behindMark (h : BeginsPlainly line) :
    scanFrom .behindMark line = scanFrom .value line := by
  obtain ⟨⟨c, hhead, hblank, hsharp⟩, -, hopens⟩ := h
  cases line with
  | nil => cases hhead
  | cons d cs =>
    obtain rfl : d = c := by simpa using hhead
    by_cases hindicator : (d = ':' ∨ d = '-' ∨ d = '?') ∧ cs.head?.all isBlank = true
    · have hcs : ∀ e ∈ cs.head?, isBlank e = true := by
        intro e he
        have hall := hindicator.2
        rw [he] at hall
        exact hall
      rw [scanFrom_indicator rfl hindicator.1 hcs, scanFrom_indicator rfl hindicator.1 hcs]
      rfl
    · have hcomment (b : Bool) : ¬(d = '#' ∧ b = true) := fun h => hsharp h.1
      rw [scanFrom_plainChar rfl rfl hblank (hcomment _) (fun _ => hopens) hindicator,
        scanFrom_plainChar rfl rfl hblank (hcomment _) (fun _ => hopens) hindicator]
      rfl

/-- Behind the mark a line that begins plainly is scanned as it is without the mark. -/
theorem BeginsPlainly.carry_eq (h : BeginsPlainly line) :
    (scanFrom .behindMark line).carry 0 = scanLine .initial line := by
  have hindent : indentation line = 0 := by
    obtain ⟨c, hhead, hblank, -⟩ := h.head
    refine indentation_of_head? fun hspace => ?_
    obtain rfl : c = ' ' := by
      rw [hspace] at hhead
      simpa using hhead.symm
    cases hblank
  have hscan : scanLine .initial line = (scanFrom .value line).carry (indentation line) := by
    simp [scanLine, Carry.initial, scanContent, h.isDirective, Place.start, Place.value]
  rw [hscan, hindent, h.scanFrom_behindMark]

/-! ## The lines behind it -/

theorem splitOn_marked (source : String) :
    ∃ ls, source.toList.splitOn '\n' = firstLine source :: ls ∧
      (marked source).toList.splitOn '\n' = (byteOrderMark :: firstLine source) :: ls := by
  obtain ⟨line, ls, hcs, hsplit⟩ :=
    exists_splitOn_append (w := [byteOrderMark]) (by decide) source.toList
  have hline : firstLine source = line := by
    rw [firstLine, hcs]
    rfl
  refine ⟨ls, hline ▸ hcs, ?_⟩
  rw [marked, String.toList_ofList, hline]
  exact hsplit

/-- What leaves the same behind the mark as without it shows the same tags. -/
theorem markHidden_of_carry_eq
    (h : (scanFrom .behindMark line).carry 0 = scanLine .initial line) : MarkHidden line := by
  intro source hline
  obtain ⟨ls, hsource, hmarked⟩ := splitOn_marked source
  rw [findUnsupported?_eq, findUnsupported?_eq, hsource, hmarked, hline, findOnLines?,
    findOnLines?, scanLine_byteOrderMark, h]

/-- A mark that makes no difference makes none on any lines ahead. -/
theorem MarkHidden.findOnLines? (h : MarkHidden line) (hline : '\n' ∉ line)
    {ls : List (List Char)} (hls : ∀ l ∈ ls, '\n' ∉ l) :
    Tag.findOnLines? .initial 1 ((byteOrderMark :: line) :: ls) =
      Tag.findOnLines? .initial 1 (line :: ls) := by
  have hsource : (String.ofList (List.intercalate ['\n'] (line :: ls))).toList.splitOn '\n' =
      line :: ls := by
    rw [String.toList_ofList]
    exact List.splitOn_intercalate '\n' (List.forall_mem_cons.mpr ⟨hline, hls⟩)
      (List.cons_ne_nil line ls)
  obtain ⟨ms, hfirst, hmarked⟩ :=
    splitOn_marked (String.ofList (List.intercalate ['\n'] (line :: ls)))
  obtain ⟨hhead, rfl⟩ := List.cons.inj (hsource.symm.trans hfirst)
  have hsame := h _ hhead.symm
  rwa [findUnsupported?_eq, findUnsupported?_eq, hmarked, hfirst, ← hhead] at hsame

/-- So what is left behind the mark is what is left without it. -/
theorem MarkHidden.carry_eq (h : MarkHidden line) (hline : '\n' ∉ line) :
    (scanFrom .behindMark line).carry 0 = scanLine .initial line := by
  have hsame {ls : List (List Char)} (hls : ∀ l ∈ ls, '\n' ∉ l) := h.findOnLines? hline hls
  simp only [Tag.findOnLines?] at hsame
  rw [← scanLine_byteOrderMark]
  -- a tag on the first line itself shows in the source that has no other line
  have halone := hsame (List.forall_mem_nil _)
  cases hmarked : scanLine .initial (byteOrderMark :: line) with
  | error tag =>
    cases hplain : scanLine .initial line with
    | error tag' =>
      rw [hmarked, hplain] at halone
      have htag : String.ofList tag = String.ofList tag' :=
        congrArg Found.tag (Option.some.inj halone)
      rw [String.ofList_injective htag]
    | ok d =>
      rw [hmarked, hplain] at halone
      cases halone
  | ok c =>
    cases hplain : scanLine .initial line with
    | error tag =>
      rw [hmarked, hplain] at halone
      cases halone
    | ok d =>
      have hahead : SameAhead c d := by
        intro ls hls
        have hfound := hsame hls
        rw [hmarked, hplain] at hfound
        dsimp only at hfound
        rw [← findOnLines?_eq_none_iff c 2, hfound, findOnLines?_eq_none_iff]
      exact congrArg _ (hahead.eq (lawful_of_scanLine hmarked) (lawful_of_scanLine hplain))

/-- A byte order mark makes no difference just in front of the first lines that leave the same
behind it as they leave without it, among them all that begin plainly. In front of these a source is
rejected for the same tag, or for none. -/
theorem findUnsupported?_marked (line : OneLine) :
    (MarkHidden line.text ↔
      (scanFrom .behindMark line.text).carry 0 = scanLine .initial line.text) ∧
    (BeginsPlainly line.text → MarkHidden line.text) ∧
    (MarkHidden line.text → ∀ (read : Yaml.Reader) source, firstLine source = line.text → ∀ found,
      parse read (marked source) = .error (.unsupportedTag found) ↔
        parse read source = .error (.unsupportedTag found)) := by
  refine ⟨⟨fun h => h.carry_eq line.oneLine, markHidden_of_carry_eq⟩,
    fun h => markHidden_of_carry_eq h.carry_eq, fun h read source hline found => ?_⟩
  rw [parse_eq_unsupportedTag_iff, parse_eq_unsupportedTag_iff, h source hline]

/-- A tag at the beginning of a source is hidden behind the mark, though both sources are read as
the same text. -/
theorem findUnsupported?_marked_tag :
    findUnsupported? "!!x a\n" = some ⟨"!!x", 1⟩ ∧
      findUnsupported? (marked "!!x a\n") = none ∧
      ((Yaml.read? "!!x a\n").bind fun value =>
        (Yaml.read? (marked "!!x a\n")).map value.same) = some true := by
  refine ⟨?_, ?_, ?_⟩
  · decide +kernel
  · decide +kernel
  · decide +kernel

end YamlDefs.Tag

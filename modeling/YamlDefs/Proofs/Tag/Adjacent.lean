import YamlDefs.Proofs.Tag.FlowScan
import YamlDefs.Yaml.Read

/-!
# Values next to their colon

In a flow mapping no space has to stand between the colon of a quoted key and its value. The scan
expects a node only behind a colon before a blank: a tag next to a colon is text to it.

* `FlowEntry`: an entry with a quoted key, with or without the space; `FlowEntry.shown?`: its tag if
  it is not core and stands behind a space.
* `mappingText`: the text of a flow mapping.
* `exists_scanFrom_solid`, `passes_value`: a tag and a value as parts of a text, wherever they
  stand.
* `FlowEntry.scanFrom_text`: an entry ends the scan with the tag that it shows, or is passed over.
* `findUnsupported?_mappingText`: so the scan finds the first tag that is not core and stands behind
  a space.
-/

namespace YamlDefs.Tag

open YamlDefs.Text

variable {p q : Place} {cs rest : List Char} {indent number depth : Nat}

/-! ## Entries -/

/-- Words with single spaces between them. -/
structure Words where
  first : Word
  more : List Word

def Words.text (words : Words) : List Char := (Scalar.plain words.first words.more).text

def Words.quoted (words : Words) : List Char := '"' :: (words.text ++ ['"'])

/-- A tag `!!name` that may be written inside flow collections. -/
structure SecondaryMark where
  name : List Char
  solid : ∀ c ∈ name, isBlank c = false
  unbroken : ∀ c ∈ name, isFlowMark c = false

def SecondaryMark.toMark (tag : SecondaryMark) : Mark := .secondary tag.name tag.solid

/-- A value: a single word, or words in double quotes. -/
inductive EntryValue where
  | word (text : Word)
  | quoted (words : Words)

def EntryValue.text : EntryValue → List Char
  | word text => text.text
  | quoted words => words.quoted

/-- An entry of a flow mapping. -/
structure FlowEntry where
  key : Words
  /-- Whether a space stands behind the colon. -/
  spaced : Bool
  mark? : Option SecondaryMark
  value : EntryValue

/-- What stands behind the colon of an entry, and the space behind it if there is one. -/
def FlowEntry.tail (entry : FlowEntry) : List Char :=
  match entry.mark? with
  | none => entry.value.text
  | some tag => tag.toMark.text ++ ' ' :: entry.value.text

def FlowEntry.text (entry : FlowEntry) : List Char :=
  entry.key.quoted ++ ':' :: (if entry.spaced then ' ' :: entry.tail else entry.tail)

/-- The same entry with a space behind the colon. -/
def FlowEntry.spread (entry : FlowEntry) : FlowEntry := { entry with spaced := true }

/-- The tag of an entry, as written, if it is not core. -/
def FlowEntry.foreign? (entry : FlowEntry) : Option (List Char) :=
  (entry.mark?.map fun tag => tag.toMark.text).filter fun tag => !isCore tag

/-- The tag of an entry if it is not core and stands behind a space. -/
def FlowEntry.shown? (entry : FlowEntry) : Option (List Char) :=
  if entry.spaced then entry.foreign? else none

/-- The first tag of some entries that is not core. -/
def firstForeignTag? (entries : List FlowEntry) : Option (List Char) :=
  entries.findSome? FlowEntry.foreign?

/-- The first tag of some entries that is not core and stands behind a space. -/
def firstShown? (entries : List FlowEntry) : Option (List Char) :=
  entries.findSome? FlowEntry.shown?

def mappingBody (first : FlowEntry) (more : List FlowEntry) : List Char :=
  '{' :: (first.text ++ ((more.flatMap fun entry => ',' :: ' ' :: entry.text) ++ ['}']))

/-- The text of a flow mapping that is a document, or the value of a key. -/
def mappingText (key? : Option Identifier) (first : FlowEntry) (more : List FlowEntry) :
    List Char :=
  match key? with
  | none => mappingBody first more
  | some key => key.name.toList ++ ':' :: ' ' :: mappingBody first more

/-- A tag found on the line with the given number. -/
def foundOn (number : Nat) (tag? : Option (List Char)) : Option Found :=
  tag?.map fun tag => ⟨String.ofList tag, number⟩

theorem foundOn_inj {tag? tag?' : Option (List Char)} :
    foundOn number tag? = foundOn number tag?' ↔ tag? = tag?' := by
  refine (Option.map_injective fun tag tag' h => ?_).eq_iff
  exact String.ofList_injective (congrArg Found.tag h)

/-! ## Parts of an entry, wherever they stand -/

theorem mem_words {c : Char} {words : Words} (hc : c ∈ words.text) :
    c.isAlphanum = true ∨ c = ' ' := by
  rw [Words.text, Scalar.text, List.mem_append, List.mem_flatMap] at hc
  rcases hc with hc | ⟨word, -, hc⟩
  · exact .inl (words.first.isAlphanum_of_mem c hc)
  · rcases List.mem_cons.mp hc with rfl | hc
    · exact .inr rfl
    · exact .inl (word.isAlphanum_of_mem c hc)

/-- There is nothing in words that has to be escaped. -/
theorem escape_words (words : Words) : escape words.text = words.text := by
  have hplain : ∀ c ∈ words.text, ¬(c = '"' ∨ c = '\\') := by
    intro c hc
    rcases mem_words hc with hword | rfl
    · have hne := ne_of_isWordChar (isWordChar_of_isAlphanum hword)
      simp [hne '"' rfl, hne '\\' rfl]
    · decide
  generalize words.text = cs at hplain
  induction cs with
  | nil => rfl
  | cons c cs ih =>
    obtain ⟨hc, hcs⟩ := List.forall_mem_cons.mp hplain
    rw [escape, if_neg hc, ih hcs]

/-- Quoted words where a node may begin. -/
theorem scanFrom_quotedWords (hq : p.quote = none) (he : p.expectNode = true) (words : Words) :
    scanFrom p (words.quoted ++ rest) =
      scanFrom { p with expectNode := false, inPlain := false, afterBlank := false } rest := by
  have htext : words.quoted ++ rest = '"' :: (escape words.text ++ '"' :: rest) := by
    simp [Words.quoted, escape_words]
  rw [htext, scanFrom_quoted hq he]

/-- Where no node may begin, a character that is neither a blank nor a flow mark, begins no comment
and is no indicator before a blank. -/
theorem scanFrom_inert {c : Char} (hq : p.quote = none) (he : p.expectNode = false)
    (hcomment : ¬(c = '#' ∧ p.afterBlank = true)) (hc : isTokenChar true c = true)
    (hnext : ¬((c = ':' ∨ c = '-' ∨ c = '?') ∧ cs.head?.all isBlank = true)) :
    scanFrom p (c :: cs) = scanFrom { p with afterBlank := false } cs := by
  have hchar : isBlank c = false ∧ isFlowMark c = false := by
    simpa [isTokenChar] using hc
  have hmark : c ≠ ']' ∧ c ≠ '}' ∧ c ≠ ',' := by
    refine ⟨?_, ?_, ?_⟩ <;> rintro rfl <;> exact absurd hchar.2 (by decide)
  have hplain : plainStep p c cs = .on { p with afterBlank := false } cs := by
    simp [plainStep, hmark, hnext, he]
  apply scanFrom_of_on
  simp [step, hq, hchar.1, hcomment, he, hplain]

/-- A text without blanks and flow marks before a space, where no node may begin. Behind the space a
node may begin if the text ends with an indicator. -/
theorem exists_scanFrom_solid {text : List Char} (hp : At depth false p) (hb : p.afterBlank = false)
    (htext : ∀ c ∈ text, isTokenChar true c = true) :
    ∃ node q, At depth node q ∧ ∀ rest, scanFrom p (text ++ ' ' :: rest) = scanFrom q rest := by
  have hspace : isBlank ' ' = true := by decide
  have hcomment (c : Char) : ¬(c = '#' ∧ p.afterBlank = true) := by simp [hb]
  have hsame : { p with afterBlank := false } = p := by rw [← hb]
  induction text with
  | nil =>
    exact ⟨false, { p with afterBlank := true }, ⟨hp.quote, hp.flowDepth, hp.expectNode⟩,
      fun rest => scanFrom_blank hp.quote hspace⟩
  | cons c text ih =>
    obtain ⟨hc, hmore⟩ := List.forall_mem_cons.mp htext
    cases text with
    | nil =>
      by_cases hindicator : c = ':' ∨ c = '-' ∨ c = '?'
      · refine ⟨true, { p with expectNode := true, inPlain := false, afterBlank := true },
          ⟨hp.quote, hp.flowDepth, rfl⟩, fun rest => ?_⟩
        rw [List.cons_append, List.nil_append, scanFrom_indicator_space hp.quote hindicator]
      · refine ⟨false, { p with afterBlank := true }, ⟨hp.quote, hp.flowDepth, hp.expectNode⟩,
          fun rest => ?_⟩
        rw [List.cons_append, List.nil_append, scanFrom_inert hp.quote hp.expectNode (hcomment c) hc
          fun h => hindicator h.1, hsame, scanFrom_blank hp.quote hspace]
    | cons d text =>
      obtain ⟨node, q, hq, hmoves⟩ := ih hmore
      refine ⟨node, q, hq, fun rest => ?_⟩
      have hd : isBlank d = false := by
        have hchar : isBlank d = false ∧ isFlowMark d = false := by
          simpa [isTokenChar] using (List.forall_mem_cons.mp hmore).1
        exact hchar.1
      rw [List.cons_append, List.cons_append, scanFrom_inert hp.quote hp.expectNode (hcomment c) hc
        (by simp [hd]), hsame, ← List.cons_append]
      exact hmoves rest

/-- A text that takes the scan from a place to one behind a node, inside so many brackets. -/
def Passes (depth : Nat) (p : Place) (text : List Char) : Prop :=
  ∃ q, At depth false q ∧ ∀ rest, scanFrom p (text ++ rest) = scanFrom q rest

/-- A value is passed over, also where no node may begin. -/
theorem passes_value {node : Bool} (hp : At depth node p) (value : EntryValue) :
    Passes depth p value.text := by
  cases value with
  | word text =>
    refine ⟨{ p with
        expectNode := false, afterBlank := false,
        inPlain := if p.expectNode then p.flowDepth = 0 else p.inPlain },
      ⟨hp.quote, hp.flowDepth, rfl⟩, fun rest => ?_⟩
    exact scanFrom_word hp.quote text.ne_nil text.isWordChar_of_mem
  | quoted words =>
    cases node with
    | true =>
      refine ⟨{ p with expectNode := false, inPlain := false, afterBlank := false },
        ⟨hp.quote, hp.flowDepth, rfl⟩, fun rest => ?_⟩
      exact scanFrom_quotedWords hp.quote hp.expectNode words
    | false =>
      -- the quotes are characters like others here, and so are the words between them
      refine ⟨{ p with expectNode := false, afterBlank := false }, ⟨hp.quote, hp.flowDepth, rfl⟩,
        fun rest => ?_⟩
      have htext : (EntryValue.quoted words).text ++ rest =
          '"' :: (words.first.text ++
            ((words.more.flatMap fun word => ' ' :: word.text) ++ '"' :: rest)) := by
        simp [EntryValue.text, Words.quoted, Words.text, Scalar.text]
      rw [htext, scanFrom_inert hp.quote hp.expectNode (by simp) (by decide) (by simp),
        scanFrom_word (by exact hp.quote) words.first.ne_nil words.first.isWordChar_of_mem,
        scanFrom_more (by exact hp.quote) rfl rfl,
        scanFrom_inert (by exact hp.quote) rfl (by simp) (by decide) (by simp)]
      simp [hp.expectNode]

/-! ## Moves over an entry -/

theorem FlowEntry.exists_tail_eq_cons (entry : FlowEntry) :
    ∃ c cs, entry.tail = c :: cs ∧ isBlank c = false := by
  unfold FlowEntry.tail
  cases entry.mark? with
  | some tag => exact ⟨'!', _, rfl, by decide⟩
  | none =>
    cases entry.value with
    | quoted words => exact ⟨'"', _, rfl, by decide⟩
    | word text =>
      obtain ⟨c, cs, hcs, hc⟩ := text.exists_text_eq_cons
      exact ⟨c, cs, hcs, isBlank_of_isWordChar hc⟩

/-- Behind a space the tag of an entry is found if it is not core. -/
theorem FlowEntry.scanFrom_tail (hp : At depth true p) (entry : FlowEntry) :
    match entry.foreign? with
    | some tag => ∀ rest, scanFrom p (entry.tail ++ rest) = .found tag
    | none => Passes depth p entry.tail := by
  unfold FlowEntry.foreign? FlowEntry.tail
  cases entry.mark? with
  | none => exact passes_value hp entry.value
  | some tag =>
    have hmark (rest : List Char) :
        scanFrom p (tag.toMark.text ++ ' ' :: entry.value.text ++ rest) =
          if isCore tag.toMark.text then
            scanFrom { p with afterBlank := true } (entry.value.text ++ rest)
          else .found tag.toMark.text := by
      rw [List.append_assoc, List.cons_append]
      exact scanFrom_mark_space hp.quote hp.expectNode tag.toMark fun _ => tag.unbroken
    rw [Option.map_some]
    by_cases hcore : isCore tag.toMark.text = true
    · rw [Option.filter_some_neg (by simp [hcore])]
      have hvalue : At depth true { p with afterBlank := true } :=
        ⟨hp.quote, hp.flowDepth, hp.expectNode⟩
      obtain ⟨q, hq, hmoves⟩ := passes_value hvalue entry.value
      exact ⟨q, hq, fun rest => ((hmark rest).trans (if_pos hcore)).trans (hmoves rest)⟩
    · rw [Option.filter_some_pos (by simp [hcore])]
      exact fun rest => (hmark rest).trans (if_neg hcore)

/-- Next to a colon the tag of an entry is passed over, whatever it is. -/
theorem FlowEntry.passes_tail (hp : At depth false p) (hb : p.afterBlank = false)
    (entry : FlowEntry) : Passes depth p entry.tail := by
  unfold FlowEntry.tail
  cases entry.mark? with
  | none => exact passes_value hp entry.value
  | some tag =>
    have htoken : ∀ c ∈ tag.toMark.text, isTokenChar true c = true := by
      have hmark : isTokenChar true '!' = true := by decide
      refine List.forall_mem_cons.mpr ⟨hmark, List.forall_mem_cons.mpr ⟨hmark, fun c hc => ?_⟩⟩
      simp [isTokenChar, tag.solid c hc, tag.unbroken c hc]
    obtain ⟨node, q, hq, htag⟩ := exists_scanFrom_solid hp hb htoken
    obtain ⟨r, hr, hvalue⟩ := passes_value hq entry.value
    refine ⟨r, hr, fun rest => ?_⟩
    dsimp only
    rw [List.append_assoc, List.cons_append, htag, hvalue]

/-- An entry ends the scan with the tag that it shows, or is passed over. -/
theorem FlowEntry.scanFrom_text (hp : At depth true p) (entry : FlowEntry) :
    match entry.shown? with
    | some tag => ∀ rest, scanFrom p (entry.text ++ rest) = .found tag
    | none => Passes depth p entry.text := by
  have hkey (rest : List Char) : scanFrom p (entry.text ++ rest) =
      scanFrom { p with expectNode := false, inPlain := false, afterBlank := false }
        (':' :: ((if entry.spaced then ' ' :: entry.tail else entry.tail) ++ rest)) := by
    rw [FlowEntry.text, List.append_assoc, scanFrom_quotedWords hp.quote hp.expectNode]
    rfl
  unfold FlowEntry.shown?
  cases hspaced : entry.spaced with
  | true =>
    have hcolon (rest : List Char) : scanFrom p (entry.text ++ rest) =
        scanFrom { p with expectNode := true, inPlain := false, afterBlank := true }
          (entry.tail ++ rest) := by
      rw [hkey, hspaced, if_pos rfl, List.cons_append,
        scanFrom_indicator_space (by exact hp.quote) (.inl rfl)]
    have hvalue : At depth true
        { p with expectNode := true, inPlain := false, afterBlank := true } :=
      ⟨hp.quote, hp.flowDepth, rfl⟩
    simpa only [Passes, hcolon, if_true] using entry.scanFrom_tail hvalue
  | false =>
    obtain ⟨c, cs, htail, hc⟩ := entry.exists_tail_eq_cons
    have hcolon (rest : List Char) : scanFrom p (entry.text ++ rest) =
        scanFrom { p with expectNode := false, inPlain := false, afterBlank := false }
          (entry.tail ++ rest) := by
      rw [hkey, hspaced, if_neg (by simp), scanFrom_inert (by exact hp.quote) rfl (by simp)
        (by decide) (by simp [htail, hc])]
    have hvalue : At depth false
        { p with expectNode := false, inPlain := false, afterBlank := false } :=
      ⟨hp.quote, hp.flowDepth, rfl⟩
    obtain ⟨q, hq, hmoves⟩ := entry.passes_tail hvalue rfl
    exact ⟨q, hq, fun rest => (hcolon rest).trans (hmoves rest)⟩

/-! ## The whole mapping -/

theorem newline_not_mem_words (words : Words) : '\n' ∉ words.quoted := by
  intro h
  have hwords : '\n' ∈ words.text := by simpa [Words.quoted] using h
  rcases mem_words hwords with hword | hspace
  · exact absurd hword (by decide)
  · exact absurd hspace (by decide)

theorem FlowEntry.newline_not_mem_text (entry : FlowEntry) : '\n' ∉ entry.text := by
  have hvalue : '\n' ∉ entry.value.text := by
    cases entry.value with
    | word text => exact text.isLine_text.1
    | quoted words => exact newline_not_mem_words words
  have htail : '\n' ∉ entry.tail := by
    unfold FlowEntry.tail
    cases entry.mark? with
    | none => exact hvalue
    | some tag => simp [tag.toMark.isLine_text.1, hvalue]
  cases hspaced : entry.spaced <;>
    simp [FlowEntry.text, hspaced, newline_not_mem_words, htail]

/-- An entry, and what stands behind it. -/
theorem findFrom?_entry (hp : At depth true p) (entry : FlowEntry) {more : List FlowEntry}
    (hmore : ∀ q, At depth false q →
      findFrom? q indent number rest = foundOn number (firstShown? more)) :
    findFrom? p indent number (entry.text ++ rest) =
      foundOn number (firstShown? (entry :: more)) := by
  have hentry := entry.scanFrom_text hp
  rw [firstShown?, List.findSome?_cons]
  cases hshown : entry.shown? with
  | some tag =>
    rw [hshown] at hentry
    exact findFrom?_found entry.newline_not_mem_text hentry
  | none =>
    rw [hshown] at hentry
    obtain ⟨q, hq, hmoves⟩ := hentry
    rw [findFrom?_append entry.newline_not_mem_text hmoves]
    exact hmore q hq

/-- The entries behind the first, and the end of the mapping. -/
theorem findFrom?_more (hp : At (depth + 1) false p) (more : List FlowEntry) :
    findFrom? p indent number ((more.flatMap fun entry => ',' :: ' ' :: entry.text) ++ ['}']) =
      foundOn number (firstShown? more) := by
  have hopen : 0 < p.flowDepth := by
    rw [hp.flowDepth]
    exact Nat.succ_pos depth
  induction more generalizing p with
  | nil =>
    have hclose (line : List Char) : scanFrom p (['}'] ++ line) = scanFrom
        { p with
          flowDepth := p.flowDepth - 1, expectNode := false, afterBlank := false,
          inPlain := p.inPlain && !p.expectNode } line :=
      scanFrom_closing hp.quote hopen .curly
    rw [List.flatMap_nil, List.nil_append]
    exact (findFrom?_append (by decide) hclose).trans (findFrom?_nil _ _ _)
  | cons entry more ih =>
    have hcomma (line : List Char) : scanFrom p ([',', ' '] ++ line) =
        scanFrom
          { p with
            expectNode := true, afterBlank := true, inPlain := p.inPlain && !p.expectNode } line :=
      (scanFrom_comma hp.quote hopen).trans (scanFrom_blank hp.quote (by decide))
    have htext : ((entry :: more).flatMap fun entry => ',' :: ' ' :: entry.text) ++ ['}'] =
        [',', ' '] ++ (entry.text ++
          ((more.flatMap fun entry => ',' :: ' ' :: entry.text) ++ ['}'])) := by
      simp
    rw [htext, findFrom?_append (by decide) hcomma]
    have hbehind : At (depth + 1) true
        { p with
          expectNode := true, afterBlank := true, inPlain := p.inPlain && !p.expectNode } :=
      ⟨hp.quote, hp.flowDepth, rfl⟩
    refine findFrom?_entry hbehind entry fun q hq => ih hq ?_
    rw [hq.flowDepth]
    exact Nat.succ_pos depth

theorem findFrom?_mappingBody (first : FlowEntry) (more : List FlowEntry) :
    findFrom? .value 0 1 (mappingBody first more) =
      foundOn 1 (firstShown? (first :: more)) := by
  have hopening (line : List Char) : scanFrom .value (['{'] ++ line) =
      scanFrom ⟨none, 1, true, false, false⟩ line :=
    scanFrom_opening rfl rfl .curly
  have htext : mappingBody first more = ['{'] ++ (first.text ++
      ((more.flatMap fun entry => ',' :: ' ' :: entry.text) ++ ['}'])) := rfl
  rw [htext, findFrom?_append (by decide) hopening]
  exact findFrom?_entry ⟨rfl, rfl, rfl⟩ first fun q hq => findFrom?_more hq more

theorem findUnsupported?_of_mappingBody (key? : Option Identifier) (first : FlowEntry)
    (more : List FlowEntry) :
    findUnsupported? (String.ofList (mappingText key? first more)) =
      foundOn 1 (firstShown? (first :: more)) := by
  cases key? with
  | some key => rw [mappingText, findUnsupported?_behind_key, findFrom?_mappingBody]
  | none =>
    have hbegins : ∀ c ∈ (mappingBody first more).head?, BeginsLine c :=
      beginsLine_cons (by decide) _
    rw [mappingText, findUnsupported?_of_beginsLine hbegins, findFrom?_mappingBody]

/-- The scan of a flow mapping finds the first tag that is not core and stands behind a space. With
a space behind every colon this is the first tag that is not core; so the spaces make no difference
just if the first tag that is not core and stands behind a space is the first of all. -/
theorem findUnsupported?_mappingText (key? : Option Identifier) (first : FlowEntry)
    (more : List FlowEntry) :
    findUnsupported? (String.ofList (mappingText key? first more)) =
        foundOn 1 (firstShown? (first :: more)) ∧
      findUnsupported? (String.ofList (mappingText key? first.spread (more.map FlowEntry.spread))) =
        foundOn 1 (firstForeignTag? (first :: more)) ∧
      (findUnsupported? (String.ofList (mappingText key? first more)) =
          findUnsupported?
            (String.ofList (mappingText key? first.spread (more.map FlowEntry.spread))) ↔
        firstShown? (first :: more) = firstForeignTag? (first :: more)) := by
  have htext := findUnsupported?_of_mappingBody key? first more
  have hspread :
      findUnsupported? (String.ofList (mappingText key? first.spread (more.map FlowEntry.spread))) =
        foundOn 1 (firstForeignTag? (first :: more)) := by
    rw [findUnsupported?_of_mappingBody, ← List.map_cons, firstShown?, List.findSome?_map]
    rfl
  refine ⟨htext, hspread, ?_⟩
  rw [htext, hspread]
  exact foundOn_inj

/-- A tag next to the colon is missed, though the value behind it is read as the same text. -/
theorem findUnsupported?_mappingText_adjacent :
    ∃ entry : FlowEntry, mappingText none entry [] = "\x7b\"a\":!!x b\x7d".toList ∧
      mappingText none entry.spread [] = "\x7b\"a\": !!x b\x7d".toList ∧
      ((Yaml.read? (String.ofList (mappingText none entry []))).bind fun value =>
        (Yaml.read? (String.ofList (mappingText none entry.spread []))).map value.same) =
          some true ∧
      findUnsupported? (String.ofList (mappingText none entry [])) = none ∧
      findUnsupported? (String.ofList (mappingText none entry.spread [])) = some ⟨"!!x", 1⟩ := by
  let a : Word := ⟨['a'], List.cons_ne_nil _ _, List.forall_mem_singleton.mpr rfl⟩
  let b : Word := ⟨['b'], List.cons_ne_nil _ _, List.forall_mem_singleton.mpr rfl⟩
  let x : SecondaryMark :=
    ⟨['x'], List.forall_mem_singleton.mpr (by decide), List.forall_mem_singleton.mpr (by decide)⟩
  refine ⟨⟨⟨a, []⟩, false, some x, .word b⟩, rfl, rfl, ?_, ?_, ?_⟩
  · decide +kernel
  · decide +kernel
  · decide +kernel

end YamlDefs.Tag

import YamlDefs.Proofs.Tag.TopLevel

/-!
# Entries that hide their text

Quoted scalars, block scalars and comments in the first column show none of their text to the scan,
and leave nothing behind.

* `Piece`: what stands between quotes of one kind, a character or an escape.
* `Entry`: a key with a quoted or a block scalar, a comment, or a blank line.
* `scanRest_piece`, `scanRest_quoted`: a quoted text, also over several lines, one piece after
  another.
* `Entry.foldlM_scanLine`: after each kind of entry the next one is scanned as if it were the first.
* `findUnsupported?_entries`: entries in front of a source change the numbers of its lines only.
-/

namespace YamlDefs.Tag

open YamlDefs.Text

variable {p q : Place} {c next : Carry} {cs line : List Char}

/-! ## Entries -/

/-- The two kinds of quotes. -/
inductive Quote where
  | double
  | single

def Quote.char : Quote → Char
  | double => '"'
  | single => '\''

/-- A piece of a text between quotes. -/
inductive Piece : Quote → Type where
  /-- A character that is neither a double quote nor a backslash. -/
  | bare (c : Char) (inside : c ≠ '"' ∧ c ≠ '\\') : Piece .double
  /-- A backslash with the character behind it, whatever it is. -/
  | escaped (c : Char) : Piece .double
  /-- A character that is no apostrophe. -/
  | literal (c : Char) (inside : c ≠ '\'') : Piece .single
  /-- Two apostrophes. -/
  | doubled : Piece .single

def Piece.text : {quote : Quote} → Piece quote → List Char
  | _, bare c _ => [c]
  | _, escaped c => ['\\', c]
  | _, literal c _ => [c]
  | _, doubled => ['\'', '\'']

/-- A text on one line. -/
structure OneLine where
  text : List Char
  oneLine : '\n' ∉ text

/-- The comment at the end of a line, if there is one. -/
def comment? : Option OneLine → List Char
  | none => []
  | some note => ' ' :: '#' :: note.text

/-- A line that belongs to a block scalar of the first column. -/
structure Indented extends OneLine where
  indented : allBlank text = true ∨ text.head? = some ' '

/-- An entry in the first column. -/
inductive Entry where
  /-- A key with a quoted text. -/
  | quoted (key : Identifier) (quote : Quote) (body : List (Piece quote)) (note? : Option OneLine)
  /-- A key with a literal or folded block scalar. -/
  | block (key : Identifier) (mark : Char) (isMark : mark = '|' ∨ mark = '>')
      (indicators : List Char) (isIndicator : ∀ c ∈ indicators, isHeaderIndicator c = true)
      (note? : Option OneLine) (lines : List Indented)
  /-- A comment. -/
  | comment (note : OneLine)
  /-- A line of blanks. -/
  | blank (line : OneLine) (isBlank : allBlank line.text = true)

/-- The text of an entry, without the line feed at its end. -/
def Entry.content : Entry → List Char
  | quoted key quote body note? =>
    key.name.toList ++
      ':' :: ' ' :: quote.char :: (body.flatMap Piece.text ++ quote.char :: comment? note?)
  | block key mark _ indicators _ note? lines =>
    key.name.toList ++ ':' :: ' ' :: mark :: (indicators ++ comment? note?)
      ++ lines.flatMap fun line => '\n' :: line.text
  | comment note => '#' :: note.text
  | blank line _ => line.text

/-- The text of some entries, each ended by a line feed. -/
def entriesText (entries : List Entry) : List Char := entries.flatMap fun e => e.content ++ ['\n']

/-! ## Quoted texts -/

/-- Inside quotes of the first column. -/
def Place.inQuote (quote : Quote) (expectNode afterBlank : Bool) : Place :=
  { quote := some quote.char, flowDepth := 0, expectNode, inPlain := false, afterBlank }

/-- A line feed inside quotes. -/
theorem scanRest_newline (quote : Quote) (e b : Bool) (indent : Nat) (cs : List Char) :
    ∃ i, scanRest (.inQuote quote e b) indent ('\n' :: cs) =
      scanRest (.inQuote quote false true) i cs := by
  obtain ⟨line, ls, hcs⟩ := List.exists_cons_of_ne_nil (List.splitOn_ne_nil '\n' cs)
  have hsplit : ('\n' :: cs).splitOn '\n' = [] :: line :: ls := by
    rw [← hcs]
    exact List.splitOn_append_cons_self [] cs
  refine ⟨indentation line, ?_⟩
  rw [scanRest_of_splitOn hsplit, scanRest_of_splitOn hcs, scanFrom_nil]
  rfl

/-- A character that neither closes the quotes nor begins an escape. -/
theorem scanRest_char (quote : Quote) {d : Char} (hclose : d ≠ quote.char)
    (hescape : quote = .double → d ≠ '\\') (e b : Bool) (indent : Nat) (cs : List Char) :
    ∃ e' b' i, scanRest (.inQuote quote e b) indent ([d] ++ cs) =
      scanRest (.inQuote quote e' b') i cs := by
  by_cases hd : d = '\n'
  · subst hd
    obtain ⟨i, hi⟩ := scanRest_newline quote e b indent cs
    exact ⟨_, _, i, hi⟩
  · refine ⟨e, false, indent, scanRest_append (by simpa using Ne.symm hd) (fun line => ?_) _ _⟩
    apply scanFrom_of_on
    rw [step_of_quote rfl]
    cases quote with
    | double =>
      have hdouble : d ≠ '"' := hclose
      simp [quotedStep, Place.inQuote, Quote.char, hdouble, hescape]
    | single =>
      have hsingle : d ≠ '\'' := hclose
      simp [quotedStep, Place.inQuote, Quote.char, hsingle]

/-- One piece leaves the quotes open. -/
theorem scanRest_piece {quote : Quote} (piece : Piece quote) (e b : Bool) (indent : Nat)
    (cs : List Char) :
    ∃ e' b' i, scanRest (.inQuote quote e b) indent (piece.text ++ cs) =
      scanRest (.inQuote quote e' b') i cs := by
  cases piece with
  | bare d inside => exact scanRest_char .double inside.1 (fun _ => inside.2) e b indent cs
  | literal d inside => exact scanRest_char .single inside (by simp) e b indent cs
  | escaped d =>
    by_cases hd : d = '\n'
    · -- the backslash ends its line, and the line feed stands between the lines
      subst hd
      have hsplit : (['\\', '\n'] ++ cs).splitOn '\n' = ['\\'] :: cs.splitOn '\n' :=
        List.splitOn_append_cons_self ['\\'] cs
      have hbreak : ('\n' :: cs).splitOn '\n' = [] :: cs.splitOn '\n' :=
        List.splitOn_append_cons_self [] cs
      have hend : scanFrom (.inQuote .double e b) ['\\'] =
          scanFrom (.inQuote .double e false) [] := by
        apply scanFrom_of_on
        rw [step_of_quote rfl]
        simp [quotedStep, Place.inQuote, Quote.char]
      obtain ⟨i, hi⟩ := scanRest_newline .double e false indent cs
      refine ⟨false, true, i, ?_⟩
      rw [← hi, Piece.text, scanRest_of_splitOn hsplit, scanRest_of_splitOn hbreak, hend]
    · refine ⟨e, false, indent, scanRest_append ?_ (fun line => ?_) _ _⟩
      · simpa [Piece.text] using Ne.symm hd
      · apply scanFrom_of_on
        rw [step_of_quote rfl]
        simp [quotedStep, Place.inQuote, Quote.char]
  | doubled =>
    refine ⟨e, false, indent, scanRest_append (by decide) (fun line => ?_) _ _⟩
    apply scanFrom_of_on
    rw [step_of_quote rfl]
    simp [quotedStep, Place.inQuote, Quote.char]

/-- The end of a line behind a value that is complete, with or without a comment. -/
theorem carry_scanFrom_comment? (hq : p.quote = none) (hd : p.flowDepth = 0)
    (hp : p.inPlain = false) (indent : Nat) (note? : Option OneLine) :
    (scanFrom p (comment? note?)).carry indent = .ok .initial := by
  cases note? with
  | none =>
    rw [comment?, scanFrom_nil]
    simp [LineEnd.carry, hq, hd, hp, Carry.initial]
  | some note =>
    have hstep : step { p with afterBlank := true } '#' note.text =
        .comment { p with afterBlank := true, inPlain := false } := by
      have hb : isBlank '#' = false := by decide
      simp [step, hq, hb]
    rw [comment?, scanFrom_blank hq (by decide), scanFrom_of_comment hstep]
    simp [LineEnd.carry, hq, hd, Carry.initial]

theorem not_mem_comment? (note? : Option OneLine) : '\n' ∉ comment? note? := by
  cases note? with
  | none => simp [comment?]
  | some note => simp [comment?, note.oneLine]

/-- Behind the closing quote nothing is left open. -/
theorem scanRest_close (quote : Quote) (e b : Bool) (indent : Nat) (note? : Option OneLine) :
    scanRest (.inQuote quote e b) indent (quote.char :: comment? note?) = .ok .initial := by
  have hline : '\n' ∉ quote.char :: comment? note? := by
    rw [List.mem_cons, not_or]
    exact ⟨by cases quote <;> decide, not_mem_comment? note?⟩
  have hsingle : (comment? note?).head? ≠ some '\'' := by
    cases note? <;> simp [comment?]
  have hclose : scanFrom (.inQuote quote e b) (quote.char :: comment? note?) =
      scanFrom ⟨none, 0, false, false, false⟩ (comment? note?) := by
    apply scanFrom_of_on
    rw [step_of_quote rfl]
    cases quote <;> simp [quotedStep, Place.inQuote, Quote.char, hsingle]
  rw [scanRest_of_splitOn (List.splitOn_eq_singleton hline), hclose,
    carry_scanFrom_comment? rfl rfl rfl]
  rfl

/-- A quoted text, also over several lines, hides all of its pieces. -/
theorem scanRest_quoted (quote : Quote) (body : List (Piece quote)) (note? : Option OneLine) :
    scanRest .value 0 (quote.char :: (body.flatMap Piece.text ++ quote.char :: comment? note?)) =
      .ok .initial := by
  have hopen (line : List Char) :
      scanFrom .value ([quote.char] ++ line) = scanFrom (.inQuote quote true false) line := by
    apply scanFrom_of_on
    have hb : isBlank '"' = false ∧ isBlank '\'' = false := by decide
    cases quote <;> simp [step, nodeStep, Place.value, Place.inQuote, Quote.char, hb]
  have hpieces (e b : Bool) (indent : Nat) :
      scanRest (.inQuote quote e b) indent
        (body.flatMap Piece.text ++ quote.char :: comment? note?) = .ok .initial := by
    induction body generalizing e b indent with
    | nil => exact scanRest_close quote e b indent note?
    | cons piece body ih =>
      rw [List.flatMap_cons, List.append_assoc]
      obtain ⟨e', b', i, hpiece⟩ := scanRest_piece piece e b indent
        (body.flatMap Piece.text ++ quote.char :: comment? note?)
      rw [hpiece, ih]
  have hline : '\n' ∉ [quote.char] := by
    cases quote <;> decide
  exact (scanRest_append hline hopen 0 _).trans (hpieces _ _ _)

/-! ## Block scalars -/

/-- The header of a block scalar, with its indicators and its comment. -/
theorem scanFrom_header {mark : Char} (hm : mark = '|' ∨ mark = '>') {indicators : List Char}
    (hi : ∀ c ∈ indicators, isHeaderIndicator c = true) (note? : Option OneLine) :
    scanFrom .value (mark :: (indicators ++ comment? note?)) = .block 0 := by
  have hheader : isBlockHeader (indicators ++ comment? note?) = true := by
    rw [isBlockHeader_eq, List.dropWhile_append_of_pos hi]
    cases note? with
    | none => rfl
    | some note => rfl
  have hb : isBlank '|' = false ∧ isBlank '>' = false := by decide
  apply scanFrom_of_block
  rcases hm with rfl | rfl <;> simp [step, nodeStep, Place.value, hb, hheader]

theorem foldlM_indented (lines : List Indented) :
    (lines.map fun line => line.text).foldlM scanLine .inBlock = .ok .inBlock := by
  induction lines with
  | nil => rfl
  | cons line lines ih =>
    have hline : scanLine .inBlock line.text = .ok .inBlock := by
      rcases line.indented with h | h
      · exact scanLine_blank atTop_inBlock.isQuote h
      · obtain ⟨more, hmore⟩ : ∃ more, line.text = ' ' :: more := by
          cases htext : line.text with
          | nil =>
            rw [htext] at h
            cases h
          | cons c more =>
            rw [htext] at h
            exact ⟨more, by rw [Option.some.inj h]⟩
        have hdeeper : 0 < indentation (' ' :: more) := by
          simp [indentation]
        simp [scanLine, Carry.inBlock, continuesBlock, hmore, hdeeper]
    rw [List.map_cons, List.foldlM_cons, hline]
    exact ih

theorem splitOn_lines {line : List Char} (hline : '\n' ∉ line) (lines : List Indented) :
    (line ++ lines.flatMap fun l => '\n' :: l.text).splitOn '\n' =
      line :: lines.map fun l => l.text := by
  induction lines generalizing line with
  | nil =>
    rw [List.flatMap_nil, List.append_nil]
    exact List.splitOn_eq_singleton hline
  | cons l lines ih =>
    rw [List.flatMap_cons, List.cons_append, List.splitOn_append_cons_self_of_not_mem hline,
      ih l.oneLine]
    rfl

/-! ## Entries one after another -/

/-- An entry shows no tag, and leaves at most a block scalar of the first column. -/
theorem Entry.foldlM_scanLine (hc : AtTop c) (entry : Entry) :
    ∃ next, AtTop next ∧ (entry.content.splitOn '\n').foldlM scanLine c = .ok next := by
  cases entry with
  | quoted key quote body note? =>
    refine ⟨.initial, atTop_initial, ?_⟩
    rw [Entry.content, foldlM_key hc]
    exact scanRest_quoted quote body note?
  | block key mark isMark indicators isIndicator note? lines =>
    refine ⟨.inBlock, atTop_inBlock, ?_⟩
    have hheader : '\n' ∉ mark :: (indicators ++ comment? note?) := by
      rw [List.mem_cons, List.mem_append, not_or, not_or]
      refine ⟨?_, fun h => ?_, not_mem_comment? note?⟩
      · rcases isMark with rfl | rfl <;> decide
      · exact absurd (isIndicator _ h) (by decide)
    have htext : (Entry.block key mark isMark indicators isIndicator note? lines).content =
        key.name.toList ++ ':' :: ' ' :: (mark :: (indicators ++ comment? note?) ++
          lines.flatMap fun l => '\n' :: l.text) := by
      simp [Entry.content]
    rw [htext, foldlM_key hc, scanRest_of_splitOn (splitOn_lines hheader lines),
      scanFrom_header isMark isIndicator]
    exact foldlM_indented lines
  | comment note =>
    refine ⟨.initial, atTop_initial, ?_⟩
    have hline : '\n' ∉ '#' :: note.text := by
      simp [note.oneLine]
    have hdirective : isDirective ('#' :: note.text) = false := by
      have htrim : trim ('#' :: note.text) = '#' :: trimEnd note.text :=
        trim_replicate (n := 0) (by decide)
      simp [isDirective, htrim]
    have hscan : scanFrom (.start .initial) ('#' :: note.text) =
        .open { Place.start .initial with inPlain := false } := by
      have hb : isBlank '#' = false := by decide
      apply scanFrom_of_comment
      simp [step, Place.start, Carry.initial, hb]
    have hblank : allBlank ('#' :: note.text) = false := by
      have hb : isBlank '#' = false := by decide
      simp [allBlank, hb]
    rw [Entry.content, List.splitOn_eq_singleton hline, List.foldlM_cons,
      scanLine_of_atTop hc hblank (by simp), scanContent, hdirective, hscan]
    rfl
  | blank line isBlank =>
    refine ⟨c, hc, ?_⟩
    rw [Entry.content, List.splitOn_eq_singleton line.oneLine, List.foldlM_cons,
      scanLine_blank hc.isQuote isBlank]
    rfl

theorem findOnLines?_entries (hc : AtTop c) (entries : List Entry) {rest : List Char}
    (h : FlushLeft (rest.splitOn '\n')) (number : Nat) :
    findOnLines? c number ((entriesText entries ++ rest).splitOn '\n') =
      findOnLines? .initial (number + (entriesText entries).count '\n') (rest.splitOn '\n') := by
  induction entries generalizing c number with
  | nil => exact findOnLines?_of_atTop hc h number
  | cons entry entries ih =>
    obtain ⟨next, hnext, hentry⟩ := entry.foldlM_scanLine hc
    have htext : entriesText (entry :: entries) ++ rest =
        entry.content ++ '\n' :: (entriesText entries ++ rest) := by
      simp [entriesText]
    have hcount : (entriesText (entry :: entries)).count '\n' =
        entry.content.count '\n' + 1 + (entriesText entries).count '\n' := by
      rw [entriesText, List.flatMap_cons, List.count_append, List.count_append]
      rfl
    rw [htext, hcount, List.splitOn_append_cons_self, findOnLines?_append hentry, length_splitOn,
      ih hnext, Nat.add_assoc]

/-- Entries in front of a source show no tag, and change nothing for what comes behind them but the
numbers of the lines. -/
theorem findUnsupported?_entries (entries : List Entry) (rest : List Char)
    (h : FlushLeft (rest.splitOn '\n')) :
    findUnsupported? (String.ofList (entriesText entries ++ rest)) =
      (findUnsupported? (String.ofList rest)).map
        (Found.mapLine (· + (entriesText entries).count '\n')) := by
  rw [findUnsupported?_eq, findUnsupported?_eq, String.toList_ofList, String.toList_ofList,
    findOnLines?_entries atTop_initial entries h, findOnLines?_add]

/-- Quoted texts that go on behind an escaped quote, an escaped line feed and a doubled apostrophe,
a block scalar and a comment, all of them with the text of a tag, in front of a tag. -/
theorem findUnsupported?_entries_quoted :
    FlushLeft ("b: !!y".toList.splitOn '\n') ∧
      findUnsupported? "A: \"\\\" !!x\\\n'\"\nB: '''\n- !!x' # \"\nC: >2 #\n !!x\n# !!x\nb: !!y" =
        some ⟨"!!y", 8⟩ := by
  have hflush : FlushLeft ("b: !!y".toList.splitOn '\n') := by
    decide
  have hfound : findUnsupported? "b: !!y" = some ⟨"!!y", 1⟩ := by
    decide +kernel
  let entries : List Entry :=
    [.quoted ⟨"A", rfl⟩ .double
      [.escaped '"', .bare ' ' (by decide), .bare '!' (by decide), .bare '!' (by decide),
        .bare 'x' (by decide), .escaped '\n', .bare '\'' (by decide)] none,
      .quoted ⟨"B", rfl⟩ .single
        [.doubled, .literal '\n' (by decide), .literal '-' (by decide), .literal ' ' (by decide),
          .literal '!' (by decide), .literal '!' (by decide), .literal 'x' (by decide)]
        (some ⟨[' ', '"'], by decide⟩),
      .block ⟨"C", rfl⟩ '>' (.inr rfl) ['2'] (List.forall_mem_singleton.mpr rfl)
        (some ⟨[], by decide⟩) [⟨⟨" !!x".toList, by decide⟩, .inr rfl⟩],
      .comment ⟨" !!x".toList, by decide⟩]
  refine ⟨hflush, ?_⟩
  have hentries := findUnsupported?_entries entries "b: !!y".toList hflush
  rw [String.ofList_toList, hfound] at hentries
  exact hentries

end YamlDefs.Tag

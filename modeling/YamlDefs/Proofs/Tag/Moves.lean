import YamlDefs.Tag.Scan
import YamlDefs.Text.Ascii

/-!
# Moves over the parts of a line

What a scan does with a part of a line depends on its place, and on the rest of the line only
where the part ends.

* `scanFrom_of_on`, `scanFrom_of_comment`, `scanFrom_of_block`, `scanFrom_of_found`: one move of a
  scan.
* `isWordChar`: the characters of words; none of them is blank or a mark of the scan.
* `scanFrom_blank`, `scanFrom_spaces`, `scanFrom_word`: blanks and words.
* `scanFrom_indicator`, `scanFrom_indicator_space`: a colon or dash before a blank or the end of the
  line.
* `token_name`, `token_verbatim`, `scanFrom_tag`: a tag where a node may begin.
* `scanFrom_quoted`: a double-quoted text with its quotes and backslashes escaped.
-/

namespace YamlDefs.Tag

open YamlDefs.Text

variable {p : Place} {c : Char} {cs rest : List Char}

/-! ## Single moves -/

theorem scanFrom_nil (p : Place) : scanFrom p [] = .open p := by
  rw [scanFrom]

theorem scanFrom_of_on {q : Place} (h : step p c cs = .on q rest) :
    scanFrom p (c :: cs) = scanFrom q rest := by
  rw [scanFrom]
  split <;> simp_all

theorem scanFrom_of_comment {q : Place} (h : step p c cs = .comment q) :
    scanFrom p (c :: cs) = .open q := by
  rw [scanFrom]
  split <;> simp_all

theorem scanFrom_of_block (h : step p c cs = .block) :
    scanFrom p (c :: cs) = .block p.flowDepth := by
  rw [scanFrom]
  split <;> simp_all

theorem scanFrom_of_found {tag : List Char} (h : step p c cs = .found tag) :
    scanFrom p (c :: cs) = .found tag := by
  rw [scanFrom]
  split <;> simp_all

theorem step_of_quote {quote : Char} (h : p.quote = some quote) :
    step p c cs = quotedStep p quote c cs := by
  unfold step
  split
  · next d hd =>
    obtain rfl : d = quote := Option.some.inj (hd.symm.trans h)
    rfl
  · next hnone =>
    rw [h] at hnone
    cases hnone

/-! ## Words -/

/-- A character of a word: a letter, a digit or an underscore. -/
def isWordChar (c : Char) : Bool := c.isAlphanum || c = '_'

/-- Words have no character that is not in their class. -/
theorem ne_of_isWordChar (h : isWordChar c = true) (d : Char) (hd : isWordChar d = false) :
    c ≠ d := by
  rintro rfl
  rw [h] at hd
  cases hd

theorem isBlank_of_isWordChar (h : isWordChar c = true) : isBlank c = false := by
  have hrange : c.toNat = 95 ∨ 65 ≤ c.toNat ∧ c.toNat ≤ 90 ∨ 97 ≤ c.toNat ∧ c.toNat ≤ 122 ∨
      48 ≤ c.toNat ∧ c.toNat ≤ 57 := by
    rw [isWordChar, Bool.or_eq_true, decide_eq_true_iff] at h
    rcases h with h | rfl
    · exact .inr (isAlphanum_iff_toNat.mp h)
    · exact .inl rfl
  simp [isBlank, blankRanges]
  omega

theorem isWordChar_of_isAlphanum (h : c.isAlphanum = true) : isWordChar c = true := by
  simp [isWordChar, h]

/-- The move over a blank outside quotes. -/
theorem scanFrom_blank (hq : p.quote = none) (hc : isBlank c = true) :
    scanFrom p (c :: cs) = scanFrom { p with afterBlank := true } cs := by
  apply scanFrom_of_on
  simp [step, hq, hc]

theorem scanFrom_spaces (hq : p.quote = none) (hb : p.afterBlank = true) (n : Nat) :
    scanFrom p (List.replicate n ' ' ++ cs) = scanFrom p cs := by
  induction n with
  | zero => rfl
  | succ n ih =>
    have hp : { p with afterBlank := true } = p := by rw [← hb]
    rw [List.replicate_succ, List.cons_append, scanFrom_blank hq (by decide), hp, ih]

/-- The move over a character of a word outside quotes: if a node may begin there, a plain scalar
does, and only a block context goes on with it on the next line. -/
theorem scanFrom_wordChar (hq : p.quote = none) (hc : isWordChar c = true) :
    scanFrom p (c :: cs) = scanFrom
      { p with
        expectNode := false, afterBlank := false,
        inPlain := if p.expectNode then p.flowDepth = 0 else p.inPlain } cs := by
  have hne := ne_of_isWordChar hc
  have hplain (q : Place) :
      plainStep q c cs = .on { q with expectNode := false, afterBlank := false } cs := by
    simp [plainStep, hne ']' rfl, hne '}' rfl, hne ',' rfl, hne ':' rfl, hne '-' rfl, hne '?' rfl]
  have hnode :
      nodeStep p c cs = plainStep { p with inPlain := p.flowDepth = 0 } c cs := by
    simp [nodeStep, hne '!' rfl, hne '&' rfl, hne '"' rfl, hne '\'' rfl, hne '|' rfl, hne '>' rfl,
      hne '[' rfl, hne '{' rfl]
  apply scanFrom_of_on
  cases he : p.expectNode <;>
    simp [step, hq, isBlank_of_isWordChar hc, hne '#' rfl, he, hnode, hplain]

/-- The moves over a word outside quotes. -/
theorem scanFrom_word (hq : p.quote = none) {word : List Char} (hne : word ≠ [])
    (hw : ∀ c ∈ word, isWordChar c = true) :
    scanFrom p (word ++ rest) = scanFrom
      { p with
        expectNode := false, afterBlank := false,
        inPlain := if p.expectNode then p.flowDepth = 0 else p.inPlain } rest := by
  induction word generalizing p with
  | nil => exact absurd rfl hne
  | cons c word ih =>
    obtain ⟨hc, hword⟩ := List.forall_mem_cons.mp hw
    rw [List.cons_append, scanFrom_wordChar hq hc]
    by_cases hnil : word = []
    · subst hnil
      rfl
    · rw [ih (by exact hq) hnil hword]
      simp

/-! ## Indicators -/

/-- A colon, dash or question mark before a blank or at the end of a line, outside quotes: a node
may follow it. -/
theorem scanFrom_indicator (hq : p.quote = none) (hc : c = ':' ∨ c = '-' ∨ c = '?')
    (hcs : ∀ d ∈ cs.head?, isBlank d = true) :
    scanFrom p (c :: cs) =
      scanFrom { p with expectNode := true, inPlain := false, afterBlank := false } cs := by
  have hall : cs.head?.all isBlank = true := by
    cases cs with
    | nil => rfl
    | cons d cs => exact hcs d (by simp)
  have hplain (q : Place) : plainStep q c cs =
      .on { q with expectNode := true, inPlain := false, afterBlank := false } cs := by
    rcases hc with rfl | rfl | rfl <;> simp [plainStep, hall]
  have hnode : nodeStep p c cs = plainStep { p with inPlain := p.flowDepth = 0 } c cs := by
    rcases hc with rfl | rfl | rfl <;> simp [nodeStep]
  have hmark : isBlank c = false ∧ c ≠ '#' := by
    rcases hc with rfl | rfl | rfl <;> decide
  apply scanFrom_of_on
  cases he : p.expectNode <;> simp [step, hq, hmark, he, hnode, hplain]

/-- An indicator with a space behind it. -/
theorem scanFrom_indicator_space (hq : p.quote = none) (hc : c = ':' ∨ c = '-' ∨ c = '?') :
    scanFrom p (c :: ' ' :: cs) =
      scanFrom { p with expectNode := true, inPlain := false, afterBlank := true } cs := by
  have hspace : isBlank ' ' = true := by decide
  rw [scanFrom_indicator hq hc (by simpa using hspace), scanFrom_blank (by exact hq) hspace]

/-! ## Tags -/

/-- A tag that is not verbatim ends before the first character that is none of a token. -/
theorem token_name {inFlow : Bool} {name : List Char}
    (hname : ∀ c ∈ name, isTokenChar inFlow c = true)
    (hrest : ∀ c ∈ rest.head?, isTokenChar inFlow c = false)
    (hlt : ∀ c ∈ (name ++ rest).head?, c ≠ '<') :
    token inFlow (name ++ rest) = (name, rest) := by
  have hstop : rest.takeWhile (isTokenChar inFlow) = [] ∧
      rest.dropWhile (isTokenChar inFlow) = rest := by
    cases rest with
    | nil => exact ⟨rfl, rfl⟩
    | cons c rest => simp [hrest c (by simp)]
  unfold token
  split
  · next h => exact absurd rfl (hlt '<' (by rw [h]; rfl))
  · rw [List.takeWhile_append_of_pos hname, List.dropWhile_append_of_pos hname, hstop.1, hstop.2,
      List.append_nil]

/-- A verbatim tag ends with the first closing bracket. -/
theorem token_verbatim (inFlow : Bool) {uri : List Char} (huri : '>' ∉ uri) :
    token inFlow ('<' :: (uri ++ '>' :: rest)) = ('<' :: (uri ++ ['>']), rest) := by
  have hall : ∀ c ∈ '<' :: uri, (c != '>') = true := by
    intro c hc
    rcases List.mem_cons.mp hc with rfl | hc
    · rfl
    · exact bne_iff_ne.mpr fun he => huri (he ▸ hc)
  have happ : '<' :: (uri ++ '>' :: rest) = ('<' :: uri) ++ '>' :: rest := rfl
  have hdrop : ('<' :: (uri ++ '>' :: rest)).dropWhile (· != '>') = '>' :: rest := by
    rw [happ, List.dropWhile_append_of_pos hall]
    rfl
  have htake : ('<' :: (uri ++ '>' :: rest)).takeWhile (· != '>') = '<' :: uri := by
    rw [happ, List.takeWhile_append_of_pos hall, List.takeWhile_cons_of_neg (by decide),
      List.append_nil]
  unfold token
  rw [hdrop, htake]
  rfl

/-- A tag where a node may begin is found if it is not core, and passed over if it is. -/
theorem scanFrom_tag {tail : List Char} (hq : p.quote = none) (he : p.expectNode = true)
    (ht : token (0 < p.flowDepth) cs = (tail, rest)) :
    scanFrom p ('!' :: cs) =
      if isCore ('!' :: tail) then scanFrom { p with afterBlank := false } rest
      else .found ('!' :: tail) := by
  have hstep : step p '!' cs =
      if isCore ('!' :: tail) then .on { p with afterBlank := false } rest
      else .found ('!' :: tail) := by
    have hb : isBlank '!' = false := by decide
    simp [step, hq, hb, he, nodeStep, ht]
  split at hstep
  · next hc => rw [if_pos hc]; exact scanFrom_of_on hstep
  · next hc => rw [if_neg hc]; exact scanFrom_of_found hstep

/-! ## Quoted texts -/

/-- A text with a backslash in front of each double quote and backslash. -/
def escape : List Char → List Char
  | [] => []
  | c :: cs => if c = '"' ∨ c = '\\' then '\\' :: c :: escape cs else c :: escape cs

/-- A double quote where a node may begin opens a quoted text. -/
theorem scanFrom_openQuote (hq : p.quote = none) (he : p.expectNode = true) :
    scanFrom p ('"' :: cs) =
      scanFrom { p with quote := some '"', inPlain := false, afterBlank := false } cs := by
  apply scanFrom_of_on
  have hb : isBlank '"' = false := by decide
  simp [step, hq, hb, he, nodeStep]

/-- Nothing in an escaped text ends the quotes around it. -/
theorem scanFrom_escape (hq : p.quote = some '"') (content : List Char) :
    scanFrom p (escape content ++ '"' :: rest) =
      scanFrom { p with quote := none, expectNode := false, afterBlank := false } rest := by
  induction content generalizing p with
  | nil =>
    apply scanFrom_of_on
    simp [step, hq, quotedStep]
  | cons c content ih =>
    by_cases hc : c = '"' ∨ c = '\\'
    · have hon : scanFrom p (escape (c :: content) ++ '"' :: rest) =
          scanFrom { p with afterBlank := false } (escape content ++ '"' :: rest) := by
        rw [escape, if_pos hc, List.cons_append]
        apply scanFrom_of_on
        simp [step, hq, quotedStep]
      rw [hon, ih (by exact hq)]
    · have hon : scanFrom p (escape (c :: content) ++ '"' :: rest) =
          scanFrom { p with afterBlank := false } (escape content ++ '"' :: rest) := by
        rw [not_or] at hc
        rw [escape, if_neg (not_or.mpr hc), List.cons_append]
        apply scanFrom_of_on
        simp [step, hq, quotedStep, hc]
      rw [hon, ih (by exact hq)]

/-- The moves over a double-quoted text. -/
theorem scanFrom_quoted (hq : p.quote = none) (he : p.expectNode = true) (content : List Char) :
    scanFrom p ('"' :: (escape content ++ '"' :: rest)) = scanFrom
      { p with expectNode := false, inPlain := false, afterBlank := false } rest := by
  rw [scanFrom_openQuote hq he, scanFrom_escape rfl, ← hq]

end YamlDefs.Tag

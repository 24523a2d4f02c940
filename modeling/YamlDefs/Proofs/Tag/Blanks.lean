import Mathlib.Data.List.TakeWhile
import YamlDefs.Proofs.Tag.Lines
import YamlDefs.Proofs.Tag.Moves

/-!
# Blanks at the end of a line

A scan does not see the blanks at the end of a line: they end no quoted scalar, belong to no tag
that is reported, and leave a block header and an indicator what they are. Only the two quote
characters may be open, which holds along every scan from the beginning of a source.

* `trimEnd_append`, `trim_append`, `indentation_append`: a line with blanks behind it, as a whole.
* `IsQuote`: the quote character of a scalar is one of two; every move keeps this.
* `step_append`: one move with blanks at the end of the line, where only the end of what is left
  differs.
* `carry_scanFrom_append`: so the moves over the line leave the same for the next one.
* `scanLine_blank`, `scanLine_trimEnd`: a line of blanks leaves everything as it is, and any other
  may lose its blanks at the end.
-/

namespace YamlDefs

variable {cs tail : List Char}

namespace Text

theorem not_of_allBlank {f : Char → Bool} (hf : ∀ c, isBlank c = true → f c = false)
    (ht : allBlank tail = true) : ∀ c ∈ tail, f c = false := by
  rw [allBlank, List.all_eq_true] at ht
  exact fun c hc => hf c (ht c hc)

/-- A run of characters none of which is blank ends before blanks as it ends before nothing. -/
theorem dropWhile_append_of_not {f : Char → Bool} (h : ∀ c ∈ tail, f c = false)
    (cs : List Char) : (cs ++ tail).dropWhile f = cs.dropWhile f ++ tail := by
  rw [List.dropWhile_append]
  split
  · next hcs =>
    rw [List.isEmpty_iff.mp hcs, List.nil_append]
    cases tail with
    | nil => rfl
    | cons c tail => rw [List.dropWhile_cons_of_neg (by simp [h c])]
  · rfl

theorem takeWhile_append_of_not {f : Char → Bool} (h : ∀ c ∈ tail, f c = false)
    (cs : List Char) : (cs ++ tail).takeWhile f = cs.takeWhile f := by
  rw [List.takeWhile_append]
  split
  · next hcs =>
    have htail : tail.takeWhile f = [] := by
      cases tail with
      | nil => rfl
      | cons c tail => rw [List.takeWhile_cons_of_neg (by simp [h c])]
    rw [htail, List.append_nil]
    exact (List.takeWhile_prefix f).eq_of_length hcs |>.symm
  · rfl

/-- Blanks behind a text do not change whether it begins with some other character. -/
theorem head?_append_eq_some_iff {d : Char} (ht : allBlank tail = true) (hd : isBlank d = false)
    (cs : List Char) : (cs ++ tail).head? = some d ↔ cs.head? = some d := by
  cases cs with
  | nil =>
    have htail : tail.head? ≠ some d := by
      intro h
      rw [allBlank, List.all_eq_true] at ht
      have hblank := ht d (List.mem_of_head? h)
      rw [hd] at hblank
      cases hblank
    simpa using htail
  | cons c cs => simp

theorem trimStart_eq_nil_iff : trimStart cs = [] ↔ allBlank cs = true := by
  rw [trimStart, List.dropWhile_eq_nil_iff, allBlank, List.all_eq_true]

theorem head?_trimStart_append (ht : allBlank tail = true) (cs : List Char) :
    (trimStart (cs ++ tail)).head? = (trimStart cs).head? := by
  unfold trimStart
  rw [List.dropWhile_append]
  split
  · next hcs =>
    have htail : tail.dropWhile isBlank = [] := trimStart_eq_nil_iff.mpr ht
    rw [htail, List.isEmpty_iff.mp hcs]
  · next hcs =>
    cases h : cs.dropWhile isBlank with
    | nil => exact absurd (by rw [h]; rfl) hcs
    | cons c rest => rfl

theorem trimEnd_append (ht : allBlank tail = true) (cs : List Char) :
    trimEnd (cs ++ tail) = trimEnd cs := by
  have hrev : ∀ c ∈ tail.reverse, isBlank c = true := by
    simpa [allBlank] using ht
  rw [trimEnd, List.reverse_append, List.dropWhile_append_of_pos hrev, trimEnd]

/-- A line is what is left of it without its blanks at the end, and these blanks. -/
theorem exists_trimEnd_append (cs : List Char) :
    ∃ tail, allBlank tail = true ∧ trimEnd cs ++ tail = cs := by
  refine ⟨(cs.reverse.takeWhile isBlank).reverse, ?_, ?_⟩
  · rw [allBlank, List.all_eq_true]
    exact fun c hc => List.mem_takeWhile_imp (List.mem_reverse.mp hc)
  · rw [trimEnd, ← List.reverse_append, List.takeWhile_append_dropWhile, List.reverse_reverse]

theorem trim_append (ht : allBlank tail = true) (cs : List Char) : trim (cs ++ tail) = trim cs := by
  unfold trim trimStart
  rw [List.dropWhile_append]
  split
  · next hcs =>
    have htail : tail.dropWhile isBlank = [] := trimStart_eq_nil_iff.mpr ht
    rw [List.isEmpty_iff.mp hcs, htail]
  · exact trimEnd_append ht _

theorem trim_eq_nil_iff : trim cs = [] ↔ allBlank cs = true := by
  constructor
  · intro h
    rw [← trimStart_eq_nil_iff]
    cases hs : trimStart cs with
    | nil => rfl
    | cons c rest =>
      have hc : isBlank c = false := by
        have := List.head?_dropWhile_not isBlank cs
        rw [trimStart] at hs
        simpa [hs] using this
      rw [trim, hs, trimEnd_cons hc] at h
      cases h
  · intro h
    rw [trim, trimStart_eq_nil_iff.mpr h]
    rfl

end Text

namespace Tag

open YamlDefs.Text

variable {p q : Place} {c : Char} {rest line : List Char}

/-! ## Lines as a whole -/

theorem indentation_append (h : allBlank cs = false) (tail : List Char) :
    indentation (cs ++ tail) = indentation cs := by
  unfold indentation
  rw [List.takeWhile_append]
  split
  · next hcs =>
    -- a line of spaces alone would be blank
    have hspaces : cs.takeWhile (· = ' ') = cs := (List.takeWhile_prefix _).eq_of_length hcs
    have hblank : allBlank cs = true := by
      rw [allBlank, List.all_eq_true]
      intro c hc
      rw [← hspaces] at hc
      obtain rfl : c = ' ' := by simpa using List.mem_takeWhile_imp hc
      decide
    rw [hblank] at h
    cases h
  · rfl

/-! ## Quote characters -/

/-- An open quoted scalar has one of the two quote characters. -/
def IsQuote (quote : Option Char) : Prop := ∀ c ∈ quote, c = '"' ∨ c = '\''

theorem isQuote_initial : IsQuote Carry.initial.quote := by
  intro c hc
  cases hc

/-- Where the scan stands after a move, unless the line ends it. -/
def Move.place? : Move → Option Place
  | on place _ => some place
  | comment place => some place
  | block => none
  | found _ => none

/-- A plain move goes on right behind its character, inside the same quotes. -/
theorem exists_plainStep (p : Place) (c : Char) (cs : List Char) :
    ∃ q, plainStep p c cs = .on q cs ∧ q.quote = p.quote := by
  unfold plainStep
  split
  · exact ⟨_, rfl, rfl⟩
  · split
    · exact ⟨_, rfl, rfl⟩
    · split <;> exact ⟨_, rfl, rfl⟩

theorem isQuote_plainStep (hp : IsQuote p.quote) (h : q ∈ (plainStep p c cs).place?) :
    IsQuote q.quote := by
  obtain ⟨q', hstep, hq⟩ := exists_plainStep p c cs
  rw [hstep] at h
  cases h
  rw [hq]
  exact hp

theorem isQuote_nodeStep (hp : IsQuote p.quote) (h : q ∈ (nodeStep p c cs).place?) :
    IsQuote q.quote := by
  unfold nodeStep at h
  split at h
  · dsimp only at h
    split at h
    · cases h; exact hp
    · cases h
  · split at h
    · cases h; exact hp
    · split at h
      · next hc =>
        cases h
        intro d hd
        obtain rfl : c = d := by simpa using hd
        exact hc
      · split at h
        · cases h
        · split at h
          · cases h; exact hp
          · exact isQuote_plainStep (by exact hp) h

/-- Every move keeps to the two quote characters. -/
theorem isQuote_step (hp : IsQuote p.quote) (h : q ∈ (step p c cs).place?) : IsQuote q.quote := by
  unfold step at h
  split at h
  · unfold quotedStep at h
    split at h
    · cases h; exact hp
    · split at h
      · cases h
        intro d hd
        cases hd
      · cases h; exact hp
  · split at h
    · cases h; exact hp
    · split at h
      · cases h; exact hp
      · split at h
        · exact isQuote_nodeStep hp h
        · exact isQuote_plainStep hp h

theorem isQuote_scanFrom (hp : IsQuote p.quote) (h : scanFrom p cs = .open q) :
    IsQuote q.quote := by
  fun_induction scanFrom p cs with
  | case1 p => cases h; exact hp
  | case2 p c cs r rest hstep ih => exact ih (isQuote_step hp (by rw [hstep]; rfl)) h
  | case3 p c cs r hstep => cases h; exact isQuote_step hp (by rw [hstep]; rfl)
  | case4 => cases h
  | case5 => cases h

/-- So does what a line leaves for the next one. -/
theorem isQuote_scanLine {c next : Carry} (hc : IsQuote c.quote)
    (h : scanLine c line = .ok next) : IsQuote next.quote := by
  unfold scanLine scanContent at h
  split at h
  · cases h; exact hc
  · split at h
    · cases h; exact hc
    · split at h
      · cases h; exact hc
      · cases hscan : scanFrom (.start c) line with
        | «open» p =>
          rw [hscan] at h
          cases h
          exact isQuote_scanFrom (by exact hc) hscan
        | block depth =>
          rw [hscan] at h
          cases h
          intro d hd
          cases hd
        | found tag =>
          rw [hscan] at h
          cases h

/-! ## Moves with blanks at the end of the line -/

/-- A move before a longer rest of the line. -/
def Move.append (tail : List Char) : Move → Move
  | on place rest => on place (rest ++ tail)
  | comment place => comment place
  | block => block
  | found tag => found tag

/-- A verbatim token that the line does not close. -/
def Unclosed (cs : List Char) : Prop := cs.head? = some '<' ∧ '>' ∉ cs

/-- Nothing of this kind is reported. -/
theorem isCore_of_unclosed (h : Unclosed cs) : isCore ('!' :: cs) = true := by
  obtain ⟨hhead, hclose⟩ := h
  cases cs with
  | nil => cases hhead
  | cons c cs =>
    obtain rfl : c = '<' := by simpa using hhead
    have hlast : cs.getLast? ≠ some '>' := fun hl =>
      hclose (List.mem_cons_of_mem _ (List.mem_of_getLast? hl))
    simp [isCore, verbatimUri?, hlast]

theorem token_of_unclosed (inFlow : Bool) (h : Unclosed cs) : token inFlow cs = (cs, []) := by
  obtain ⟨hhead, hclose⟩ := h
  cases cs with
  | nil => cases hhead
  | cons c cs =>
    obtain rfl : c = '<' := by simpa using hhead
    have hdrop : ('<' :: cs).dropWhile (· != '>') = [] := by
      rw [List.dropWhile_eq_nil_iff]
      intro d hd
      exact bne_iff_ne.mpr fun he => hclose (he ▸ hd)
    unfold token
    simp only [hdrop]

theorem token_of_head? (inFlow : Bool) (h : cs.head? ≠ some '<') :
    token inFlow cs = (cs.takeWhile (isTokenChar inFlow), cs.dropWhile (isTokenChar inFlow)) := by
  unfold token
  split
  · exact absurd rfl h
  · rfl

/-- Any other token ends where it ends without the blanks. -/
theorem token_append_blank (inFlow : Bool) (ht : allBlank tail = true) (h : ¬ Unclosed cs) :
    token inFlow (cs ++ tail) = ((token inFlow cs).1, (token inFlow cs).2 ++ tail) := by
  by_cases hhead : cs.head? = some '<'
  · have hclose : '>' ∈ cs := Classical.not_not.mp fun hn => h ⟨hhead, hn⟩
    cases cs with
    | nil => cases hhead
    | cons c cs =>
      obtain rfl : c = '<' := by simpa using hhead
      have hcs : '>' ∈ cs := by simpa using hclose
      obtain ⟨uri, rest, rfl, huri⟩ := List.eq_append_cons_of_mem hcs
      have happ : '<' :: (uri ++ '>' :: rest) ++ tail = '<' :: (uri ++ '>' :: (rest ++ tail)) := by
        simp
      rw [happ, token_verbatim inFlow huri, token_verbatim inFlow huri]
  · have hstop : ∀ c ∈ tail, isTokenChar inFlow c = false :=
      not_of_allBlank (fun c hc => by simp [isTokenChar, hc]) ht
    have hheadTail : (cs ++ tail).head? ≠ some '<' := fun hc =>
      hhead ((head?_append_eq_some_iff ht (by decide) cs).mp hc)
    rw [token_of_head? inFlow hheadTail, token_of_head? inFlow hhead,
      takeWhile_append_of_not hstop, dropWhile_append_of_not hstop]

/-- Whether a character may stand between the mark of a block scalar and the end of its header. -/
def isHeaderIndicator (c : Char) : Bool := c = '+' || c = '-' || c.isDigit

theorem isBlank_of_isHeaderIndicator (h : isHeaderIndicator c = true) : isBlank c = false := by
  rw [isHeaderIndicator, Bool.or_eq_true, Bool.or_eq_true, decide_eq_true_iff,
    decide_eq_true_iff] at h
  rcases h with (rfl | rfl) | h
  · decide
  · decide
  · exact isBlank_of_isWordChar (isWordChar_of_isAlphanum (isAlphanum_iff.mpr
      (.inr (.inr (isDigit_iff.mp h)))))

theorem isBlockHeader_eq (cs : List Char) :
    isBlockHeader cs = (trimStart (cs.dropWhile isHeaderIndicator)).head?.all (· = '#') := by
  unfold isBlockHeader isHeaderIndicator
  split
  · next h =>
    rw [h]
    rfl
  · next h =>
    rw [h]
    rfl

theorem isBlockHeader_append (ht : allBlank tail = true) (cs : List Char) :
    isBlockHeader (cs ++ tail) = isBlockHeader cs := by
  have hstop : ∀ c ∈ tail, isHeaderIndicator c = false := by
    refine not_of_allBlank (fun c hc => ?_) ht
    rw [← Bool.not_eq_true]
    intro h
    rw [isBlank_of_isHeaderIndicator h] at hc
    cases hc
  have hdrop : (cs ++ tail).dropWhile isHeaderIndicator = cs.dropWhile isHeaderIndicator ++ tail :=
    dropWhile_append_of_not hstop cs
  rw [isBlockHeader_eq, isBlockHeader_eq, hdrop, head?_trimStart_append ht]

theorem quotedStep_append (ht : allBlank tail = true) (p : Place) (quote c : Char)
    (cs : List Char) :
    ∃ more, allBlank more = true ∧
      quotedStep p quote c (cs ++ tail) = (quotedStep p quote c cs).append more := by
  have hdouble := head?_append_eq_some_iff ht (d := '\'') (by decide) cs
  unfold quotedStep
  simp only [hdouble]
  split
  · cases cs with
    | nil =>
      refine ⟨tail.drop 1, ?_, rfl⟩
      rw [allBlank, List.all_eq_true] at ht ⊢
      exact fun c hc => ht c (List.mem_of_mem_drop hc)
    | cons d cs => exact ⟨tail, ht, rfl⟩
  · split <;> exact ⟨tail, ht, rfl⟩

theorem plainStep_append (ht : allBlank tail = true) (p : Place) (c : Char) (cs : List Char) :
    plainStep p c (cs ++ tail) = (plainStep p c cs).append tail := by
  have hhead : (cs ++ tail).head?.all isBlank = cs.head?.all isBlank := by
    cases cs with
    | nil =>
      rw [allBlank] at ht
      cases tail with
      | nil => rfl
      | cons d tail =>
        rw [List.all_cons, Bool.and_eq_true] at ht
        exact ht.1
    | cons d cs => rfl
  unfold plainStep
  rw [hhead]
  split
  · rfl
  · split
    · rfl
    · split <;> rfl

/-- A move over a token with blanks behind it at the end of the line. -/
theorem exists_token_append (ht : allBlank tail = true) (inFlow : Bool) (cs : List Char) :
    ∃ more, allBlank more = true ∧
      (token inFlow (cs ++ tail)).2 = (token inFlow cs).2 ++ more ∧
      (isCore ('!' :: (token inFlow (cs ++ tail)).1) = isCore ('!' :: (token inFlow cs).1)) ∧
      (isCore ('!' :: (token inFlow cs).1) = false →
        (token inFlow (cs ++ tail)).1 = (token inFlow cs).1) := by
  by_cases h : Unclosed cs
  · have happ : Unclosed (cs ++ tail) := by
      obtain ⟨hhead, hclose⟩ := h
      refine ⟨(head?_append_eq_some_iff ht (by decide) cs).mpr hhead, ?_⟩
      rw [List.mem_append, not_or]
      refine ⟨hclose, fun hmem => ?_⟩
      rw [allBlank, List.all_eq_true] at ht
      exact absurd (ht '>' hmem) (by decide)
    rw [token_of_unclosed inFlow h, token_of_unclosed inFlow happ]
    refine ⟨[], rfl, rfl, ?_, ?_⟩
    · rw [isCore_of_unclosed h, isCore_of_unclosed happ]
    · intro hc
      rw [isCore_of_unclosed h] at hc
      cases hc
  · rw [token_append_blank inFlow ht h]
    exact ⟨tail, ht, rfl, rfl, fun _ => rfl⟩

theorem nodeStep_append (ht : allBlank tail = true) (p : Place) (c : Char) (cs : List Char) :
    ∃ more, allBlank more = true ∧
      nodeStep p c (cs ++ tail) = (nodeStep p c cs).append more := by
  obtain ⟨more, hmore, hrest, hcore, htag⟩ := exists_token_append ht (0 < p.flowDepth) cs
  unfold nodeStep
  rw [isBlockHeader_append ht, plainStep_append ht]
  split
  · next hc =>
    subst hc
    refine ⟨more, hmore, ?_⟩
    dsimp only
    rw [hcore, hrest]
    split
    · rfl
    · next hforeign =>
      rw [htag (by simpa using hforeign)]
      rfl
  · split
    · exact ⟨more, hmore, by rw [hrest]; rfl⟩
    · refine ⟨tail, ht, ?_⟩
      split
      · rfl
      · split
        · rfl
        · split <;> rfl

/-- A move before blanks at the end of the line is the move without them, and leaves blanks more. -/
theorem step_append (ht : allBlank tail = true) (p : Place) (c : Char) (cs : List Char) :
    ∃ more, allBlank more = true ∧ step p c (cs ++ tail) = (step p c cs).append more := by
  unfold step
  split
  · exact quotedStep_append ht ..
  · split
    · exact ⟨tail, ht, rfl⟩
    · split
      · exact ⟨tail, ht, rfl⟩
      · split
        · exact nodeStep_append ht ..
        · exact ⟨tail, ht, plainStep_append ht ..⟩

/-! ## Lines with blanks at the end -/

/-- Blanks alone change nothing that is carried on. -/
theorem carry_scanFrom_blanks (ht : allBlank tail = true) (hp : IsQuote p.quote) (indent : Nat) :
    (scanFrom p tail).carry indent = (LineEnd.open p).carry indent := by
  induction tail generalizing p with
  | nil => rw [scanFrom_nil]
  | cons c tail ih =>
    rw [allBlank, List.all_cons, Bool.and_eq_true] at ht
    obtain ⟨hc, htail⟩ := ht
    have hstep : ∃ b, step p c tail = .on { p with afterBlank := b } tail := by
      cases hq : p.quote with
      | none => exact ⟨true, by simp [step, hq, hc]⟩
      | some quote =>
        -- a blank is neither quote character, and no backslash
        refine ⟨false, ?_⟩
        have hne (d : Char) (hd : isBlank d = false) : c ≠ d := by
          rintro rfl
          rw [hc] at hd
          cases hd
        have hquote : c ≠ quote := by
          rcases hp quote hq with rfl | rfl
          · exact hne _ (by decide)
          · exact hne _ (by decide)
        simp [step, hq, quotedStep, hquote, hne '\\' (by decide), hne '\'' (by decide)]
    obtain ⟨b, hb⟩ := hstep
    rw [scanFrom_of_on hb, ih htail (by exact hp)]
    rfl

/-- Blanks at the end of a line change nothing that the line leaves, nor the tag that it shows. -/
theorem carry_scanFrom_append (ht : allBlank tail = true) (hp : IsQuote p.quote) (indent : Nat)
    (cs : List Char) :
    (scanFrom p (cs ++ tail)).carry indent = (scanFrom p cs).carry indent := by
  fun_induction scanFrom p cs generalizing tail with
  | case1 p => exact carry_scanFrom_blanks ht hp indent
  | case2 p c cs q rest hstep ih =>
    obtain ⟨more, hmore, happ⟩ := step_append ht p c cs
    rw [hstep] at happ
    rw [List.cons_append, scanFrom_of_on happ, ih hmore (isQuote_step hp (by rw [hstep]; rfl))]
  | case3 p c cs q hstep =>
    obtain ⟨more, -, happ⟩ := step_append ht p c cs
    rw [hstep] at happ
    rw [List.cons_append, scanFrom_of_comment happ]
  | case4 p c cs hstep =>
    obtain ⟨more, -, happ⟩ := step_append ht p c cs
    rw [hstep] at happ
    rw [List.cons_append, scanFrom_of_block happ]
  | case5 p c cs tag hstep =>
    obtain ⟨more, -, happ⟩ := step_append ht p c cs
    rw [hstep] at happ
    rw [List.cons_append, scanFrom_of_found happ]

theorem isDirective_of_allBlank (hl : allBlank line = true) : isDirective line = false := by
  simp [isDirective, trim_eq_nil_iff.mpr hl]

/-- A line of blanks leaves everything as it is. -/
theorem scanLine_blank {c : Carry} (hc : IsQuote c.quote) (hl : allBlank line = true) :
    scanLine c line = .ok c := by
  have htrim := trim_eq_nil_iff.mpr hl
  obtain ⟨quote, depth, block, plain⟩ := c
  cases block with
  | some i => simp [scanLine, continuesBlock, htrim]
  | none =>
    cases plain with
    | some i => simp [scanLine, continuesPlain, htrim]
    | none =>
      have hscan : (scanFrom (.start ⟨quote, depth, none, none⟩) line).carry (indentation line) =
          .ok ⟨quote, depth, none, none⟩ := carry_scanFrom_blanks hl (by exact hc) _
      simp [scanLine, scanContent, isDirective_of_allBlank hl, hscan]

/-- A line may have other blanks at its end. -/
theorem scanLine_append {c : Carry} (hc : IsQuote c.quote) (ht : allBlank tail = true)
    (line : List Char) : scanLine c (line ++ tail) = scanLine c line := by
  by_cases hl : allBlank line = true
  · have hall : allBlank (line ++ tail) = true := by
      rw [allBlank, List.all_append, Bool.and_eq_true]
      exact ⟨hl, ht⟩
    rw [scanLine_blank hc hall, scanLine_blank hc hl]
  · have hindent := indentation_append (by simpa using hl) tail
    have htrim := trim_append ht line
    have hscan := carry_scanFrom_append (p := .start c) ht (by exact hc) (indentation line) line
    have hblock : continuesBlock (line ++ tail) = continuesBlock line := by
      funext parent
      rw [continuesBlock, continuesBlock, hindent, htrim]
    have hplain : continuesPlain (line ++ tail) = continuesPlain line := by
      funext parent
      rw [continuesPlain, continuesPlain, hindent, htrim]
    have hdirective : isDirective (line ++ tail) = isDirective line := by
      rw [isDirective, isDirective, htrim]
    unfold scanLine scanContent
    rw [hblock, hplain, hdirective, hindent, hscan]

theorem scanLine_trimEnd {c : Carry} (hc : IsQuote c.quote) (line : List Char) :
    scanLine c (trimEnd line) = scanLine c line := by
  obtain ⟨tail, htail, happ⟩ := exists_trimEnd_append line
  rw [← scanLine_append hc htail, happ]

end Tag

end YamlDefs

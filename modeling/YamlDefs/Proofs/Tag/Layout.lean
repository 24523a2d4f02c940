import Mathlib.Data.List.Forall2
import YamlDefs.Proofs.Tag.Blanks

/-!
# Layout of a source

Blanks at the ends of lines, lines of blanks between them, and a common indentation do not change
which tag a scan finds.

* `Carry.deeper`: what is carried on where every line is deeper; `scanLine_deeper`: scanning deeper
  lines.
* `findUnsupported?_eq`: the lines of a source may be taken between its line feeds, with the
  carriage returns that stand there.
* `Relaid`: lines in another layout; `Relaid.number`: where each of them stands in it.
* `findOnLines?_relaid`: the two runs, line by line, where a line of blanks is a step of one run
  only.
* `findUnsupported?_relaid`: the same tag is found in both layouts, on the line that shows it.
-/

namespace YamlDefs.Tag

open YamlDefs.Text

variable {p : Place} {c : Carry} {cs line : List Char} {k : Nat}

/-! ## Deeper lines -/

/-- What is carried on where every line is deeper by some spaces. -/
def Carry.deeper (k : Nat) (c : Carry) : Carry :=
  { c with blockIndent := c.blockIndent.map (· + k), plainIndent := c.plainIndent.map (· + k) }

theorem LineEnd.carry_add (k indent : Nat) (e : LineEnd) :
    e.carry (indent + k) = (e.carry indent).map (Carry.deeper k) := by
  cases e with
  | «open» p =>
    by_cases h : p.inPlain ∧ p.quote = none ∧ p.flowDepth = 0 <;>
      simp [LineEnd.carry, Except.map, Carry.deeper, h]
  | block depth => rfl
  | found tag => rfl

theorem indentation_spaces (k : Nat) (line : List Char) :
    indentation (List.replicate k ' ' ++ line) = indentation line + k := by
  unfold indentation
  rw [List.takeWhile_append_of_pos (by simp), List.length_append, List.length_replicate,
    Nat.add_comm]

theorem allBlank_spaces (k : Nat) : allBlank (List.replicate k ' ') = true := by
  rw [allBlank, List.all_eq_true]
  intro c hc
  rw [List.eq_of_mem_replicate hc]
  decide

theorem trim_spaces (k : Nat) (line : List Char) :
    trim (List.replicate k ' ' ++ line) = trim line := by
  have hspaces := allBlank_spaces k
  rw [allBlank, List.all_eq_true] at hspaces
  rw [trim, trimStart, List.dropWhile_append_of_pos hspaces, trim, trimStart]

/-- Inside quotes it does not matter whether a blank came before. -/
theorem carry_scanFrom_afterBlank {quote : Char} (hq : p.quote = some quote) (b : Bool)
    (indent : Nat) (cs : List Char) :
    (scanFrom { p with afterBlank := b } cs).carry indent = (scanFrom p cs).carry indent := by
  cases cs with
  | nil =>
    rw [scanFrom_nil, scanFrom_nil]
    rfl
  | cons c cs =>
    have hsame : quotedStep { p with afterBlank := b } quote c cs = quotedStep p quote c cs := rfl
    have hon : ∃ q rest, quotedStep p quote c cs = .on q rest := by
      unfold quotedStep
      split
      · exact ⟨_, _, rfl⟩
      · split <;> exact ⟨_, _, rfl⟩
    obtain ⟨q, rest, hstep⟩ := hon
    have hp : step p c cs = .on q rest := (step_of_quote hq).trans hstep
    have hpb : step { p with afterBlank := b } c cs = .on q rest :=
      (step_of_quote (p := { p with afterBlank := b }) hq).trans (hsame.trans hstep)
    rw [scanFrom_of_on hp, scanFrom_of_on hpb]

/-- Spaces at the beginning of a line. -/
theorem carry_scanFrom_spaces (hp : IsQuote p.quote) (hb : p.afterBlank = true) (indent k : Nat)
    (cs : List Char) :
    (scanFrom p (List.replicate k ' ' ++ cs)).carry indent = (scanFrom p cs).carry indent := by
  cases hq : p.quote with
  | none => rw [scanFrom_spaces hq hb]
  | some quote =>
    have hquote : ' ' ≠ quote := by
      rcases hp quote hq with rfl | rfl <;> decide
    clear hb
    induction k generalizing p with
    | zero => rfl
    | succ k ih =>
      have hstep : step p ' ' (List.replicate k ' ' ++ cs) =
          .on { p with afterBlank := false } (List.replicate k ' ' ++ cs) := by
        simp [step, hq, quotedStep, hquote]
      rw [List.replicate_succ, List.cons_append, scanFrom_of_on hstep, ih (by exact hp)
        (by exact hq), carry_scanFrom_afterBlank hq]

/-- A deeper line shows the same tag, or leaves the same with deeper indentations. -/
theorem scanLine_deeper (hc : IsQuote c.quote) (k : Nat) (line : List Char) :
    scanLine (c.deeper k) (List.replicate k ' ' ++ line) =
      (scanLine c line).map (Carry.deeper k) := by
  have hindent := indentation_spaces k line
  have htrim := trim_spaces k line
  have hblock : (c.deeper k).blockIndent.any (continuesBlock (List.replicate k ' ' ++ line)) =
      c.blockIndent.any (continuesBlock line) := by
    rw [Carry.deeper, Option.any_map]
    congr 1
    funext parent
    simp [continuesBlock, hindent, htrim]
  have hplain : (c.deeper k).plainIndent.any (continuesPlain (List.replicate k ' ' ++ line)) =
      c.plainIndent.any (continuesPlain line) := by
    rw [Carry.deeper, Option.any_map]
    congr 1
    funext parent
    simp [continuesPlain, hindent, htrim]
  have hdirective : isDirective (List.replicate k ' ' ++ line) = isDirective line := by
    rw [isDirective, isDirective, htrim]
  have hscan : (scanFrom (.start (c.deeper k)) (List.replicate k ' ' ++ line)).carry
      (indentation line + k) =
      ((scanFrom (.start c) line).carry (indentation line)).map (Carry.deeper k) := by
    rw [← LineEnd.carry_add]
    exact carry_scanFrom_spaces (by exact hc) rfl _ k line
  have hquote : (c.deeper k).quote = c.quote := rfl
  unfold scanLine scanContent
  rw [hblock, hplain, hquote, hdirective, hindent, hscan]
  by_cases hb : c.blockIndent.any (continuesBlock line) = true
  · rw [if_pos hb, if_pos hb]
    rfl
  · rw [if_neg hb, if_neg hb]
    by_cases hp : c.plainIndent.any (continuesPlain line) = true
    · rw [if_pos hp, if_pos hp]
      rfl
    · rw [if_neg hp, if_neg hp]
      split <;> rfl

/-! ## Numbers of lines -/

/-- A found tag whose line gets another number. -/
def Found.mapLine (f : Nat → Nat) (found : Found) : Found := { found with line := f found.line }

/-- The number of the first line counts for the numbers of all. -/
theorem findOnLines?_add (c : Carry) (number n : Nat) (ls : List (List Char)) :
    findOnLines? c (number + n) ls = (findOnLines? c number ls).map (Found.mapLine (· + n)) := by
  induction ls generalizing c number with
  | nil => rfl
  | cons l ls ih =>
    unfold findOnLines?
    cases scanLine c l with
    | error tag => rfl
    | ok next =>
      dsimp only
      rw [Nat.add_right_comm, ih]

/-! ## Lines between line feeds -/

/-- An empty line behind the others shows no tag. -/
theorem findOnLines?_concat_nil (hc : IsQuote c.quote) (number : Nat) (ls : List (List Char)) :
    findOnLines? c number (ls ++ [[]]) = findOnLines? c number ls := by
  induction ls generalizing c number with
  | nil =>
    have hscan : scanLine c [] = .ok c := scanLine_blank hc rfl
    rw [List.nil_append, findOnLines?.eq_2, hscan]
    rfl
  | cons l ls ih =>
    rw [List.cons_append, findOnLines?, findOnLines?]
    cases h : scanLine c l with
    | error tag => rfl
    | ok next => exact ih (isQuote_scanLine hc h) _

/-- Lines that differ in nothing but the blanks at their ends. -/
def Alike (l m : List Char) : Prop := trimEnd l = trimEnd m

instance (l m : List Char) : Decidable (Alike l m) :=
  inferInstanceAs (Decidable (trimEnd l = trimEnd m))

theorem scanLine_of_alike {l m : List Char} (hc : IsQuote c.quote) (h : Alike l m) :
    scanLine c l = scanLine c m := by
  rw [← scanLine_trimEnd hc l, h, scanLine_trimEnd hc m]

theorem Alike.cons {l m : List Char} (h : Alike l m) (d : Char) : Alike (d :: l) (d :: m) := by
  have hd (n : List Char) : trimEnd (d :: trimEnd n) = trimEnd (d :: n) := by
    obtain ⟨tail, htail, happ⟩ := exists_trimEnd_append n
    rw [← trimEnd_append htail, List.cons_append, happ]
  rw [Alike, ← hd, h, hd]

/-- Lines that agree but for the blanks at their ends show the same tag. -/
theorem findOnLines?_congr (hc : IsQuote c.quote) (number : Nat) {ls ms : List (List Char)}
    (h : List.Forall₂ Alike ls ms) :
    findOnLines? c number ls = findOnLines? c number ms := by
  induction h generalizing c number with
  | nil => rfl
  | @cons l m ls ms hlm _ ih =>
    rw [findOnLines?, findOnLines?, scanLine_of_alike hc hlm]
    cases h : scanLine c m with
    | error tag => rfl
    | ok next => exact ih (isQuote_scanLine hc h) _

/-- Between line feeds stand the lines of a text, where a carriage return at the end of a line is
kept and the last line feed has an empty line behind it. -/
theorem exists_splitOn (cs : List Char) :
    ∃ ms, List.Forall₂ Alike (lines cs) ms ∧
      (cs.splitOn '\n' = ms ∨ cs.splitOn '\n' = ms ++ [[]]) := by
  fun_induction lines cs with
  | case1 => exact ⟨[], .nil, .inr rfl⟩
  | case2 cs ih =>
    obtain ⟨ms, hms, hsplit⟩ := ih
    have hcons : ('\n' :: cs).splitOn '\n' = [] :: cs.splitOn '\n' :=
      List.splitOn_append_cons_self [] cs
    refine ⟨[] :: ms, .cons rfl hms, ?_⟩
    rw [hcons]
    exact hsplit.imp (congrArg _) (congrArg _)
  | case3 cs ih =>
    obtain ⟨ms, hms, hsplit⟩ := ih
    have hcons : ('\r' :: '\n' :: cs).splitOn '\n' = ['\r'] :: cs.splitOn '\n' :=
      List.splitOn_append_cons_self ['\r'] cs
    refine ⟨['\r'] :: ms, .cons (by decide) hms, ?_⟩
    rw [hcons]
    exact hsplit.imp (congrArg _) (congrArg _)
  | case4 c cs hn hr hnil ih =>
    obtain ⟨ms, hms, hsplit⟩ := ih
    rw [hnil, List.forall₂_nil_left_iff] at hms
    subst hms
    refine ⟨[[c]], .cons rfl .nil, .inl ?_⟩
    rw [List.splitOn_cons_eq_if_modifyHead, if_neg (by simpa using hn)]
    rcases hsplit with h | h
    · exact absurd h (by simp)
    · rw [h]
      rfl
  | case5 c cs hn hr line rest hcons ih =>
    obtain ⟨ms, hms, hsplit⟩ := ih
    rw [hcons, List.forall₂_cons_left_iff] at hms
    obtain ⟨m, ms, hm, hms, rfl⟩ := hms
    refine ⟨(c :: m) :: ms, .cons (hm.cons c) hms, ?_⟩
    rw [List.splitOn_cons_eq_if_modifyHead, if_neg (by simpa using hn)]
    rcases hsplit with h | h
    · exact .inl (by rw [h]; rfl)
    · exact .inr (by rw [h]; rfl)

/-- The lines of a source may be taken between its line feeds. -/
theorem findUnsupported?_eq (source : String) :
    findUnsupported? source = findOnLines? .initial 1 (source.toList.splitOn '\n') := by
  obtain ⟨ms, hms, hsplit⟩ := exists_splitOn source.toList
  rw [findUnsupported?, findOnLines?_congr isQuote_initial 1 hms]
  rcases hsplit with h | h
  · rw [h]
  · rw [h, findOnLines?_concat_nil isQuote_initial]

/-! ## Other layouts -/

/-- Lines in another layout: each is still there, deeper by the same number of spaces and with other
blanks at its end, and lines of blanks may stand in front of it. -/
inductive Relaid (k : Nat) : List (List Char) → List (List Char) → Type
  /-- No line. -/
  | nil : Relaid k [] []
  /-- A line of blanks that is in the new layout only. -/
  | blank {ls ms : List (List Char)} (b : List Char) (isBlank : allBlank b = true)
      (more : Relaid k ls ms) : Relaid k ls (b :: ms)
  /-- A line of both layouts. -/
  | line {ls ms : List (List Char)} (l m : List Char)
      (same : Alike (List.replicate k ' ' ++ l) m) (more : Relaid k ls ms) :
      Relaid k (l :: ls) (m :: ms)

/-- The index in the new layout of the line with a given index. -/
def Relaid.index {ls ms : List (List Char)} : Relaid k ls ms → Nat → Nat
  | .nil, n => n
  | .blank _ _ more, n => more.index n + 1
  | .line .., 0 => 0
  | .line _ _ _ more, n + 1 => more.index n + 1

/-- The number in the new layout of the line with a given number, both counted from one. -/
def Relaid.number {ls ms : List (List Char)} (layout : Relaid k ls ms) (n : Nat) : Nat :=
  layout.index (n - 1) + 1

/-- The two runs side by side. A line of blanks is a step of the run over the new layout only. -/
theorem findOnLines?_relaid {ls ms : List (List Char)} (layout : Relaid k ls ms)
    (hc : IsQuote c.quote) :
    findOnLines? (c.deeper k) 0 ms = (findOnLines? c 0 ls).map (Found.mapLine layout.index) := by
  induction layout generalizing c with
  | nil => rfl
  | blank b hb more ih =>
    have hscan : scanLine (c.deeper k) b = .ok (c.deeper k) := scanLine_blank (by exact hc) hb
    rw [findOnLines?, hscan]
    dsimp only
    rw [findOnLines?_add, ih hc, Option.map_map]
    rfl
  | line l m same more ih =>
    have hscan : scanLine (c.deeper k) m = (scanLine c l).map (Carry.deeper k) := by
      rw [← scanLine_of_alike (by exact hc) same, scanLine_deeper hc]
    rw [findOnLines?, findOnLines?, hscan]
    cases h : scanLine c l with
    | error tag => rfl
    | ok next =>
      dsimp only [Except.map]
      rw [findOnLines?_add, findOnLines?_add, ih (isQuote_scanLine hc h), Option.map_map,
        Option.map_map]
      rfl

/-- The text in which a carriage return stands in front of each line feed. -/
def withCarriageReturns (cs : List Char) : List Char :=
  cs.flatMap fun c => if c = '\n' then ['\r', '\n'] else [c]

theorem forall₂_modifyHead_cons {ls ms : List (List Char)}
    (h : List.Forall₂ Alike ls ms) (d : Char) :
    List.Forall₂ Alike (ls.modifyHead (d :: ·)) (ms.modifyHead (d :: ·)) := by
  cases h with
  | nil => exact .nil
  | cons hlm hrest => exact .cons (hlm.cons d) hrest

theorem forall₂_splitOn_withCarriageReturns (cs : List Char) :
    List.Forall₂ Alike ((withCarriageReturns cs).splitOn '\n') (cs.splitOn '\n') := by
  induction cs with
  | nil => exact .cons rfl .nil
  | cons c cs ih =>
    by_cases hc : c = '\n'
    · subst hc
      have hold : ('\n' :: cs).splitOn '\n' = [] :: cs.splitOn '\n' :=
        List.splitOn_append_cons_self [] cs
      have hnew : (withCarriageReturns ('\n' :: cs)).splitOn '\n' =
          ['\r'] :: (withCarriageReturns cs).splitOn '\n' :=
        List.splitOn_append_cons_self ['\r'] _
      rw [hold, hnew]
      exact .cons (by decide) ih
    · have hnew : withCarriageReturns (c :: cs) = c :: withCarriageReturns cs := by
        simp [withCarriageReturns, hc]
      rw [hnew, List.splitOn_cons_eq_if_modifyHead, List.splitOn_cons_eq_if_modifyHead,
        if_neg (by simpa using hc), if_neg (by simpa using hc)]
      exact forall₂_modifyHead_cons ih c

/-- A layout changes nothing but the number of the line on which a tag is found: it is the number in
the new layout of the line that shows the tag in the old one. So texts with line feeds and with
carriage returns in front of them show the same tag on the same line. -/
theorem findUnsupported?_relaid :
    (∀ (k : Nat) (source changed : String)
      (layout : Relaid k (source.toList.splitOn '\n') (changed.toList.splitOn '\n')),
      findUnsupported? changed = (findUnsupported? source).map (Found.mapLine layout.number)) ∧
    ∀ source : String, findUnsupported? (String.ofList (withCarriageReturns source.toList)) =
      findUnsupported? source := by
  refine ⟨fun k source changed layout => ?_, fun source => ?_⟩
  · have hrun := findOnLines?_relaid layout isQuote_initial
    have hinitial : Carry.initial.deeper k = .initial := rfl
    have hnumber (ls : List (List Char)) : findOnLines? .initial 1 ls =
        (findOnLines? .initial 0 ls).map (Found.mapLine (· + 1)) :=
      findOnLines?_add .initial 0 1 ls
    rw [hinitial] at hrun
    rw [findUnsupported?_eq, findUnsupported?_eq, hnumber, hnumber, hrun, Option.map_map,
      Option.map_map]
    rfl
  · rw [findUnsupported?_eq, findUnsupported?_eq, String.toList_ofList]
    exact findOnLines?_congr isQuote_initial 1 (forall₂_splitOn_withCarriageReturns _)

/-- A line of blanks behind a plain scalar, a space in front of every line and a tab at the end of
the first: the tag on the second line is found on the third. -/
theorem findUnsupported?_relaid_plain :
    findUnsupported? "a\n!!x" = some ⟨"!!x", 2⟩ ∧
      findUnsupported? " a\t\n\n !!x" = some ⟨"!!x", 3⟩ := by
  have hfound : findUnsupported? "a\n!!x" = some ⟨"!!x", 2⟩ := by
    decide +kernel
  let layout : Relaid 1 ("a\n!!x".toList.splitOn '\n') (" a\t\n\n !!x".toList.splitOn '\n') :=
    .line _ _ rfl (.blank _ rfl (.line _ _ rfl .nil))
  refine ⟨hfound, ?_⟩
  rw [findUnsupported?_relaid.1 1 _ _ layout, hfound]
  rfl

end YamlDefs.Tag

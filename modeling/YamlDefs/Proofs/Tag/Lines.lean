import YamlDefs.Tag.Scan

/-!
# Whole lines

What a scan asks of a line as a whole, where the line is given as its indentation and the text
after it.

* `IsLine`: a text that a line feed makes a line; `lines_unlines_of_isLine`: a text of such lines
  has these lines, also with carriage returns inside them.
* `indentation_replicate`, `trim_replicate`: the indentation, and the line without its blanks.
* `continuesBlock_replicate`, `continuesPlain_replicate_eq`, `continuesPlain_replicate`: such a line
  goes on with a scalar only if it is deeper.
-/

namespace YamlDefs

variable {c : Char} {cs : List Char}

namespace Text

/-- Without line feeds, and without a carriage return at the end, which a line feed behind it would
take with it. -/
def IsLine (l : List Char) : Prop := '\n' ∉ l ∧ l.getLast? ≠ some '\r'

theorem IsLine.append {l m : List Char} (hl : IsLine l) (hm : IsLine m) : IsLine (l ++ m) := by
  obtain ⟨hln, hlr⟩ := hl
  obtain ⟨hmn, hmr⟩ := hm
  refine ⟨fun h => (List.mem_append.mp h).elim hln hmn, ?_⟩
  rw [List.getLast?_append]
  cases h : m.getLast? with
  | none => simpa using hlr
  | some c =>
    rw [Option.some_or, ← h]
    exact hmr

/-- No character but a blank one ends a line. -/
theorem isLine_of_not_isBlank {l : List Char} (h : ∀ c ∈ l, isBlank c = false) : IsLine l := by
  refine ⟨fun hn => ?_, fun hr => ?_⟩
  · exact absurd (h _ hn) (by decide)
  · exact absurd (h _ (List.mem_of_getLast? hr)) (by decide)

/-- A line is the first line of a text in which a line feed follows it. -/
theorem IsLine.lines_append {l : List Char} (h : IsLine l) (rest : List Char) :
    lines (l ++ '\n' :: rest) = l :: lines rest := by
  obtain ⟨hn, hr⟩ := h
  induction l with
  | nil => exact lines_newline rest
  | cons c l ih =>
    rw [List.mem_cons, not_or] at hn
    cases l with
    | nil =>
      have hc : c ≠ '\r' := by simpa using hr
      rw [List.cons_append, lines_cons (Ne.symm hn.1) hc, List.nil_append, lines_newline]
    | cons d l =>
      have hrest := ih hn.2 (by simpa using hr)
      rw [List.mem_cons, not_or] at hn
      rw [List.cons_append, lines.eq_4, hrest]
      · exact fun hc => hn.1 hc.symm
      · exact fun cs _ hd => hn.2.1 (List.cons.inj hd).1.symm

/-- Splitting a text of lines ended by line feeds gives the lines back. -/
theorem lines_unlines_of_isLine {ls : List (List Char)} (h : ∀ l ∈ ls, IsLine l) :
    lines (unlines ls) = ls := by
  induction ls with
  | nil => rfl
  | cons l ls ih =>
    obtain ⟨hl, hls⟩ := List.forall_mem_cons.mp h
    have hcons : unlines (l :: ls) = l ++ '\n' :: unlines ls := by
      simp [unlines]
    rw [hcons, hl.lines_append, ih hls]

theorem trimEnd_cons (hc : isBlank c = false) (cs : List Char) :
    trimEnd (c :: cs) = c :: trimEnd cs := by
  unfold trimEnd
  rw [List.reverse_cons, List.dropWhile_append]
  split
  · next h =>
    rw [List.isEmpty_iff.mp h, List.dropWhile_cons_of_neg (by simp [hc])]
    rfl
  · rw [List.reverse_append]
    rfl

theorem trimEnd_prefix (cs : List Char) : trimEnd cs <+: cs := by
  have h := List.dropWhile_suffix isBlank (l := cs.reverse)
  rw [← List.reverse_prefix, List.reverse_reverse] at h
  exact h

end Text

namespace Tag

open YamlDefs.Text

variable {n : Nat}

theorem indentation_replicate (hc : c ≠ ' ') :
    indentation (List.replicate n ' ' ++ c :: cs) = n := by
  unfold indentation
  rw [List.takeWhile_append_of_pos (by simp), List.takeWhile_cons_of_neg (by simp [hc])]
  simp

theorem trim_replicate (hc : isBlank c = false) :
    trim (List.replicate n ' ' ++ c :: cs) = c :: trimEnd cs := by
  have hblank : ∀ d ∈ List.replicate n ' ', isBlank d = true := by
    intro d hd
    rw [List.eq_of_mem_replicate hd]
    decide
  rw [trim, trimStart, List.dropWhile_append_of_pos hblank,
    List.dropWhile_cons_of_neg (by simp [hc]), trimEnd_cons hc]

/-- A line that is not blank belongs to a block scalar if it is deeper. -/
theorem continuesBlock_replicate (hc : isBlank c = false) (parent : Nat) :
    continuesBlock (List.replicate n ' ' ++ c :: cs) parent = decide (parent < n) := by
  have hspace : c ≠ ' ' := by
    rintro rfl
    cases hc
  simp [continuesBlock, trim_replicate hc, indentation_replicate hspace]

/-- A line that is not blank goes on with a plain scalar if it is deeper and no comment. -/
theorem continuesPlain_replicate_eq (hc : isBlank c = false) (parent : Nat) :
    continuesPlain (List.replicate n ' ' ++ c :: cs) parent =
      (decide (parent < n) && c != '#') := by
  have hspace : c ≠ ' ' := by
    rintro rfl
    cases hc
  have hsharp : (some c != some '#') = (c != '#') := rfl
  simp [continuesPlain, trim_replicate hc, indentation_replicate hspace, hsharp]

/-- A line that is not blank and no deeper than a plain scalar ends it. -/
theorem continuesPlain_replicate {parent : Nat} (hc : isBlank c = false) (hn : n ≤ parent) :
    continuesPlain (List.replicate n ' ' ++ c :: cs) parent = false := by
  have hdeeper : ¬ parent < n := by omega
  simp [continuesPlain_replicate_eq hc, hdeeper]

end Tag

end YamlDefs

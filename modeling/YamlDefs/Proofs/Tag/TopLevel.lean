import YamlDefs.Proofs.Tag.Block
import YamlDefs.Proofs.Tag.Layout

/-!
# Entries in the first column

Entries of a mapping that begin in the first column stand apart: whatever scalar one of them ends
with, the next one is scanned as if it were the first line of a source.

* `findOnLines?_append`: a run over some lines and then over others.
* `AtTop`: nothing is carried on but the indentation of a scalar of the first column.
* `FlushLeft`: the first line that is not blank begins in the first column;
  `findOnLines?_of_atTop`: such lines are scanned as if they were the first.
* `scanRest`: the run over a text from a place inside its first line; `findFrom?`: the tag that such
  a run finds.
* `scanLine_key`, `foldlM_key`, `findUnsupported?_behind_key`: a key in the first column; the scan
  goes on where its value begins.
-/

namespace YamlDefs.Tag

open YamlDefs.Text

variable {p q : Place} {c next : Carry} {cs line : List Char} {indent number : Nat}

/-! ## Runs over lines -/

/-- A run over lines that show no tag goes on with what they leave. -/
theorem findOnLines?_append {ls : List (List Char)} (h : ls.foldlM scanLine c = .ok next)
    (number : Nat) (ms : List (List Char)) :
    findOnLines? c number (ls ++ ms) = findOnLines? next (number + ls.length) ms := by
  induction ls generalizing c number with
  | nil =>
    cases h
    rfl
  | cons l ls ih =>
    rw [List.foldlM_cons] at h
    cases hl : scanLine c l with
    | error tag =>
      rw [hl] at h
      cases h
    | ok mid =>
      rw [hl] at h
      rw [List.cons_append, findOnLines?, hl, List.length_cons]
      dsimp only
      rw [ih h, Nat.add_right_comm, Nat.add_assoc]

theorem length_splitOn (cs : List Char) : (cs.splitOn '\n').length = cs.count '\n' + 1 := by
  induction cs with
  | nil => rfl
  | cons d cs ih =>
    rw [List.splitOn_cons_eq_if_modifyHead, List.count_cons]
    split
    · rw [List.length_cons, ih]
    · rw [List.length_modifyHead, ih]

/-! ## Nothing but the first column -/

/-- Nothing is carried on but, at most, the indentation of a scalar that hangs on the first
column. -/
structure AtTop (c : Carry) : Prop where
  quote : c.quote = none
  flowDepth : c.flowDepth = 0
  blockIndent : ∀ i ∈ c.blockIndent, i = 0
  plainIndent : ∀ i ∈ c.plainIndent, i = 0

theorem atTop_initial : AtTop .initial where
  quote := rfl
  flowDepth := rfl
  blockIndent := fun _ h => by cases h
  plainIndent := fun _ h => by cases h

/-- Carried on after the header of a block scalar of the first column. -/
def Carry.inBlock : Carry := ⟨none, 0, some 0, none⟩

theorem atTop_inBlock : AtTop .inBlock where
  quote := rfl
  flowDepth := rfl
  blockIndent := fun _ h => (Option.some.inj h).symm
  plainIndent := fun _ h => by cases h

theorem AtTop.isQuote (h : AtTop c) : IsQuote c.quote := by
  intro d hd
  rw [h.quote] at hd
  cases hd

theorem indentation_of_head? (h : line.head? ≠ some ' ') : indentation line = 0 := by
  cases line with
  | nil => rfl
  | cons d line =>
    have hd : d ≠ ' ' := by simpa using h
    simp [indentation, hd]

/-- A line that begins in the first column is scanned as if it were the first line of a source. -/
theorem scanLine_of_atTop (hc : AtTop c) (hblank : allBlank line = false)
    (hhead : line.head? ≠ some ' ') : scanLine c line = scanContent .initial line := by
  have htrim : trim line ≠ [] := fun h => by
    rw [trim_eq_nil_iff.mp h] at hblank
    cases hblank
  have hblock : c.blockIndent.any (continuesBlock line) = false := by
    cases hb : c.blockIndent with
    | none => rfl
    | some i =>
      obtain rfl := hc.blockIndent i hb
      simp [continuesBlock, htrim, indentation_of_head? hhead]
  have hplain : c.plainIndent.any (continuesPlain line) = false := by
    cases hb : c.plainIndent with
    | none => rfl
    | some i =>
      obtain rfl := hc.plainIndent i hb
      simp [continuesPlain, htrim, indentation_of_head? hhead]
  unfold scanLine
  rw [hblock, hplain]
  obtain ⟨quote, depth, block, plain⟩ := c
  obtain rfl := hc.quote
  obtain rfl := hc.flowDepth
  rfl

/-- The first line that is not blank, if there is one, does not begin with a space. -/
def FlushLeft (ls : List (List Char)) : Prop :=
  ∀ line ∈ ls.find? (fun line => !allBlank line), line.head? ≠ some ' '

instance (ls : List (List Char)) : Decidable (FlushLeft ls) :=
  inferInstanceAs
    (Decidable (∀ line ∈ ls.find? (fun line => !allBlank line), line.head? ≠ some ' '))

theorem findOnLines?_of_atTop (hc : AtTop c) {ls : List (List Char)} (h : FlushLeft ls)
    (number : Nat) : findOnLines? c number ls = findOnLines? .initial number ls := by
  induction ls generalizing number with
  | nil => rfl
  | cons l ls ih =>
    unfold findOnLines?
    cases hl : allBlank l with
    | true =>
      have hrest : FlushLeft ls := by
        unfold FlushLeft at h
        rwa [List.find?_cons_of_neg (by simp [hl])] at h
      rw [scanLine_blank hc.isQuote hl, scanLine_blank isQuote_initial hl]
      exact ih hrest _
    | false =>
      have hhead : l.head? ≠ some ' ' :=
        h l (by rw [List.find?_cons_of_pos (by simp [hl])]; rfl)
      rw [scanLine_of_atTop hc hl hhead, scanLine_of_atTop atTop_initial hl hhead]

/-! ## Runs from inside a line -/

/-- What a text leaves, from a place inside its first line, which has the given indentation. -/
def scanRest (p : Place) (indent : Nat) (cs : List Char) : Except (List Char) Carry := do
  let next ← (scanFrom p ((cs.splitOn '\n').headD [])).carry indent
  (cs.splitOn '\n').tail.foldlM scanLine next

theorem scanRest_of_splitOn {ls : List (List Char)} (h : cs.splitOn '\n' = line :: ls)
    (p : Place) (indent : Nat) :
    scanRest p indent cs =
      ((scanFrom p line).carry indent >>= fun next => ls.foldlM scanLine next) := by
  rw [scanRest, h]
  rfl

theorem splitOn_append_of_not_mem {w : List Char} (hw : '\n' ∉ w) (cs : List Char) :
    (w ++ cs).splitOn '\n' = (cs.splitOn '\n').modifyHead (w ++ ·) := by
  induction w with
  | nil =>
    rw [List.nil_append]
    cases cs.splitOn '\n' <;> rfl
  | cons d w ih =>
    rw [List.mem_cons, not_or] at hw
    rw [List.cons_append, List.splitOn_cons_eq_if_modifyHead, if_neg (by simpa using Ne.symm hw.1),
      ih hw.2, List.modifyHead_modifyHead]
    rfl

theorem exists_splitOn_append {w : List Char} (hw : '\n' ∉ w) (cs : List Char) :
    ∃ line ls, cs.splitOn '\n' = line :: ls ∧ (w ++ cs).splitOn '\n' = (w ++ line) :: ls := by
  obtain ⟨line, ls, hcs⟩ := List.exists_cons_of_ne_nil (List.splitOn_ne_nil '\n' cs)
  refine ⟨line, ls, hcs, ?_⟩
  rw [splitOn_append_of_not_mem hw, hcs]
  rfl

/-- The first character of a first line that is not empty is the first character of the text. -/
theorem head?_of_splitOn {c : Char} {line : List Char} {ls : List (List Char)}
    (h : cs.splitOn '\n' = (c :: line) :: ls) : cs.head? = some c := by
  cases cs with
  | nil => simp at h
  | cons d cs =>
    rw [List.splitOn_cons_eq_if_modifyHead] at h
    split at h
    · simp at h
    · obtain ⟨l, ls, hcs⟩ := List.exists_cons_of_ne_nil (List.splitOn_ne_nil '\n' cs)
      rw [hcs] at h
      simp at h
      simp [h.1]

/-- Part of a line that takes the scan from one place to another. -/
theorem scanRest_append {w : List Char} (hw : '\n' ∉ w)
    (hmove : ∀ line, scanFrom p (w ++ line) = scanFrom q line) (indent : Nat) (cs : List Char) :
    scanRest p indent (w ++ cs) = scanRest q indent cs := by
  obtain ⟨line, ls, hcs, hsplit⟩ := exists_splitOn_append hw cs
  rw [scanRest_of_splitOn hsplit, scanRest_of_splitOn hcs, hmove]

/-- The first tag outside the core schema in a text, from a place inside its first line, which has
the given indentation and number. -/
def findFrom? (p : Place) (indent number : Nat) (cs : List Char) : Option Found :=
  match (scanFrom p ((cs.splitOn '\n').headD [])).carry indent with
  | .error tag => some ⟨String.ofList tag, number⟩
  | .ok next => findOnLines? next (number + 1) (cs.splitOn '\n').tail

theorem findFrom?_of_splitOn {line : List Char} {ls : List (List Char)}
    (h : cs.splitOn '\n' = line :: ls) (p : Place) (indent number : Nat) :
    findFrom? p indent number cs =
      match (scanFrom p line).carry indent with
      | .error tag => some ⟨String.ofList tag, number⟩
      | .ok next => findOnLines? next (number + 1) ls := by
  rw [findFrom?, h]
  rfl

theorem findFrom?_nil (p : Place) (indent number : Nat) : findFrom? p indent number [] = none := by
  have hsplit : ([] : List Char).splitOn '\n' = [[]] := rfl
  rw [findFrom?_of_splitOn hsplit, scanFrom_nil]
  rfl

/-- Part of a line that takes the scan from one place to another. -/
theorem findFrom?_append {w : List Char} (hw : '\n' ∉ w)
    (hmove : ∀ line, scanFrom p (w ++ line) = scanFrom q line) :
    findFrom? p indent number (w ++ cs) = findFrom? q indent number cs := by
  obtain ⟨line, ls, hcs, hsplit⟩ := exists_splitOn_append hw cs
  rw [findFrom?_of_splitOn hsplit, findFrom?_of_splitOn hcs, hmove]

/-- Part of a line that ends with a tag outside the core schema. -/
theorem findFrom?_found {w tag : List Char} (hw : '\n' ∉ w)
    (hfound : ∀ line, scanFrom p (w ++ line) = .found tag) :
    findFrom? p indent number (w ++ cs) = some ⟨String.ofList tag, number⟩ := by
  obtain ⟨line, ls, -, hsplit⟩ := exists_splitOn_append hw cs
  rw [findFrom?_of_splitOn hsplit, hfound]
  rfl

/-- Where the value of a key begins. -/
def Place.value : Place :=
  { quote := none, flowDepth := 0, expectNode := true, inPlain := false, afterBlank := true }

/-- A line that begins with a letter is no directive. -/
theorem isDirective_of_isWordChar {d : Char} (hd : isWordChar d = true) (cs : List Char) :
    isDirective (d :: cs) = false := by
  have htrim : trim (d :: cs) = d :: trimEnd cs :=
    trim_replicate (n := 0) (isBlank_of_isWordChar hd)
  have hne := ne_of_isWordChar hd
  simp [isDirective, htrim, hne '%' rfl, hne '-' rfl, hne '.' rfl]

theorem newline_not_mem_name (key : Identifier) : '\n' ∉ key.name.toList := by
  obtain ⟨d, ds, hname, hword⟩ := exists_toList_eq_cons key
  rw [hname]
  exact fun h => absurd (hword _ h) (by decide)

/-- A key in the first column: the scan of its line goes on where its value begins. -/
theorem scanLine_key (hc : AtTop c) (key : Identifier) (value : List Char) :
    scanLine c (key.name.toList ++ ':' :: ' ' :: value) = (scanFrom .value value).carry 0 := by
  obtain ⟨d, ds, hname, hword⟩ := exists_toList_eq_cons key
  have hd := hword d (List.mem_cons_self ..)
  have hblank : allBlank (key.name.toList ++ ':' :: ' ' :: value) = false := by
    simp [hname, allBlank, isBlank_of_isWordChar hd]
  have hspace : (key.name.toList ++ ':' :: ' ' :: value).head? ≠ some ' ' := by
    simp [hname, ne_of_isWordChar hd ' ' rfl]
  have hscan : scanFrom (.start .initial) (key.name.toList ++ ':' :: ' ' :: value) =
      scanFrom .value value := by
    rw [hname, scanFrom_word rfl (List.cons_ne_nil d ds) hword,
      scanFrom_indicator_space (by rfl) (.inl rfl)]
    rfl
  have hdirective : isDirective (key.name.toList ++ ':' :: ' ' :: value) = false := by
    rw [hname]
    exact isDirective_of_isWordChar hd _
  rw [scanLine_of_atTop hc hblank hspace, scanContent, hdirective, hscan,
    indentation_of_head? hspace]
  rfl

theorem splitOn_key (key : Identifier) {value : List Char} {ls : List (List Char)}
    (h : value.splitOn '\n' = line :: ls) :
    (key.name.toList ++ ':' :: ' ' :: value).splitOn '\n' =
      (key.name.toList ++ ':' :: ' ' :: line) :: ls := by
  have hmem : '\n' ∉ key.name.toList ++ [':', ' '] := by
    rw [List.mem_append, not_or]
    exact ⟨newline_not_mem_name key, by decide⟩
  have hsplit := splitOn_append_of_not_mem hmem value
  rw [h] at hsplit
  simpa using hsplit

/-- A key in the first column: the run goes on where its value begins. -/
theorem foldlM_key (hc : AtTop c) (key : Identifier) (value : List Char) :
    ((key.name.toList ++ ':' :: ' ' :: value).splitOn '\n').foldlM scanLine c =
      scanRest .value 0 value := by
  obtain ⟨line, ls, hvalue⟩ := List.exists_cons_of_ne_nil (List.splitOn_ne_nil '\n' value)
  rw [splitOn_key key hvalue, scanRest_of_splitOn hvalue, List.foldlM_cons, scanLine_key hc]

/-- Behind a key in the first column the scan goes on where its value begins. -/
theorem findUnsupported?_behind_key (key : Identifier) (value : List Char) :
    findUnsupported? (String.ofList (key.name.toList ++ ':' :: ' ' :: value)) =
      findFrom? .value 0 1 value := by
  obtain ⟨line, ls, hvalue⟩ := List.exists_cons_of_ne_nil (List.splitOn_ne_nil '\n' value)
  rw [findUnsupported?_eq, String.toList_ofList, splitOn_key key hvalue, findOnLines?,
    scanLine_key atTop_initial]
  exact (findFrom?_of_splitOn hvalue _ _ _).symm

end YamlDefs.Tag

import YamlDefs.Proofs.Tag.FlowScan
import YamlDefs.Proofs.Tag.PlainText

/-!
# What the scan carries on, seen from the lines ahead

The scan keeps nothing that no line could bring to light: of what two lines leave, either it is the
same, or there are lines behind them on which one shows a tag and the other does not.

* `Carry.Lawful`: what the first line of a source can leave; `lawful_of_scanLine`.
* `probe`, `note`, `closers`: lines that show a tag, or do not, by what is carried on.
* `silent_probe_iff`, `silent_note_iff`, `silent_closers_iff`, `silent_close_iff`: what is seen on
  them of the indentations, the open brackets and the open quote.
* `SameAhead.eq`: what looks the same on all lines ahead is the same.
-/

namespace YamlDefs.Tag

open YamlDefs.Text

variable {p : Place} {c d : Carry} {n k number depth : Nat} {node : Bool}

/-! ## What a line leaves -/

/-- A quote is a quotation mark, and only one scalar is open. -/
structure Carry.Lawful (c : Carry) : Prop where
  isQuote : IsQuote c.quote
  block : ∀ i ∈ c.blockIndent, c.quote = none ∧ c.plainIndent = none
  plain : ∀ i ∈ c.plainIndent, c.quote = none

theorem lawful_initial : Carry.initial.Lawful where
  isQuote := isQuote_initial
  block := fun _ h => by cases h
  plain := fun _ h => by cases h

theorem lawful_of_carry {indent : Nat} {line : List Char} (hp : IsQuote p.quote)
    (h : (scanFrom p line).carry indent = .ok c) : c.Lawful := by
  cases hscan : scanFrom p line with
  | «open» q =>
    rw [hscan] at h
    obtain rfl := Except.ok.inj h
    refine ⟨isQuote_scanFrom hp hscan, fun _ hi => (by cases hi), fun i hi => ?_⟩
    dsimp only at hi ⊢
    split at hi
    · next hplain => exact hplain.2.1
    · cases hi
  | block depth =>
    rw [hscan] at h
    obtain rfl := Except.ok.inj h
    exact ⟨fun _ hi => (by cases hi), fun _ _ => ⟨rfl, rfl⟩, fun _ hi => (by cases hi)⟩
  | found tag =>
    rw [hscan] at h
    cases h

/-- The first line of a source leaves nothing else. -/
theorem lawful_of_scanLine {line : List Char} (h : scanLine .initial line = .ok c) :
    c.Lawful := by
  have hcontent : scanContent .initial line = .ok c := by
    simpa [scanLine, Carry.initial] using h
  unfold scanContent at hcontent
  split at hcontent
  · obtain rfl := Except.ok.inj hcontent
    exact lawful_initial
  · exact lawful_of_carry isQuote_initial hcontent

/-! ## Lines that show no tag -/

/-- No tag is found on the lines ahead. -/
def Silent (c : Carry) (ls : List (List Char)) : Prop := findOnLines? c 0 ls = none

theorem findOnLines?_eq_none_iff (c : Carry) (number : Nat) (ls : List (List Char)) :
    findOnLines? c number ls = none ↔ Silent c ls := by
  have h := findOnLines?_add c 0 number ls
  rw [Nat.zero_add] at h
  rw [h, Option.map_eq_none_iff, Silent]

theorem silent_nil (c : Carry) : Silent c [] := rfl

theorem silent_cons_iff {line : List Char} {ls : List (List Char)} :
    Silent c (line :: ls) ↔ ∃ next, scanLine c line = .ok next ∧ Silent next ls := by
  rw [Silent, findOnLines?]
  cases scanLine c line with
  | error tag => simp
  | ok next =>
    dsimp only
    rw [findOnLines?_eq_none_iff]
    simp

/-! ## Indentations -/

/-- A tag behind some spaces. -/
def probe (n : Nat) : List Char := List.replicate n ' ' ++ ['!', '!', 'x']

/-- A comment behind some spaces. -/
def note (n : Nat) : List Char := List.replicate n ' ' ++ ['#']

theorem newline_not_mem_spaces {cs : List Char} (h : '\n' ∉ cs) (n : Nat) :
    '\n' ∉ List.replicate n ' ' ++ cs := by
  simp [List.mem_replicate, h]

theorem any_eq_true_iff {a : Option Nat} {f : Nat → Bool} (hf : ∀ i, f i = decide (i < n)) :
    a.any f = true ↔ ∃ i ∈ a, i < n := by
  cases a <;> simp [hf]

theorem scanFrom_probe (hp : At depth true p) :
    scanFrom p ['!', '!', 'x'] = .found ['!', '!', 'x'] := by
  have htoken : token (decide (0 < p.flowDepth)) ['!', 'x'] = (['!', 'x'], []) := by
    cases decide (0 < p.flowDepth) <;> decide
  rw [scanFrom_tag hp.quote hp.expectNode htoken]
  exact if_neg (by decide)

/-- A tag is hidden just if it is deeper than the line on which a scalar hangs. -/
theorem silent_probe_iff (hq : c.quote = none) (n : Nat) :
    Silent c [probe n] ↔ (∃ i ∈ c.blockIndent, i < n) ∨ ∃ i ∈ c.plainIndent, i < n := by
  have hmark : isBlank '!' = false := by decide
  have hblock : c.blockIndent.any (continuesBlock (probe n)) = true ↔ ∃ i ∈ c.blockIndent, i < n :=
    any_eq_true_iff fun i => continuesBlock_replicate hmark i
  have hplain : c.plainIndent.any (continuesPlain (probe n)) = true ↔ ∃ i ∈ c.plainIndent, i < n :=
    any_eq_true_iff fun i => by simp [probe, continuesPlain_replicate_eq hmark]
  rw [silent_cons_iff, ← hblock, ← hplain]
  by_cases hb : c.blockIndent.any (continuesBlock (probe n)) = true
  · have hscan : scanLine c (probe n) = .ok c := by rw [scanLine, if_pos hb]
    exact iff_of_true ⟨c, hscan, silent_nil c⟩ (.inl hb)
  · by_cases hp : c.plainIndent.any (continuesPlain (probe n)) = true
    · have hscan : scanLine c (probe n) = .ok { c with blockIndent := none } := by
        rw [scanLine, if_neg hb, if_pos hp]
      exact iff_of_true ⟨_, hscan, silent_nil _⟩ (.inr hp)
    · have hbegins : ∀ d ∈ ['!', '!', 'x'].head?, BeginsLine d :=
        beginsLine_cons (by decide) _
      have hscan : scanLine c (probe n) = .error ['!', '!', 'x'] := by
        rw [probe, scanLine_spaces hq hbegins (Bool.eq_false_iff.mpr hb) (Bool.eq_false_iff.mpr hp),
          scanFrom_probe ⟨rfl, rfl, rfl⟩]
        rfl
      simp [hscan, hb, hp]

/-- A comment ends a plain scalar, but not a block scalar if it is deeper. -/
theorem silent_note_iff (hq : c.quote = none) (n : Nat) :
    Silent c [note n, probe n] ↔ ∃ i ∈ c.blockIndent, i < n := by
  have hsharp : isBlank '#' = false := by decide
  have hblock : c.blockIndent.any (continuesBlock (note n)) = true ↔ ∃ i ∈ c.blockIndent, i < n :=
    any_eq_true_iff fun i => continuesBlock_replicate hsharp i
  have hplain : c.plainIndent.any (continuesPlain (note n)) = false := by
    cases c.plainIndent <;> simp [note, continuesPlain_replicate_eq hsharp]
  rw [silent_cons_iff]
  by_cases hb : c.blockIndent.any (continuesBlock (note n)) = true
  · have hscan : scanLine c (note n) = .ok c := by rw [scanLine, if_pos hb]
    have hdeeper := hblock.mp hb
    exact iff_of_true ⟨c, hscan, (silent_probe_iff hq n).mpr (.inl hdeeper)⟩ hdeeper
  · have hbegins : ∀ d ∈ ['#'].head?, BeginsLine d := beginsLine_cons (by decide) _
    have hcomment : scanFrom ⟨none, c.flowDepth, true, false, true⟩ ['#'] =
        .open ⟨none, c.flowDepth, true, false, true⟩ := by
      apply scanFrom_of_comment
      simp [step, hsharp]
    have hscan : scanLine c (note n) = .ok ⟨none, c.flowDepth, none, none⟩ := by
      rw [note, scanLine_spaces hq hbegins (Bool.eq_false_iff.mpr hb) hplain, hcomment]
      rfl
    have hshown : ¬ Silent ⟨none, c.flowDepth, none, none⟩ [probe n] := by
      simp [silent_probe_iff]
    rw [← hblock, hscan]
    simp [hshown, hb]

/-! ## Brackets and quotes -/

/-- Closing brackets, and a tag behind a comma. -/
def closers (k : Nat) : List Char := List.replicate k ']' ++ [',', ' ', '!', '!', 'x']

theorem exists_closers_eq_cons (k : Nat) : ∃ d ds, closers k = d :: ds ∧ BeginsLine d := by
  cases k with
  | zero => exact ⟨',', _, rfl, by decide⟩
  | succ k => exact ⟨']', closers k, rfl, by decide⟩

/-- Behind a bracket that is still open the comma is a flow mark, and otherwise it is text. -/
theorem scanFrom_closers (hp : At (k + depth) node p) :
    (0 < depth → scanFrom p (closers k) = .found ['!', '!', 'x']) ∧
      (depth = 0 → (scanFrom p (closers k)).Settled) := by
  induction k generalizing p node with
  | zero =>
    rw [Nat.zero_add] at hp
    refine ⟨fun hdepth => ?_, fun hdepth => ?_⟩
    · have hopen : 0 < p.flowDepth := by rwa [hp.flowDepth]
      have htext : closers 0 = ',' :: ' ' :: ['!', '!', 'x'] := rfl
      rw [htext, scanFrom_comma hp.quote hopen, scanFrom_blank (by exact hp.quote) (by decide)]
      exact scanFrom_probe ⟨hp.quote, hp.flowDepth, rfl⟩
    · have hinner : innerNode? (closers 0) = none := by decide
      have hchain : (' ' :: closers 0).IsChain MayFollow := by decide
      have hplain := scanFrom_plain hp.quote (hp.flowDepth.trans hdepth) (fun _ => by decide)
        (fun _ => by decide) hchain (by decide)
      rwa [hinner] at hplain
  | succ k ih =>
    have hopen : 0 < p.flowDepth := by
      rw [hp.flowDepth]
      omega
    have hclose : scanFrom p (closers (k + 1)) = scanFrom
        { p with
          flowDepth := p.flowDepth - 1, expectNode := false, afterBlank := false,
          inPlain := p.inPlain && !p.expectNode } (closers k) :=
      scanFrom_closing hp.quote hopen .square
    have hdepth : p.flowDepth - 1 = k + depth := by
      rw [hp.flowDepth]
      omega
    rw [hclose]
    exact ih ⟨hp.quote, hdepth, rfl⟩

/-- The tag is shown just if more brackets are open than are closed. -/
theorem silent_closers_iff (hq : c.quote = none) (hk : k ≤ c.flowDepth) :
    Silent c [closers k] ↔ k = c.flowDepth := by
  obtain ⟨e, es, htext, he⟩ := exists_closers_eq_cons k
  have hbegins : ∀ d ∈ (closers k).head?, BeginsLine d := by
    rw [htext]
    exact beginsLine_cons he es
  have hblock : c.blockIndent.any (continuesBlock (List.replicate 0 ' ' ++ closers k)) = false := by
    cases c.blockIndent with
    | none => rfl
    | some i =>
      rw [htext, Option.any_some, continuesBlock_replicate he.1]
      simp
  have hplain : c.plainIndent.any (continuesPlain (List.replicate 0 ' ' ++ closers k)) = false := by
    cases c.plainIndent with
    | none => rfl
    | some i =>
      rw [htext, Option.any_some, continuesPlain_replicate_eq he.1]
      simp
  have hscan := scanLine_spaces (n := 0) hq hbegins hblock hplain
  rw [List.replicate_zero, List.nil_append] at hscan
  have hat : At (k + (c.flowDepth - k)) true ⟨none, c.flowDepth, true, false, true⟩ :=
    ⟨rfl, by simp only; omega, rfl⟩
  obtain ⟨hopen, hclosed⟩ := scanFrom_closers hat
  rw [silent_cons_iff, hscan]
  by_cases heq : k = c.flowDepth
  · obtain ⟨next, -, hnext⟩ := (hclosed (by omega)).exists_carry
    exact iff_of_true ⟨next, hnext, silent_nil next⟩ heq
  · rw [hopen (by omega)]
    simp [LineEnd.carry, heq]

/-- The quote that is open, and no other one, is closed by its own character. -/
theorem scanLine_quote {quote e : Char} (hquote : quote = '"' ∨ quote = '\'')
    (he : e = '"' ∨ e = '\'') (depth : Nat) :
    scanLine ⟨some quote, depth, none, none⟩ [e] =
      .ok ⟨if e = quote then none else some quote, depth, none, none⟩ := by
  have hstep : step ⟨some quote, depth, false, false, true⟩ e [] =
      .on ⟨if e = quote then none else some quote, depth, false, false, false⟩ [] := by
    rcases hquote with rfl | rfl <;> rcases he with rfl | rfl <;> simp [step, quotedStep]
  simp [scanLine, scanContent, Place.start, scanFrom_of_on hstep, scanFrom_nil, LineEnd.carry]

/-! ## All lines ahead -/

theorem eq_of_lt_iff {a b : Option Nat} (h : ∀ n, (∃ i ∈ a, i < n) ↔ ∃ i ∈ b, i < n) : a = b := by
  cases a with
  | none =>
    cases b with
    | none => rfl
    | some j =>
      have := h (j + 1)
      simp at this
  | some i =>
    cases b with
    | none =>
      have := h (i + 1)
      simp at this
    | some j =>
      have hi := h (i + 1)
      have hj := h (j + 1)
      simp at hi hj
      congr 1
      omega

/-- The same lines show no tag, whatever lines they are. -/
def SameAhead (c d : Carry) : Prop :=
  ∀ ls : List (List Char), (∀ l ∈ ls, '\n' ∉ l) → (Silent c ls ↔ Silent d ls)

/-- Without an open quote the lines ahead show all that is carried on. -/
theorem SameAhead.eq_of_quote_none (hc : c.Lawful) (hd : d.Lawful) (hcq : c.quote = none)
    (hdq : d.quote = none) (h : SameAhead c d) : c = d := by
  have hprobe (n : Nat) : '\n' ∉ probe n := newline_not_mem_spaces (by decide) n
  have hnote (n : Nat) : '\n' ∉ note n := newline_not_mem_spaces (by decide) n
  have hblock : c.blockIndent = d.blockIndent := eq_of_lt_iff fun n => by
    rw [← silent_note_iff hcq, ← silent_note_iff hdq]
    exact h _ (by simp [hnote, hprobe])
  have hplain : c.plainIndent = d.plainIndent := by
    cases hb : c.blockIndent with
    | some i => rw [(hc.block i hb).2, (hd.block i (hblock ▸ hb)).2]
    | none =>
      refine eq_of_lt_iff fun n => ?_
      have hsame := h [probe n] (by simp [hprobe])
      rw [silent_probe_iff hcq, silent_probe_iff hdq, ← hblock, hb] at hsame
      simpa using hsame
  have hdepth : c.flowDepth = d.flowDepth := by
    have hclosers := h [closers (min c.flowDepth d.flowDepth)] (by simp [closers])
    rw [silent_closers_iff hcq (Nat.min_le_left ..), silent_closers_iff hdq (Nat.min_le_right ..)]
      at hclosers
    omega
  obtain ⟨quote, depth, block, plain⟩ := c
  obtain ⟨quote', depth', block', plain'⟩ := d
  simp only at hcq hdq hblock hplain hdepth
  rw [hcq, hdq, hblock, hplain, hdepth]

theorem Carry.Lawful.eq_of_quote {quote : Char} (hc : c.Lawful) (hq : c.quote = some quote) :
    (quote = '"' ∨ quote = '\'') ∧ c = ⟨some quote, c.flowDepth, none, none⟩ := by
  refine ⟨hc.isQuote quote hq, ?_⟩
  have hblock : c.blockIndent = none := by
    cases hb : c.blockIndent with
    | none => rfl
    | some i => simp [(hc.block i hb).1] at hq
  have hplain : c.plainIndent = none := by
    cases hp : c.plainIndent with
    | none => rfl
    | some i => simp [hc.plain i hp] at hq
  obtain ⟨quote', depth, block, plain⟩ := c
  simp only at hq hblock hplain
  rw [hq, hblock, hplain]

/-- Quotes that are open hide a tag on the next line. -/
theorem silent_probe_of_quote {quote : Char} (hquote : quote = '"' ∨ quote = '\'') (depth : Nat) :
    Silent ⟨some quote, depth, none, none⟩ [probe 0] :=
  findOnLines?_of_quote hquote depth 0

theorem not_silent_probe (hq : c.quote = none) : ¬ Silent c [probe 0] := by
  simp [silent_probe_iff hq]

/-- Behind a line that closes the quote nothing but brackets is open. -/
theorem silent_close_iff {quote e : Char} (hquote : quote = '"' ∨ quote = '\'')
    (he : e = '"' ∨ e = '\'') (depth : Nat) (ls : List (List Char)) :
    Silent ⟨some quote, depth, none, none⟩ ([e] :: ls) ↔
      Silent ⟨if e = quote then none else some quote, depth, none, none⟩ ls := by
  simp [silent_cons_iff, scanLine_quote hquote he]

/-- States on which the same lines ahead show no tag are the same. -/
theorem SameAhead.eq (hc : c.Lawful) (hd : d.Lawful) (h : SameAhead c d) : c = d := by
  have hprobe : ∀ l ∈ [probe 0], '\n' ∉ l := by decide
  cases hcq : c.quote with
  | none =>
    cases hdq : d.quote with
    | none => exact h.eq_of_quote_none hc hd hcq hdq
    | some quote =>
      obtain ⟨hquote, heq⟩ := hd.eq_of_quote hdq
      rw [heq] at h
      exact absurd ((h _ hprobe).mpr (silent_probe_of_quote hquote _)) (not_silent_probe hcq)
  | some quote =>
    obtain ⟨hquote, hceq⟩ := hc.eq_of_quote hcq
    cases hdq : d.quote with
    | none =>
      rw [hceq] at h
      exact absurd ((h _ hprobe).mp (silent_probe_of_quote hquote _)) (not_silent_probe hdq)
    | some quote' =>
      obtain ⟨hquote', hdeq⟩ := hd.eq_of_quote hdq
      rw [hceq, hdeq] at h ⊢
      -- the character that closes the one quote goes first
      have hclose : SameAhead ⟨none, c.flowDepth, none, none⟩
          ⟨if quote = quote' then none else some quote', d.flowDepth, none, none⟩ := by
        intro ls hls
        have hlines : ∀ l ∈ [quote] :: ls, '\n' ∉ l := by
          refine List.forall_mem_cons.mpr ⟨?_, hls⟩
          rcases hquote with rfl | rfl <;> decide
        have hsame := h _ hlines
        rwa [silent_close_iff hquote hquote, if_pos rfl, silent_close_iff hquote' hquote] at hsame
      by_cases hquotes : quote = quote'
      · have hlawful (depth : Nat) : Carry.Lawful ⟨none, depth, none, none⟩ :=
          ⟨fun _ hi => (by cases hi), fun _ hi => (by cases hi), fun _ hi => (by cases hi)⟩
        rw [if_pos hquotes] at hclose
        have heq := hclose.eq_of_quote_none (hlawful _) (hlawful _) rfl rfl
        have hdepth : c.flowDepth = d.flowDepth := (Carry.mk.inj heq).2.1
        rw [hquotes, hdepth]
      · rw [if_neg hquotes] at hclose
        exact absurd ((hclose _ hprobe).mpr (silent_probe_of_quote hquote' _))
          (not_silent_probe rfl)

end YamlDefs.Tag

import YamlDefs.Proofs.Tag.Apart
import YamlDefs.Tag.Carried

/-!
# One open scalar at a time

Between two lines a scan may be inside a quoted scalar, inside a block scalar or behind a plain one,
and never in two of them: wherever one is left open, the others have been closed before.

* `Carry.OneScalar`: that invariant; `oneScalar_of_scanLine`: a line keeps it.
* `oneScalar_carriedBehind`: any lines leave at most one scalar open; `carriedBehind_oneOpen`: the
  invariant spelled out, and what it means for the next line.
-/

namespace YamlDefs.Tag

open YamlDefs.Text

variable {c next : Carry} {line : List Char} {indent : Nat}

/-- At most one scalar is open, and a plain one hangs on no flow collection. -/
structure Carry.OneScalar (c : Carry) : Prop extends c.Lawful where
  flow : ∀ i ∈ c.plainIndent, c.flowDepth = 0

theorem oneScalar_initial : Carry.initial.OneScalar where
  toLawful := lawful_initial
  flow := fun _ h => by cases h

/-! ## One line -/

theorem Carry.OneScalar.closed (hc : c.OneScalar) :
    Carry.OneScalar { c with blockIndent := none } where
  isQuote := hc.isQuote
  block := fun _ h => by cases h
  plain := hc.plain
  flow := hc.flow

/-- The moves over a line keep a plain scalar only where no flow collection is open. -/
theorem oneScalar_of_carry {p : Place} (hp : IsQuote p.quote)
    (h : (scanFrom p line).carry indent = .ok next) : next.OneScalar := by
  refine ⟨lawful_of_carry hp h, fun i hi => ?_⟩
  cases hscan : scanFrom p line with
  | «open» q =>
    rw [hscan] at h
    obtain rfl := Except.ok.inj h
    dsimp only at hi ⊢
    split at hi
    · next hplain => exact hplain.2.2
    · cases hi
  | block depth =>
    rw [hscan] at h
    obtain rfl := Except.ok.inj h
    cases hi
  | found tag =>
    rw [hscan] at h
    cases h

/-- A line that shows no tag keeps the invariant. -/
theorem oneScalar_of_scanLine (hc : c.OneScalar) (h : scanLine c line = .ok next) :
    next.OneScalar := by
  unfold scanLine at h
  split at h
  · -- the line belongs to a block scalar
    obtain rfl := Except.ok.inj h
    exact hc
  · split at h
    · -- the line goes on with a plain scalar
      obtain rfl := Except.ok.inj h
      exact hc.closed
    · unfold scanContent at h
      split at h
      · -- a directive ends both kinds of scalar
        obtain rfl := Except.ok.inj h
        exact ⟨⟨hc.isQuote, fun _ hi => (by cases hi), fun _ hi => (by cases hi)⟩,
          fun _ hi => (by cases hi)⟩
      · exact oneScalar_of_carry hc.isQuote h

/-! ## Any lines -/

theorem oneScalar_after (hc : c.OneScalar) (line : List Char) : (c.after line).OneScalar := by
  unfold Carry.after
  split
  · next hl => exact oneScalar_of_scanLine hc hl
  · exact ⟨⟨fun _ h => (by cases h), fun _ h => (by cases h), fun _ h => (by cases h)⟩,
      fun _ h => (by cases h)⟩

/-- Whatever lines a scan has gone over, at most one scalar is open behind them. -/
theorem oneScalar_carriedBehind (lines : List (List Char)) : (carriedBehind lines).OneScalar := by
  have h (c : Carry) (hc : c.OneScalar) : (lines.foldl Carry.after c).OneScalar := by
    induction lines generalizing c with
    | nil => exact hc
    | cons line lines ih => exact ih _ (oneScalar_after hc line)
  exact h .initial oneScalar_initial

theorem Carry.OneScalar.count_le_one (hc : c.OneScalar) :
    [c.quote.isSome, c.blockIndent.isSome, c.plainIndent.isSome].count true ≤ 1 := by
  cases hb : c.blockIndent with
  | some i => simp [hc.block i hb]
  | none =>
    cases hp : c.plainIndent with
    | some i => simp [hc.plain i hp]
    | none => cases c.quote <;> simp

/-- Inside an open quote every line is scanned, and none is taken for a part of another scalar. -/
theorem Carry.OneScalar.scanLine_of_quote (hc : c.OneScalar) (hq : c.quote.isSome)
    (line : List Char) : c.blockIndent.any (continuesBlock line) = false ∧
      c.plainIndent.any (continuesPlain line) = false ∧
      scanLine c line = (scanFrom (.start c) line).carry (indentation line) := by
  obtain ⟨quote, hquote⟩ := Option.isSome_iff_exists.mp hq
  obtain ⟨-, heq⟩ := hc.eq_of_quote hquote
  have hblock : c.blockIndent = none := by rw [heq]
  have hplain : c.plainIndent = none := by rw [heq]
  simp [scanLine, scanContent, hblock, hplain, hquote]

/-- Behind a line that shows no tag, whatever lines came before, at most one of an open quote, a
block scalar and a plain scalar is carried on, the quote is one of two characters, and a plain
scalar is carried on only outside of flow collections. So no line is skipped inside a quote. -/
theorem carriedBehind_oneOpen (before : List (List Char)) (line : List Char) :
    (∀ next, scanLine (carriedBehind before) line = .ok next →
      [next.quote.isSome, next.blockIndent.isSome, next.plainIndent.isSome].count true ≤ 1 ∧
      (∀ q ∈ next.quote, q = '"' ∨ q = '\'') ∧
      (next.plainIndent.isSome → next.flowDepth = 0)) ∧
    ((carriedBehind before).quote.isSome →
      (carriedBehind before).blockIndent.any (continuesBlock line) = false ∧
      (carriedBehind before).plainIndent.any (continuesPlain line) = false ∧
      scanLine (carriedBehind before) line =
        (scanFrom (.start (carriedBehind before)) line).carry (indentation line)) := by
  have hc := oneScalar_carriedBehind before
  refine ⟨fun next hnext => ?_, fun hq => hc.scanLine_of_quote hq line⟩
  have hone := oneScalar_of_scanLine hc hnext
  refine ⟨hone.count_le_one, hone.isQuote, fun hplain => ?_⟩
  obtain ⟨i, hi⟩ := Option.isSome_iff_exists.mp hplain
  exact hone.flow i hi

/-- Behind a line that shows a tag and one that opens a quote, a deep line that looks like a comment
and a tag is scanned inside the quote; a plain scalar is carried on behind the line that closes
it. -/
theorem carriedBehind_oneOpen_quoted :
    let before := ["- [ !!x a".toList, "] : \"b".toList]
    let inside := "    # - !!x".toList
    let closing := "\": c".toList
    let c := carriedBehind before
    (scanLine c inside = .ok ⟨some '"', 0, none, none⟩ ∧
      [true, false, false].count true ≤ 1 ∧ ('"' = '"' ∨ '"' = '\'') ∧
      c.quote.isSome ∧ c.blockIndent.any (continuesBlock inside) = false ∧
      c.plainIndent.any (continuesPlain inside) = false) ∧
    (scanLine c closing = .ok ⟨none, 0, none, some 0⟩ ∧
      [false, false, true].count true ≤ 1 ∧ (some 0 : Option Nat).isSome ∧ 0 = 0) := by
  intro before inside closing c
  have hinside : scanLine c inside = .ok ⟨some '"', 0, none, none⟩ := by decide +kernel
  have hclosing : scanLine c closing = .ok ⟨none, 0, none, some 0⟩ := by decide +kernel
  have hquote : c.quote.isSome = true := by decide +kernel
  obtain ⟨hone, hscan⟩ := carriedBehind_oneOpen before inside
  obtain ⟨hcount, hmark, -⟩ := hone _ hinside
  obtain ⟨hblock, hplain, -⟩ := hscan hquote
  obtain ⟨hcount', -, hflow⟩ := (carriedBehind_oneOpen before closing).1 _ hclosing
  exact ⟨⟨hinside, hcount, hmark '"' rfl, hquote, hblock, hplain⟩, hclosing, hcount', rfl, hflow rfl⟩

end YamlDefs.Tag

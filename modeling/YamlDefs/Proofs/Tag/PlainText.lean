import YamlDefs.Proofs.Tag.TopLevel

/-!
# Plain scalars on one line

A dash or question mark before a blank is an indicator at the beginning of a node. The scan takes it
for one inside a plain scalar too, and then reads what stands behind it as a node of its own.

* `PlainText`: the text of a plain scalar behind its key, on one line.
* `opensNode`: a text that is more than a plain scalar where a node may begin.
* `innerNode?`: the part of a plain scalar that is scanned as a node of its own.
* `scanFrom_plain`: without such a part the scan passes over a plain scalar; otherwise it goes on as
  it does where the part is the whole value.
* `IsOpaque`: the entry of a key changes nothing for the lines behind it but their numbers.
* `LineEnd.Settled`: a line leaves no quote and no flow collection open, and shows no tag;
  `LineEnd.Settled.isOpaque`, `IsOpaque.settled`: just the entries on such lines are opaque.
* `findUnsupported?_plain`: so a plain scalar is opaque just if the part is settled that is scanned
  as a node of its own.
-/

namespace YamlDefs.Tag

open YamlDefs.Text

variable {p : Place} {cs rest : List Char}

/-! ## Plain texts -/

/-- Whether one character may follow another in a plain scalar: a colon before a blank would end it,
and a number sign behind one would begin a comment. -/
def MayFollow (c d : Char) : Prop :=
  (c = ':' → isBlank d = false) ∧ (d = '#' → isBlank c = false)

instance (c d : Char) : Decidable (MayFollow c d) :=
  inferInstanceAs (Decidable (_ ∧ _))

/-- The text of a plain scalar on one line. -/
structure PlainText where
  text : List Char
  head_isAlpha : text.head?.any Char.isAlpha = true
  oneLine : '\n' ∉ text
  isChain : text.IsChain MayFollow
  last_ne_colon : text.getLast? ≠ some ':'

/-- Whether a text, where a node may begin, begins with a tag, an anchor, a quote, a flow collection
or the header of a block scalar. -/
def opensNode : List Char → Bool
  | [] => false
  | c :: cs =>
    ['!', '&', '"', '\'', '[', '{'].contains c || (c = '|' || c = '>') && isBlockHeader cs

/-- What a plain scalar shows as a node of its own: such a text behind a dash or question mark and
blanks. -/
def innerNode? : List Char → Option (List Char)
  | [] => none
  | c :: cs =>
    if (c = '-' ∨ c = '?') ∧ cs.head?.all isBlank ∧ opensNode (trimStart cs) then
      some (trimStart cs)
    else innerNode? cs

/-- No quote and no flow collection is open at the end of a line, which shows no tag. -/
def LineEnd.Settled : LineEnd → Prop
  | .open p => p.quote = none ∧ p.flowDepth = 0
  | .block depth => depth = 0
  | .found _ => False

/-! ## Moves over plain texts -/

theorem scanFrom_trimStart (hq : p.quote = none) (hne : trimStart cs ≠ [])
    (hhead : cs.head?.all isBlank = true) :
    scanFrom p cs = scanFrom { p with afterBlank := true } (trimStart cs) := by
  induction cs generalizing p with
  | nil => exact absurd rfl hne
  | cons c cs ih =>
    have hc : isBlank c = true := by simpa using hhead
    have htrim : trimStart (c :: cs) = trimStart cs := by
      simp [trimStart, hc]
    rw [htrim] at hne ⊢
    rw [scanFrom_blank hq hc]
    by_cases hcs : cs.head?.all isBlank = true
    · exact ih (by exact hq) hne hcs
    · have hself : trimStart cs = cs := by
        cases cs with
        | nil => rfl
        | cons d cs => simpa [trimStart] using hcs
      rw [hself]

/-- A character of a plain scalar that is no indicator. -/
theorem scanFrom_plainChar {c : Char} (hq : p.quote = none) (hd : p.flowDepth = 0)
    (hblank : isBlank c = false) (hcomment : ¬(c = '#' ∧ p.afterBlank = true))
    (hnode : p.expectNode = true → opensNode (c :: cs) = false)
    (hindicator : ¬((c = ':' ∨ c = '-' ∨ c = '?') ∧ cs.head?.all isBlank = true)) :
    scanFrom p (c :: cs) = scanFrom
      { p with
        expectNode := false, inPlain := p.inPlain || p.expectNode, afterBlank := false } cs := by
  have hplain (q : Place) (hflow : q.flowDepth = 0) :
      plainStep q c cs = .on { q with expectNode := false, afterBlank := false } cs := by
    simp [plainStep, hflow, hindicator]
  apply scanFrom_of_on
  cases he : p.expectNode with
  | false =>
    simp [step, hq, hblank, hcomment, he, hplain p hd]
  | true =>
    have hopens := hnode he
    simp only [opensNode, Bool.or_eq_false_iff, List.contains_eq_mem, decide_eq_false_iff_not,
      List.mem_cons, not_or] at hopens
    obtain ⟨⟨htag, hanchor, hdouble, hsingle, hbracket, hbrace, -⟩, hheader⟩ := hopens
    have hblock : ¬((c = '|' ∨ c = '>') ∧ isBlockHeader cs = true) := by
      simpa using hheader
    simp [step, hq, hblank, hcomment, he, nodeStep, htag, hanchor, hdouble, hsingle, hbracket,
      hbrace, hblock, hplain, hd]

/-- A plain text behind its character `prev` is passed over, or scanned like its inner node. -/
theorem scanFrom_plain {prev : Char} (hq : p.quote = none) (hd : p.flowDepth = 0)
    (hafter : p.afterBlank = true → isBlank prev = true)
    (hnode : p.expectNode = true → opensNode (trimStart cs) = false)
    (hchain : (prev :: cs).IsChain MayFollow) (hlast : (prev :: cs).getLast? ≠ some ':') :
    match innerNode? cs with
    | none => (scanFrom p cs).Settled
    | some node => scanFrom p cs = scanFrom .value node := by
  induction cs generalizing p prev with
  | nil =>
    rw [innerNode?, scanFrom_nil]
    exact ⟨hq, hd⟩
  | cons c cs ih =>
    obtain ⟨⟨-, hcomment⟩, hrest⟩ := List.isChain_cons_cons.mp hchain
    rw [List.getLast?_cons_cons] at hlast
    cases hblank : isBlank c with
    | true =>
      have hindicator : ¬(c = '-' ∨ c = '?') := by
        rintro (rfl | rfl) <;> cases hblank
      have htrim : trimStart (c :: cs) = trimStart cs := by
        simp [trimStart, hblank]
      rw [innerNode?, if_neg (fun h => hindicator h.1), scanFrom_blank hq hblank]
      rw [htrim] at hnode
      exact ih (by exact hq) (by exact hd) (fun _ => hblank) hnode hrest hlast
    | false =>
      have htrim : trimStart (c :: cs) = c :: cs := by
        simp [trimStart, hblank]
      rw [htrim] at hnode
      by_cases hindicator : (c = ':' ∨ c = '-' ∨ c = '?') ∧ cs.head?.all isBlank = true
      · obtain ⟨hmark, hall⟩ := hindicator
        have hhead : ∀ d ∈ cs.head?, isBlank d = true := by
          intro d hd
          rw [hd] at hall
          exact hall
        have hdash : c = '-' ∨ c = '?' := hmark.resolve_left fun hcolon => by
          subst hcolon
          cases cs with
          | nil => exact hlast rfl
          | cons d cs =>
            have hblankNext := hhead d rfl
            rw [(List.isChain_cons_cons.mp hrest).1.1 rfl] at hblankNext
            cases hblankNext
        rw [innerNode?, scanFrom_indicator hq hmark hhead]
        by_cases hopens : opensNode (trimStart cs) = true
        · -- behind the blanks the scan stands where the value of a key begins
          have hne : trimStart cs ≠ [] := fun h => by
            rw [h] at hopens
            cases hopens
          rw [if_pos ⟨hdash, hall, hopens⟩]
          dsimp only
          rw [scanFrom_trimStart (by exact hq) hne hall, hq, hd]
          rfl
        · rw [if_neg fun h => hopens h.2.2]
          exact ih (by exact hq) (by exact hd) (fun h => by cases h)
            (fun _ => by simpa using hopens) hrest hlast
      · have hnoComment : ¬(c = '#' ∧ p.afterBlank = true) := by
          rintro ⟨hc, ha⟩
          have hprev := hcomment hc
          rw [hafter ha] at hprev
          cases hprev
        have hmove := scanFrom_plainChar hq hd hblank hnoComment hnode hindicator
        have hinner : innerNode? (c :: cs) = innerNode? cs := by
          rw [innerNode?, if_neg]
          exact fun h => hindicator ⟨.inr h.1, h.2.1⟩
        rw [hinner, hmove]
        exact ih (by exact hq) (by exact hd) (fun h => by cases h) (fun h => by cases h) hrest hlast

/-- Where the value of a key begins, a plain text is passed over, or scanned like its inner node. -/
theorem PlainText.scanFrom_text (text : PlainText) :
    match innerNode? text.text with
    | none => (scanFrom .value text.text).Settled
    | some node => scanFrom .value text.text = scanFrom .value node := by
  obtain ⟨cs, hhead, -, hchain, hlast⟩ := text
  cases cs with
  | nil => cases hhead
  | cons c cs =>
    have hword : isWordChar c = true := by
      have halpha : c.isAlpha = true := by simpa using hhead
      exact isWordChar_of_isAlphanum (by simp [Char.isAlphanum, halpha])
    have hindicator : ¬(c = '-' ∨ c = '?') := by
      rintro (rfl | rfl) <;> cases hword
    dsimp only
    rw [innerNode?, if_neg (fun h => hindicator h.1), scanFrom_wordChar rfl hword]
    exact scanFrom_plain rfl rfl (fun h => by cases h) (fun h => by cases h) hchain hlast

/-! ## Lines behind the entry -/

/-- A key in the first line of a source, with a value on its line. -/
theorem findUnsupported?_key (key : Identifier) {value : List Char} (hvalue : '\n' ∉ value)
    (rest : List Char) :
    findUnsupported? (String.ofList (key.name.toList ++ ':' :: ' ' :: (value ++ '\n' :: rest))) =
      match (scanFrom .value value).carry 0 with
      | .error tag => some ⟨String.ofList tag, 1⟩
      | .ok next => findOnLines? next 2 (rest.splitOn '\n') := by
  have hsplit : (value ++ '\n' :: rest).splitOn '\n' = value :: rest.splitOn '\n' :=
    List.splitOn_append_cons_self_of_not_mem hvalue rest
  rw [findUnsupported?_behind_key]
  exact findFrom?_of_splitOn hsplit _ _ _

theorem LineEnd.Settled.exists_carry {e : LineEnd} (h : e.Settled) :
    ∃ next, AtTop next ∧ e.carry 0 = .ok next := by
  cases e with
  | «open» p =>
    refine ⟨_, ⟨h.1, h.2, fun _ hi => (by cases hi), fun i hi => ?_⟩, rfl⟩
    dsimp only at hi
    split at hi
    · exact (Option.some.inj hi).symm
    · cases hi
  | block depth =>
    obtain rfl : depth = 0 := h
    exact ⟨.inBlock, atTop_inBlock, rfl⟩
  | found tag => exact h.elim

/-- Quotes that are open hide a tag on the next line. -/
theorem findOnLines?_of_quote {quote : Char} (hquote : quote = '"' ∨ quote = '\'')
    (depth number : Nat) :
    findOnLines? ⟨some quote, depth, none, none⟩ number [['!', '!', 'x']] = none := by
  have hmove (b : Bool) {d : Char} (hd : d ≠ '"' ∧ d ≠ '\'' ∧ d ≠ '\\') (cs : List Char) :
      scanFrom ⟨some quote, depth, false, false, b⟩ (d :: cs) =
        scanFrom ⟨some quote, depth, false, false, false⟩ cs := by
    apply scanFrom_of_on
    rw [step_of_quote rfl]
    rcases hquote with rfl | rfl <;> simp [quotedStep, hd]
  have hscan : scanLine ⟨some quote, depth, none, none⟩ ['!', '!', 'x'] =
      .ok ⟨some quote, depth, none, none⟩ := by
    simp [scanLine, scanContent, Place.start, hmove, scanFrom_nil, LineEnd.carry]
  rw [findOnLines?, hscan]
  rfl

/-- Inside a flow collection a tag may follow a comma. -/
theorem findOnLines?_of_flow (depth number : Nat) {block : Option Nat}
    (hblock : ∀ i ∈ block, i = 0) :
    findOnLines? ⟨none, depth + 1, block, none⟩ number [['a', ',', ' ', '!', '!', 'x']] =
      some ⟨"!!x", number⟩ := by
  have hcontinues : block.any (continuesBlock ['a', ',', ' ', '!', '!', 'x']) = false := by
    cases block with
    | none => rfl
    | some i =>
      obtain rfl := hblock i rfl
      decide
  have hblank : isBlank ',' = false ∧ isBlank ' ' = true := by
    decide
  have hdepth : decide (0 < depth + 1) = true := by
    simp
  have htoken : token (decide (0 < depth + 1)) ['!', 'x'] = (['!', 'x'], []) := by
    rw [hdepth]
    decide
  have hword : scanFrom (.start ⟨none, depth + 1, block, none⟩) ['a', ',', ' ', '!', '!', 'x'] =
      scanFrom ⟨none, depth + 1, false, false, false⟩ [',', ' ', '!', '!', 'x'] := by
    rw [scanFrom_wordChar rfl (by decide)]
    simp [Place.start]
  have hcomma : scanFrom ⟨none, depth + 1, false, false, false⟩ [',', ' ', '!', '!', 'x'] =
      scanFrom ⟨none, depth + 1, true, false, false⟩ [' ', '!', '!', 'x'] := by
    apply scanFrom_of_on
    simp [step, plainStep, hblank]
  have hscan : scanFrom (.start ⟨none, depth + 1, block, none⟩) ['a', ',', ' ', '!', '!', 'x'] =
      .found ['!', '!', 'x'] := by
    rw [hword, hcomma, scanFrom_blank rfl hblank.2, scanFrom_tag rfl rfl htoken, if_neg (by decide)]
  have hdirective : isDirective ['a', ',', ' ', '!', '!', 'x'] = false := by
    decide
  rw [findOnLines?]
  simp [scanLine, hcontinues, scanContent, hdirective, hscan, LineEnd.carry]

/-- The entry of a key, with a value on its line, changes nothing for the lines behind it but their
numbers. -/
def IsOpaque (key : Identifier) (value : List Char) : Prop :=
  ∀ rest, FlushLeft (rest.splitOn '\n') →
    findUnsupported? (String.ofList (key.name.toList ++ ':' :: ' ' :: (value ++ '\n' :: rest))) =
      (findUnsupported? (String.ofList rest)).map (Found.mapLine (· + 1))

theorem LineEnd.Settled.isOpaque {value : List Char} (hvalue : '\n' ∉ value)
    (h : (scanFrom .value value).Settled) (key : Identifier) : IsOpaque key value := by
  intro rest hflush
  obtain ⟨next, hnext, hcarry⟩ := h.exists_carry
  rw [findUnsupported?_key key hvalue, hcarry]
  dsimp only
  rw [findOnLines?_of_atTop hnext hflush, findUnsupported?_eq, String.toList_ofList]
  exact findOnLines?_add .initial 1 1 _

/-- What a line leaves for the next one, if it changes nothing for that one. -/
theorem IsOpaque.findOnLines? {key : Identifier} {value : List Char} (h : IsOpaque key value)
    (hvalue : '\n' ∉ value) {next : Carry} (hcarry : (scanFrom .value value).carry 0 = .ok next)
    (line : List Char) (hline : '\n' ∉ line) (hflush : FlushLeft [line]) :
    Tag.findOnLines? next 2 [line] =
      (Tag.findOnLines? .initial 1 [line]).map (Found.mapLine (· + 1)) := by
  have hrest := h line (by rwa [List.splitOn_eq_singleton hline])
  rwa [findUnsupported?_key key hvalue, hcarry, findUnsupported?_eq, String.toList_ofList,
    List.splitOn_eq_singleton hline] at hrest

theorem IsOpaque.flowDepth_eq_zero {key : Identifier} {value : List Char} (h : IsOpaque key value)
    (hvalue : '\n' ∉ value) {depth : Nat} {block : Option Nat} (hblock : ∀ i ∈ block, i = 0)
    (hcarry : (scanFrom .value value).carry 0 = .ok ⟨none, depth, block, none⟩) : depth = 0 := by
  cases depth with
  | zero => rfl
  | succ depth =>
    have hcomma : Tag.findOnLines? .initial 1 [['a', ',', ' ', '!', '!', 'x']] = none := by
      decide +kernel
    have hfound :=
      h.findOnLines? hvalue hcarry ['a', ',', ' ', '!', '!', 'x'] (by decide) (by decide)
    rw [findOnLines?_of_flow depth 2 hblock, hcomma] at hfound
    cases hfound

theorem IsOpaque.settled {key : Identifier} {value : List Char} (h : IsOpaque key value)
    (hvalue : '\n' ∉ value) : (scanFrom .value value).Settled := by
  cases hscan : scanFrom .value value with
  | found tag =>
    -- the empty source behind the line shows no tag
    have hfound := h [] (by decide)
    have hempty : findUnsupported? (String.ofList []) = none := by
      decide
    rw [findUnsupported?_key key hvalue, hscan, hempty] at hfound
    cases hfound
  | block depth =>
    have hcarry : (scanFrom .value value).carry 0 = .ok ⟨none, depth, some 0, none⟩ := by
      rw [hscan]
      rfl
    exact h.flowDepth_eq_zero hvalue (by simp) hcarry
  | «open» p =>
    obtain ⟨quote, depth, expectNode, inPlain, afterBlank⟩ := p
    cases quote with
    | some quote =>
      have hquote : quote = '"' ∨ quote = '\'' :=
        isQuote_scanFrom (by intro d hd; cases hd) hscan quote rfl
      have hcarry : (scanFrom .value value).carry 0 = .ok ⟨some quote, depth, none, none⟩ := by
        rw [hscan]
        simp [LineEnd.carry]
      have htag : Tag.findOnLines? .initial 1 [['!', '!', 'x']] = some ⟨"!!x", 1⟩ := by
        decide +kernel
      have hfound := h.findOnLines? hvalue hcarry ['!', '!', 'x'] (by decide) (by decide)
      rw [findOnLines?_of_quote hquote, htag] at hfound
      cases hfound
    | none =>
      by_cases hdepth : depth = 0
      · exact ⟨rfl, hdepth⟩
      · have hcarry : (scanFrom .value value).carry 0 = .ok ⟨none, depth, none, none⟩ := by
          rw [hscan]
          simp [LineEnd.carry, hdepth]
        exact absurd (h.flowDepth_eq_zero hvalue (by simp) hcarry) hdepth

theorem innerNode?_suffix {node : List Char} (h : innerNode? cs = some node) : node <:+ cs := by
  induction cs with
  | nil => cases h
  | cons c cs ih =>
    rw [innerNode?] at h
    split at h
    · obtain rfl := Option.some.inj h
      exact (List.dropWhile_suffix isBlank).trans (List.suffix_cons c cs)
    · exact (ih h).trans (List.suffix_cons c cs)

/-- A plain scalar changes nothing for the lines behind it just if the line is settled on which its
inner node is the whole value. Where there is an inner node, the source is scanned like the one
with this line. -/
theorem findUnsupported?_plain (key : Identifier) (text : PlainText) :
    (IsOpaque key text.text ↔
      ∀ node ∈ innerNode? text.text, (scanFrom .value node).Settled) ∧
    ∀ node ∈ innerNode? text.text, ∀ rest,
      findUnsupported?
          (String.ofList (key.name.toList ++ ':' :: ' ' :: (text.text ++ '\n' :: rest))) =
        findUnsupported?
          (String.ofList (key.name.toList ++ ':' :: ' ' :: (node ++ '\n' :: rest))) := by
  have hscan := text.scanFrom_text
  refine ⟨⟨fun hopaque node hnode => ?_, fun hsettled => ?_⟩, fun node hnode rest => ?_⟩
  · have htext := hopaque.settled text.oneLine
    rw [hnode] at hscan
    dsimp only at hscan
    rwa [hscan] at htext
  · refine LineEnd.Settled.isOpaque text.oneLine ?_ key
    cases hinner : innerNode? text.text with
    | none =>
      rw [hinner] at hscan
      exact hscan
    | some node =>
      rw [hinner] at hscan
      dsimp only at hscan
      rw [hscan]
      exact hsettled node hinner
  · have honeLine : '\n' ∉ node := fun h => text.oneLine ((innerNode?_suffix hnode).subset h)
    rw [hnode] at hscan
    dsimp only at hscan
    rw [findUnsupported?_key key text.oneLine, findUnsupported?_key key honeLine, hscan]

/-- A tag behind a dash inside a plain scalar is reported, though the lines behind show none. -/
theorem findUnsupported?_plain_dash :
    ∃ text : PlainText, text.text = "a - !!x b".toList ∧ ¬ IsOpaque ⟨"K", rfl⟩ text.text := by
  let text : PlainText := ⟨"a - !!x b".toList, by decide, by decide, by decide, by decide⟩
  refine ⟨text, rfl, fun hopaque => ?_⟩
  have hfound : findUnsupported? "K: a - !!x b\n" = some ⟨"!!x", 1⟩ := by
    decide +kernel
  have hnone : findUnsupported? (String.ofList []) = none := by
    decide
  have hempty := hopaque [] (by decide)
  rw [hnone] at hempty
  cases hfound.symm.trans hempty

end YamlDefs.Tag

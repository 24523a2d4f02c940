import YamlDefs.Compile
import YamlDefs.Proofs.Tag.TopLevel
import YamlDefs.Yaml.Read

/-!
# What is found

A tag that a scan finds stands on the line whose number is given, as it is written there, and is
outside the core schema. Lines are scanned in order and none of them is looked at twice, so the
lines before it show no tag, and the lines behind it are never looked at.

* `keepsTo_step`: what one move leaves of the line, and what it finds there.
* `of_scanFrom_eq_found`, `of_scanLine_eq_error`: what is found on a line, whatever is carried on.
* `findOnLines?_eq_some_iff`: what is found in a run over lines, and on which of them.
* `firstLines`: the first lines of a source; `splitOn_firstLines_append`: the lines of the text in
  which another one stands behind them.
* `findUnsupported?_final`: what is found in a source stays found whatever follows its line, and is
  what the source is rejected for.
-/

namespace YamlDefs.Tag

open YamlDefs.Text

variable {p : Place} {c mid : Carry} {cs tag line : List Char} {ls : List (List Char)}
  {number n : Nat} {found : Found} {source : String}

/-! ## One move -/

theorem prefix_of_token (inFlow : Bool) (cs : List Char) : (token inFlow cs).1 <+: cs :=
  ⟨_, token_append inFlow cs⟩

theorem suffix_of_token (inFlow : Bool) (cs : List Char) : (token inFlow cs).2 <:+ cs :=
  ⟨_, token_append inFlow cs⟩

/-- A move over the character `d` before `cs` keeps to the line: it leaves an end of `cs`, and a tag
is found where it begins. -/
def Move.KeepsTo (d : Char) (cs : List Char) : Move → Prop
  | .on _ rest => rest <:+ cs
  | .comment _ => True
  | .block => True
  | .found tag => tag <+: d :: cs ∧ isCore tag = false

theorem keepsTo_plainStep (p : Place) (d : Char) (cs : List Char) :
    (plainStep p d cs).KeepsTo d cs := by
  obtain ⟨q, hstep, -⟩ := exists_plainStep p d cs
  rw [hstep]
  exact List.suffix_rfl

theorem keepsTo_quotedStep (p : Place) (quote d : Char) (cs : List Char) :
    (quotedStep p quote d cs).KeepsTo d cs := by
  unfold quotedStep
  split
  · exact List.drop_suffix 1 cs
  · split <;> exact List.suffix_rfl

theorem keepsTo_nodeStep (p : Place) (d : Char) (cs : List Char) :
    (nodeStep p d cs).KeepsTo d cs := by
  unfold nodeStep
  split
  · dsimp only
    split
    · exact suffix_of_token _ cs
    · next hcore =>
      exact ⟨(List.prefix_cons_inj d).mpr (prefix_of_token _ cs), by simpa using hcore⟩
  · split
    · exact suffix_of_token _ cs
    · split
      · exact List.suffix_rfl
      · split
        · trivial
        · split
          · exact List.suffix_rfl
          · exact keepsTo_plainStep _ d cs

theorem keepsTo_step (p : Place) (d : Char) (cs : List Char) : (step p d cs).KeepsTo d cs := by
  unfold step
  split
  · exact keepsTo_quotedStep p _ d cs
  · split
    · exact List.suffix_rfl
    · split
      · trivial
      · split
        · exact keepsTo_nodeStep p d cs
        · exact keepsTo_plainStep p d cs

/-! ## One line -/

/-- What the moves over a line find is a piece of it. -/
theorem of_scanFrom_eq_found (h : scanFrom p cs = .found tag) :
    tag <:+: cs ∧ isCore tag = false := by
  fun_induction scanFrom p cs with
  | case1 => cases h
  | case2 p d cs q rest hstep ih =>
    obtain ⟨hpiece, hcore⟩ := ih h
    have hrest : rest <:+ cs := by simpa [hstep, Move.KeepsTo] using keepsTo_step p d cs
    exact ⟨hpiece.trans (hrest.trans (List.suffix_cons d cs)).isInfix, hcore⟩
  | case3 => cases h
  | case4 => cases h
  | case5 p d cs tag' hstep =>
    cases h
    have htag : tag <+: d :: cs ∧ isCore tag = false := by
      simpa [hstep, Move.KeepsTo] using keepsTo_step p d cs
    exact ⟨htag.1.isInfix, htag.2⟩

/-- So is what is found on a line, whatever the lines before it have left. -/
theorem of_scanLine_eq_error (h : scanLine c line = .error tag) :
    tag <:+: line ∧ isCore tag = false := by
  unfold scanLine scanContent at h
  split at h
  · cases h
  · split at h
    · cases h
    · split at h
      · cases h
      · cases hscan : scanFrom (.start c) line with
        | «open» p =>
          rw [hscan] at h
          cases h
        | block depth =>
          rw [hscan] at h
          cases h
        | found tag' =>
          rw [hscan] at h
          cases h
          exact of_scanFrom_eq_found hscan

/-! ## Runs over lines -/

/-- A run finds the tag of the first line that shows one. The lines behind it do not matter. -/
theorem findOnLines?_eq_some_iff :
    findOnLines? c number ls = some found ↔ ∃ before line after mid, ls = before ++ line :: after ∧
      before.foldlM scanLine c = .ok mid ∧ scanLine mid line = .error found.tag.toList ∧
      found.line = number + before.length := by
  constructor
  · intro h
    induction ls generalizing c number with
    | nil => cases h
    | cons l ls ih =>
      rw [findOnLines?] at h
      cases hl : scanLine c l with
      | error tag =>
        rw [hl] at h
        cases h
        exact ⟨[], l, ls, c, rfl, rfl, by rw [hl, String.toList_ofList], rfl⟩
      | ok next =>
        rw [hl] at h
        obtain ⟨before, line, after, mid, rfl, hbefore, hline, hnumber⟩ := ih h
        refine ⟨l :: before, line, after, mid, rfl, ?_, hline, ?_⟩
        · rw [List.foldlM_cons, hl]
          exact hbefore
        · rw [List.length_cons]
          omega
  · rintro ⟨before, line, after, mid, rfl, hbefore, hline, hnumber⟩
    rw [findOnLines?_append hbefore, findOnLines?, hline]
    dsimp only
    rw [String.ofList_toList, ← hnumber]

/-- Lines that the scan passes show no tag. -/
theorem findOnLines?_of_passed (h : ls.foldlM scanLine c = .ok mid) (number : Nat) :
    findOnLines? c number ls = none := by
  have hrun := findOnLines?_append h number []
  rwa [List.append_nil] at hrun

/-! ## The first lines of a source -/

/-- The first lines of a source, each with the line feed that ends it; the last of them gets one if
it has none. -/
def firstLines (n : Nat) (source : String) : String :=
  String.ofList (unlines ((source.toList.splitOn '\n').take n))

theorem newline_not_mem_of_mem_splitOn {l : List Char} (h : l ∈ cs.splitOn '\n') : '\n' ∉ l := by
  induction cs generalizing l with
  | nil =>
    obtain rfl : l = [] := by simpa using h
    exact List.not_mem_nil
  | cons d cs ih =>
    obtain ⟨first, others, hsplit⟩ := List.exists_cons_of_ne_nil (List.splitOn_ne_nil '\n' cs)
    rw [List.splitOn_cons_eq_if_modifyHead, hsplit] at h
    rw [hsplit] at ih
    split at h
    · rcases List.mem_cons.mp h with rfl | h
      · exact List.not_mem_nil
      · exact ih h
    · next hd =>
      rcases List.mem_cons.mp h with rfl | h
      · rw [List.mem_cons, not_or]
        exact ⟨fun he => hd (beq_iff_eq.mpr he.symm), ih (List.mem_cons_self ..)⟩
      · exact ih (List.mem_cons_of_mem _ h)

theorem splitOn_unlines_append (h : ∀ l ∈ ls, '\n' ∉ l) (cs : List Char) :
    (unlines ls ++ cs).splitOn '\n' = ls ++ cs.splitOn '\n' := by
  induction ls with
  | nil => rfl
  | cons l ls ih =>
    obtain ⟨hl, hr⟩ := List.forall_mem_cons.mp h
    have hcons : unlines (l :: ls) ++ cs = l ++ '\n' :: (unlines ls ++ cs) := by
      simp [unlines]
    rw [hcons, List.splitOn_append_cons_self_of_not_mem hl, ih hr, List.cons_append]

/-- Behind the first lines of a source may stand any other text. -/
theorem splitOn_firstLines_append (n : Nat) (source text : String) :
    (firstLines n source ++ text).toList.splitOn '\n' =
      (source.toList.splitOn '\n').take n ++ text.toList.splitOn '\n' := by
  rw [String.toList_append, firstLines, String.toList_ofList]
  exact splitOn_unlines_append
    (fun l hl => newline_not_mem_of_mem_splitOn (List.mem_of_mem_take hl)) _

theorem intercalate_append {ms : List (List Char)} (h : ms ≠ []) (ls : List (List Char)) :
    List.intercalate ['\n'] (ls ++ ms) = unlines ls ++ List.intercalate ['\n'] ms := by
  induction ls with
  | nil => rfl
  | cons l ls ih =>
    obtain ⟨m, more, hne⟩ := List.exists_cons_of_ne_nil (l := ls ++ ms) (by simp [h])
    rw [List.cons_append, hne, List.intercalate_cons_cons, ← hne, ih]
    simp [unlines]

/-- The first lines of a source are its head, or all of it with a line feed at the end. -/
theorem eq_firstLines_append_or (h : n ≤ (source.toList.splitOn '\n').length) :
    (∃ text, source = firstLines n source ++ text) ∨ firstLines n source = source ++ "\n" := by
  have hsource : List.intercalate ['\n'] (source.toList.splitOn '\n') = source.toList :=
    List.intercalate_splitOn '\n'
  rcases Nat.lt_or_eq_of_le h with hlt | rfl
  · left
    have hne : (source.toList.splitOn '\n').drop n ≠ [] := by
      simpa using hlt
    refine ⟨String.ofList (List.intercalate ['\n'] ((source.toList.splitOn '\n').drop n)), ?_⟩
    rw [← String.toList_inj, String.toList_append, firstLines, String.toList_ofList,
      String.toList_ofList, ← intercalate_append hne, List.take_append_drop, hsource]
  · right
    have hend : unlines (source.toList.splitOn '\n') = source.toList ++ ['\n'] := by
      obtain ⟨before, last, hlast⟩ :=
        (List.eq_nil_or_concat' _).resolve_left (List.splitOn_ne_nil '\n' source.toList)
      rw [hlast, intercalate_append (List.cons_ne_nil last [])] at hsource
      rw [hlast, ← hsource]
      simp [unlines]
    rw [← String.toList_inj, String.toList_append, firstLines, String.toList_ofList,
      List.take_length, hend]
    rfl

/-! ## What follows the line of a tag -/

/-- Where a tag is found in the lines between line feeds, the lines before it show none. -/
theorem exists_splitOn_of_found (h : findUnsupported? source = some found) :
    ∃ before line after mid, source.toList.splitOn '\n' = before ++ line :: after ∧
      before.foldlM scanLine .initial = .ok mid ∧ scanLine mid line = .error found.tag.toList ∧
      found.line = 1 + before.length := by
  rw [findUnsupported?_eq] at h
  exact findOnLines?_eq_some_iff.mp h

theorem line_le_length_splitOn (h : findUnsupported? source = some found) :
    found.line ≤ (source.toList.splitOn '\n').length := by
  obtain ⟨before, line, after, mid, hsplit, -, -, hnumber⟩ := exists_splitOn_of_found h
  rw [hsplit, List.length_append, List.length_cons]
  omega

theorem findUnsupported?_firstLines (h : findUnsupported? source = some found) :
    findUnsupported? (firstLines (found.line - 1) source) = none := by
  obtain ⟨before, line, after, mid, hsplit, hbefore, -, hnumber⟩ := exists_splitOn_of_found h
  have htake : (source.toList.splitOn '\n').take (found.line - 1) = before := by
    rw [hsplit, hnumber, Nat.add_sub_cancel_left, List.take_left]
  have hlines := splitOn_firstLines_append (found.line - 1) source ""
  rw [String.append_empty, htake] at hlines
  rw [findUnsupported?_eq, hlines]
  exact (findOnLines?_concat_nil isQuote_initial 1 before).trans (findOnLines?_of_passed hbefore 1)

theorem findUnsupported?_firstLines_append (h : findUnsupported? source = some found)
    (text : String) : findUnsupported? (firstLines found.line source ++ text) = some found := by
  obtain ⟨before, line, after, mid, hsplit, hbefore, hline, hnumber⟩ := exists_splitOn_of_found h
  have htake : (source.toList.splitOn '\n').take found.line = before ++ [line] := by
    rw [hsplit, hnumber, Nat.add_comm, List.take_length_add_append, List.take_succ_cons,
      List.take_zero]
  rw [findUnsupported?_eq, splitOn_firstLines_append, htake, List.append_assoc,
    List.singleton_append]
  exact findOnLines?_eq_some_iff.mpr ⟨before, line, _, mid, rfl, hbefore, hline, hnumber⟩

/-- A tag that is found is genuine: it is a piece of the line whose number is given, written with
`!!` or with `!<` and a final `>`, and outside the core schema. And it is final: the lines before it
show none, and whatever text follows its line, the same tag is found on the same line, and is what
the source is rejected for under every limit, by whatever library it would be read. -/
theorem findUnsupported?_final (h : findUnsupported? source = some found) :
    1 ≤ found.line ∧ found.line ≤ (lines source.toList).length ∧
    (∃ line, (lines source.toList)[found.line - 1]? = some line ∧ found.tag.toList <:+: line) ∧
    isCore found.tag.toList = false ∧
    ((∃ name, found.tag.toList = '!' :: '!' :: name) ∨
      ∃ uri, found.tag.toList = '!' :: '<' :: (uri ++ ['>'])) ∧
    findUnsupported? (firstLines (found.line - 1) source) = none ∧
    ((∃ text, source = firstLines found.line source ++ text) ∨
      firstLines found.line source = source ++ "\n") ∧
    (∀ text, findUnsupported? (firstLines found.line source ++ text) = some found) ∧
    ∀ (read : Yaml.Reader) limit, compile read limit source = .error (.invalidValue found.tag) ∧
      ∀ text, compile read limit (firstLines found.line source ++ text) =
        .error (.invalidValue found.tag) := by
  -- here the lines are numbered and taken without what ends them, while the text behind a line is
  -- replaced between line feeds, where a line may keep a carriage return
  obtain ⟨before, line, after, mid, hlines, -, hline, hnumber⟩ := findOnLines?_eq_some_iff.mp h
  obtain ⟨hpiece, hcore⟩ := of_scanLine_eq_error hline
  have hlength : (lines source.toList).length = before.length + (after.length + 1) := by
    rw [hlines, List.length_append, List.length_cons]
  have hstays := findUnsupported?_firstLines_append h
  refine ⟨by omega, by omega, ⟨line, ?_, hpiece⟩, hcore, of_not_isCore hcore,
    findUnsupported?_firstLines h, eq_firstLines_append_or (line_le_length_splitOn h), hstays,
    fun read limit => ⟨compile_of_found h limit, fun text => ?_⟩⟩
  · rw [hlines, hnumber, Nat.add_sub_cancel_left]
    simp
  · exact compile_of_found (hstays text) limit

/-- A tag behind one that quotes hide, in a source that is malformed behind its line. -/
theorem findUnsupported?_final_malformed :
    let source := "A: \"x\n!!y\"\nB: !!str [!<u> z\n@"
    let head := "A: \"x\n!!y\"\nB: !!str [!<u> z\n"
    findUnsupported? source = some ⟨"!<u>", 3⟩ ∧ 3 ≤ (lines source.toList).length ∧
      isCore ['!', '<', 'u', '>'] = false ∧ findUnsupported? "A: \"x\n!!y\"\n" = none ∧
      Yaml.read? source = none ∧
      ∀ text (read : Yaml.Reader) limit, findUnsupported? (head ++ text) = some ⟨"!<u>", 3⟩ ∧
        compile read limit (head ++ text) = .error (.invalidValue "!<u>") := by
  intro source head
  have hfound : findUnsupported? source = some ⟨"!<u>", 3⟩ := by decide +kernel
  have hhead : firstLines 3 source = head := by decide +kernel
  have hbefore : firstLines 2 source = "A: \"x\n!!y\"\n" := by decide +kernel
  obtain ⟨-, hle, -, hcore, -, hpassed, -, hstays, hcompile⟩ := findUnsupported?_final hfound
  have hnone : findUnsupported? (firstLines 2 source) = none := hpassed
  rw [hbefore] at hnone
  rw [hhead] at hstays hcompile
  have hread : (Yaml.read? source).isNone = true := by decide +kernel
  exact ⟨hfound, hle, hcore, hnone, Option.isNone_iff_eq_none.mp hread,
    fun text read limit => ⟨hstays text, (hcompile read limit).2 text⟩⟩

end YamlDefs.Tag

import YamlDefs.Proofs.Tag.Blanks
import YamlDefs.Tag.Cursor

/-!
# The scan by index

A scan by index reads and cuts at indices, and takes from the number of open flow collections.
Neither ever reaches out of the line or below zero, whatever the line holds and whatever is carried
on.

* `tokenEnd?_bounds`: a token ends behind its beginning and inside the line.
* `Cursor.advance?_agrees`: a move by index is a move of the scan, and leaves the same of the line.
* `scan_by_index`: each move stays inside the line and goes ahead, so the scan ends after at most as
  many moves as the line has characters, and comes to what the scan of the rest of a line comes to.
-/

namespace YamlDefs.Tag

open YamlDefs.Text

variable {chars cs : List Char} {c : Char} {inFlow : Bool} {i : Nat}

/-! ## Reading and cutting -/

/-- Whether the character before an index, if there is one, is blank. -/
def blankBefore (chars : List Char) (i : Nat) : Bool := (chars.take i).getLast?.all isBlank

section Index

variable (h : chars.drop i = c :: cs)
include h

theorem lt_length_of_drop : i < chars.length := by
  refine Nat.lt_of_not_le fun hle => ?_
  rw [List.drop_eq_nil_of_le hle] at h
  cases h

theorem getElem?_of_drop : chars[i]? = some c := by
  rw [← List.head?_drop, h]
  rfl

theorem drop_succ_of_drop : chars.drop (i + 1) = cs := by
  rw [← List.tail_drop, h]
  rfl

theorem getElem?_succ_of_drop : chars[i + 1]? = cs.head? := by
  rw [← List.head?_drop, drop_succ_of_drop h]

theorem length_of_drop : chars.length = i + 1 + cs.length := by
  have hlength := congrArg List.length h
  rw [List.length_drop, List.length_cons] at hlength
  omega

theorem blankBefore_succ : blankBefore chars (i + 1) = isBlank c := by
  rw [blankBefore, List.take_add_one, getElem?_of_drop h]
  simp

end Index

/-- Behind a part of a line, the character before is the last of that part. -/
theorem blankBefore_append {part rest : List Char} (h : chars.drop i = part ++ rest)
    (hne : part ≠ []) : blankBefore chars (i + part.length) = part.getLast?.all isBlank := by
  rw [blankBefore, List.take_add, h, List.take_left, List.getLast?_append,
    List.getLast?_eq_some_getLast hne, Option.some_or]

theorem slice?_length (h : i ≤ chars.length) :
    slice? chars i chars.length = some (chars.drop i) := by
  rw [slice?, if_pos ⟨h, Nat.le_refl _⟩, List.take_length]

/-- A part of a line by the indices at its two ends. -/
theorem slice?_append {part rest : List Char} (hi : i ≤ chars.length)
    (h : chars.drop i = part ++ rest) : slice? chars i (i + part.length) = some part := by
  have hlength := congrArg List.length h
  rw [List.length_drop, List.length_append] at hlength
  rw [slice?, if_pos ⟨by omega, by omega⟩, List.drop_take, h, Nat.add_sub_cancel_left,
    List.take_left]

theorem afterBlank?_eq (h : i ≤ chars.length) :
    afterBlank? chars i = some (blankBefore chars i) := by
  cases i with
  | zero => rfl
  | succ i =>
    have hdrop := List.drop_eq_getElem_cons (Nat.lt_of_succ_le h)
    rw [blankBefore_succ hdrop, afterBlank?, if_neg (Nat.succ_ne_zero i), Nat.ppred_succ,
      Option.bind_eq_bind, Option.bind_some, getElem?_of_drop hdrop]
    rfl

theorem opensComment?_eq (c : Char) (h : i ≤ chars.length) :
    opensComment? chars c i = some (decide (c = '#' ∧ blankBefore chars i = true)) := by
  rw [opensComment?, afterBlank?_eq h]
  by_cases hc : c = '#' <;> simp [hc]

theorem opensBlock?_eq (h : chars.drop i = c :: cs) :
    opensBlock? chars c i = some (decide ((c = '|' ∨ c = '>') ∧ isBlockHeader cs = true)) := by
  rw [opensBlock?, slice?_length (lt_length_of_drop h), drop_succ_of_drop h]
  by_cases hc : c = '|' ∨ c = '>' <;> simp [hc]

/-! ## The end of a token -/

theorem nameEnd?_eq (inFlow : Bool) (chars : List Char) (i : Nat) :
    nameEnd? inFlow chars i =
      some (i + ((chars.drop i).takeWhile (isTokenChar inFlow)).length) := by
  fun_induction nameEnd? inFlow chars i with
  | case1 i h ih =>
    have hdrop := List.drop_eq_getElem_cons h
    rw [getElem?_of_drop hdrop, hdrop, Option.bind_eq_bind, Option.bind_some, List.takeWhile_cons]
    split
    · rw [ih, List.length_cons]
      congr 1
      omega
    · rfl
  | case2 i h =>
    rw [List.drop_eq_nil_of_le (Nat.le_of_not_lt h)]
    rfl

/-- A verbatim token that the line closes. -/
theorem exists_of_closed (hhead : cs.head? = some '<') (hclose : '>' ∈ cs) :
    ∃ uri rest, cs = '<' :: (uri ++ '>' :: rest) ∧ '>' ∉ uri := by
  obtain ⟨part, rest, rfl, hpart⟩ := List.eq_append_cons_of_mem hclose
  cases part with
  | nil => cases hhead
  | cons d uri =>
    obtain rfl : d = '<' := Option.some.inj hhead
    exact ⟨uri, rest, rfl, fun hu => hpart (List.mem_cons_of_mem _ hu)⟩

theorem findIdx?_of_not_mem (h : '>' ∉ cs) : cs.findIdx? (· = '>') = none := by
  rw [List.findIdx?_eq_none_iff]
  exact fun d hd => decide_eq_false fun he => h (he ▸ hd)

/-- A verbatim token ends behind the first closing bracket, or with the line if there is none. -/
theorem length_token_verbatim (inFlow : Bool) (hhead : cs.head? = some '<') :
    (token inFlow cs).1.length = (cs.findIdx? (· = '>')).elim cs.length (· + 1) := by
  by_cases hclose : '>' ∈ cs
  · obtain ⟨uri, rest, rfl, huri⟩ := exists_of_closed hhead hclose
    have hfind : ('<' :: (uri ++ '>' :: rest)).findIdx? (· = '>') = some (uri.length + 1) := by
      simp [List.findIdx?_cons, List.findIdx?_append, findIdx?_of_not_mem huri]
    rw [hfind, token_verbatim inFlow huri]
    simp
  · rw [token_of_unclosed inFlow ⟨hhead, hclose⟩, findIdx?_of_not_mem hclose]
    rfl

/-- The end of a token by index, for any character at which it may be taken to begin. -/
theorem tokenEnd?_bounds (inFlow : Bool) (h : i < chars.length) :
    ∃ stop, tokenEnd? inFlow chars i = some stop ∧ i < stop ∧ stop ≤ chars.length := by
  unfold tokenEnd?
  split
  · rw [slice?_length (Nat.le_of_lt h)]
    refine ⟨_, rfl, ?_⟩
    cases hfind : (chars.drop i).findIdx? (· = '>') with
    | none => exact ⟨h, Nat.le_refl _⟩
    | some offset =>
      have hlt := (List.findIdx?_eq_some_iff_getElem.mp hfind).1
      rw [List.length_drop] at hlt
      exact ⟨show i < i + offset + 1 by omega, show i + offset + 1 ≤ chars.length by omega⟩
  · refine ⟨_, nameEnd?_eq inFlow chars (i + 1), by omega, ?_⟩
    have hle := (List.takeWhile_sublist (l := chars.drop (i + 1)) (isTokenChar inFlow)).length_le
    rw [List.length_drop] at hle
    omega

/-- The index behind a token is where the rest of the line begins that the token leaves. -/
theorem tokenEnd?_eq (inFlow : Bool) (h : chars.drop i = c :: cs) (hc : c ≠ '>') :
    tokenEnd? inFlow chars i = some (i + 1 + (token inFlow cs).1.length) := by
  rw [tokenEnd?, getElem?_succ_of_drop h]
  split
  · next hverbatim =>
    rw [slice?_length (Nat.le_of_lt (lt_length_of_drop h)), h,
      length_token_verbatim inFlow hverbatim, Option.bind_eq_bind, Option.bind_some,
      List.findIdx?_cons, decide_eq_false hc, length_of_drop h]
    cases cs.findIdx? (· = '>') with
    | none => rfl
    | some offset =>
      refine congrArg some (?_ : i + (offset + 1) + 1 = i + 1 + (offset + 1))
      omega
  · next hname =>
    rw [nameEnd?_eq, drop_succ_of_drop h, token_of_head? inFlow hname]

/-- Behind a token stands the rest that it leaves of the line. -/
theorem drop_token (inFlow : Bool) (h : chars.drop i = c :: cs) :
    chars.drop (i + 1 + (token inFlow cs).1.length) = (token inFlow cs).2 := by
  have hrest := @List.drop_left _ (token inFlow cs).1 (token inFlow cs).2
  rwa [token_append, ← drop_succ_of_drop h, List.drop_drop, drop_succ_of_drop h] at hrest

/-- A token with something behind it does not end with a blank. -/
theorem getLast?_token (hc : isBlank c = false) (hrest : (token inFlow cs).2 ≠ []) :
    (c :: (token inFlow cs).1).getLast?.all isBlank = false := by
  by_cases hhead : cs.head? = some '<'
  · by_cases hclose : '>' ∈ cs
    · obtain ⟨uri, rest, rfl, huri⟩ := exists_of_closed hhead hclose
      rw [token_verbatim inFlow huri, ← List.cons_append, ← List.cons_append, List.getLast?_concat]
      decide
    · rw [token_of_unclosed inFlow ⟨hhead, hclose⟩] at hrest
      exact absurd rfl hrest
  · have hall : ∀ d ∈ c :: (token inFlow cs).1, isBlank d = false := by
      rw [token_of_head? inFlow hhead, List.forall_mem_cons]
      refine ⟨hc, fun d hd => ?_⟩
      have htoken := List.mem_takeWhile_imp hd
      simp only [isTokenChar, Bool.not_eq_true', Bool.or_eq_false_iff] at htoken
      exact htoken.1
    rw [List.getLast?_eq_some_getLast (List.cons_ne_nil _ _)]
    exact hall _ (List.getLast_mem _)

theorem blankBefore_token (h : chars.drop i = c :: cs) (hc : isBlank c = false)
    (hrest : (token inFlow cs).2 ≠ []) :
    blankBefore chars (i + 1 + (token inFlow cs).1.length) = false := by
  have happ : chars.drop i = (c :: (token inFlow cs).1) ++ (token inFlow cs).2 := by
    rw [h, List.cons_append, token_append]
  have hlast := blankBefore_append happ (List.cons_ne_nil _ _)
  rwa [getLast?_token hc hrest, List.length_cons, Nat.add_comm _ 1, ← Nat.add_assoc] at hlast

/-! ## Moves by index are moves of the scan -/

/-- The place of a scan that is at a cursor. -/
abbrev Cursor.place (cur : Cursor) (afterBlank : Bool) : Place :=
  ⟨cur.quote, cur.flowDepth, cur.expectNode, cur.inPlain, afterBlank⟩

/-- A cursor is in front of the rest of a line. What a place keeps of the character before is right
where a comment may begin: outside quotes, in front of a character. -/
structure Cursor.Before (chars : List Char) (cur : Cursor) (afterBlank : Bool)
    (rest : List Char) : Prop where
  drop : chars.drop cur.index = rest
  blank : cur.quote = none → rest ≠ [] → afterBlank = blankBefore chars cur.index

/-- A move by index comes to the same as a move of the scan. -/
inductive Advance.Agrees (chars : List Char) : Advance → Move → Prop where
  | on {next : Cursor} {afterBlank : Bool} {rest : List Char}
      (h : next.Before chars afterBlank rest) :
      Agrees chars (.on next) (.on (next.place afterBlank) rest)
  | comment (last : Cursor) (afterBlank : Bool) :
      Agrees chars (.comment last) (.comment (last.place afterBlank))
  | block : Agrees chars .block .block
  | found (tag : List Char) : Agrees chars (.found tag) (.found tag)

namespace Cursor

variable {cur next : Cursor} {b : Bool}

/-- One character further on. -/
theorem Before.succ (h : cur.Before chars b (c :: cs)) {b' : Bool}
    (hindex : next.index = cur.index + 1) (hb : next.quote = none → b' = isBlank c) :
    next.Before chars b' cs where
  drop := by rw [hindex, drop_succ_of_drop h.drop]
  blank := fun hq _ => by rw [hindex, blankBefore_succ h.drop, hb hq]

theorem quotedAdvance_agrees (h : cur.Before chars b (c :: cs)) {quote : Char}
    (hq : cur.quote = some quote) (hquote : quote = '"' ∨ quote = '\'') :
    Advance.Agrees chars (.on (cur.quotedAdvance chars quote c))
      (quotedStep (cur.place b) quote c cs) := by
  have hopen : cur.quote ≠ none := fun hnone => by simp [hq] at hnone
  unfold quotedAdvance quotedStep
  rw [getElem?_succ_of_drop h.drop]
  split
  · -- the character behind this one is passed over; at the end of the line there is none
    have hnext : Before chars { cur with index := cur.index + 2 } false (cs.drop 1) :=
      ⟨by rw [← drop_succ_of_drop h.drop, List.drop_drop], fun hnone => absurd hnone hopen⟩
    exact .on hnext
  · split
    · next hc =>
      have hmark : isBlank c = false := by
        rcases hquote with rfl | rfl <;> (rw [hc]; decide)
      exact .on (h.succ rfl fun _ => hmark.symm)
    · have hnext : Before chars { cur with index := cur.index + 1 } false cs :=
        h.succ rfl fun hnone => absurd hnone hopen
      exact .on hnext

theorem plainAdvance?_agrees (h : cur.Before chars b (c :: cs)) (hc : isBlank c = false) :
    ∃ next, cur.plainAdvance? chars c = some next ∧
      Advance.Agrees chars (.on next) (plainStep (cur.place b) c cs) := by
  have hsucc {next : Cursor} (hindex : next.index = cur.index + 1) : next.Before chars false cs :=
    h.succ hindex fun _ => hc.symm
  unfold plainAdvance? plainStep
  rw [getElem?_succ_of_drop h.drop]
  by_cases hclose : (c = ']' ∨ c = '}') ∧ 0 < cur.flowDepth
  · have hpred : cur.flowDepth.ppred = some (cur.flowDepth - 1) :=
      Nat.ppred_eq_some.mpr (Nat.succ_pred_eq_of_pos hclose.2)
    rw [if_pos hclose, if_pos hclose, hpred]
    exact ⟨_, rfl, .on (hsucc rfl)⟩
  rw [if_neg hclose, if_neg hclose]
  by_cases hcomma : c = ',' ∧ 0 < cur.flowDepth
  · rw [if_pos hcomma, if_pos hcomma]
    exact ⟨_, rfl, .on (hsucc rfl)⟩
  rw [if_neg hcomma, if_neg hcomma]
  by_cases hindicator : (c = ':' ∨ c = '-' ∨ c = '?') ∧ cs.head?.all isBlank = true
  · rw [if_pos hindicator, if_pos hindicator]
    exact ⟨_, rfl, .on (hsucc rfl)⟩
  · rw [if_neg hindicator, if_neg hindicator]
    exact ⟨_, rfl, .on (hsucc rfl)⟩

/-- Behind a token. -/
theorem Before.token (h : cur.Before chars b (c :: cs)) (hc : isBlank c = false) (inFlow : Bool)
    (hindex : next.index = cur.index + 1 + (token inFlow cs).1.length) :
    next.Before chars false (token inFlow cs).2 where
  drop := by rw [hindex, drop_token inFlow h.drop]
  blank := fun _ hrest => by rw [hindex, blankBefore_token h.drop hc hrest]

/-- Over the token of a tag. -/
theorem tagAdvance_agrees (h : cur.Before chars b ('!' :: cs)) :
    ∃ advance, cur.nodeAdvance? chars '!' = some advance ∧
      advance.Agrees chars (nodeStep (cur.place b) '!' cs) := by
  have hi := Nat.le_of_lt (lt_length_of_drop h.drop)
  have hrest : Before chars
      { cur with index := cur.index + 1 + (token (0 < cur.flowDepth) cs).1.length } false
      (token (0 < cur.flowDepth) cs).2 := h.token (by decide) _ rfl
  have happ : chars.drop cur.index =
      ('!' :: (token (0 < cur.flowDepth) cs).1) ++ (token (0 < cur.flowDepth) cs).2 := by
    rw [h.drop, List.cons_append, token_append]
  have hslice := slice?_append hi happ
  rw [List.length_cons, Nat.add_comm _ 1, ← Nat.add_assoc] at hslice
  unfold nodeAdvance? nodeStep
  rw [if_pos rfl, if_pos rfl, tokenEnd?_eq _ h.drop (by decide)]
  simp only [Option.bind_eq_bind, Option.bind_some, hslice]
  refine ⟨_, rfl, ?_⟩
  split
  · exact .on hrest
  · exact .found _

theorem nodeAdvance?_agrees (h : cur.Before chars b (c :: cs)) (hc : isBlank c = false) :
    ∃ advance, cur.nodeAdvance? chars c = some advance ∧
      advance.Agrees chars (nodeStep (cur.place b) c cs) := by
  have hsucc {next : Cursor} (hindex : next.index = cur.index + 1) : next.Before chars false cs :=
    h.succ hindex fun _ => hc.symm
  by_cases htag : c = '!'
  · subst htag
    exact tagAdvance_agrees h
  unfold nodeAdvance? nodeStep
  rw [if_neg htag, if_neg htag]
  by_cases hanchor : c = '&'
  · subst hanchor
    rw [if_pos rfl, if_pos rfl, tokenEnd?_eq _ h.drop (by decide)]
    exact ⟨_, rfl, .on (h.token hc _ rfl)⟩
  rw [if_neg hanchor, if_neg hanchor]
  by_cases hquote : c = '"' ∨ c = '\''
  · rw [if_pos hquote, if_pos hquote]
    exact ⟨_, rfl, .on (hsucc rfl)⟩
  rw [if_neg hquote, if_neg hquote, opensBlock?_eq h.drop, Option.bind_eq_bind, Option.bind_some]
  by_cases hblock : (c = '|' ∨ c = '>') ∧ isBlockHeader cs = true
  · rw [if_pos hblock, if_pos (decide_eq_true hblock)]
    exact ⟨_, rfl, .block⟩
  rw [if_neg hblock, if_neg (by simpa using hblock)]
  by_cases hflow : c = '[' ∨ c = '{'
  · rw [if_pos hflow, if_pos hflow]
    exact ⟨_, rfl, .on (hsucc rfl)⟩
  · rw [if_neg hflow, if_neg hflow]
    have hplain : Before chars { cur with inPlain := cur.flowDepth = 0 } b (c :: cs) :=
      ⟨h.drop, h.blank⟩
    obtain ⟨next, hnext, hagrees⟩ := plainAdvance?_agrees hplain hc
    exact ⟨.on next, by rw [hnext]; rfl, hagrees⟩

/-- A move outside quotes. -/
theorem step_of_quote_eq_none {p : Place} (h : p.quote = none) : step p c cs =
    if isBlank c then .on { p with afterBlank := true } cs
    else if c = '#' ∧ p.afterBlank then .comment { p with inPlain := false }
    else if p.expectNode then nodeStep p c cs
    else plainStep p c cs := by
  unfold step
  split
  · next quote hquote =>
    rw [h] at hquote
    cases hquote
  · rfl

/-- A move by index is a move of the scan. -/
theorem advance?_agrees (hquote : IsQuote cur.quote) (h : cur.Before chars b (c :: cs)) :
    ∃ advance, cur.advance? chars = some advance ∧
      advance.Agrees chars (step (cur.place b) c cs) := by
  unfold advance?
  rw [getElem?_of_drop h.drop, Option.bind_eq_bind, Option.bind_some,
    opensComment?_eq c (Nat.le_of_lt (lt_length_of_drop h.drop))]
  obtain ⟨index, quote, depth, node, plain⟩ := cur
  cases quote with
  | some quote =>
    rw [step_of_quote rfl]
    exact ⟨_, rfl, quotedAdvance_agrees h rfl (hquote quote rfl)⟩
  | none =>
    rw [step_of_quote_eq_none rfl, ← h.blank rfl (List.cons_ne_nil _ _)]
    by_cases hc : isBlank c = true
    · rw [if_pos hc, if_pos hc]
      exact ⟨_, rfl, .on (h.succ rfl fun _ => hc.symm)⟩
    rw [if_neg hc, if_neg hc, Option.bind_eq_bind, Option.bind_some]
    by_cases hcomment : c = '#' ∧ b = true
    · rw [if_pos hcomment, if_pos (decide_eq_true hcomment)]
      exact ⟨_, rfl, .comment _ b⟩
    rw [if_neg hcomment, if_neg (by simpa using hcomment)]
    have hnone : isBlank c = false := Bool.eq_false_iff.mpr hc
    by_cases hnode : node = true
    · rw [if_pos hnode, if_pos hnode]
      exact nodeAdvance?_agrees h hnone
    · rw [if_neg hnode, if_neg hnode]
      obtain ⟨next, hnext, hagrees⟩ := plainAdvance?_agrees h hnone
      exact ⟨.on next, by rw [hnext]; rfl, hagrees⟩

/-! ## Whole lines -/

theorem lt_quotedAdvance (chars : List Char) (cur : Cursor) (quote c : Char) :
    cur.index < (cur.quotedAdvance chars quote c).index := by
  unfold quotedAdvance
  split
  · exact Nat.lt_add_of_pos_right (by decide)
  · split <;> exact Nat.lt_succ_self _

/-- A move at any cursor inside a line reaches nowhere out of it, and goes ahead. -/
theorem advance?_of_lt (h : cur.index < chars.length) :
    ∃ advance, cur.advance? chars = some advance ∧
      ∀ next, advance = .on next → cur.index < next.index := by
  have hdrop := List.drop_eq_getElem_cons h
  cases hq : cur.quote with
  | some quote =>
    refine ⟨.on (cur.quotedAdvance chars quote chars[cur.index]), ?_, ?_⟩
    · simp [advance?, hq, getElem?_of_drop hdrop]
    · rintro _ ⟨⟩
      exact lt_quotedAdvance ..
  | none =>
    have hquote : IsQuote cur.quote := by simp [IsQuote, hq]
    obtain ⟨advance, hadvance, hagrees⟩ := advance?_agrees hquote ⟨hdrop, fun _ _ => rfl⟩
    refine ⟨advance, hadvance, ?_⟩
    rintro next rfl
    generalize hstep : step _ _ _ = move at hagrees
    cases hagrees with
    | on hnext =>
      -- what a move of the scan leaves is shorter than what it began with
      have hle := length_rest_of_step hstep
      rw [← hnext.drop, List.length_drop, List.length_drop] at hle
      omega

/-- From any cursor a line ends after at most as many moves as it has characters left. -/
theorem exists_scan? {moves : Nat} (h : chars.length ≤ cur.index + moves) :
    ∃ outcome, cur.scan? chars moves = some outcome := by
  induction moves generalizing cur with
  | zero =>
    rw [scan?, if_neg (by omega)]
    exact ⟨_, rfl⟩
  | succ moves ih =>
    rw [scan?]
    split
    · next hlt =>
      obtain ⟨advance, hadvance, hnext⟩ := advance?_of_lt hlt
      rw [hadvance, Option.bind_eq_bind, Option.bind_some]
      cases advance with
      | on next =>
        have hahead := hnext next rfl
        exact ih (by omega)
      | comment last => exact ⟨_, rfl⟩
      | block => exact ⟨_, rfl⟩
      | found tag => exact ⟨_, rfl⟩
    · exact ⟨_, rfl⟩

/-- The moves by index come to what the moves of the scan come to. -/
theorem scan?_eq {moves : Nat} {rest : List Char} (hquote : IsQuote cur.quote)
    (h : cur.Before chars b rest) (hmoves : rest.length ≤ moves) :
    cur.scan? chars moves = some ((scanFrom (cur.place b) rest).carry (indentation chars)) := by
  induction moves generalizing cur b rest with
  | zero =>
    obtain rfl : rest = [] := List.eq_nil_of_length_eq_zero (Nat.le_zero.mp hmoves)
    have hend := List.drop_eq_nil_iff.mp h.drop
    rw [scan?, if_neg (Nat.not_lt.mpr hend), scanFrom_nil]
    rfl
  | succ moves ih =>
    cases rest with
    | nil =>
      have hend := List.drop_eq_nil_iff.mp h.drop
      rw [scan?, if_neg (Nat.not_lt.mpr hend), scanFrom_nil]
      rfl
    | cons c cs =>
      obtain ⟨advance, hadvance, hagrees⟩ := advance?_agrees hquote h
      rw [scan?, if_pos (lt_length_of_drop h.drop), hadvance, Option.bind_eq_bind, Option.bind_some]
      generalize hstep : step (cur.place b) c cs = move at hagrees
      cases hagrees with
      | on hnext =>
        have hle := length_rest_of_step hstep
        rw [List.length_cons] at hmoves
        have hkept := isQuote_step (p := cur.place b) hquote (by rw [hstep]; rfl)
        rw [scanFrom_of_on hstep, ← ih hkept hnext (by omega)]
      | comment last b' =>
        rw [scanFrom_of_comment hstep]
        rfl
      | block =>
        rw [scanFrom_of_block hstep]
        rfl
      | found tag =>
        rw [scanFrom_of_found hstep]
        rfl

end Cursor

/-- The scan of a line by index stays inside the line and comes to its end.

A token ends behind its beginning and inside the line, wherever it is taken to begin. From any state
at any character a move reads and cuts inside the line only, takes nothing from zero collections,
and either is the last one or goes ahead; so as many moves as there are characters left are enough.
A token by index leaves the rest that `token` leaves, and where an open quote is one of the two
quote characters, as it is behind any line, moves and lines come to what `step` and `scanFrom` come
to. -/
theorem scan_by_index (chars : List Char) :
    (∀ inFlow i, i < chars.length → ∃ stop, tokenEnd? inFlow chars i = some stop ∧ i < stop ∧
      stop ≤ chars.length ∧
      (chars[i]? ≠ some '>' → chars.drop stop = (token inFlow (chars.drop (i + 1))).2)) ∧
    (∀ (cur : Cursor) (h : cur.index < chars.length), ∃ advance, cur.advance? chars = some advance ∧
      (∀ next, advance = .on next → cur.index < next.index) ∧
      (IsQuote cur.quote → advance.Agrees chars (step (cur.place (blankBefore chars cur.index))
        chars[cur.index] (chars.drop (cur.index + 1))))) ∧
    (∀ (cur : Cursor) moves, chars.length ≤ cur.index + moves →
      ∃ outcome, cur.scan? chars moves = some outcome) ∧
    ∀ c : Carry, IsQuote c.quote → (Cursor.start c).scan? chars chars.length =
      some ((scanFrom (.start c) chars).carry (indentation chars)) := by
  refine ⟨fun inFlow i hi => ?_, fun cur h => ?_, fun cur moves h => Cursor.exists_scan? h,
    fun c hc => ?_⟩
  · obtain ⟨stop, hstop, hlt, hle⟩ := tokenEnd?_bounds inFlow hi
    have hdrop := List.drop_eq_getElem_cons hi
    refine ⟨stop, hstop, hlt, hle, fun hne => ?_⟩
    rw [getElem?_of_drop hdrop, ne_eq, Option.some.injEq] at hne
    obtain rfl := Option.some.inj (hstop.symm.trans (tokenEnd?_eq inFlow hdrop hne))
    exact drop_token inFlow hdrop
  · have hdrop := List.drop_eq_getElem_cons h
    obtain ⟨advance, hadvance, hahead⟩ := Cursor.advance?_of_lt h
    refine ⟨advance, hadvance, hahead, fun hquote => ?_⟩
    obtain ⟨same, hsame, hagrees⟩ := Cursor.advance?_agrees hquote ⟨hdrop, fun _ _ => rfl⟩
    obtain rfl := Option.some.inj (hadvance.symm.trans hsame)
    exact hagrees
  · have hstart : (Cursor.start c).Before chars true chars := ⟨rfl, fun _ _ => rfl⟩
    exact Cursor.scan?_eq hc hstart (Nat.le_refl _)

/-- A tag that is not closed takes the rest of its line, and inside quotes a backslash at the end of
the line moves beyond it; the scan ends both times. -/
theorem scan_by_index_unclosed :
    let chars := "- !<u \\".toList
    let inside : Cursor := ⟨6, some '"', 0, false, false⟩
    (2 < chars.length ∧ ∃ stop, tokenEnd? false chars 2 = some stop ∧ 2 < stop ∧
      stop ≤ chars.length ∧ chars[2]? ≠ some '>' ∧ chars.drop stop = []) ∧
    (inside.index < chars.length ∧
      inside.advance? chars = some (.on { inside with index := 8 }) ∧ inside.index < 8) ∧
    (chars.length ≤ inside.index + 1 ∧ ∃ outcome, inside.scan? chars 1 = some outcome) ∧
    IsQuote Carry.initial.quote ∧
      (Cursor.start .initial).scan? chars chars.length = some (.ok .initial) := by
  intro chars inside
  obtain ⟨htoken, hmove, hends, hscan⟩ := scan_by_index chars
  have hstart : 2 < chars.length := by decide
  have hbang : chars[2]? ≠ some '>' := by decide
  obtain ⟨stop, hstop, hlt, hle, hrest⟩ := htoken false 2 hstart
  have hinside : inside.index < chars.length := by decide
  obtain ⟨advance, hadvance, hahead, -⟩ := hmove inside hinside
  have hbackslash : inside.advance? chars = some (.on { inside with index := 8 }) := by decide
  have hmoves : chars.length ≤ inside.index + 1 := by decide
  have houtcome : (scanFrom (.start .initial) chars).carry (indentation chars) = .ok .initial := by
    decide +kernel
  have htail : (token false (chars.drop 3)).2 = [] := by decide
  refine ⟨⟨hstart, stop, hstop, hlt, hle, hbang, (hrest hbang).trans htail⟩,
    ⟨hinside, hbackslash, hahead _ (Option.some.inj (hadvance.symm.trans hbackslash))⟩,
    ⟨hmoves, hends inside 1 hmoves⟩, isQuote_initial, ?_⟩
  rw [hscan .initial isQuote_initial, houtcome]

end YamlDefs.Tag

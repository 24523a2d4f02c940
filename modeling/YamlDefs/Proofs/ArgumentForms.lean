import Mathlib.Data.List.Nodup
import Mathlib.Data.List.Pairwise
import Mathlib.Data.List.TakeWhile
import YamlDefs.Arguments.Reader

/-!
# What arguments give

The reader of arguments does what is documented. What it reads of some arguments it also reads of
them behind others that give an option a value, and the option has that value besides.

* `ArgumentReader.readFrom_set`: a value that an option has from the start stays, and nothing else
  changes.
* `ArgumentReader.readFrom_settled`: a value that waits counts as if it had been given.
* `ArgumentReader.Attaches`, `ArgumentReader.attaches_of_gives`: by their forms, arguments give an
  option a value.
* `ArgumentReader.own_documented`: all of it together.
-/

namespace YamlDefs

/-- A letter is the name of one option only. -/
theorem Command.Valid.eq_of_letter {c : Command} {o p : OptionSpec} {l : Char} (hc : c.Valid)
    (ho : o ∈ c.options) (hp : p ∈ c.options) (hol : o.letter = some l)
    (hpl : p.letter = some l) : o = p := by
  let apart (o p : OptionSpec) := ∀ l, o.letter = some l → ∀ l', p.letter = some l' → l ≠ l'
  have hpair : c.options.Pairwise apart := List.pairwise_filterMap.mp hc.letters
  have : Std.Symm apart := ⟨fun _ _ h l hl l' hl' he => h l' hl' l hl he.symm⟩
  by_contra hne
  exact hpair.forall ho hp hne l hol l hpl rfl

namespace ArgumentReader

variable {c : Command} {a b m : Matches} {waiting : Option Waiting} {o p : OptionSpec}
  {v : o.kind.Value} {value arg : List Char} {rest : List (List Char)}

/-! ## Values from the start -/

theorem give_eq_ok_iff : give a p value = .ok b ↔
    a p = none ∧ ∃ w, p.kind.read? (String.ofList value) = some w ∧ b = a.set p w := by
  unfold give
  cases a p with
  | some w => simp
  | none =>
    cases p.kind.read? (String.ofList value) with
    | none => simp
    | some w => simp [eq_comm]

/-- An option that has nothing in the end had nothing before, and can have had a value. -/
theorem give_set (h : give a p value = .ok b) (hb : b o = none) (v : o.kind.Value) :
    a o = none ∧ p ≠ o ∧ give (a.set o v) p value = .ok (b.set o v) := by
  obtain ⟨ha, w, hw, rfl⟩ := give_eq_ok_iff.mp h
  have hne : p ≠ o := by
    rintro rfl
    simp at hb
  rw [Matches.set_of_ne w hne] at hb
  refine ⟨hb, hne, give_eq_ok_iff.mpr ⟨?_, w, hw, Matches.set_comm hne⟩⟩
  rw [Matches.set_of_ne v hne.symm, ha]

theorem settle_set (h : settle a waiting = .ok b) (hb : b o = none) (v : o.kind.Value) :
    a o = none ∧ (∀ w ∈ waiting, w.option ≠ o) ∧
      settle (a.set o v) waiting = .ok (b.set o v) := by
  match waiting with
  | none =>
    cases h
    exact ⟨hb, by simp, rfl⟩
  | some ⟨_, none⟩ => cases h
  | some ⟨p, some value⟩ =>
    obtain ⟨ha, hne, hgive⟩ := give_set h hb v
    exact ⟨ha, by simpa using hne, hgive⟩

/-- What is read if an option has nothing in the end is also read if it has a value from the
start. -/
theorem readFrom_set (h : readFrom c a waiting rest = .ok m) (hm : m o = none)
    (v : o.kind.Value) : a o = none ∧ (∀ w ∈ waiting, w.option ≠ o) ∧
      readFrom c (a.set o v) waiting rest = .ok (m.set o v) := by
  induction rest generalizing a waiting with
  | nil => exact settle_set h hm v
  | cons arg rest ih =>
    unfold readFrom at h ⊢
    cases hform : Form.of c arg with
    | finish =>
      rw [hform] at h
      dsimp only at h ⊢
      split at h
      · next hrest => simpa only [if_pos hrest] using settle_set h hm v
      · cases h
    | bare =>
      rw [hform] at h
      match waiting with
      | some ⟨p, none⟩ => simpa using ih h
      | some ⟨_, some _⟩ | none => cases h
    | option name long attached =>
      rw [hform] at h
      match name with
      | none => cases h
      | some (.halt reason) =>
        dsimp only at h
        split at h
        · cases h
        · split at h <;> cases h
      | some (.value p) =>
        cases hs : settle a waiting with
        | error halt => simp [hs] at h
        | ok b =>
          cases attached with
          | none =>
            simp only [hs] at h
            obtain ⟨hb, -, hread⟩ := ih h
            obtain ⟨ha, hw, hset⟩ := settle_set hs hb v
            exact ⟨ha, hw, by simp only [hset, hread]⟩
          | some value =>
            cases hg : give b p value with
            | error halt => simp [hs, hg] at h
            | ok b' =>
              simp only [hs, hg] at h
              obtain ⟨hb', -, hread⟩ := ih h
              obtain ⟨hb, -, hgive⟩ := give_set hg hb' v
              obtain ⟨ha, hw, hset⟩ := settle_set hs hb v
              exact ⟨ha, hw, by simp only [hset, hgive, hread]⟩

/-- A value that waits for the next option counts as if it had been given. -/
theorem readFrom_settled (hs : settle a waiting = .ok b) (h : readFrom c b none rest = .ok m) :
    readFrom c a waiting rest = .ok m := by
  cases rest with
  | nil =>
    cases h
    exact hs
  | cons arg rest =>
    unfold readFrom at h ⊢
    have hnone : settle b none = .ok b := rfl
    cases hform : Form.of c arg with
    | finish => simpa only [hform, hs, hnone] using h
    | bare => simp [hform] at h
    | option name long attached =>
      match name with
      | none => simp [hform] at h
      | some (.halt reason) | some (.value p) => simpa only [hform, hs, hnone] using h

/-! ## Forms -/

/-- Arguments give an option a value by their forms: it stands after the option, or is attached to
it. -/
inductive Attaches (c : Command) (o : OptionSpec) (value : List Char) :
    List (List Char) → Prop where
  | apart {arg : List Char} (long : Bool) : Form.of c arg = .option (some (.value o)) long none →
      Form.of c value = .bare → Attaches c o value [arg, value]
  | attached {arg : List Char} (long : Bool) :
      Form.of c arg = .option (some (.value o)) long (some value) → Attaches c o value [arg]

/-- The value is given, and the rest is read as it would be without it. -/
theorem Attaches.readFrom {args : List (List Char)} (h : Attaches c o value args)
    (hv : o.kind.read? (String.ofList value) = some v)
    (hread : readFrom c .empty none rest = .ok m) (hm : m o = none) :
    readFrom c .empty none (args ++ rest) = .ok (m.set o v) := by
  have hgive : give .empty o value = .ok (Matches.set .empty o v) :=
    give_eq_ok_iff.mpr ⟨rfl, v, hv, rfl⟩
  obtain ⟨-, -, hset⟩ := readFrom_set hread hm v
  cases h with
  | apart long hopt hvalue =>
    have hwait : settle .empty (some ⟨o, some value⟩) = .ok (Matches.set .empty o v) := hgive
    simpa [ArgumentReader.readFrom, hopt, hvalue, settle] using readFrom_settled hwait hset
  | attached long hopt => simpa [ArgumentReader.readFrom, hopt, settle, hgive] using hset

theorem splitLong_of_not_mem {name : List Char} (h : '=' ∉ name) :
    splitLong name = (name, none) := by
  have hdrop : name.dropWhile (· ≠ '=') = [] := by
    simp only [List.dropWhile_eq_nil_iff, decide_eq_true_eq]
    exact fun c hc he => h (he ▸ hc)
  rw [splitLong, hdrop]

theorem splitLong_append {name : List Char} (h : '=' ∉ name) (value : List Char) :
    splitLong (name ++ '=' :: value) = (name, some value) := by
  have hall : ∀ c ∈ name, decide (c ≠ '=') = true := by
    simp only [decide_eq_true_eq]
    exact fun c hc he => h (he ▸ hc)
  rw [splitLong, List.dropWhile_append_of_pos hall, List.takeWhile_append_of_pos hall]
  simp

theorem form_long {name : List Char} (h : '=' ∉ name) (hne : name ≠ []) :
    Form.of c ('-' :: '-' :: name) = .option (Asked.ofLong? c name) true none := by
  obtain ⟨first, cs, rfl⟩ := List.exists_cons_of_ne_nil hne
  simp only [Form.of, splitLong_of_not_mem h]

theorem form_long_equals {name : List Char} (h : '=' ∉ name) (hne : name ≠ [])
    (value : List Char) : Form.of c ('-' :: '-' :: (name ++ '=' :: value)) =
      .option (Asked.ofLong? c name) true (some value) := by
  obtain ⟨first, cs, rfl⟩ := List.exists_cons_of_ne_nil hne
  have hsplit := splitLong_append h value
  rw [List.cons_append] at hsplit ⊢
  simp only [Form.of, hsplit]

theorem form_short {letter : Char} (h : letter ≠ '-') (cs : List Char) :
    Form.of c ('-' :: letter :: cs) =
      .option (Asked.ofShort? c letter) false (attachedToShort cs) := by
  unfold Form.of
  split <;> simp_all

/-- An argument that does not begin with a dash, or is one, can be a value. -/
theorem form_bare (h : arg.head? = some '-' → arg = ['-']) : Form.of c arg = .bare := by
  cases arg with
  | nil => rfl
  | cons first cs =>
    by_cases hc : first = '-'
    · rw [h (by simp [hc])]
      rfl
    · unfold Form.of
      split <;> simp_all

theorem attachedToShort_joined (hne : value ≠ []) (h : value.head? ≠ some '=') :
    attachedToShort value = some value := by
  unfold attachedToShort
  split <;> simp_all

/-! ## Names -/

theorem find?_eq_some_of_unique {α : Type} {p : α → Bool} {xs : List α} {x : α} (hx : x ∈ xs)
    (hp : p x = true) (h : ∀ y ∈ xs, p y = true → y = x) : xs.find? p = some x := by
  cases hf : xs.find? p with
  | none => exact absurd hp (List.find?_eq_none.mp hf x hx)
  | some y => rw [h y (List.mem_of_find?_eq_some hf) (List.find?_some hf)]

variable (hc : c.Valid) (ho : o ∈ c.options)
include hc ho

theorem ofLong?_name : Asked.ofLong? c o.name.toList = some (.value o) := by
  have hfree := (hc.free o ho).1
  have hfind : (c.options.find? fun p => p.name = o.name) = some o := by
    refine find?_eq_some_of_unique ho (by simp) fun p hp hname => ?_
    exact List.inj_on_of_nodup_map hc.names hp ho (by simpa using hname)
  simp only [List.mem_cons, List.not_mem_nil, or_false, not_or] at hfree
  simp only [Asked.ofLong?, String.toList_inj, hfree, if_false, hfind, Option.map_some]

theorem ofShort?_letter {l : Char} (hl : o.letter = some l) :
    Asked.ofShort? c l = some (.value o) := by
  have hfree := (hc.free o ho).2
  have hfind : (c.options.find? fun p => p.letter = some l) = some o := by
    refine find?_eq_some_of_unique ho (by simpa using hl) fun p hp hletter => ?_
    have hletter : p.letter = some l := by simpa using hletter
    exact hc.eq_of_letter hp ho hletter hl
  simp only [hl, List.mem_cons, Option.some.injEq, List.not_mem_nil, or_false, not_or] at hfree
  simp only [Asked.ofShort?, hfree, if_false, hfind, Option.map_some]

/-- The documented ways to give an option a value are ways by the forms of arguments. -/
theorem attaches_of_gives {args : List (List Char)} (h : o.Gives value args) :
    Attaches c o value args := by
  obtain ⟨hname, hplain, hletter⟩ := hc.plain o ho
  have hne : o.name.toList ≠ [] := fun h => hname (String.toList_eq_nil_iff.mp h)
  have hdash {l : Char} (hl : o.letter = some l) : l ≠ '-' := fun he => hletter (he ▸ hl)
  cases h with
  | apart hl hvalue =>
    refine .apart false ?_ (form_bare hvalue)
    rw [form_short (hdash hl), ofShort?_letter hc ho hl]
    rfl
  | joined hl hsome hequals _ =>
    refine .attached false ?_
    rw [form_short (hdash hl), ofShort?_letter hc ho hl, attachedToShort_joined hsome hequals]
  | equals hl =>
    refine .attached false ?_
    rw [form_short (hdash hl), ofShort?_letter hc ho hl]
    rfl
  | longApart hvalue =>
    refine .apart true ?_ (form_bare hvalue)
    rw [form_long hplain hne, ofLong?_name hc ho]
  | longEquals =>
    refine .attached true ?_
    rw [form_long_equals hplain hne, ofLong?_name hc ho]

end ArgumentReader

/-- The reader does what is documented. -/
theorem ArgumentReader.own_documented : ArgumentReader.own.Documented where
  nothing _ _ := rfl
  option c hc o ho text value args rest m hgives hvalue hread hm := by
    have hvalue : o.kind.read? (String.ofList text.toList) = some value := by
      rwa [String.ofList_toList]
    have hargs : (args.map String.ofList).map String.toList = args := by
      simp [Function.comp_def]
    have hall : readFrom c .empty none (args ++ rest.map String.toList) = .ok (m.set o value) :=
      (attaches_of_gives hc ho hgives).readFrom hvalue hread hm
    simpa only [own, List.map_append, hargs] using hall

end YamlDefs

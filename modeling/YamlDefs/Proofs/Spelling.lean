import Mathlib.Data.List.Nodup
import Mathlib.Data.List.Perm.Basic
import YamlDefs.Proofs.ArgumentForms
import YamlDefs.Proofs.NumberText

/-!
# Ways to write options

An option may be written in several ways, and the options of a command line in any order. Whatever
the choice, a library that reads arguments as documented gives back what the options were to say.

* `Saying`: what one option says; `Arguments.sayings`: what all options of a command line say.
* `Spelled`: an option as it is written; `Spelled.args`: its arguments.
* `Spelled.gives`, `Spelled.read?_text`: the arguments give the option a text, and the text stands
  for the value.
* `Spelled.read_args`: written options one after another; `arguments_spelled`: a whole command line
  in every order and spelling.
-/

namespace YamlDefs

open YamlDefs.Text

/-! ## What options say -/

/-- What one option says. -/
inductive Saying where
  | path (option : PathOption) (path : String)
  | limit (value : Nat)
deriving DecidableEq, Repr

namespace Saying

/-- The option that says it. -/
def option : Saying → OptionSpec
  | path option _ => option.spec
  | limit _ => Arguments.limitOption

/-- The value that is said. -/
def value : (s : Saying) → s.option.kind.Value
  | path _ text => text
  | limit value => value

end Saying

/-- What options are given of which some say something. -/
def Matches.said (ss : List Saying) : Matches :=
  ss.foldr (fun s m => m.set s.option s.value) .empty

/-- An option that says nothing is given nothing. -/
theorem Matches.said_eq_none {ss : List Saying} {o : OptionSpec} (h : ∀ s ∈ ss, s.option ≠ o) :
    said ss o = none := by
  induction ss with
  | nil => rfl
  | cons s ss ih =>
    obtain ⟨hs, hss⟩ := List.forall_mem_cons.mp h
    exact (set_of_ne s.value hs).trans (ih hss)

namespace Arguments

variable {a : Arguments}

/-- All that arguments say, option by option. -/
def sayings (a : Arguments) : List Saying :=
  a.input.toList.map (.path .input) ++ a.output.toList.map (.path .output) ++
    a.config.toList.map (.path .config) ++ a.maxDepth.toList.map .limit

/-- No option says two things. -/
theorem nodup_option_sayings (a : Arguments) : (a.sayings.map Saying.option).Nodup := by
  obtain ⟨input, output, config, maxDepth⟩ := a
  cases input <;> cases output <;> cases config <;> cases maxDepth <;>
    simp [sayings, Saying.option, PathOption.spec, PathOption.name, limitOption]

theorem ofMatches_said_sayings (a : Arguments) : ofMatches (.said a.sayings) = a := by
  obtain ⟨input, output, config, maxDepth⟩ := a
  cases input <;> cases output <;> cases config <;> cases maxDepth <;> rfl

/-- Saying everything in another order comes to the same. -/
theorem ofMatches_said_of_perm {ss : List Saying} (h : ss.Perm a.sayings) :
    ofMatches (.said ss) = a := by
  have hnodup : (ss.map Saying.option).Nodup :=
    (h.map Saying.option).nodup_iff.mpr a.nodup_option_sayings
  have hcomm : ∀ s ∈ ss, ∀ t ∈ ss, ∀ m : Matches,
      (m.set s.option s.value).set t.option t.value =
        (m.set t.option t.value).set s.option s.value := by
    intro s hs t ht m
    by_cases ho : s.option = t.option
    · rw [List.inj_on_of_nodup_map hnodup hs ht ho]
    · exact Matches.set_comm ho
  have hsaid : Matches.said ss = .said a.sayings := h.foldr_eq' hcomm _
  rw [hsaid, a.ofMatches_said_sayings]

end Arguments

/-! ## Spellings -/

/-- The ways to write an option with a path. -/
inductive PathForm where
  /-- The path stands after the letter. -/
  | apart
  /-- The path is joined to the letter. -/
  | joined
  /-- An equals sign attaches the path to the letter. -/
  | equals
  /-- The path stands after the long name. -/
  | longApart
  /-- An equals sign attaches the path to the long name. -/
  | longEquals
deriving DecidableEq, Repr

/-- Whether a path can be written in a form. Where it stands apart, it must not look like an option,
as all but a single dash do that begin with a dash; where it is joined to a letter, it must not
begin with a dash or with an equals sign. -/
def PathForm.Admits (form : PathForm) (path : List Char) : Prop :=
  match form with
  | apart | longApart => path.head? = some '-' → path = ['-']
  | joined => path.head? ≠ some '=' ∧ path.head? ≠ some '-'
  | equals | longEquals => True

/-- The arguments of an option with a path. -/
def PathForm.args (form : PathForm) (option : PathOption) (path : List Char) : List (List Char) :=
  match form with
  | apart => [['-', option.letter], path]
  | joined => ['-' :: option.letter :: path]
  | equals => ['-' :: option.letter :: '=' :: path]
  | longApart => ['-' :: '-' :: option.name.toList, path]
  | longEquals => ['-' :: '-' :: (option.name.toList ++ '=' :: path)]

/-- A number as it is written: its digits, in front of them any zeros and perhaps a plus sign. -/
structure NumberForm where
  plus : Bool
  zeros : Nat
deriving DecidableEq, Repr

/-- The text of a number. -/
def NumberForm.text (form : NumberForm) (n : Nat) : List Char :=
  (if form.plus then ['+'] else []) ++ List.replicate form.zeros '0' ++ decimal n

/-- An option as it is written. -/
inductive Spelled where
  | path (option : PathOption) (form : PathForm) (path : String) (nonempty : path ≠ "")
      (admitted : form.Admits path.toList)
  /-- The limit stands after the name, or an equals sign attaches it. -/
  | limit (equals : Bool) (form : NumberForm) (value : UInt64)

namespace Spelled

/-- What a written option says. -/
def saying : Spelled → Saying
  | path option _ text _ _ => .path option text
  | limit _ _ value => .limit value.toNat

/-- The text of the value of a written option. -/
def text : Spelled → String
  | path _ _ text _ _ => text
  | limit _ form value => String.ofList (form.text value.toNat)

/-- The arguments of a written option, character by character. -/
def chars : Spelled → List (List Char)
  | path option form text _ _ => form.args option text.toList
  | limit false form value =>
    ['-' :: '-' :: Arguments.limitOption.name.toList, form.text value.toNat]
  | limit true form value =>
    ['-' :: '-' :: (Arguments.limitOption.name.toList ++ '=' :: form.text value.toNat)]

/-- The arguments of a written option. -/
def args (w : Spelled) : List String := w.chars.map String.ofList

end Spelled

/-! ## Numbers -/

namespace NumberForm

variable {form : NumberForm} {n : Nat}

/-- The digits of a number behind zeros. -/
theorem readNat?_zeros (zeros n : Nat) :
    readNat? 10 (List.replicate zeros '0' ++ decimal n) = some n := by
  have hzero : readDigits? 10 0 (List.replicate zeros '0') = some 0 := by
    induction zeros with
    | zero => rfl
    | succ zeros ih => exact ih
  have hread : readDigits? 10 0 (List.replicate zeros '0' ++ decimal n) = some n := by
    rw [readDigits?_append, hzero, Option.bind_some, readDigits?_decimal]
  have hne : List.replicate zeros '0' ++ decimal n ≠ [] :=
    List.append_ne_nil_of_right_ne_nil _ (decimal_ne_nil n)
  unfold readNat?
  split
  · contradiction
  · exact hread

theorem isDigit_of_mem_zeros {zeros : Nat} {c : Char}
    (h : c ∈ List.replicate zeros '0' ++ decimal n) : c.isDigit = true := by
  rcases List.mem_append.mp h with h | h
  · rw [List.eq_of_mem_replicate h]
    rfl
  · exact isDigit_of_mem_decimal h

theorem withoutPlus_text (form : NumberForm) (n : Nat) :
    withoutPlus (form.text n) = List.replicate form.zeros '0' ++ decimal n := by
  obtain ⟨plus, zeros⟩ := form
  cases plus with
  | true => rfl
  | false =>
    have hhead : (List.replicate zeros '0' ++ decimal n).head? ≠ some '+' := fun h =>
      absurd (isDigit_of_mem_zeros (List.mem_of_head? h)) (by decide)
    exact if_neg hhead

/-- A number is read from each of its texts. -/
theorem readWord?_text (form : NumberForm) (h : n < Nat.pow 2 64) :
    readWord? (form.text n) = some n := by
  rw [readWord?, withoutPlus_text, readNat?_zeros]
  simp [Option.filter, h]

/-- No text of a number looks like an option. -/
theorem head?_text_ne (form : NumberForm) (n : Nat) : (form.text n).head? ≠ some '-' := by
  obtain ⟨plus, zeros⟩ := form
  cases plus with
  | true => simp [text]
  | false => exact fun h => absurd (isDigit_of_mem_zeros (List.mem_of_head? h)) (by decide)

end NumberForm

/-! ## Command lines -/

namespace Spelled

/-- The arguments of a written option give the option the text of its value. -/
theorem gives (w : Spelled) : w.saying.option.Gives w.text.toList w.chars := by
  cases w with
  | path option form text nonempty admitted =>
    have hne : text.toList ≠ [] := fun h => nonempty (String.toList_eq_nil_iff.mp h)
    cases form with
    | apart => exact .apart rfl admitted
    | joined => exact .joined rfl hne admitted.1 admitted.2
    | equals => exact .equals rfl
    | longApart => exact .longApart admitted
    | longEquals => exact .longEquals
  | limit equals form value =>
    rw [text, String.toList_ofList]
    cases equals with
    | false => exact .longApart fun h => absurd h (form.head?_text_ne _)
    | true => exact .longEquals

/-- The text of a written option stands for its value. -/
theorem read?_text (w : Spelled) : w.saying.option.kind.read? w.text = some w.saying.value := by
  cases w with
  | path option form text nonempty admitted =>
    have hread : ValueKind.path.read? text = some text := if_neg (by simpa using nonempty)
    exact hread
  | limit equals form value =>
    have hread : ValueKind.word.read? (String.ofList (form.text value.toNat)) =
        some value.toNat := by
      rw [ValueKind.read?, String.toList_ofList]
      exact form.readWord?_text value.toNat_lt
    exact hread

theorem option_mem (w : Spelled) : w.saying.option ∈ Arguments.command.options := by
  cases w with
  | path option form text nonempty admitted =>
    cases option <;> simp [saying, Saying.option, Arguments.command]
  | limit equals form value => simp [saying, Saying.option, Arguments.command]

variable {reader : ArgumentReader}

/-- Options of which none is written twice say what is written. -/
theorem read_args (hreader : reader.Documented) {ws : List Spelled}
    (hnodup : (ws.map fun w => w.saying.option).Nodup) :
    reader.read Arguments.command (ws.flatMap args) = .ok (.said (ws.map saying)) := by
  induction ws with
  | nil => exact hreader.nothing _ Arguments.command_valid
  | cons w ws ih =>
    obtain ⟨hw, hws⟩ := List.nodup_cons.mp hnodup
    have hfresh : Matches.said (ws.map saying) w.saying.option = none := by
      refine Matches.said_eq_none fun s hs ho => hw ?_
      obtain ⟨w', hw', rfl⟩ := List.mem_map.mp hs
      exact List.mem_map.mpr ⟨w', hw', ho⟩
    exact hreader.option _ Arguments.command_valid _ w.option_mem _ _ _ _ _ w.gives w.read?_text
      (ih hws) hfresh

end Spelled

/-- If arguments are read as documented, the options of a command line say the same in every order
and every spelling, and the limit in force is the one that they give, or else the one of the
settings. -/
theorem arguments_spelled {reader : ArgumentReader} (hreader : reader.Documented) {a : Arguments}
    {ws : List Spelled} (h : (ws.map Spelled.saying).Perm a.sayings) :
    reader.arguments (ws.flatMap Spelled.args) = .ok a ∧ ∀ configured,
      (∀ limit, a.maxDepth = some limit → a.limit configured = limit) ∧
      (a.maxDepth = none → a.limit configured = configured) := by
  have hnodup : (ws.map fun w => w.saying.option).Nodup := by
    have := (h.map Saying.option).nodup_iff.mpr a.nodup_option_sayings
    rwa [List.map_map] at this
  refine ⟨?_, fun configured => ⟨fun limit hl => ?_, fun hn => ?_⟩⟩
  · rw [ArgumentReader.arguments, Spelled.read_args hreader hnodup]
    exact congrArg Except.ok (Arguments.ofMatches_said_of_perm h)
  · rw [Arguments.limit, hl, Option.getD_some]
  · rw [Arguments.limit, hn, Option.getD_none]

/-- Values that look like options, or begin with an equals sign, where they are admitted; and no
options at all. -/
theorem arguments_spelled_lookalikes :
    let reader := ArgumentReader.own
    let args := ["--max-depth=+0018446744073709551615", "-c==a -o", "--output=--input", "-i", "-"]
    let a : Arguments := ⟨"-", "--input", "=a -o", some 18446744073709551615⟩
    let ws : List Spelled :=
      [.limit true ⟨true, 2⟩ 18446744073709551615,
        .path .config .equals "=a -o" (by decide) trivial,
        .path .output .longEquals "--input" (by decide) trivial,
        .path .input .apart "-" (by decide) fun _ => rfl]
    reader.Documented ∧ ws.flatMap Spelled.args = args ∧
      (ws.map Spelled.saying).Perm a.sayings ∧ reader.arguments args = .ok a ∧
      a.maxDepth = some 18446744073709551615 ∧ a.limit 128 = 18446744073709551615 ∧
      reader.arguments [] = .ok {} ∧ Arguments.limit {} 128 = 128 := by
  intro reader args a ws
  have hreader : reader.Documented := ArgumentReader.own_documented
  have hargs : ws.flatMap Spelled.args = args := by decide +kernel
  have hperm : (ws.map Spelled.saying).Perm a.sayings := by decide
  obtain ⟨hparse, hlimit⟩ := arguments_spelled hreader hperm
  rw [hargs] at hparse
  have hempty : (([] : List Spelled).map Spelled.saying).Perm (Arguments.sayings {}) := .refl _
  obtain ⟨hnone, hconfigured⟩ := arguments_spelled hreader hempty
  exact ⟨hreader, hargs, hperm, hparse, rfl, (hlimit 128).1 _ rfl, hnone,
    (hconfigured 128).2 rfl⟩

end YamlDefs

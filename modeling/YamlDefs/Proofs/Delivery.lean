import YamlDefs.Program.Own
import YamlDefs.Proofs.Files

/-!
# All or nothing

A run delivers its text in one place, or it leaves everything as it was. Whatever can fail comes
before the writing, so it makes no difference whether the file that is written is also the source,
or the file of settings.

* `Libraries.Translates`: the text that a run has to deliver; `World.Takes`: there is a place for
  it.
* `World.write_cases`, `Libraries.deliver_cases`, `Libraries.execute_cases`: what the writing, a run
  under a limit, and a run with known arguments can come to.
* `Libraries.run_all_or_nothing`: what a whole run leaves by its status, and when it succeeds.
-/

namespace YamlDefs

variable {lib : Libraries} {w : World} {a : Arguments} {limit : Nat} {line source : String}

theorem toOption_eq_some_iff {ε α : Type} {x : Except ε α} {v : α} :
    x.toOption = some v ↔ x = .ok v := by
  cases x <;> simp [Except.toOption]

namespace World

/-- The source of a run: what the file at the given path holds, or else the standard input. -/
def HasSource (w : World) (a : Arguments) (source : String) : Prop :=
  match a.input with
  | some path => w.files.read? path = .ok (Text.encode source)
  | none => w.input = Text.encode source

/-- The place that the arguments name takes a text. -/
def Takes (w : World) (a : Arguments) : Prop :=
  match a.output with
  | none => w.takesOutput = true
  | some path => w.takesFile = true ∧ w.files.Writable path

/-- Between what a run sees and what it leaves, a text is delivered where the arguments say. -/
def Delivered (w : World) (a : Arguments) (text : String) (e : Effect) : Prop :=
  match a.output with
  | none => e.output = text ∧ e.files = w.files
  | some path => e.output = "" ∧ w.files.Written path (Text.encode text) e.files

theorem source_eq_ok_iff : w.source a = .ok source ↔ w.HasSource a source := by
  unfold World.source HasSource
  cases a.input with
  | none =>
    rw [← Text.decode?_eq_some_iff]
    cases Text.decode? w.input <;> simp
  | some path =>
    cases hr : w.files.read? path with
    | error fault => simp [hr]
    | ok bytes =>
      simp only [hr, Except.ok.injEq]
      rw [← Text.decode?_eq_some_iff]
      cases Text.decode? bytes <;> simp

/-- A text is written as a whole or not at all. -/
theorem write_cases (w : World) (a : Arguments) (line : String) :
    (∃ failure, w.write a line = w.fail failure) ∨
      (w.write a line).status = 0 ∧ w.Delivered a line (w.write a line) := by
  unfold write Delivered
  cases a.output with
  | none =>
    dsimp only
    split
    · exact .inr ⟨rfl, rfl, rfl⟩
    · exact .inl ⟨.unwritableOutput, rfl⟩
  | some path =>
    dsimp only
    split
    · next after hw =>
      obtain ⟨hwrite, -⟩ := Option.filter_eq_some_iff.mp hw
      exact .inr ⟨rfl, rfl, Files.written_of_write? hwrite⟩
    · exact .inl ⟨.unwritableFile path, rfl⟩

/-- A text is written if there is a place for it. -/
theorem status_write_of_takes (h : w.Takes a) (line : String) : (w.write a line).status = 0 := by
  unfold write
  unfold Takes at h
  cases ha : a.output with
  | none =>
    rw [ha] at h
    exact congrArg Effect.status (if_pos h)
  | some path =>
    rw [ha] at h
    have hplace : ∃ after, w.files.write? path (Text.encode line) = some after :=
      Files.exists_write?_iff.mpr h.2
    obtain ⟨after, hw⟩ := hplace
    simp [hw, h.1, Option.filter]

end World

namespace Libraries

/-- The source of a run compiles to a text under the limit in force. -/
def Translates (lib : Libraries) (w : World) (a : Arguments) (text : String) : Prop :=
  ∃ settings source, lib.configured w a = .ok settings ∧ w.HasSource a source ∧
    compile lib.yaml (a.limit settings.maxDepth) source = .ok text

theorem compiled_eq_ok_iff : lib.compiled w a limit = .ok line ↔ ∃ source text,
    w.HasSource a source ∧ compile lib.yaml limit source = .ok text ∧ line = text ++ "\n" := by
  simp only [← World.source_eq_ok_iff]
  unfold compiled
  cases hs : w.source a with
  | error failure => simp [bind, Except.bind]
  | ok source =>
    cases ht : compile lib.yaml limit source with
    | error cause => simp [bind, Except.bind, ht]
    | ok text => simp [bind, Except.bind, ht, pure, Except.pure, eq_comm]

/-- A run under a limit fails and leaves everything as it was, or it delivers the text of its
source, with a line feed. -/
theorem deliver_cases (lib : Libraries) (w : World) (a : Arguments) (limit : Nat) :
    (∃ failure, lib.deliver w a limit = w.fail failure) ∨ ∃ source text, w.HasSource a source ∧
      compile lib.yaml limit source = .ok text ∧ (lib.deliver w a limit).status = 0 ∧
      w.Delivered a (text ++ "\n") (lib.deliver w a limit) := by
  unfold deliver
  cases hc : lib.compiled w a limit with
  | error failure => exact .inl ⟨failure, rfl⟩
  | ok line =>
    obtain ⟨source, text, hs, ht, rfl⟩ := compiled_eq_ok_iff.mp hc
    rcases w.write_cases a (text ++ "\n") with hfail | hdone
    · exact .inl hfail
    · exact .inr ⟨source, text, hs, ht, hdone⟩

/-- A run with known arguments fails and leaves everything as it was, or it delivers the text of its
source, with a line feed. -/
theorem execute_cases (lib : Libraries) (w : World) (a : Arguments) :
    ((lib.execute w a).status = 1 ∧ (lib.execute w a).output = "" ∧
        (lib.execute w a).files = w.files) ∨
      ∃ text, lib.Translates w a text ∧ (lib.execute w a).status = 0 ∧
        w.Delivered a (text ++ "\n") (lib.execute w a) := by
  unfold execute
  cases hs : lib.configured w a with
  | error failure => exact .inl ⟨rfl, rfl, rfl⟩
  | ok settings =>
    dsimp only
    cases lib.logger.install false (lib.logFilter w a settings) with
    | error cause => exact .inl ⟨rfl, rfl, rfl⟩
    | ok =>
      rcases lib.deliver_cases w a (a.limit settings.maxDepth) with
        ⟨failure, he⟩ | ⟨source, text, hsource, ht, hstatus, hdone⟩
      · rw [he]
        exact .inl ⟨rfl, rfl, rfl⟩
      · exact .inr ⟨text, ⟨settings, source, hs, hsource, ht⟩, hstatus, hdone⟩

/-- A run succeeds if its source has a text and there is a place for it. -/
theorem status_execute_of_translates {text : String} (hlog : lib.logger.Documented)
    (ht : lib.Translates w a text) (h : w.Takes a) : (lib.execute w a).status = 0 := by
  obtain ⟨settings, source, hs, hsource, htext⟩ := ht
  have hc : lib.compiled w a (a.limit settings.maxDepth) = .ok (text ++ "\n") :=
    compiled_eq_ok_iff.mpr ⟨source, text, hsource, htext, rfl⟩
  simp only [execute, hs, hlog.first, deliver, hc]
  exact World.status_write_of_takes h _

theorem run_of_arguments {args : List String} (h : lib.arguments.arguments args = .ok a) :
    lib.run args w = lib.execute w a := by
  unfold run
  rw [h]

/-- A run whose arguments ask for nothing to be done leaves all files as they were. -/
theorem run_of_halt {args : List String} {reason : Halt} (w : World)
    (h : lib.arguments.arguments args = .error reason) : (lib.run args w).files = w.files ∧
      ((lib.run args w).status = 0 → reason = .help ∨ reason = .version) ∧
      ((lib.run args w).status ≠ 0 → (lib.run args w).output = "") := by
  unfold run World.halt
  rw [h]
  cases reason <;> simp

/-- Whatever libraries a run is left to, if its status is not 0 it writes nothing on the standard
output and no file. If its status is 0, unless it was asked for the help or the version, it has
delivered exactly the text of its source and a line feed: in the file that the arguments name, every
other being as before, or else on the standard output. It succeeds whenever there is such a text and
a place for it. -/
theorem run_all_or_nothing (lib : Libraries) (args : List String) (w : World) :
    ((lib.run args w).status ≠ 0 →
      (lib.run args w).output = "" ∧ (lib.run args w).files = w.files) ∧
    ((lib.run args w).status = 0 → lib.arguments.arguments args ≠ .error .help →
      lib.arguments.arguments args ≠ .error .version →
      ∃ a text, lib.arguments.arguments args = .ok a ∧ lib.Translates w a text ∧
        match a.output with
        | none => (lib.run args w).output = text ++ "\n" ∧ (lib.run args w).files = w.files
        | some path => (lib.run args w).output = "" ∧
            w.files.Written path (Text.encode (text ++ "\n")) (lib.run args w).files) ∧
    (lib.logger.Documented → ∀ a text, lib.arguments.arguments args = .ok a →
      lib.Translates w a text → w.Takes a → (lib.run args w).status = 0) := by
  cases hp : lib.arguments.arguments args with
  | error reason =>
    obtain ⟨hfiles, hzero, hother⟩ := run_of_halt w hp
    refine ⟨fun hs => ⟨hother hs, hfiles⟩, fun hs hhelp hversion => ?_, by simp⟩
    rcases hzero hs with rfl | rfl
    · exact absurd rfl hhelp
    · exact absurd rfl hversion
  | ok a =>
    rw [run_of_arguments hp]
    refine ⟨fun hs => ?_, fun hs _ _ => ?_, ?_⟩
    · rcases lib.execute_cases w a with ⟨-, hkept⟩ | ⟨text, -, hzero, -⟩
      · exact hkept
      · exact absurd hzero hs
    · rcases lib.execute_cases w a with ⟨hone, -⟩ | ⟨text, ht, -, hdone⟩
      · rw [hs] at hone
        cases hone
      · exact ⟨a, text, rfl, ht, hdone⟩
    · rintro hlog a' text h ht htakes
      cases h
      exact status_execute_of_translates hlog ht htakes

end Libraries

/-- What a run sees that has a single file, with a text in it. -/
def World.ofFile (name text : String) : World :=
  { input := .empty, files := ⟨[([name], Text.encode text)], []⟩, environment := [] }

/-- A run that is to write over its own source leaves it alone if it has no text, and else puts the
text there. -/
theorem Libraries.run_all_or_nothing_over_source :
    let lib := Libraries.own
    let args := ["-i", "a.yaml", "-o", "a.yaml"]
    let a : Arguments := { input := "a.yaml", output := "a.yaml" }
    let malformed := World.ofFile "a.yaml" "A: ~"
    let w := World.ofFile "a.yaml" "A: 1"
    ((lib.run args malformed).status ≠ 0 ∧ (lib.run args malformed).output = "" ∧
      (lib.run args malformed).files = malformed.files) ∧
    (lib.arguments.arguments args = .ok a ∧ (lib.run args w).status = 0 ∧
      lib.arguments.arguments args ≠ .error .help ∧
      lib.arguments.arguments args ≠ .error .version ∧
      ∃ text, lib.Translates w a text ∧ lib.logger.Documented ∧ w.Takes a ∧
        (lib.run args w).output = "" ∧
        w.files.Written "a.yaml" (Text.encode (text ++ "\n")) (lib.run args w).files) ∧
    ((lib.run args w).files.read? "a.yaml").toOption = some (Text.encode "def A := 1\n") := by
  intro lib args a malformed w
  have hparse : lib.arguments.arguments args = .ok a :=
    toOption_eq_some_iff.mp (by decide +kernel)
  have hhelp : lib.arguments.arguments args ≠ .error .help := by simp [hparse]
  have hversion : lib.arguments.arguments args ≠ .error .version := by simp [hparse]
  have hfail : (lib.run args malformed).status ≠ 0 := by decide +kernel
  have hdone : (lib.run args w).status = 0 := by decide +kernel
  have hplace : (w.files.write? "a.yaml" .empty).isSome = true := by decide +kernel
  obtain ⟨a', text, ha, ht, hout⟩ := (run_all_or_nothing lib args w).2.1 hdone hhelp hversion
  obtain rfl := Except.ok.inj (hparse.symm.trans ha)
  have htakes : w.Takes a := ⟨rfl, Files.exists_write?_iff.mp (Option.isSome_iff_exists.mp hplace)⟩
  have hstatus : (lib.run args w).status = 0 :=
    (run_all_or_nothing lib args w).2.2 Logger.own_documented a text hparse ht htakes
  refine ⟨⟨hfail, (run_all_or_nothing lib args malformed).1 hfail⟩,
    ⟨hparse, hstatus, hhelp, hversion, text, ht, Logger.own_documented, htakes, hout⟩, ?_⟩
  decide +kernel

end YamlDefs

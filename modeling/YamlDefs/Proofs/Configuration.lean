import YamlDefs.Proofs.Delivery
import YamlDefs.Proofs.SettingsFile

/-!
# What settings can do to a run

All that a run takes from its settings is the limit in force and the filter of its log. So two runs
that read the same source come to the same if their limits are the same, wherever these come from;
and a run whose settings cannot be had comes to nothing, whatever its source is.

* `Files.AgreeBut`: two states of the files that differ in files at some places only;
  `Files.AgreeBut.locate_eq_ok_iff`: paths lead to the same places in both.
* `SettingsReader.LooksAt`: where a file of settings is looked for;
  `Libraries.eq_of_configured`: settings that are named depend on those places only.
* `Libraries.execute_eq_deliver`: a run as a function of its limit, but for the filter of its log.
* `SameOutcome`: what two runs have in common; `sameOutcome_deliver`.
* `Libraries.run_of_configuration`: all this for whole runs.
-/

namespace YamlDefs

namespace Files

variable {fs gs : Files} {places : Location → Prop} {path : String}

/-! ## Files that agree -/

/-- The same stands at all locations, but that at the given places a file may hold something else or
may be missing. -/
def AgreeBut (places : Location → Prop) (fs gs : Files) : Prop :=
  ∀ place, fs.target place = gs.target place ∨
    places place ∧ fs.target place ≠ .directory ∧ gs.target place ≠ .directory

/-- Files agree, but for one, with what they are after it has been written. -/
theorem agreeBut_withFile {place : Location} {bytes : ByteArray} (hr : fs.Rooted place)
    (hd : fs.target place ≠ .directory) : fs.AgreeBut (· = place) (fs.withFile place bytes) := by
  intro q
  by_cases hq : q = place
  · subst hq
    exact .inr ⟨rfl, hd, by simp [target_withFile_self]⟩
  · exact .inl (target_withFile_of_ne hr hq).symm

theorem AgreeBut.target_eq {place : Location} (h : fs.AgreeBut places gs) (hp : ¬ places place) :
    fs.target place = gs.target place :=
  (h place).resolve_right fun ⟨hplace, _⟩ => hp hplace

/-- The same locations are directories. -/
theorem AgreeBut.target_eq_directory_iff (h : fs.AgreeBut places gs) (place : Location) :
    fs.target place = .directory ↔ gs.target place = .directory := by
  rcases h place with heq | ⟨-, hf, hg⟩
  · rw [heq]
  · exact iff_of_false hf hg

theorem AgreeBut.follow_eq_ok_iff (h : fs.AgreeBut places gs) {start q : Location}
    {names : List String} : fs.follow start names = .ok q ↔ gs.follow start names = .ok q := by
  induction names generalizing start with
  | nil => rfl
  | cons name rest ih =>
    rw [follow, follow]
    rcases h start with heq | ⟨-, hf, hg⟩
    · rw [heq]
      split
      · rfl
      · rfl
      · split
        · rfl
        · exact ih
    · -- no step is taken from what is no directory
      cases hft : fs.target start <;> cases hgt : gs.target start <;> simp_all

/-- Paths lead to the same places. -/
theorem AgreeBut.locate_eq_ok_iff (h : fs.AgreeBut places gs) {q : Location} :
    fs.locate path = .ok q ↔ gs.locate path = .ok q := by
  rw [Files.locate_eq_ok_iff, Files.locate_eq_ok_iff, h.follow_eq_ok_iff,
    h.target_eq_directory_iff]

/-- A path that leads to none of the given places reads the same. -/
theorem AgreeBut.read?_eq_ok_iff (h : fs.AgreeBut places gs)
    (hp : ∀ place, fs.locate path = .ok place → ¬ places place) {content : ByteArray} :
    fs.read? path = .ok content ↔ gs.read? path = .ok content := by
  rw [Files.read?_eq_ok_iff, Files.read?_eq_ok_iff]
  refine exists_congr fun q => ?_
  rw [← h.locate_eq_ok_iff]
  refine and_congr_right fun hq => ?_
  rw [h.target_eq (hp q hq)]

theorem AgreeBut.toOption_read?_eq (h : fs.AgreeBut places gs)
    (hp : ∀ place, fs.locate path = .ok place → ¬ places place) :
    (fs.read? path).toOption = (gs.read? path).toOption :=
  Option.ext fun content => by
    rw [toOption_eq_some_iff, toOption_eq_some_iff, h.read?_eq_ok_iff hp]

/-- The same bytes can be written to the same paths, and go to the same place. -/
theorem AgreeBut.write?_cases (h : fs.AgreeBut places gs) (path : String) (bytes : ByteArray) :
    (∃ place, fs.write? path bytes = some (fs.withFile place bytes) ∧
        gs.write? path bytes = some (gs.withFile place bytes) ∧ fs.locate path = .ok place ∧
        gs.locate path = .ok place) ∨
      fs.write? path bytes = none ∧ gs.write? path bytes = none := by
  by_cases hw : fs.Writable path
  · obtain ⟨place, hl, hd⟩ := hw
    have hl' := h.locate_eq_ok_iff.mp hl
    have hd' : gs.target place ≠ .directory := fun he =>
      hd ((h.target_eq_directory_iff place).mpr he)
    exact .inl ⟨place, Files.write?_eq_some_iff.mpr ⟨place, hl, hd, rfl⟩,
      Files.write?_eq_some_iff.mpr ⟨place, hl', hd', rfl⟩, hl, hl'⟩
  · refine .inr ⟨Option.eq_none_iff_forall_ne_some.mpr fun after ha => ?_,
      Option.eq_none_iff_forall_ne_some.mpr fun after ha => ?_⟩
    · exact hw (exists_write?_iff.mp ⟨after, ha⟩)
    · obtain ⟨place, hl, hd⟩ := exists_write?_iff.mp ⟨after, ha⟩
      exact hw ⟨place, h.locate_eq_ok_iff.mpr hl, fun he =>
        hd ((h.target_eq_directory_iff place).mp he)⟩

end Files

/-! ## Named settings -/

/-- A library looks at a place for the file of settings that a path names. -/
def SettingsReader.LooksAt (r : SettingsReader) (fs : Files) (path : String) (place : Location) :
    Prop :=
  ∃ p ∈ r.lookups fs path, fs.locate p = .ok place

namespace Settings

variable {r : SettingsReader} {chance : Nat} {fs gs : Files} {vars vars' : Variables}
  {path : String} {s : Settings} {places : Location → Prop}

theorem loadFrom_eq_ok_iff : loadFrom r chance fs vars path = .ok s ↔
    ∃ table, r.build chance fs vars [.file path true] = .ok table ∧ ofTable r table = .ok s := by
  unfold loadFrom
  cases r.build chance fs vars [.file path true] <;> simp [bind, Except.bind]

/-- The settings of a named file depend on nothing but the places at which it is looked for. -/
theorem loadFrom_eq_ok_iff_of_agreeBut (hr : r.Documented) (h : fs.AgreeBut places gs)
    (hp : ∀ place, r.LooksAt fs path place → ¬ places place) :
    loadFrom r chance fs vars path = .ok s ↔ loadFrom r chance gs vars' path = .ok s := by
  have hread : ∀ p ∈ r.lookups fs path, (fs.read? p).toOption = (gs.read? p).toOption :=
    fun p hmem => h.toOption_read?_eq fun place hl => hp place ⟨p, hmem, hl⟩
  have hbuild (table : SettingTable) : r.build chance fs vars [.file path true] = .ok table ↔
      r.build chance gs vars' [.file path true] = .ok table := by
    rw [← toOption_eq_some_iff, hr.file chance fs gs vars vars' path true hread,
      toOption_eq_some_iff]
  simp only [loadFrom_eq_ok_iff, hbuild]

end Settings

/-! ## Runs under a limit -/

namespace World

variable {w v : World} {a : Arguments} {places : Location → Prop}

/-- What is written is taken in both worlds or in neither. -/
structure TakesAlike (w v : World) : Prop where
  output : w.takesOutput = v.takesOutput
  file : w.takesFile = v.takesFile

/-- Two runs read the same source, or neither reads one. -/
def SameSource (w v : World) (a : Arguments) : Prop :=
  ∀ source, w.HasSource a source ↔ v.HasSource a source

/-- A source is the same unless it stands at one of the given places. -/
theorem sameSource_of_agreeBut (hinput : w.input = v.input) (h : w.files.AgreeBut places v.files)
    (hp : ∀ path ∈ a.input, ∀ place, w.files.locate path = .ok place → ¬ places place) :
    SameSource w v a := by
  intro source
  unfold HasSource
  cases ha : a.input with
  | none => rw [hinput]
  | some path => exact h.read?_eq_ok_iff (hp path ha)

end World

/-- Two runs have the same status and put the same on the standard output, and they write nothing,
or the same to the same place. -/
structure SameOutcome (w v : World) (e f : Effect) : Prop where
  status : e.status = f.status
  output : e.output = f.output
  written : e.files = w.files ∧ f.files = v.files ∨
    ∃ path place bytes, w.files.locate path = .ok place ∧ v.files.locate path = .ok place ∧
      e.files = w.files.withFile place bytes ∧ f.files = v.files.withFile place bytes

section

variable {lib : Libraries} {w v : World} {a : Arguments} {places : Location → Prop}

theorem sameOutcome_fail (failure failure' : Failure) :
    SameOutcome w v (w.fail failure) (v.fail failure') :=
  ⟨rfl, rfl, .inl ⟨rfl, rfl⟩⟩

/-- Runs that have nothing to do come to the same. -/
theorem sameOutcome_halt (htakes : w.TakesAlike v) (reason : Halt) (text : String) :
    SameOutcome w v (w.halt reason text) (v.halt reason text) := by
  unfold World.halt
  rw [htakes.output]
  cases reason <;> exact ⟨rfl, rfl, .inl ⟨rfl, rfl⟩⟩

/-- Two runs with the same text to write come to the same. -/
theorem sameOutcome_write (h : w.files.AgreeBut places v.files) (htakes : w.TakesAlike v)
    (line : String) : SameOutcome w v (w.write a line) (v.write a line) := by
  unfold World.write
  rw [htakes.output, htakes.file]
  cases a.output with
  | none =>
    dsimp only
    split
    · exact ⟨rfl, rfl, .inl ⟨rfl, rfl⟩⟩
    · exact sameOutcome_fail _ _
  | some path =>
    dsimp only
    rcases h.write?_cases path (Text.encode line) with ⟨place, hw, hv, hwl, hvl⟩ | ⟨hw, hv⟩
    · rw [hw, hv]
      cases v.takesFile with
      | false => exact sameOutcome_fail _ _
      | true => exact ⟨rfl, rfl, .inr ⟨path, place, _, hwl, hvl, rfl, rfl⟩⟩
    · rw [hw, hv]
      exact sameOutcome_fail _ _

/-- Under the same limit two runs with the same source come to the same. -/
theorem sameOutcome_deliver (h : w.files.AgreeBut places v.files) (htakes : w.TakesAlike v)
    (hs : w.SameSource v a) (limit : Nat) :
    SameOutcome w v (lib.deliver w a limit) (lib.deliver v a limit) := by
  have hline (line : String) :
      lib.compiled w a limit = .ok line ↔ lib.compiled v a limit = .ok line := by
    simp only [Libraries.compiled_eq_ok_iff, hs _]
  unfold Libraries.deliver
  cases hw : lib.compiled w a limit with
  | ok line =>
    rw [(hline line).mp hw]
    exact sameOutcome_write h htakes line
  | error failure =>
    cases hv : lib.compiled v a limit with
    | error failure' => exact sameOutcome_fail failure failure'
    | ok line => cases hw.symm.trans ((hline line).mpr hv)

end

namespace Libraries

variable {lib : Libraries} {w v : World} {a : Arguments} {s t : Settings}
  {places : Location → Prop}

/-- With its settings a run is a run under the limit in force, and its log has a filter. -/
theorem execute_eq_deliver (hlog : lib.logger.Documented) (h : lib.configured w a = .ok s) :
    lib.execute w a = { lib.deliver w a (a.limit s.maxDepth) with
      logFilter := some (lib.logFilter w a s) } := by
  simp only [execute, h, hlog.first]

/-- Without settings a run fails in front of all else. -/
theorem execute_eq_fail {failure : Failure} (h : lib.configured w a = .error failure) :
    lib.execute w a = w.fail failure := by
  simp only [execute, h]

/-- Settings fail to be had in one of two ways, and the library tells why. -/
theorem eq_of_configured_eq_error {failure : Failure} (h : lib.configured w a = .error failure) :
    (∃ path cause, a.config = some path ∧ failure = .unloadableSettings path cause ∧
      Settings.loadFrom lib.settings w.chance w.files (lib.environment w a) path = .error cause) ∨
    ∃ cause, a.config = none ∧ failure = .unfitSettings cause ∧
      Settings.load lib.settings w.chance w.files (lib.environment w a) = .error cause := by
  unfold configured at h
  cases hc : a.config with
  | some path =>
    cases hl : Settings.loadFrom lib.settings w.chance w.files (lib.environment w a) path with
    | ok s => simp [hc, hl, Except.mapError] at h
    | error cause =>
      refine .inl ⟨path, cause, rfl, ?_, hl⟩
      simpa [hc, hl, Except.mapError, eq_comm] using h
  | none =>
    cases hl : Settings.load lib.settings w.chance w.files (lib.environment w a) with
    | ok s => simp [hc, hl, Except.mapError] at h
    | error cause =>
      refine .inr ⟨cause, rfl, ?_, rfl⟩
      simpa [hc, hl, Except.mapError, eq_comm] using h

theorem configured_eq_ok_iff_of_named {path : String} (hc : a.config = some path) :
    lib.configured w a = .ok s ↔
      Settings.loadFrom lib.settings w.chance w.files (lib.environment w a) path = .ok s := by
  unfold configured
  rw [hc]
  dsimp only
  cases Settings.loadFrom lib.settings w.chance w.files (lib.environment w a) path <;>
    simp [Except.mapError]

/-- Named settings depend on nothing but the places at which their file is looked for. -/
theorem eq_of_configured (hsettings : lib.settings.Documented) {path : String}
    (hc : a.config = some path) (hchance : w.chance = v.chance)
    (h : w.files.AgreeBut places v.files)
    (hp : ∀ place, lib.settings.LooksAt w.files path place → ¬ places place)
    (hw : lib.configured w a = .ok s) (hv : lib.configured v a = .ok t) : s = t := by
  rw [configured_eq_ok_iff_of_named hc] at hw hv
  rw [Settings.loadFrom_eq_ok_iff_of_agreeBut hsettings h hp, hchance] at hw
  exact Except.ok.inj (hw.symm.trans hv)

/-- If settings are read as documented, and the first log of a process can be set up, the settings
of a run matter only by the limit in force, by the filter of its log, and by whether they can be
had.

If both have settings, and their files differ only at some places, two runs come to the same in
three cases: the settings are in a named file that is not looked for at these places, where the
source is not either; or the limit is given and they read the same source, and then they do as this
limit says; or the settings agree on the limit and they read the same source.

Without settings a run has status one, reports what is wrong with the settings, and leaves all else
as it was; so it is with every other run without settings, whatever its source is. And runs whose
arguments ask for nothing to be done come to the same. -/
theorem run_of_configuration {lib : Libraries} (hsettings : lib.settings.Documented)
    (hlog : lib.logger.Documented) (args : List String) :
    (∀ a, lib.arguments.arguments args = .ok a →
      (∀ (w : World) (s : Settings), lib.configured w a = .ok s →
        lib.run args w = { lib.deliver w a (a.limit s.maxDepth) with
          logFilter := some (lib.logFilter w a s) }) ∧
      (∀ (w v : World) (s t : Settings) (places : Location → Prop), lib.configured w a = .ok s →
        lib.configured v a = .ok t → w.files.AgreeBut places v.files → w.TakesAlike v →
        (∀ path, a.config = some path → w.input = v.input → w.chance = v.chance →
          (∀ place, lib.settings.LooksAt w.files path place → ¬ places place) →
          (∀ path ∈ a.input, ∀ place, w.files.locate path = .ok place → ¬ places place) →
          SameOutcome w v (lib.run args w) (lib.run args v)) ∧
        (∀ limit, a.maxDepth = some limit → w.SameSource v a →
          SameOutcome w v (lib.run args w) (lib.run args v) ∧
          lib.run args w =
            { lib.deliver w a limit with logFilter := some (lib.logFilter w a s) } ∧
          lib.run args v =
            { lib.deliver v a limit with logFilter := some (lib.logFilter v a t) }) ∧
        (a.config = none → a.maxDepth = none → s.maxDepth = t.maxDepth → w.SameSource v a →
          SameOutcome w v (lib.run args w) (lib.run args v))) ∧
      ∀ (w : World) (failure : Failure), lib.configured w a = .error failure →
        (lib.run args w).status = 1 ∧ (lib.run args w).output = "" ∧
        (lib.run args w).files = w.files ∧
        ((∃ path cause, a.config = some path ∧
            Settings.loadFrom lib.settings w.chance w.files (lib.environment w a) path =
              .error cause ∧
            (lib.run args w).report = "Ошибка: " ++
              ("не удалось загрузить конфигурацию " ++ path ++ ": " ++ cause) ++ "\n") ∨
          ∃ cause, a.config = none ∧
            Settings.load lib.settings w.chance w.files (lib.environment w a) = .error cause ∧
            (lib.run args w).report = "Ошибка: " ++
              ("не удалось разобрать конфигурацию: " ++ cause) ++ "\n") ∧
        (∀ input, lib.run args { w with input } = lib.run args w) ∧
        ∀ v : World, lib.configured v a = .error failure → lib.run args v = v.fail failure) ∧
    ∀ reason, lib.arguments.arguments args = .error reason → ∀ w v : World, w.TakesAlike v →
      SameOutcome w v (lib.run args w) (lib.run args v) := by
  refine ⟨fun a hparse => ?_, fun reason hparse w v htakes => ?_⟩
  · have hlimit (w : World) (s : Settings) (hs : lib.configured w a = .ok s) :
        lib.run args w = { lib.deliver w a (a.limit s.maxDepth) with
          logFilter := some (lib.logFilter w a s) } := by
      rw [run_of_arguments hparse, execute_eq_deliver hlog hs]
    have hfail (w : World) (failure : Failure) (hw : lib.configured w a = .error failure) :
        lib.run args w = w.fail failure := by
      rw [run_of_arguments hparse, execute_eq_fail hw]
    refine ⟨hlimit, fun w v s t places hw hv hfiles htakes => ?_, fun w failure hw => ?_⟩
    · have hsame (hsource : w.SameSource v a) (hst : a.limit s.maxDepth = a.limit t.maxDepth) :
          SameOutcome w v (lib.run args w) (lib.run args v) := by
        have hdeliver : SameOutcome w v (lib.deliver w a (a.limit s.maxDepth))
            (lib.deliver v a (a.limit s.maxDepth)) := sameOutcome_deliver hfiles htakes hsource _
        rw [hlimit w s hw, hlimit v t hv, ← hst]
        exact ⟨hdeliver.status, hdeliver.output, hdeliver.written⟩
      refine ⟨fun path hc hinput hchance hp hi => ?_, fun limit hl hsource => ?_,
        fun _ _ hst hsource => hsame hsource (by rw [hst])⟩
      · have hst : s = t := eq_of_configured hsettings hc hchance hfiles hp hw hv
        exact hsame (World.sameSource_of_agreeBut hinput hfiles hi) (by rw [hst])
      · have hforce (s : Settings) : a.limit s.maxDepth = limit := by simp [Arguments.limit, hl]
        refine ⟨hsame hsource (by rw [hforce, hforce]), ?_, ?_⟩
        · rw [hlimit w s hw, hforce]
        · rw [hlimit v t hv, hforce]
    · have hsilent (input : ByteArray) :
          lib.configured { w with input } a = .error failure := hw
      rw [hfail w failure hw]
      refine ⟨rfl, rfl, rfl, ?_, fun input => hfail _ failure (hsilent input),
        fun v hv => hfail v failure hv⟩
      rcases eq_of_configured_eq_error hw with ⟨path, cause, hc, rfl, hl⟩ | ⟨cause, hc, rfl, hl⟩
      · exact .inl ⟨path, cause, hc, hl, rfl⟩
      · exact .inr ⟨cause, hc, hl, rfl⟩
  · unfold run
    rw [hparse]
    exact sameOutcome_halt htakes _ _

end Libraries

/-- Two worlds with other variables and another `.env`: with a file of settings and a limit, with
neither, with arguments that ask for help, and with settings that one of the worlds cannot have. -/
theorem Libraries.run_of_configuration_layers :
    let lib := Libraries.own
    let args := ["-c", "own.toml", "--max-depth", "2", "-i", "in.yaml", "-o", "out"]
    let a : Arguments := ⟨"in.yaml", "out", "own.toml", some 2⟩
    let files : Files :=
      ⟨[(["own.toml"], Text.encode "max_depth = 3"), (["in.yaml"], Text.encode "A: [1]")], []⟩
    let others := files.withFile [".env"] (Text.encode "CONFLANG_MAX_DEPTH=1")
    let w : World :=
      { input := Text.encode "A: 1", files, environment := [("CONFLANG_MAX_DEPTH", "1")] }
    let v : World :=
      { input := Text.encode "A: 1", files := others,
        environment := [("CONFLANG_LOG_LEVEL", "debug"), ("RUST_LOG", "trace")] }
    let u : World :=
      { input := Text.encode "A: 1", files, environment := [("CONFLANG_MAX_DEPTH", "many")] }
    lib.settings.Documented ∧ lib.logger.Documented ∧
    (lib.arguments.arguments args = .ok a ∧ SameOutcome w v (lib.run args w) (lib.run args v) ∧
      (lib.run args w).status = 0 ∧ (lib.run args v).logFilter = some "trace" ∧
      lib.run args v = { lib.deliver v a 2 with logFilter := (lib.run args v).logFilter }) ∧
    (SameOutcome w v (lib.run [] w) (lib.run [] v) ∧ (lib.run [] w).output = "def A := 1\n" ∧
      (lib.run [] w).logFilter = some "warn") ∧
    SameOutcome w u (lib.run ["-h"] w) (lib.run ["-h"] u) ∧
    (lib.run [] u).status = 1 ∧ (lib.run [] u).files = u.files := by
  intro lib args a files others w v u
  have hsettings : lib.settings.Documented := SettingsReader.own_documented
  have hlog : lib.logger.Documented := Logger.own_documented
  have hplace : (files.target [".env"]) ≠ .directory := by
    rw [Files.target]
    have hdir : files.isDirectory [".env"] = false := by decide +kernel
    have hnone : files.files.lookup [".env"] = none := by decide +kernel
    simp [hdir, hnone]
  have hagree : w.files.AgreeBut (· = [".env"]) v.files :=
    Files.agreeBut_withFile (Files.rooted_singleton _) hplace
  have hlocate (path : String) (q place : Location) (h : (files.locate path).toOption = some q)
      (hl : files.locate path = .ok place) : place = q :=
    Except.ok.inj (hl.symm.trans (toOption_eq_some_iff.mp h))
  have hnone : lib.arguments.arguments [] = .ok {} := rfl
  have hrun := run_of_configuration hsettings hlog
  refine ⟨hsettings, hlog, ?_, ?_, ?_, ?_⟩
  · have hparse : lib.arguments.arguments args = .ok a :=
      toOption_eq_some_iff.mp (by decide +kernel)
    have hw : lib.configured w a = .ok ⟨"warn", 3⟩ := toOption_eq_some_iff.mp (by decide +kernel)
    have hv : lib.configured v a = .ok ⟨"warn", 3⟩ := toOption_eq_some_iff.mp (by decide +kernel)
    obtain ⟨hnamed, hgiven, -⟩ := ((hrun args).1 a hparse).2.1 w v _ _ _ hw hv hagree ⟨rfl, rfl⟩
    have hsource : ∀ path ∈ a.input, ∀ place, files.locate path = .ok place → place ≠ [".env"] := by
      rintro path ⟨⟩ place hl
      rw [hlocate "in.yaml" ["in.yaml"] place (by decide +kernel) hl]
      decide
    obtain ⟨-, -, hlimit⟩ := hgiven 2 rfl (World.sameSource_of_agreeBut rfl hagree hsource)
    have hfilter : (lib.run args v).logFilter = some "trace" := by decide +kernel
    refine ⟨hparse, hnamed "own.toml" rfl rfl rfl ?_ hsource, by decide +kernel, hfilter, ?_⟩
    · have hlookups : lib.settings.lookups files "own.toml" = ["own.toml"] := by decide +kernel
      rintro place ⟨p, hp, hl⟩
      rw [hlookups, List.mem_singleton] at hp
      subst hp
      rw [hlocate "own.toml" ["own.toml"] place (by decide +kernel) hl]
      decide
    · rw [hlimit]
  · have hw : lib.configured w {} = .ok ⟨"warn", 1⟩ := toOption_eq_some_iff.mp (by decide +kernel)
    have hv : lib.configured v {} = .ok ⟨"debug", 1⟩ := toOption_eq_some_iff.mp (by decide +kernel)
    exact ⟨(((hrun []).1 {} hnone).2.1 w v _ _ _ hw hv hagree ⟨rfl, rfl⟩).2.2 rfl rfl rfl
      (fun _ => Iff.rfl), by decide +kernel, by decide +kernel⟩
  · have hhelp : lib.arguments.arguments ["-h"] = .error .help := rfl
    exact (hrun ["-h"]).2 _ hhelp w u ⟨rfl, rfl⟩
  · have hunfit : (lib.configured u {}).toOption = none := by decide +kernel
    cases hu : lib.configured u {} with
    | ok s =>
      rw [hu] at hunfit
      cases hunfit
    | error failure =>
      obtain ⟨hstatus, -, hfiles, -⟩ := ((hrun []).1 {} hnone).2.2 u failure hu
      exact ⟨hstatus, hfiles⟩

end YamlDefs

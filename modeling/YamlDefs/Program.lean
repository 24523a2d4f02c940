import YamlDefs.Arguments
import YamlDefs.Compile
import YamlDefs.Logging
import YamlDefs.Settings
import YamlDefs.Text.Utf8

/-!
# The program

A run as a function from what it can see to what it leaves: arguments, then settings, then the log,
then the input, then its declarations, and only then a single writing.

* `Libraries`: what the program leaves to others.
* `World`: what a run can see; `Effect`: what it leaves.
* `Failure.message`: how a run that fails is reported.
* `Libraries.deliver`: a run under a limit; `Libraries.execute`: a run with known arguments.
* `Libraries.run`: a whole run.
-/

namespace YamlDefs

/-- What the program leaves to libraries. -/
structure Libraries where
  arguments : ArgumentReader
  /-- The environment of a run after files of variables. -/
  extend : Files → Variables → Variables
  settings : SettingsReader
  logger : Logger
  yaml : Yaml.Reader

/-- What a run can see. -/
structure World where
  input : ByteArray
  files : Files
  environment : Variables
  /-- Whether the standard output takes what is written to it. It takes all of it or nothing. -/
  takesOutput : Bool := true
  /-- Whether a file takes what is written to it. It takes all of it or nothing. -/
  takesFile : Bool := true
  /-- What libraries go by that leave something to chance. -/
  chance : Nat := 0

/-- Why a run fails once its arguments are read. -/
inductive Failure where
  /-- The named file of settings cannot be loaded. -/
  | unloadableSettings (path cause : String)
  /-- A value of the settings does not fit. -/
  | unfitSettings (cause : String)
  /-- The log cannot be set up. -/
  | noLog (cause : String)
  | unreadableFile (path reason : String)
  | unreadableInput
  | unwritableFile (path : String)
  | unwritableOutput
  | rejected (cause : Rejection)
deriving DecidableEq, Repr

/-- The text by which a failure is reported. -/
def Failure.message : Failure → String
  | unloadableSettings path cause =>
    "не удалось загрузить конфигурацию " ++ path ++ ": " ++ cause
  | unfitSettings cause => "не удалось разобрать конфигурацию: " ++ cause
  | noLog cause => "не удалось инициализировать журналирование: " ++ cause
  | unreadableFile path reason => "Не удалось прочитать файл " ++ path ++ ": " ++ reason
  | unreadableInput => "не удалось прочитать стандартный ввод"
  | unwritableFile path => "не удалось записать файл " ++ path
  | unwritableOutput => "не удалось записать в стандартный вывод"
  | rejected cause => cause.message

/-- What a run leaves: its exit status, what it writes on the two streams, and the files. -/
structure Effect where
  status : Nat
  output : String
  report : String
  files : Files
  /-- The filter of the log, once that is set up. The lines that it lets through are left out. -/
  logFilter : Option String := none

namespace World

/-- The effect of a failure: its report, and nothing else. -/
def fail (w : World) (failure : Failure) : Effect :=
  { status := 1, output := "", report := "Ошибка: " ++ failure.message ++ "\n", files := w.files }

/-- The effect of a run that has nothing to do but to print a text: on the standard output if that
was asked for, whether it is taken or not, and else as a report. -/
def halt (w : World) (reason : Halt) (text : String) : Effect :=
  match reason with
  | .help | .version =>
    { status := 0, output := if w.takesOutput then text else "", report := "", files := w.files }
  | .misuse _ => { status := 2, output := "", report := text, files := w.files }

/-- The source that a run compiles. -/
def source (w : World) (a : Arguments) : Except Failure String :=
  match a.input with
  | some path =>
    match w.files.read? path with
    | .error fault => .error (.unreadableFile path fault.reason)
    | .ok bytes =>
      match Text.decode? bytes with
      | some text => .ok text
      | none => .error (.unreadableFile path "stream did not contain valid UTF-8")
  | none =>
    match Text.decode? w.input with
    | some text => .ok text
    | none => .error .unreadableInput

/-- The effect of a run that has a text to write. -/
def write (w : World) (a : Arguments) (text : String) : Effect :=
  match a.output with
  | none =>
    if w.takesOutput then { status := 0, output := text, report := "", files := w.files }
    else w.fail .unwritableOutput
  | some path =>
    match (w.files.write? path (Text.encode text)).filter fun _ => w.takesFile with
    | some files => { status := 0, output := "", report := "", files }
    | none => w.fail (.unwritableFile path)

end World

/-- The variable that may give the filter of the log. -/
def logVariable : String := "RUST_LOG"

namespace Libraries

/-- The variables of a run. Files of variables are looked for only if no settings are named. -/
def environment (lib : Libraries) (w : World) (a : Arguments) : Variables :=
  if a.config.isSome then w.environment else lib.extend w.files w.environment

/-- The settings of a run. A named file of settings is the only source. -/
def configured (lib : Libraries) (w : World) (a : Arguments) : Except Failure Settings :=
  match a.config with
  | some path =>
    (Settings.loadFrom lib.settings w.chance w.files (lib.environment w a) path).mapError
      (.unloadableSettings path)
  | none =>
    (Settings.load lib.settings w.chance w.files (lib.environment w a)).mapError .unfitSettings

/-- The filter of the log of a run. -/
def logFilter (lib : Libraries) (w : World) (a : Arguments) (settings : Settings) : String :=
  lib.logger.filter ((lib.environment w a).lookup logVariable) settings.logLevel

/-- The text that a run writes under a limit. -/
def compiled (lib : Libraries) (w : World) (a : Arguments) (limit : Nat) :
    Except Failure String := do
  let source ← w.source a
  match compile lib.yaml limit source with
  | .ok text => return text ++ "\n"
  | .error cause => throw (.rejected cause)

/-- The effect of a run under a limit, once all else is set up. -/
def deliver (lib : Libraries) (w : World) (a : Arguments) (limit : Nat) : Effect :=
  match lib.compiled w a limit with
  | .error failure => w.fail failure
  | .ok text => w.write a text

/-- The effect of a run with known arguments. -/
def execute (lib : Libraries) (w : World) (a : Arguments) : Effect :=
  match lib.configured w a with
  | .error failure => w.fail failure
  | .ok settings =>
    let filter := lib.logFilter w a settings
    match lib.logger.install false filter with
    | .error cause => w.fail (.noLog cause)
    | .ok () => { lib.deliver w a (a.limit settings.maxDepth) with logFilter := some filter }

/-- The effect of a whole run. -/
def run (lib : Libraries) (args : List String) (w : World) : Effect :=
  match lib.arguments.arguments args with
  | .ok a => lib.execute w a
  | .error reason => w.halt reason (lib.arguments.text Arguments.command args reason)

end Libraries

end YamlDefs

import YamlDefs.Program.Own

/-!
# Command line

Gathers what a run can see, and carries out its effect. All decisions are those of `Libraries.run`.
-/

namespace YamlDefs.CommandLine

/-- The paths that a run may look at. -/
def paths (args : Arguments) (above : Nat) : List String :=
  let extended (path : String) :=
    path :: (Format.extensions Format.all).filterMap fun e => withExtension? path e.1
  let dotEnv := (List.range (above + 1)).map fun n =>
    String.join (List.replicate n "../") ++ DotEnv.fileName
  let settings := match args.config with
    | some path => extended path
    | none => dotEnv ++ extended Settings.usualPlace
  settings ++ args.input.toList ++ args.output.toList

/-- Whether a path leads to a directory. -/
def isDirectory (path : String) : IO Bool := do
  try return ← (← IO.FS.realPath path).isDir catch _ => return false

/-- The contents of a file that can be read. -/
def contents? (path : String) : IO (Option ByteArray) := do
  if ← isDirectory path then return none
  try return some (← IO.FS.readBinFile path) catch _ => return none

/-- A location as a path. -/
def pathOf (place : Location) : String :=
  match place with
  | "/" :: rest => "/" ++ "/".intercalate rest
  | _ => "/".intercalate place

/-- Adds what a path leads to, and the directories on the way. -/
def look (fs : Files) (path : String) : IO Files := do
  let step (place : Location) (name : String) :=
    if name = ".." then Location.parent place else place ++ [name]
  let place := (Files.names path).foldl step []
  let mut directories := fs.directories
  for n in [0:place.length + 1] do
    if ← isDirectory (pathOf (place.take n)) then directories := place.take n :: directories
  match ← contents? path with
  | some bytes => return ⟨(place, bytes) :: fs.files, directories⟩
  | none => return ⟨fs.files, directories⟩

/-- The variables that may matter to a run. -/
def environment (fs : Files) : IO Variables := do
  let mentioned := fs.files.flatMap fun f => ((Text.decode? f.2).map DotEnv.words).getD []
  let own := ["CONFLANG_MAX_DEPTH", "CONFLANG_LOG_LEVEL"]
  let names := (logVariable :: own ++ own.map lowercase ++ mentioned).eraseDups
  names.filterMapM fun name => do return (← IO.getEnv name).map (name, ·)

/-- What a run with the given arguments can see. -/
def world (args : Arguments) : IO World := do
  let here ← IO.currentDir
  let files ← (paths args here.components.length).foldlM look ⟨[], []⟩
  let input ← match args.input with
    | some _ => pure ByteArray.empty
    | none => (← IO.getStdin).readBinToEnd
  let dotEnv := files.files.filter fun f => f.1.getLast? = some DotEnv.fileName
  return { input, files, environment := ← environment { files with files := dotEnv } }

/-- Carries out the effect of a run. What a writing comes to is known only when it is tried. -/
def carryOut (args : Arguments) (w : World) (run : World → Effect) : IO UInt32 := do
  let mut effect := run w
  if let some path := args.output then
    if effect.status = 0 then
      if let .ok bytes := effect.files.read? path then
        try IO.FS.writeBinFile path bytes
        catch _ => effect := run { w with takesFile := false }
  try
    (← IO.getStdout).putStr effect.output
    (← IO.getStdout).flush
  catch _ => effect := run { w with takesOutput := false }
  (← IO.getStderr).putStr effect.report
  return UInt32.ofNat effect.status

end YamlDefs.CommandLine

/-- Runs the program on its arguments. -/
def main (args : List String) : IO UInt32 := do
  let lib := YamlDefs.Libraries.own
  match lib.arguments.arguments args with
  | .ok parsed =>
    let w ← YamlDefs.CommandLine.world parsed
    YamlDefs.CommandLine.carryOut parsed w (lib.run args)
  | .error _ =>
    let w : YamlDefs.World := { input := .empty, files := ⟨[], []⟩, environment := [] }
    YamlDefs.CommandLine.carryOut {} w (lib.run args)

/-!
# Files

The files that a run can see, by path. Paths are relative to the working directory or begin at the
root; `.` and `..` are resolved on the way, and every name on the way must be a directory.

* `Files.steps`, `Files.names`: the parts of a path.
* `Files.locate`: where a path leads.
* `Files.read?`, `Files.write?`: the contents of a file, and the files after one is written.
* `Files.lookup_put_of_ne`: writing at one location changes no other.
-/

namespace YamlDefs

/-- The names from the working directory on, or from the root if the first is `/`. There is no `.`
in it, and `..` only in front, where it leads out of the working directory. -/
abbrev Location := List String

/-- The files that a run can see, and the directories that hold no file it can see. -/
structure Files where
  files : List (Location × ByteArray)
  directories : List Location

/-- What a path leads to. -/
inductive Target where
  | file (bytes : ByteArray)
  | directory
  | missing

/-- Why a path cannot be read. -/
inductive FileFault where
  | missing
  | isDirectory
  | notDirectory
  | nameTooLong
deriving DecidableEq, Repr

/-- The wording of a fault, as systems give it. -/
def FileFault.reason : FileFault → String
  | missing => "No such file or directory (os error 2)"
  | isDirectory => "Is a directory (os error 21)"
  | notDirectory => "Not a directory (os error 20)"
  | nameTooLong => "File name too long (os error 36)"

/-- How many bytes a name may have at most. -/
def maxNameBytes : Nat := 255

/-- How many bytes a path may have at most. -/
def maxPathBytes : Nat := 4095

/-- The directory that holds a location. -/
def Location.parent (place : Location) : Location :=
  if place = ["/"] then place
  else if place.all (· = "..") then place ++ [".."]
  else place.dropLast

/-- Where a step leads that a path takes from a directory. -/
def Location.step (place : Location) (name : String) : Location :=
  if name = "." then place
  else if name = ".." then place.parent
  else if name = "/" then [name]
  else place ++ [name]

namespace Files

/-- Whether a location is a directory: the root and what holds the working directory are, and so is
whatever holds a file. -/
def isDirectory (fs : Files) (place : Location) : Bool :=
  place.all (· = "..") || place = ["/"] || fs.directories.contains place ||
    fs.files.any fun f => place.isPrefixOf f.1 && place.length < f.1.length

/-- What stands at a location. -/
def target (fs : Files) (place : Location) : Target :=
  match fs.files.lookup place with
  | some bytes => .file bytes
  | none => if fs.isDirectory place then .directory else .missing

/-- The parts of a path between its slashes, a leading slash being a part of its own. -/
def steps (path : String) : List String :=
  let parts := ((path.toList.splitOn '/').filter (· ≠ [])).map String.ofList
  if path.startsWith "/" then "/" :: parts else parts

/-- The parts of a path that do not merely stay where they are. -/
def names (path : String) : List String := (steps path).filter (· ≠ ".")

/-- Takes the steps of a path from a location on; each must start from a directory. -/
def follow (fs : Files) (place : Location) : List String → Except FileFault Location
  | [] => .ok place
  | name :: rest =>
    match fs.target place with
    | .missing => .error .missing
    | .file _ => .error .notDirectory
    | .directory =>
      if maxNameBytes < name.utf8ByteSize then .error .nameTooLong
      else fs.follow (place.step name) rest

/-- The location that a path leads to, whether or not anything stands there. A path that ends in a
slash must lead to a directory. -/
def locate (fs : Files) (path : String) : Except FileFault Location :=
  if path.isEmpty then .error .missing
  else if maxPathBytes < path.utf8ByteSize then .error .nameTooLong
  else
    match fs.follow [] (steps path) with
    | .error fault => .error fault
    | .ok place =>
      if path.endsWith "/" then
        match fs.target place with
        | .file _ => .error .notDirectory
        | .directory => .ok place
        | .missing => .error .missing
      else .ok place

/-- The contents of the file at a path. -/
def read? (fs : Files) (path : String) : Except FileFault ByteArray :=
  match fs.locate path with
  | .error fault => .error fault
  | .ok place =>
    match fs.target place with
    | .file bytes => .ok bytes
    | .directory => .error .isDirectory
    | .missing => .error .missing

/-- Whether a file stands at a path. -/
def isFile (fs : Files) (path : String) : Bool := (fs.read? path).isOk

/-- The files after a location has been given new contents. -/
def put (files : List (Location × ByteArray)) (place : Location) (bytes : ByteArray) :
    List (Location × ByteArray) :=
  (place, bytes) :: files.filter (·.1 ≠ place)

/-- The files after the file at a path has been written; none if the path is a directory or there is
no directory to hold it. -/
def write? (fs : Files) (path : String) (bytes : ByteArray) : Option Files :=
  match fs.locate path with
  | .error _ => none
  | .ok place =>
    match fs.target place with
    | .directory => none
    | .file _ | .missing =>
      if fs.isDirectory (Location.parent place) then
        some { fs with files := put fs.files place bytes }
      else none

theorem lookup_put_self (files : List (Location × ByteArray)) (place : Location)
    (bytes : ByteArray) : (put files place bytes).lookup place = some bytes := by
  simp [put]

private theorem lookup_filter_ne {place other : Location} (h : other ≠ place) :
    ∀ files : List (Location × ByteArray),
      (files.filter (·.1 ≠ place)).lookup other = files.lookup other
  | [] => rfl
  | (p, bytes) :: files => by
    have ih := lookup_filter_ne h files
    by_cases hp : p = place
    · have ho : (other == p) = false := by simpa [hp] using h
      rw [List.filter_cons_of_neg (by simp [hp]), ih, List.lookup_cons, ho]
    · rw [List.filter_cons_of_pos (by simp [hp]), List.lookup_cons, List.lookup_cons, ih]

/-- Writing at one location changes no other. -/
theorem lookup_put_of_ne {place other : Location} (files : List (Location × ByteArray))
    (bytes : ByteArray) (h : other ≠ place) :
    (put files place bytes).lookup other = files.lookup other := by
  have hb : (other == place) = false := by simpa using h
  rw [put, List.lookup_cons, hb]
  exact lookup_filter_ne h files

end Files

end YamlDefs

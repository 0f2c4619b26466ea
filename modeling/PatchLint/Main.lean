import PatchLint.Command.Run
import Std.Time

/-!
# The program

The tool at a terminal. It takes a picture of the files that the arguments are
about, lets the library say what is to be done, and does it. No parser of source
text is linked in, so that every source is read by the heuristic rules.
-/

namespace PatchLint.Program

/-- A file with its content or, without one, a directory, by its absolute path. -/
abbrev Place := Text × Option FileContent

/-- The content of a file. -/
def readContent (path : String) : IO FileContent := do
  let bytes ← IO.FS.readBinFile path
  match String.fromUTF8? bytes with
  | some text => return .text text.toList
  | none => return .binary bytes.toList

/-- The path of what a path leads to, without detours. There is none if it leads
nowhere. -/
def realPath? (path : String) : IO (Option String) := do
  try
    let real ← IO.FS.realPath path
    return if ← real.pathExists then some real.toString else none
  catch _ => return none

/-- What is under an absolute path, and below it down to some depth. -/
def placesBelow (depth : Nat) (path : String) : IO (List Place) := do
  match ← realPath? path with
  | none => return []
  | some _ =>
    let real ← IO.FS.realPath path
    if ← real.isDir then
      match depth with
      | 0 => return [(path.toList, none)]
      | depth + 1 =>
        let below ← (← real.readDir).toList.mapM fun entry =>
          placesBelow depth (path ++ "/" ++ entry.fileName)
        return (path.toList, none) :: below.flatten
    else return [(path.toList, some (← readContent path))]

/-- How far down directories are looked into. -/
def greatestDepth : Nat := 128

/-- The directories above an absolute path, by their paths. -/
def pathsAbove (path : String) : List String :=
  let names := path.splitOn "/"
  (List.range names.length).map fun count => "/".intercalate (names.take count)

/-- What decides in a directory which files are left out. -/
def ignoreNames : List String :=
  [".ignore", ".gitignore", ".git", ".git/info/exclude", ".jj"]

/-- What is under a path, with the ignore files above it. -/
def placesAround (depth : Nat) (path : Text) : IO (List Place) := do
  match ← realPath? (String.ofList path) with
  | none => return []
  | some absolute =>
    let around ← ((pathsAbove absolute).flatMap fun above =>
      ignoreNames.map fun name => above ++ "/" ++ name).mapM (placesBelow 0)
    return (← placesBelow depth absolute) ++ around.flatten

/-- The ignore files that belong to a repository whose topmost directory holds a
file that points to another place. -/
def placesOfPointer (place : Place) : IO (List Place) := do
  match place with
  | (path, some content) =>
    match if "/.git".toList.isSuffixOf path then Repository.pointer? content else none with
    | none => return []
    | some directory =>
      let pointers ← placesAround 0 (Repository.sharedPointer directory)
      let shared := pointers.filterMap fun pointer =>
        pointer.2.bind (Repository.shared? directory)
      let excludes ← shared.mapM fun directory => placesAround 0 (Repository.excludeFile directory)
      return pointers ++ excludes.flatten
  | (_, none) => return []

/-- Add a place to a picture of the files. -/
def addPlace (entries : List Entry) (place : Place) : List Entry :=
  let leaf (name : Text) : Entry := match place.2 with
    | some content => .file name content
    | none => .directory name []
  Directory.insertAt leaf ((place.1.splitOn '/').filter fun name => !name.isEmpty) entries

/-- Add places to a picture of the files. -/
def addPlaces (fs : FileSystem) (places : List Place) : FileSystem :=
  { fs with top := places.foldl addPlace fs.top }

/-- A picture without files. -/
def nowhere : IO FileSystem := do
  let directory := (← IO.currentDir).toString.toList
  let names := (directory.splitOn '/').filter fun name => !name.isEmpty
  return { top := [], workingDirectory := names }

/-- A picture of the files that a check reads. -/
def filesOfCheck (options : CheckOptions) (userDirectory? : Option Text) : IO FileSystem := do
  let sources ← placesAround greatestDepth options.path
  let pointed ← sources.mapM placesOfPointer
  let directory := (Path.parent? options.path).getD options.path
  let settings := ConfigSource.projectNames.map (Path.join directory) ++ options.config?.toList ++
    (userDirectory?.map fun directory => Path.join directory ConfigSource.userName).toList
  let others ← settings.mapM (placesAround 0)
  return addPlaces (← nowhere) (sources ++ pointed.flatten ++ others.flatten)

/-- A picture of the files that a command reads. Which directory result files go
to is known only when the settings are. -/
def filesOf (userDirectory? : Option Text) (now : Timestamp) : Command → IO FileSystem
  | .listRules => nowhere
  | .check options => do
    let files ← filesOfCheck options userDirectory?
    match Check.settings ⟨files, userDirectory?, fun _ => none, now⟩ options with
    | .error _ => return files
    | .ok config =>
      let directory := options.outputDir?.getD config.report.outputDir
      return addPlaces files (← placesAround 1 directory)

/-- The time of day where the program runs. -/
def currentTime : IO Timestamp := do
  let time ← Std.Time.PlainDateTime.now
  return Moment.stamp ⟨time.year.toInt.toNat, time.month.toNat, time.day.toNat, time.hour.toNat,
    time.minute.toNat, time.second.toNat, time.nanosecond.toNat⟩

/-- The directory of the user's settings. -/
def findUserDirectory : IO (Option Text) := do
  let configured ← IO.getEnv "MODCHECK_CONFIG_DIR"
  let home ← IO.getEnv "HOME"
  return ConfigSource.userDirectory? (configured.map String.toList) (home.map String.toList)

/-- Do something, and only remark on it if that fails. -/
def attempt (action : IO Unit) : IO Unit := do
  try action catch error => IO.eprintln (toString error)

/-- Do what an outcome says. Trouble with result files does not end the run. -/
def perform (outcome : Outcome) : IO Unit := do
  for path in outcome.removed do
    attempt (IO.FS.removeFile (String.ofList path))
  match outcome.written? with
  | some (path, text) =>
    attempt do
      let handle ← IO.FS.Handle.mk (String.ofList path) .writeNew
      handle.putStr text
  | none => pure ()
  IO.print outcome.output
  for remark in outcome.remarks do
    IO.eprintln remark

/-- Do what the arguments ask for, and give the exit code. -/
def run (arguments : List Text) : IO UInt32 := do
  let now ← currentTime
  let userDirectory? ← findUserDirectory
  let files ← match Command.ofArguments arguments with
    | .ok command => filesOf userDirectory? now command
    | .error _ => nowhere
  let outcome := Command.runArguments ⟨files, userDirectory?, fun _ => none, now⟩ arguments
  perform outcome
  return outcome.exitCode.toUInt32

end PatchLint.Program

/-- Run the tool. -/
def main (arguments : List String) : IO UInt32 :=
  PatchLint.Program.run (arguments.map String.toList)

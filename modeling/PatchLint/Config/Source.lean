import PatchLint.Config.Decode
import PatchLint.FileSystem

/-!
# Where settings come from

The settings of a project are those of the file that was asked for. If none was
asked for, they come from the project's own file, then from the user's file, and
in the end they are the defaults. A file that was asked for is not looked for
first, so that a missing one is an error and not passed over.
-/

namespace PatchLint

/-- Where settings come from. -/
inductive ConfigSource where
  /-- A file that was asked for. -/
  | explicit (path : Text)
  /-- A file of the project. -/
  | project (path : Text)
  /-- The file of the user. -/
  | user (path : Text)
  /-- No file at all. -/
  | defaults
deriving DecidableEq, Repr

/-- Why settings could not be loaded. -/
inductive ConfigError where
  /-- The file could not be read. -/
  | unreadable (path : Text) (cause : FileError)
  /-- The file holds no settings. -/
  | malformed (path : Text)
deriving DecidableEq, Repr

namespace ConfigError

/-- The file with which loading failed. -/
def path : ConfigError → Text
  | .unreadable path _ => path
  | .malformed path => path

/-- The words for a failure. -/
def message (error : ConfigError) : String :=
  "Failed to load config: " ++ String.ofList error.path

end ConfigError

namespace ConfigSource

/-- The names of a project's own file, the preferred one first. -/
def projectNames : List Text :=
  ["modcheck.toml", ".modcheck.toml"].map String.toList

/-- The name of the user's file. -/
def userName : Text :=
  "config.toml".toList

/-- The directory of the user's file: the one that is configured, or one in the
home directory. -/
def userDirectory? (configured? home? : Option Text) : Option Text :=
  configured?.or (home?.map fun home => Path.join home ".modcheck".toList)

/-- The source of the settings of a project. -/
def resolve (fs : FileSystem) (project : Text) (explicit? userDirectory? : Option Text) :
    ConfigSource :=
  match explicit? with
  | some path => .explicit path
  | none =>
    match (projectNames.map (Path.join project)).find? fs.isFile with
    | some path => .project path
    | none =>
      match (userDirectory?.map fun directory => Path.join directory userName).filter fs.isFile with
      | some path => .user path
      | none => .defaults

/-- The file of a source. -/
def path? : ConfigSource → Option Text
  | .explicit path => some path
  | .project path => some path
  | .user path => some path
  | .defaults => none

/-- The settings of a file. -/
def loadFile (fs : FileSystem) (path : Text) : Except ConfigError Config :=
  match fs.read path with
  | .error cause => .error (.unreadable path cause)
  | .ok content =>
    match Config.parse? content with
    | some config => .ok config
    | none => .error (.malformed path)

/-- The settings of a source. -/
def load (fs : FileSystem) (source : ConfigSource) : Except ConfigError Config :=
  match source.path? with
  | some path => loadFile fs path
  | none => .ok {}

end ConfigSource

end PatchLint

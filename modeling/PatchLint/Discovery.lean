import PatchLint.FileSystem
import PatchLint.Glob.Exclude
import PatchLint.Surroundings

/-!
# Finding source files

The source files below a directory, hidden ones included. Build and editor
directories are never entered, and neither is what ignore files leave out. Of the
files that are left, those that an exclude pattern covers are dropped.
-/

namespace PatchLint

/-- Why source files could not be looked for. -/
inductive DiscoveryError where
  /-- There is nothing under the path. -/
  | inaccessible (path : Text)
deriving DecidableEq, Repr

/-- The words for a failure. -/
def DiscoveryError.message : DiscoveryError → String
  | .inaccessible path => "Cannot access " ++ String.ofList path

namespace Discovery

/-- The names of directories that are never entered. -/
def skippedDirectories : List Text :=
  [".git", ".vs", ".vscode", "bin", "obj", "packages"].map String.toList

/-- The name of a source file: something before the last dot, and `cs` after it. -/
def isSourceName (name : Text) : Bool :=
  ".cs".toList.isSuffixOf name && ".cs".toList.length < name.length

mutual

/-- The source files at an entry and below it, by the names that lead to them. -/
def sourcesAt (fs : FileSystem) (place : Surroundings) : Entry → List (List Text)
  | .file name _ => if isSourceName name && !place.ignores false name then [[name]] else []
  | .directory name entries =>
    if skippedDirectories.contains name || place.ignores true name then []
    else (sourcesIn fs (place.enter fs name entries) entries).map (name :: ·)

/-- The source files of a directory, by the names that lead to them. -/
def sourcesIn (fs : FileSystem) (place : Surroundings) : List Entry → List (List Text)
  | [] => []
  | entry :: rest => sourcesAt fs place entry ++ sourcesIn fs place rest

end

/-- Names as a relative path, with slashes only. -/
def relative (names : List Text) : Text :=
  (List.intercalate ['/'] names).map fun c => if c = '\\' then '/' else c

/-- An exclude pattern covers the file that these names lead to. -/
def isExcluded (exclude : List Text) (names : List Text) : Bool :=
  exclude.any fun pattern => Exclude.covers pattern (relative names)

/-- The path that names lead to. -/
def pathOf (root : Text) (names : List Text) : Text :=
  names.foldl Path.join root

/-- The path that stands for what is typed in. -/
def typedIn : Text :=
  ['-']

/-- The source files below a path, in order. A file counts as what is below
itself, and a directory is not looked into if its path stands for what is typed
in. -/
def sourceFiles (fs : FileSystem) (root : Text) (exclude : List Text) :
    Except DiscoveryError (List Text) :=
  match fs.locate root with
  | .error _ => .error (.inaccessible root)
  | .ok location =>
    match fs.entryAt? location with
    | none => .error (.inaccessible root)
    | some (.file _ _) => .ok [root]
    | some (.directory _ entries) =>
      if Path.same root typedIn then .ok []
      else
        let place := Surroundings.ofStart fs root location entries
        let found := (sourcesIn fs place entries).filter fun names => !isExcluded exclude names
        .ok ((found.map (pathOf root)).mergeSort Path.le)

end Discovery

end PatchLint

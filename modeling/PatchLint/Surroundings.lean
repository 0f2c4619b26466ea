import PatchLint.FileSystem
import PatchLint.Glob.IgnoreRule

/-!
# The ignore files around an entry

The ignore files of every directory on the way from the top say whether an entry
is left out, the nearest first. General ignore files always count, and those of
version control only up to the directory of the repository that the entry lies
in. Below the directory where a search starts, the rules of an ignore file see
paths the way they are spelled; above it they see absolute paths.
-/

namespace PatchLint

/-! ## Repositories -/

namespace Repository

/-- The names of what makes a directory the topmost one of a repository. -/
def marks : List Text :=
  [".git", ".jj"].map String.toList

/-- The directory that the first line of a file points to. -/
def pointer? (content : FileContent) : Option Text :=
  content.textLines.head?.bind (Text.after? "gitdir: ".toList)

/-- The file that says where a repository keeps what its copies share. -/
def sharedPointer (directory : Text) : Text :=
  Path.join directory "commondir".toList

/-- The directory that the first line of that file names. It is given from the
directory of the file if it starts with a dot. -/
def shared? (directory : Text) (content : FileContent) : Option Text :=
  content.textLines.head?.map fun line =>
    if line.head? = some '.' then Path.join directory line else line

/-- The file of rules in the directory that copies share. -/
def excludeFile (directory : Text) : Text :=
  Path.join directory "info/exclude".toList

/-- The rules that belong to a repository but not to its files. The topmost
directory of the repository holds them in a directory, or holds a file that
points to another place. -/
def exclude? (fs : FileSystem) (entries : List Entry) : Option FileContent :=
  match Directory.find? entries ".git".toList with
  | some (.file _ content) => do
    let directory ← pointer? content
    let shared ← shared? directory (← fs.content? (sharedPointer directory))
    fs.content? (excludeFile shared)
  | some (.directory _ inner) =>
    (Directory.entry? (["info", "exclude"].map String.toList) inner).bind Entry.content?
  | none => none

end Repository

/-! ## Ignore files -/

/-- The ignore files of one directory. -/
structure IgnoreLayer where
  /-- The path of the directory, without a dot and slash in front. -/
  path : Text
  /-- The rules that always count. -/
  general : List IgnoreRule
  /-- The rules that belong to a repository and its files. -/
  shared : List IgnoreRule
  /-- The rules that belong to a repository but not to its files. -/
  own : List IgnoreRule
  /-- The directory is the topmost one of a repository. -/
  isRepository : Bool
deriving DecidableEq, Repr

namespace IgnoreLayer

/-- The rules that a file holds. There are none without a file. -/
def rulesOf (content? : Option FileContent) : List IgnoreRule :=
  IgnoreRule.ofLines ((content?.map FileContent.textLines).getD [])

/-- The rules of the file with this name. -/
def rulesIn (name : String) (entries : List Entry) : List IgnoreRule :=
  rulesOf ((Directory.find? entries name.toList).bind Entry.content?)

/-- The ignore files among the entries of a directory. -/
def ofEntries (fs : FileSystem) (path : Text) (entries : List Entry) : IgnoreLayer where
  path := Path.dropHere path
  general := rulesIn ".ignore" entries
  shared := rulesIn ".gitignore" entries
  own := rulesOf (Repository.exclude? fs entries)
  isRepository := Repository.marks.any fun name => (Directory.find? entries name).isSome

/-- The path of an entry as the rules of a directory see it. What they see is
relative to the directory only if the spellings of both paths agree. -/
def seen (layer : IgnoreLayer) (path : Text) : Text :=
  let path := Path.dropHere path
  if Path.same layer.path ['.'] ∨ '/' ∉ path ∨ !layer.path.isPrefixOf path then path
  else Path.dropStart layer.path path

end IgnoreLayer

/-- A directory with those above it. -/
structure Surroundings where
  /-- The path of the directory. -/
  path : Text
  /-- The ignore files of the directory and those above it, the nearest first, up
  to the directory where the search starts. -/
  inside : List IgnoreLayer
  /-- The path of the directory where the search starts. -/
  start : Text
  /-- The absolute path of that directory. -/
  base : Text
  /-- The ignore files of the directories above that one, the nearest first. -/
  above : List IgnoreLayer
deriving DecidableEq, Repr

namespace Surroundings

/-- The absolute path of a location. -/
def absolute (location : List Text) : Text :=
  '/' :: List.intercalate ['/'] location

/-- The ignore files of the directories above a location, the nearest first. -/
def layersAbove (fs : FileSystem) (location : List Text) : List IgnoreLayer :=
  ((List.range location.length).reverse.map fun count =>
    let names := location.take count
    IgnoreLayer.ofEntries fs (absolute names) ((Directory.at? names fs.top).getD []))

/-- The directory where a search starts. -/
def ofStart (fs : FileSystem) (start : Text) (location : List Text) (entries : List Entry) :
    Surroundings where
  path := start
  inside := [IgnoreLayer.ofEntries fs start entries]
  start := start
  base := absolute location
  above := layersAbove fs location

/-- Go on to a directory in this one. -/
def enter (place : Surroundings) (fs : FileSystem) (name : Text) (entries : List Entry) :
    Surroundings :=
  let path := Path.join place.path name
  { place with path := path, inside := IgnoreLayer.ofEntries fs path entries :: place.inside }

/-- The absolute path of an entry, for a path below the start. -/
def fromBase (place : Surroundings) (path : Text) : Text :=
  let below := if Path.same place.start ['.'] then path
    else Path.dropStart (Path.dropHere place.start) path
  Path.join place.base below

/-- The layers around an entry, each with the path of the entry as it sees it. -/
def views (place : Surroundings) (name : Text) : List (IgnoreLayer × Text) :=
  let path := Path.dropHere (Path.join place.path name)
  place.inside.map (fun layer => (layer, layer.seen path)) ++
    place.above.map fun layer => (layer, layer.seen (place.fromBase path))

/-- The layers up to the first repository. Without any repository there are none. -/
def withinRepository (views : List (IgnoreLayer × Text)) : List (IgnoreLayer × Text) :=
  match views.dropWhile fun view => !view.1.isRepository with
  | [] => []
  | last :: _ => (views.takeWhile fun view => !view.1.isRepository) ++ [last]

/-- What the nearest rules about an entry decide. -/
def decide? (rules : IgnoreLayer → List IgnoreRule) (isDirectory : Bool)
    (views : List (IgnoreLayer × Text)) : Option Verdict :=
  views.findSome? fun (layer, path) => IgnoreRule.verdict? (rules layer) isDirectory path

/-- The entry of this name is left out by an ignore file. -/
def ignores (place : Surroundings) (isDirectory : Bool) (name : Text) : Bool :=
  let views := place.views name
  let inRepository := withinRepository views
  ((decide? IgnoreLayer.general isDirectory views).or
    ((decide? IgnoreLayer.shared isDirectory inRepository).or
      (decide? IgnoreLayer.own isDirectory inRepository))) == some .ignore

end Surroundings

end PatchLint

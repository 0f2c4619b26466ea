import PatchLint.Path

/-!
# Files and directories

A picture of the part of the file system that the tool works with: a tree of
named files and directories, with a working directory in it. Operations fail with
the words of the operating system, and a change of a file gives a new tree.

What exists can be read: a directory lists its entries, and a file gives its
content. A locked place refuses changes only. There are no links, so a file or
directory has one location.
-/

namespace PatchLint

/-- What a file holds. -/
inductive FileContent where
  /-- Text in UTF-8. -/
  | text (content : Text)
  /-- Bytes that are no text. -/
  | binary (bytes : List UInt8)
deriving DecidableEq, Repr

namespace FileContent

/-- The lines of a file, which `feed` ends, with `carriage` before it or not. The
end of the file ends a line too, if anything is on it. -/
def endedLines {α : Type} [BEq α] (feed carriage : α) (items : List α) : List (List α) :=
  let pieces := items.splitOn feed
  let unended (line : List α) : List α :=
    if line.getLast? == some carriage then line.dropLast else line
  pieces.dropLast.map unended ++ pieces.getLast?.toList.filter fun line => !line.isEmpty

/-- The text that bytes spell in UTF-8. -/
def decode? (bytes : List UInt8) : Option Text :=
  (String.fromUTF8? bytes.toByteArray).map String.toList

/-- The lines of a file up to the first one that is no text. -/
def textLines : FileContent → List Text
  | .text content => endedLines '\n' '\r' content
  | .binary bytes =>
    (((endedLines 10 13 bytes).map decode?).takeWhile Option.isSome).filterMap id

end FileContent

/-- A named file or directory. -/
inductive Entry where
  /-- A file. -/
  | file (name : Text) (content : FileContent)
  /-- A directory. -/
  | directory (name : Text) (entries : List Entry)
deriving Repr

namespace Entry

/-- The name of a file or directory. -/
def name : Entry → Text
  | .file name _ => name
  | .directory name _ => name

/-- What a file holds. -/
def content? : Entry → Option FileContent
  | .file _ content => some content
  | .directory _ _ => none

/-- The entry is a file. -/
def isFile : Entry → Bool
  | .file _ _ => true
  | .directory _ _ => false

end Entry

/-- Why the operating system refuses an operation. -/
inductive FileError where
  /-- There is nothing under the path. -/
  | notFound
  /-- Something is there that must not be there. -/
  | alreadyExists
  /-- The path leads through a file. -/
  | notDirectory
  /-- The path leads to a directory. -/
  | isDirectory
  /-- The file holds no text. -/
  | notText
  /-- The operation is not allowed. -/
  | notPermitted
deriving DecidableEq, Repr

/-- The words of the operating system for a refusal. -/
def FileError.message : FileError → String
  | .notFound => "No such file or directory (os error 2)"
  | .alreadyExists => "File exists (os error 17)"
  | .notDirectory => "Not a directory (os error 20)"
  | .isDirectory => "Is a directory (os error 21)"
  | .notText => "stream did not contain valid UTF-8"
  | .notPermitted => "Permission denied (os error 13)"

namespace Directory

/-- The entry of this name. -/
def find? (entries : List Entry) (name : Text) : Option Entry :=
  entries.find? fun entry => entry.name == name

/-- The entries of the directory that names lead to. -/
def at? : List Text → List Entry → Option (List Entry)
  | [], entries => some entries
  | name :: rest, entries =>
    match find? entries name with
    | some (.directory _ inner) => at? rest inner
    | _ => none

/-- The entry that names lead to. -/
def entry? (names : List Text) (entries : List Entry) : Option Entry :=
  names.getLast?.bind fun name => (at? names.dropLast entries).bind fun inner => find? inner name

/-- Change the entries of the directory that names lead to. -/
def updateAt (change : List Entry → List Entry) : List Text → List Entry → List Entry
  | [], entries => change entries
  | name :: rest, entries => entries.map fun entry =>
    match entry with
    | .directory other inner =>
      if other = name then .directory other (updateAt change rest inner) else entry
    | .file _ _ => entry

/-- Put an entry at the end of names, and make the directories on the way. An
entry that is already there stays. -/
def insertAt (leaf : Text → Entry) : List Text → List Entry → List Entry
  | [], entries => entries
  | name :: rest, entries =>
    match find? entries name with
    | some (.directory _ _) => entries.map fun entry =>
      match entry with
      | .directory other inner =>
        if other = name then .directory other (insertAt leaf rest inner) else entry
      | .file _ _ => entry
    | some (.file _ _) => entries
    | none =>
      entries ++ [if rest.isEmpty then leaf name else .directory name (insertAt leaf rest [])]

/-- Leave out the entry of this name. -/
def erase (name : Text) (entries : List Entry) : List Entry :=
  entries.filter fun entry => entry.name != name

end Directory

/-- A tree of files, the working directory in it, and what must not be changed.
Locations are names that lead from the topmost directory. -/
structure FileSystem where
  /-- What the topmost directory holds. -/
  top : List Entry
  /-- The location of the working directory. -/
  workingDirectory : List Text
  /-- The locations where no file may be made or removed. -/
  locked : List (List Text) := []
deriving Repr

namespace FileSystem

/-- The entry at a location. -/
def entryAt? (fs : FileSystem) (location : List Text) : Option Entry :=
  if location = [] then some (.directory [] fs.top) else Directory.entry? location fs.top

/-- Follow the pieces of a path from a directory. A piece leads on only from a
directory, and nothing has to be at the end of the last one. -/
def follow (fs : FileSystem) (location : List Text) : List Text → Except FileError (List Text)
  | [] => .ok location
  | piece :: rest =>
    match fs.entryAt? location with
    | none => .error .notFound
    | some (.file _ _) => .error .notDirectory
    | some (.directory _ _) =>
      if piece = [] ∨ piece = ['.'] then follow fs location rest
      else if piece = ['.', '.'] then follow fs location.dropLast rest
      else follow fs (location ++ [piece]) rest

/-- The location that a path leads to. -/
def locate (fs : FileSystem) (path : Text) : Except FileError (List Text) :=
  if path = [] then .error .notFound
  else if path.head? = some '/' then fs.follow [] (path.splitOn '/')
  else fs.follow fs.workingDirectory (path.splitOn '/')

/-- The entry under a path. -/
def entry (fs : FileSystem) (path : Text) : Except FileError Entry := do
  let location ← fs.locate path
  match fs.entryAt? location with
  | some entry => .ok entry
  | none => .error .notFound

/-- There is a file under the path. -/
def isFile (fs : FileSystem) (path : Text) : Bool :=
  match fs.entry path with
  | .ok entry => entry.isFile
  | .error _ => false

/-- What the file under a path holds. There is nothing if it is not a file. -/
def content? (fs : FileSystem) (path : Text) : Option FileContent :=
  (fs.entry path).toOption.bind Entry.content?

/-- The text of a file. -/
def read (fs : FileSystem) (path : Text) : Except FileError Text := do
  match ← fs.entry path with
  | .file _ (.text content) => .ok content
  | .file _ (.binary _) => .error .notText
  | .directory _ _ => .error .isDirectory

/-- The entries of a directory. -/
def list (fs : FileSystem) (path : Text) : Except FileError (List Entry) := do
  match ← fs.entry path with
  | .directory _ entries => .ok entries
  | .file _ _ => .error .notDirectory

/-- Make a new file where nothing is yet. -/
def create (fs : FileSystem) (path content : Text) : Except FileError FileSystem := do
  let location ← fs.locate path
  match fs.entryAt? location, location.getLast? with
  | some _, _ => .error .alreadyExists
  | none, none => .error .alreadyExists
  | none, some name =>
    let added (entries : List Entry) : List Entry := entries ++ [.file name (.text content)]
    if location ∈ fs.locked then .error .notPermitted
    else .ok { fs with top := Directory.updateAt added location.dropLast fs.top }

/-- Remove a file. -/
def remove (fs : FileSystem) (path : Text) : Except FileError FileSystem := do
  let location ← fs.locate path
  match fs.entryAt? location, location.getLast? with
  | some (.file _ _), some name =>
    if location ∈ fs.locked then .error .notPermitted
    else .ok { fs with top := Directory.updateAt (Directory.erase name) location.dropLast fs.top }
  | some _, _ => .error .isDirectory
  | none, _ => .error .notFound

end FileSystem

end PatchLint

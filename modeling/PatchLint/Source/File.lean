import PatchLint.Path

/-!
# Source files

A source file as the rules see it: its text, the lines of that text, and the
path under which findings are reported.
-/

namespace PatchLint

/-- A source file that is being checked. -/
structure SourceFile where
  /-- The path that findings show. -/
  shownPath : Text
  /-- The whole text. -/
  content : Text
deriving DecidableEq, Repr

namespace SourceFile

/-- The file at `path`, shown relative to `root`. -/
def ofPath (root path content : Text) : SourceFile :=
  ⟨Path.display root path, content⟩

/-- A text that is checked on its own, shown relative to the current
directory. -/
def ofText (path content : Text) : SourceFile :=
  ofPath ['.'] path content

/-- The lines of the file. -/
def lines (file : SourceFile) : List Text :=
  file.content.lines

/-- The number of lines. -/
def lineCount (file : SourceFile) : Nat :=
  file.lines.length

/-- The line with this number, counted from one. -/
def line? (file : SourceFile) (number : Nat) : Option Text :=
  match number with
  | 0 => none
  | index + 1 => file.lines[index]?

/-- The lines with their numbers, counted from one. -/
def numberedLines (file : SourceFile) : List (Text × Nat) :=
  file.lines.zipIdx 1

end SourceFile

end PatchLint

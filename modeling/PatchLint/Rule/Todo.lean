import PatchLint.Rule.Basic
import PatchLint.Source.Mask

/-!
# Open tasks

A comment that mentions a task to be done, reported with its text. The text is
brought into one form and cut to a fixed length.
-/

namespace PatchLint.Todo

/-- What every description starts with. -/
def opening : Text :=
  "TODO: ".toList

/-- The greatest length of a description, in characters. -/
def maxLength : Nat := 100

/-- What marks a description that was cut. -/
def ellipsis : Text :=
  "...".toList

/-- What follows a leading `todo` in any letter case, with the blanks and the
colon behind it; the whole text if it starts otherwise. -/
def dropMarker (text : Text) : Text :=
  if (text.take 4).map Char.toLower = "todo".toList then
    match Text.trimStart (text.drop 4) with
    | ':' :: rest => Text.trimStart rest
    | rest => rest
  else text

/-- The task that a comment describes, without comment signs and marker. -/
def task (comment : Text) : Text :=
  dropMarker (Text.trim (comment.dropWhile fun c => c == '/' || c == '*'))

/-- The description of a task, which is cut if it would be too long. -/
def describe (comment : Text) : Text :=
  let text := task comment
  let budget := maxLength - opening.length
  if budget < text.length then opening ++ text.take (budget - ellipsis.length) ++ ellipsis
  else opening ++ text

/-- The finding on a line, numbered from one, if there is one. -/
def checkLine (file : SourceFile) (line : Text × Nat) : Option Issue := do
  let comment ← Mask.comment? line.1
  if comment.lower.mentions "todo" then
    some (file.issue line.2 .warning "BCW013" (String.ofList (describe comment)))
  else none

/-- Comments about open tasks are reported. -/
def textRule : TextRule where
  info := ⟨"todo-comments", "BCW013", "Reports TODO comments that should be addressed", .warning⟩
  check file := file.numberedLines.filterMap (checkLine file)

end PatchLint.Todo

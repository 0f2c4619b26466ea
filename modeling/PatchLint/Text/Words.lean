import PatchLint.Text.Basic
import PatchLint.Text.Letter

/-!
# Words

A word is a maximal run of identifier characters. Words are compared whole, so
`static` is not a word of `StaticHelper`.
-/

namespace PatchLint.Text

/-- The words of a line, from left to right. -/
def words (line : Text) : List Text :=
  (line.splitOnP fun c => !isWordChar c).filter fun word => !word.isEmpty

/-- The word occurs in the line, on its own. -/
def hasWord (line : Text) (word : Text) : Bool :=
  (words line).contains word

/-- One of these words occurs in the line, on its own. -/
def hasAnyWord (line : Text) (candidates : List String) : Bool :=
  candidates.any fun word => hasWord line word.toList

namespace Cut

/-- No identifier character stands before the cut. -/
def startsWord (cut : Cut) : Bool :=
  !(cut.before.head?.any isWordChar)

/-- No letter of any script stands before the cut. -/
def startsRun (cut : Cut) : Bool :=
  !(cut.before.head?.any isLetter)

end Cut

/-- No identifier character comes first. -/
def endsWord (rest : Text) : Bool :=
  !(rest.head?.any isWordChar)

/-- No letter of any script comes first. -/
def endsRun (rest : Text) : Bool :=
  !(rest.head?.any isLetter)

end PatchLint.Text

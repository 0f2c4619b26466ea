import PatchLint.Rule.Basic
import PatchLint.Source.Block
import PatchLint.Source.Mask
import PatchLint.Text.Words

/-!
# Empty catch blocks

A `catch` whose block holds nothing but blanks and comments hides an error.
-/

namespace PatchLint.EmptyCatch

/-- The keyword that the text rule looks for. -/
def keyword : Text :=
  "catch".toList

/-- The finding about an empty catch block. -/
def finding (file : SourceFile) (line : Nat) : Issue :=
  file.issue line .error "BCS003" "Empty catch block found - should handle exceptions properly"

/-- The byte position behind the keyword at this cut, when it stands there on
its own. -/
def keywordEnd? (cut : Text.Cut) : Option Nat :=
  match Text.after? keyword cut.after with
  | some rest =>
    if cut.startsWord && Text.endsWord rest then some (cut.offset + keyword.byteSize) else none
  | none => none

/-- The byte positions behind the keywords of a line, from left to right. -/
def keywordEnds (line : Text) : List Nat :=
  line.cuts.filterMap keywordEnd?

/-- The empty catch blocks that start on a masked line, numbered from zero. -/
def checkLine (file : SourceFile) (code : List Text) (line : Text × Nat) : List Issue :=
  ((keywordEnds line.1).filter fun column =>
    (blockSpan? code line.2 column).any BlockSpan.empty).map fun _ => finding file (line.2 + 1)

/-- Catch blocks must not be empty, as far as the masked text shows. -/
def textRule : TextRule where
  info := ⟨"empty-catch-blocks", "BCS003", "Flags empty catch blocks", .error⟩
  check file :=
    let code := Mask.codeLines file.content
    code.zipIdx.flatMap (checkLine file code)

/-- Judge a catch clause: its block holds no construct but comments. -/
def checkClause (file : SourceFile) (focus : Focus) : Option (List Issue) := do
  let body ← focus.node.child? "body"
  if body.namedChildren.all fun child => child.kind == "comment" then
    return [finding file (focus.node.line file.content)]
  else return []

/-- Catch blocks must not be empty, by the syntax tree. -/
def treeRule : TreeRule where
  info := ⟨"empty-catch-blocks-ast", "BCS003", "Flags empty catch blocks", .error⟩
  check := TreeRule.checkEach "catch_clause" checkClause

end PatchLint.EmptyCatch

import PatchLint.Issue
import PatchLint.SyntaxTree.Basic

/-!
# Rules

A rule has a name, a code and a description, and looks at one file at a time.
A text rule sees the text alone; a tree rule also sees the syntax tree. Rules
do not depend on each other.
-/

namespace PatchLint

/-- What a rule is called and what it says about itself. -/
structure RuleInfo where
  /-- The name by which the rule is configured. -/
  name : String
  /-- The code of its main finding. -/
  code : String
  /-- What the rule is about, in words. -/
  description : String
  /-- The severity of its findings. -/
  severity : Severity
deriving DecidableEq, Repr

/-- A rule that reads the text of a file. -/
structure TextRule where
  /-- How the rule presents itself. -/
  info : RuleInfo
  /-- The issues of a file. -/
  check : SourceFile → List Issue

/-- A rule that reads the syntax tree of a file. -/
structure TreeRule where
  /-- How the rule presents itself. -/
  info : RuleInfo
  /-- The issues of a file with this tree. -/
  check : SourceFile → Node → List Issue

/-- A tree rule that judges each node of one kind on its own, in document order.
A node that cannot be read is passed over. -/
def TreeRule.checkEach (kind : String) (judge : SourceFile → Focus → Option (List Issue))
    (file : SourceFile) (tree : Node) : List Issue :=
  ((Focus.root tree).descendantsOfKind kind).flatMap fun focus =>
    (judge file focus).getD []

end PatchLint

import PatchLint.Rule.Basic
import PatchLint.Source.Mask
import PatchLint.Source.Method
import PatchLint.SyntaxTree.Declaration

/-!
# Long methods

The length of a method in lines. The text rule counts from the line of the
declaration to the end of the block, the tree rule from the line of the name to
the end of the declaration.
-/

namespace PatchLint.LongMethod

/-- The finding about a method that is too long. -/
def finding (file : SourceFile) (line : Nat) (name : Text) (length limit : Nat) : Issue :=
  file.issue line .warning "BCW011"
    ("Method '" ++ String.ofList name ++ "' is too long (" ++ toString length ++ " lines > " ++
      toString limit ++ ") - consider breaking it down")

/-- Methods must not be too long, as far as the masked text shows. -/
def textRule (limit : Nat) : TextRule where
  info := ⟨"long-methods", "BCW011", "Flags methods that are too long", .warning⟩
  check file :=
    ((methodSpans (Mask.codeLines file.content)).filter fun span => limit < span.lineCount).map
      fun span => finding file (span.firstLine + 1) span.name span.lineCount limit

/-- The number of lines from line `first` to the end of a method. A method that
ended before that line would have no length. In a tree whose nodes lie inside of
their parents no method ends before its own name. -/
def length (method : Node) (source : Text) (first : Nat) : Nat :=
  source.lineAt method.stop + 1 - first

/-- Judge a method declaration. Only a method with a body has a length. -/
def checkMethod (limit : Nat) (file : SourceFile) (method : Focus) : Option (List Issue) :=
  match method.node.child? "body" with
  | none => some []
  | some _ => do
    let (name, line) ← method.node.declaredName? file.content
    let lines := length method.node file.content line
    if lines ≤ limit then return [] else return [finding file line name lines limit]

/-- Methods must not be too long, by the syntax tree. -/
def treeRule (limit : Nat) : TreeRule where
  info := ⟨"long-methods-ast", "BCW011", "Limits method length", .warning⟩
  check := TreeRule.checkEach "method_declaration" (checkMethod limit)

end PatchLint.LongMethod

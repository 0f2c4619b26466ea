import PatchLint.Rule.Basic
import PatchLint.Source.Mask
import PatchLint.Source.Method
import PatchLint.SyntaxTree.Declaration

/-!
# Cyclomatic complexity

One more than the number of places at which a method branches. The text rule
counts keywords and operators of masked lines; the tree rule counts nodes.
-/

namespace PatchLint.Complexity

/-- The finding about a method that is too complex. -/
def finding (file : SourceFile) (line : Nat) (name : Text) (complexity : Nat) : Issue :=
  file.issue line .warning "BCW040"
    ("Method '" ++ String.ofList name ++ "' has high cyclomatic complexity (" ++
      toString complexity ++ ") - consider refactoring")

/-! ## The text rule -/

/-- The keywords at which a method branches. -/
def branchWords : List String :=
  ["if", "while", "for", "foreach", "do", "case", "catch"]

/-- The number of question marks with a blank on both sides. -/
def ternaries : Text → Nat
  | left :: mark :: right :: rest =>
    (if mark = '?' ∧ isBlank left ∧ isBlank right then 1 else 0) +
      ternaries (mark :: right :: rest)
  | _ => 0

/-- The number of places at which a masked line branches. -/
def decisionPoints (line : Text) : Nat :=
  line.words.countP (fun word => branchWords.any fun branch => branch.toList == word) +
    (line.occurrences "&&" + line.occurrences "||") + ternaries line

/-- The complexity of the masked lines of a method. -/
def ofLines (lines : List Text) : Nat :=
  lines.foldr (fun line points => decisionPoints line + points) 1

/-- The complexity of a method in masked lines. -/
def ofSpan (code : List Text) (span : MethodSpan) : Nat :=
  ofLines ((code.drop span.firstLine).take span.lineCount)

/-- Methods must not be too complex, as far as the masked text shows. -/
def textRule (limit : Nat) : TextRule where
  info := ⟨"cyclomatic-complexity", "BCW040", "Flags methods with high cyclomatic complexity",
    .warning⟩
  check file :=
    let code := Mask.codeLines file.content
    (methodSpans code).filterMap fun span =>
      if limit < ofSpan code span then
        some (finding file (span.firstLine + 1) span.name (ofSpan code span))
      else none

/-! ## The tree rule -/

/-- The kinds of nodes at which a method branches. -/
def branchKinds : List String :=
  ["if_statement", "while_statement", "for_statement", "foreach_statement", "do_statement",
    "catch_clause", "conditional_expression", "case_switch_label", "case_pattern_switch_label",
    "default_switch_label"]

/-- A method branches at this node: at a branching construct, at the label of a
section of a switch, and at a logical operator. -/
def isBranch (focus : Focus) : Bool :=
  if branchKinds.contains focus.node.kind then true
  else if focus.node.kind == "case" || focus.node.kind == "default" then
    focus.parent?.any fun parent => parent.kind == "switch_section"
  else
    focus.node.kind == "binary_expression" &&
      (focus.node.child? "operator").any fun operator =>
        operator.kind == "&&" || operator.kind == "||"

/-- The complexity of a method: the branches below it, and one. -/
def ofMethod (method : Focus) : Nat :=
  1 + (method.descendants.drop 1).countP isBranch

/-- Judge a method declaration. -/
def checkMethod (limit : Nat) (file : SourceFile) (method : Focus) : Option (List Issue) :=
  if ofMethod method ≤ limit then some []
  else do
    let (name, line) ← method.node.declaredName? file.content
    return [finding file line name (ofMethod method)]

/-- Methods must not be too complex, by the syntax tree. -/
def treeRule (limit : Nat) : TreeRule where
  info := ⟨"cyclomatic-complexity-ast", "BCW040", "Limits method cyclomatic complexity", .warning⟩
  check := TreeRule.checkEach "method_declaration" (checkMethod limit)

end PatchLint.Complexity

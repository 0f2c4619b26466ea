import PatchLint.Rule.Basic
import PatchLint.Source.Line
import PatchLint.Source.Mask
import PatchLint.SyntaxTree.Declaration

/-!
# Nesting

How deep constructs stand inside of each other. The text rule measures the
indentation of lines that open a block; the tree rule counts the constructs on
the way from the body of a method to its innermost one.
-/

namespace PatchLint.Nesting

/-- The finding about nesting that is too deep. -/
def finding (file : SourceFile) (line level limit : Nat) : Issue :=
  file.issue line .warning "BCW010"
    ("Excessive nesting level (" ++ toString level ++ " > " ++ toString limit ++
      ") - consider refactoring")

/-! ## The text rule -/

/-- The number of columns that a tab stands for. -/
def tabWidth : Nat := 4

/-- The number of columns of one level. -/
def levelWidth : Nat := 4

/-- The columns of the blanks at the start of a line. -/
def indentColumns (line : Text) : Nat :=
  let width (c : Char) : Nat := if c = '\t' then tabWidth else 1
  (line.takeWhile isBlank).foldr (fun c columns => width c + columns) 0

/-- The level of a line by its indentation. -/
def level (line : Text) : Nat :=
  indentColumns line / levelWidth

/-- Judge a line that is numbered from one, given also as masked. -/
def checkLine (limit : Nat) (file : SourceFile) (line : (Text × Text) × Nat) : Option Issue :=
  let (source, masked) := line.1
  if source.trim.isEmpty || Line.isComment source || !masked.contains '{' then none
  else if limit < level source then some (finding file line.2 (level source) limit)
  else none

/-- Blocks must not be indented too deeply. -/
def textRule (limit : Nat) : TextRule where
  info := ⟨"excessive-nesting", "BCW010", "Flags excessive indentation nesting", .warning⟩
  check file :=
    ((file.lines.zip (Mask.codeLines file.content)).zipIdx 1).filterMap (checkLine limit file)

/-! ## The tree rule -/

/-- The kinds of constructs that open a level. -/
def levelKinds : List String :=
  ["if_statement", "while_statement", "for_statement", "foreach_statement", "do_statement",
    "switch_statement", "switch_section", "try_statement", "using_statement", "lock_statement",
    "fixed_statement"]

/-- A construct opens a level by its kind, unless it is the `if` of an
`else if`: the first alternative of another `if`. -/
def opensLevel (parentKind : String) (alternativeSeen : Bool) (child : Node) : Bool :=
  levelKinds.contains child.kind &&
    !(child.kind == "if_statement" && parentKind == "if_statement" && !alternativeSeen &&
      child.field? == some "alternative")

mutual

/-- The deepest level below a node that is entered at level `depth`. -/
def maxDepth (depth : Nat) : Node → Nat
  | ⟨kind, _, _, _, _, children⟩ => maxDepthAll kind false depth children

/-- The deepest level at or below the children that are still to be looked at,
of a parent of the given kind. `alternativeSeen` says that an alternative has
come before them. -/
def maxDepthAll (parentKind : String) (alternativeSeen : Bool) (depth : Nat) : List Node → Nat
  | [] => depth
  | child :: rest =>
    let seen := alternativeSeen || child.field? == some "alternative"
    let others := maxDepthAll parentKind seen depth rest
    if child.named then
      let inner := if opensLevel parentKind alternativeSeen child then depth + 1 else depth
      max (maxDepth inner child) others
    else others

end

/-- Judge a method declaration. -/
def checkMethod (limit : Nat) (file : SourceFile) (method : Focus) : Option (List Issue) :=
  match method.node.child? "body" with
  | none => some []
  | some body =>
    if maxDepth 0 body ≤ limit then some []
    else do
      let (_, line) ← method.node.declaredName? file.content
      return [finding file line (maxDepth 0 body) limit]

/-- Constructs must not be nested too deeply. -/
def treeRule (limit : Nat) : TreeRule where
  info := ⟨"excessive-nesting-ast", "BCW010", "Limits control-flow nesting depth", .warning⟩
  check := TreeRule.checkEach "method_declaration" (checkMethod limit)

end PatchLint.Nesting

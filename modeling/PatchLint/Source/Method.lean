import PatchLint.Source.Block
import PatchLint.Source.Declaration

/-!
# Methods in masked lines

Where methods start and end, as far as masked text shows: a line that looks
like the declaration of a method, followed by a block. A method takes all lines
up to the end of its block, so methods never overlap.
-/

namespace PatchLint

/-- A method in masked lines, which are counted from zero. -/
structure MethodSpan where
  /-- The name of the method. -/
  name : Text
  /-- The line of its declaration. -/
  firstLine : Nat
  /-- The line on which its block ends. -/
  lastLine : Nat
deriving DecidableEq, Repr

namespace MethodSpan

/-- The number of lines of a method. -/
def lineCount (span : MethodSpan) : Nat :=
  span.lastLine - span.firstLine + 1

/-- What follows a modifier at this cut, when one stands there on its own. -/
def afterModifier? (cut : Text.Cut) : Option Text :=
  if cut.startsRun then
    Declaration.memberModifiers.findSome? fun modifier =>
      (Text.after? modifier.toList cut.after).filter Text.endsRun
  else none

/-- A blank, a word, and parentheses that are closed on the line follow. -/
def startsParameters (text : Text) : Bool :=
  text.head?.any isBlank &&
    let name := text.trimStart
    name.head?.any isLetter &&
      match Text.trimStart (name.dropWhile isLetter) with
      | '(' :: parameters => parameters.contains ')'
      | _ => false

/-- The line holds a modifier and, after it, a name with parameters. What follows
a later modifier follows the first one too. -/
def hasMethodShape (line : Text) : Bool :=
  (line.cuts.findSome? afterModifier?).any fun rest =>
    rest.cuts.any fun cut => startsParameters cut.after

/-- The line declares a method. -/
def isDeclaration (line : Text) : Bool :=
  hasMethodShape line && !Declaration.isInitializerHead (Text.before '(' line)

/-- The method that is declared on a line. -/
def declaredAt? (code : List Text) (number : Nat) (line : Text) : Option MethodSpan :=
  if isDeclaration line then
    (blockSpan? code number 0).map fun block =>
      ⟨(Declaration.methodName? line).getD "unknown".toList, number, block.closeLine⟩
  else none

/-- The methods that are declared on the lines from `number` on, but not before
line `resume`. -/
def spansFrom (code : List Text) (number resume : Nat) : List Text → List MethodSpan
  | [] => []
  | line :: rest =>
    if number < resume then spansFrom code (number + 1) resume rest
    else
      match declaredAt? code number line with
      | some span => span :: spansFrom code (number + 1) (span.lastLine + 1) rest
      | none => spansFrom code (number + 1) resume rest

end MethodSpan

/-- The methods of masked lines, in order. -/
def methodSpans (code : List Text) : List MethodSpan :=
  MethodSpan.spansFrom code 0 0 code

end PatchLint

import PatchLint.Literal
import PatchLint.Rule.Basic
import PatchLint.Source.GuidContext
import PatchLint.Source.Line
import PatchLint.SyntaxTree.Declaration
import PatchLint.Text.Digit
import PatchLint.Text.Words

/-!
# Magic numbers

A number in the middle of code should be a named constant, unless it is a
common one, defines a constant, or belongs to an identifier of an assembly. The
text rule looks at runs of at least three digits; the tree rule looks at the
values of literals.
-/

namespace PatchLint.MagicNumber

/-- The finding about a number. -/
def finding (file : SourceFile) (line : Nat) (shown : String) : Issue :=
  file.issue line .warning "BCW012"
    ("Magic number '" ++ shown ++ "' - consider using a named constant")

/-! ## The text rule -/

/-- A number in a line. -/
structure Occurrence where
  /-- The byte at which the number starts. -/
  start : Nat
  /-- The digits, in any script. -/
  digits : Text
deriving DecidableEq, Repr

/-- The number that starts at a cut: a whole run of letters that are all digits,
at least three of them. -/
def numberAt? (cut : Text.Cut) : Option Occurrence :=
  let run := cut.after.takeWhile isLetter
  if cut.startsRun && 3 ≤ run.length && run.all isDigit then some ⟨cut.offset, run⟩ else none

/-- The numbers of a line, from left to right. -/
def numbers (line : Text) : List Occurrence :=
  line.cuts.filterMap numberAt?

/-- The values that the text rule never reports. -/
def acceptableInText : List Int :=
  [0, 1, 2, -1, 100, 1000]

/-- What a finding shows of a number: its value, or its digits if they have no
value of 128 bits in ASCII. There is nothing to show if the value is common. -/
def shown? (digits : Text) : Option String :=
  match Literal.readSigned? 10 digits with
  | some value => if acceptableInText.contains value then none else some (toString value)
  | none => some (String.ofList digits)

/-- The finding about a number in a line, if there is one. -/
def checkNumber (file : SourceFile) (line : Text × Nat) (number : Occurrence) : Option Issue := do
  let shown ← shown? number.digits
  if inGuidContext line.1 number.start (number.start + Text.byteSize number.digits) then none
  else some (finding file line.2 shown)

/-- The findings on a line, numbered from one. -/
def checkLine (file : SourceFile) (line : Text × Nat) : List Issue :=
  if Line.isComment line.1 || line.1.hasWord "const".toList then []
  else (numbers line.1).filterMap (checkNumber file line)

/-- Numbers should be named, as far as the text shows them. -/
def textRule : TextRule where
  info := ⟨"magic-numbers", "BCW012", "Flags magic numbers that should be named constants",
    .warning⟩
  check file := file.numberedLines.flatMap (checkLine file)

/-! ## The tree rule -/

/-- The integers that the tree rule never reports. -/
def acceptableIntegers : List Int :=
  [0, 1, 2, -1, 100, 1000, 25, 60, 1024]

/-- An integer that should have a name. -/
def isMagicInteger (value : Int) : Bool :=
  100 ≤ value.natAbs && !acceptableIntegers.contains value

/-- The reals that the tree rule never reports. -/
def acceptableReals : List Literal.Decimal.Fraction :=
  [⟨1, 2⟩, ⟨1, 4⟩, ⟨3, 4⟩, ⟨3, 2⟩, ⟨5, 2⟩]

/-- Two fractions differ by less than a thousand millionth. -/
def isClose (left right : Literal.Decimal.Fraction) : Bool :=
  ((left.numerator * right.denominator : Nat) - (right.numerator * left.denominator : Nat) : Int).natAbs
    * Nat.pow 10 9 < left.denominator * right.denominator

/-- A real that should have a name: whatever its sign, its nearest binary number
is at least one, and the number is not close to a common one. Numbers that are
far from one are settled by their magnitude. All common numbers are above zero. -/
def isMagicReal : Literal.RealValue → Bool
  | .undefined => false
  | .infinite _ => true
  | .decimal negative size =>
    if size.digits = 0 ∨ size.magnitude < 0 then false
    else if 2 ≤ size.magnitude then true
    else
      let nearest := size.toFraction.nearest
      nearest.denominator ≤ nearest.numerator &&
        (negative || !acceptableReals.any (isClose nearest))

/-- What a finding shows of a literal that should have a name. There is nothing
to show if the literal is common or cannot be read. -/
def shownLiteral? (kind : String) (literal : Text) : Option String := do
  if kind == "integer_literal" then
    let value ← Literal.readInteger? literal
    if isMagicInteger value then some (toString value) else none
  else
    let value ← Literal.readReal? literal
    if isMagicReal value then some (String.ofList literal) else none

/-- The range of a literal on the line on which it starts, in bytes. -/
def columns (source line : Text) (literal : Node) : Nat × Nat :=
  (source.columnAt literal.start,
    if source.lineAt literal.stop = source.lineAt literal.start then source.columnAt literal.stop
    else line.byteSize)

/-- The finding about a literal, if there is one. -/
def checkLiteral (file : SourceFile) (focus : Focus) : Option Issue := do
  let literal ← focus.node.text? file.content
  let shown ← shownLiteral? focus.node.kind literal
  let number := focus.node.line file.content
  let line := (file.line? number).getD []
  let (start, stop) := columns file.content line focus.node
  if focus.inConstDeclaration file.content || inGuidContext line start stop then none
  else some (finding file number shown)

/-- The node is a numeric literal. -/
def isLiteral (node : Node) : Bool :=
  node.kind == "integer_literal" || node.kind == "real_literal"

/-- Numbers should be named, by the values of literals. -/
def treeRule : TreeRule where
  info := ⟨"magic-numbers-ast", "BCW012",
    "Flags numeric literals that should be named constants", .warning⟩
  check file tree :=
    ((Focus.root tree).descendants.filter fun focus => isLiteral focus.node).filterMap
      (checkLiteral file)

end PatchLint.MagicNumber

import PatchLint.Rule.Basic
import PatchLint.Source.Block
import PatchLint.Source.Line
import PatchLint.Source.Mask
import PatchLint.Text.Words

/-!
# String concatenation

Two rules about strings that are put together with `+`: on a single line, where
interpolation says the same, and in the body of a loop, where every round copies
the string.
-/

namespace PatchLint.Concatenation

/-- What follows a run of letters at the start of a text, blanks around it
dropped. -/
def afterOperand? (text : Text) : Option Text :=
  let operand := text.trimStart
  if operand.head?.any isLetter then some (Text.trimStart (operand.dropWhile isLetter)) else none

/-- What follows a plus sign, with blanks dropped in front of it. -/
def afterPlus? (text : Text) : Option Text :=
  Text.after? ['+'] text.trimStart

/-- A quote comes first, with blanks dropped in front of it. -/
def startsQuote (text : Text) : Bool :=
  text.trimStart.head? == some '"'

/-! ## On a line -/

/-- A word between two plus signs and a string follow: `+ word + "`. -/
def joinsString (afterQuote : Text) : Bool :=
  (afterPlus? afterQuote >>= afterOperand? >>= afterPlus?).any startsQuote

/-- The end of a string of one word and a word after a plus sign follow:
`word" + word`. -/
def joinsWord (afterQuote : Text) : Bool :=
  match afterQuote.dropWhile isLetter with
  | '"' :: rest => (afterPlus? rest >>= afterOperand?).isSome
  | _ => false

/-- A string is put together at this cut. -/
def concatenatesAt (cut : Text.Cut) : Bool :=
  match cut.after with
  | '"' :: rest => joinsString rest || joinsWord rest
  | _ => false

/-- The finding on a line, numbered from one, if there is one. -/
def checkLine (file : SourceFile) (line : Text × Nat) : Option Issue :=
  if !Line.isComment line.1 && line.1.cuts.any concatenatesAt then
    some (file.issue line.2 .warning "BCW021"
      "Consider using string interpolation ($\"...\") instead of concatenation")
  else none

/-- Strings should be interpolated and not put together. -/
def lineRule : TextRule where
  info := ⟨"string-interpolation", "BCW021",
    "Suggests string interpolation instead of concatenation", .warning⟩
  check file := file.numberedLines.filterMap (checkLine file)

/-! ## In a loop -/

/-- The keywords that open a loop with a condition. -/
def loopKeywords : List String :=
  ["for", "foreach", "while"]

/-- What follows the matching parenthesis, inside of `depth` further pairs. -/
def afterClosing? (depth : Nat) : Text → Option Text
  | [] => none
  | c :: rest =>
    if c = '(' then afterClosing? (depth + 1) rest
    else if c = ')' then
      match depth with
      | 0 => some rest
      | outer + 1 => afterClosing? outer rest
    else afterClosing? depth rest

/-- The head of a loop. -/
structure LoopHead where
  /-- The byte at which the keyword starts. -/
  column : Nat
  /-- What follows the condition, if it is closed on the line. -/
  rest? : Option Text
deriving DecidableEq, Repr

/-- The head of a loop at this cut: a keyword at the start of a word, and a
parenthesis. -/
def loopHead? (cut : Text.Cut) : Option LoopHead :=
  if cut.startsRun then
    loopKeywords.findSome? fun keyword =>
      match (Text.after? keyword.toList cut.after).map Text.trimStart with
      | some ('(' :: condition) => some ⟨cut.offset, afterClosing? 0 condition⟩
      | _ => none
  else none

/-- The heads of the loops on a masked line, from left to right. -/
def loopHeads (line : Text) : List LoopHead :=
  line.cuts.filterMap loopHead?

/-- The number of the first line that is not blank, from `number` on. -/
def firstFilled? (number : Nat) : List Text → Option Nat
  | [] => none
  | line :: rest => if line.isBlankText then firstFilled? (number + 1) rest else some number

/-- The lines of the body of a loop, counted from zero: its block, or the
statement behind the condition on the line itself or on the next line that is
not blank. -/
def bodyLines (code : List Text) (number : Nat) (head : LoopHead) : List Nat :=
  match blockSpan? code number head.column with
  | some span => List.range' span.openLine (span.closeLine + 1 - span.openLine)
  | none =>
    if (head.rest?.getD []).isBlankText then
      (firstFilled? (number + 1) (code.drop (number + 1))).toList
    else [number]

/-- The line may append to a string, in one of the ways in which it is usually
written. -/
def appendsAt (cut : Text.Cut) : Bool :=
  (match cut.after with
    | '"' :: rest => (afterPlus? rest).isSome
    | _ => false) ||
  ((Text.after? "string".toList cut.after).bind afterPlus?).isSome ||
  (cut.before.head?.any isLetter &&
    match Text.after? "+=".toList cut.after.trimStart with
    | some rest => startsQuote rest || (afterOperand? rest >>= afterPlus?).any startsQuote
    | none => false)

/-- The line appends to a string: it adds in place, and it mentions strings. -/
def appends (source masked : Text) : Bool :=
  masked.mentions "+=" && (source.lower.mentions "string" || source.cuts.any appendsAt)

/-- The part of a body line that belongs to the body. Of the line of the head
this is what follows the condition. -/
def bodyPart (code : List Text) (number : Nat) (head : LoopHead) (bodyLine : Nat) : Text :=
  if bodyLine = number then head.rest?.getD [] else code[bodyLine]?.getD []

/-- The loop whose head is on line `number` appends to a string on the line
`bodyLine`. -/
def appendsOn (file : SourceFile) (code : List Text) (number : Nat) (head : LoopHead)
    (bodyLine : Nat) : Bool :=
  let source := (file.line? (bodyLine + 1)).getD []
  !Line.isComment source && appends source (bodyPart code number head bodyLine)

/-- The lines on which the loops of a masked line append to a string. -/
def appendingLines (file : SourceFile) (code : List Text) (line : Text × Nat) : List Nat :=
  (loopHeads line.1).flatMap fun head =>
    (bodyLines code line.2 head).filter (appendsOn file code line.2 head)

/-- Strings must not be appended to in a loop. Each line is reported once. -/
def loopRule : TextRule where
  info := ⟨"string-in-loops", "BCW025", "Flags string concatenation in loops", .warning⟩
  check file :=
    let code := Mask.codeLines file.content
    let appending := code.zipIdx.flatMap (appendingLines file code)
    ((List.range code.length).filter appending.contains).map fun number =>
      file.issue (number + 1) .warning "BCW025"
        "String concatenation in loop - consider using StringBuilder"

end PatchLint.Concatenation

import PatchLint.Rule.Basic
import PatchLint.Source.Line
import PatchLint.Text.Words

/-!
# Null guards

A test against `null` in front of a member access on the same name, which the
null-conditional operator would say shorter.
-/

namespace PatchLint.NullGuard

/-- A test of a name in front of a member access. -/
structure Guard where
  /-- The name that is tested. -/
  tested : Text
  /-- The name whose member is used. -/
  used : Text
  /-- What follows the member. -/
  rest : Text
deriving DecidableEq, Repr

/-- Read a guard whose tested name has been read: `!= null && used.member`. -/
def guard? (tested afterTested : Text) : Option Guard := do
  let afterUnequal ← Text.after? "!=".toList (Text.trimStart afterTested)
  let afterNull ← Text.after? "null".toList (Text.trimStart afterUnequal)
  let afterAnd ← Text.after? "&&".toList (Text.trimStart afterNull)
  let operand := Text.trimStart afterAnd
  let used := operand.takeWhile isLetter
  let member ← Text.after? ".".toList (operand.dropWhile isLetter)
  if used.isEmpty || !member.head?.any isLetter then none
  else some ⟨tested, used, member.dropWhile isLetter⟩

/-- Look for guards from the left, and behind each one for the next. Only a
guard whose two names agree counts. The first `skip` characters have been dealt
with. -/
def search (skip : Nat) : Text → Bool
  | [] => false
  | c :: rest =>
    if 0 < skip then search (skip - 1) rest
    else if isLetter c then
      let name := rest.takeWhile isLetter
      match guard? (c :: name) (rest.dropWhile isLetter) with
      | some guard =>
        guard.tested == guard.used || search (rest.length - guard.rest.length) rest
      | none => search name.length rest
    else search 0 rest

/-- The line guards a member access by a test of the same name. -/
def hasGuard (line : Text) : Bool :=
  search 0 line

/-- The finding on a line, numbered from one, if there is one. -/
def checkLine (file : SourceFile) (line : Text × Nat) : Option Issue :=
  if !Line.isComment line.1 && hasGuard line.1 then
    some (file.issue line.2 .warning "BCW022"
      "Consider using null-conditional operator (?.) instead of explicit null check")
  else none

/-- Null guards should be null-conditional accesses. -/
def textRule : TextRule where
  info := ⟨"null-checks", "BCW022",
    "Suggests the null-conditional operator over explicit null checks", .warning⟩
  check file := file.numberedLines.filterMap (checkLine file)

end PatchLint.NullGuard

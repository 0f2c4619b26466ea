import PatchLint.Rule.Basic
import PatchLint.Source.Line
import PatchLint.Text.Words

/-!
# Queries

Two ways of asking a collection that cost more than they have to: counting it
to see that it is not empty, and copying it twice on one line.
-/

namespace PatchLint.Linq

/-- The count of a collection is compared with zero at this cut:
`.Count() > 0`. -/
def countsAt (cut : Text.Cut) : Bool :=
  ((Text.after? ".Count()".toList cut.after).bind fun afterCount =>
    (Text.after? ">".toList afterCount.trimStart).bind fun afterGreater =>
      Text.after? "0".toList afterGreater.trimStart).any Text.endsRun

/-- The line counts a collection to see that it is not empty. -/
def countsToTest (line : Text) : Bool :=
  line.cuts.any countsAt

/-- The findings on a line, numbered from one. -/
def checkLine (file : SourceFile) (line : Text × Nat) : List Issue :=
  if Line.isComment line.1 then []
  else
    (if countsToTest line.1 then
      [file.issue line.2 .warning "BCW026"
        "Use Any() instead of Count() > 0 for better performance"]
    else []) ++
    (if 1 < line.1.occurrences ".ToList()" then
      [file.issue line.2 .warning "BCW027"
        "Multiple ToList() calls may cause multiple enumerations"]
    else [])

/-- Queries should not cost more than they have to. -/
def textRule : TextRule where
  info := ⟨"linq-performance", "BCW026", "Flags inefficient LINQ usage", .warning⟩
  check file := file.numberedLines.flatMap (checkLine file)

end PatchLint.Linq

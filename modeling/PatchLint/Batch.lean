import PatchLint.Checker
import PatchLint.FileSystem

/-!
# Checking many files

A run checks each file once, in the order of the paths. Spellings of one path
count as one file, under the spelling that was listed first. A file that cannot
be read gives an error in its place.
-/

namespace PatchLint

/-- The issue about a file that cannot be read. -/
def Checker.unreadable (checker : Checker) (path : Text) (error : FileError) : CheckResult :=
  ⟨"file-read-error",
    [.atLine (String.ofList (Path.display checker.root path)) 1 .error "BCS999"
      ("Failed to read file: " ++ error.message)]⟩

/-- The results for the file under a path. -/
def Checker.analyze (checker : Checker) (read : Text → Except FileError Text) (path : Text) :
    List CheckResult :=
  match read path with
  | .ok content => checker.analyzeSource path content
  | .error error => [checker.unreadable path error]

namespace Batch

/-- Leave out paths that spell the path before them in another way. -/
def dropRepeats : Text → List Text → List Text
  | _, [] => []
  | last, path :: rest =>
    if Path.same last path then dropRepeats last rest else path :: dropRepeats path rest

/-- Each path once, in order, under its first spelling. -/
def distinct (paths : List Text) : List Text :=
  match paths.mergeSort Path.le with
  | [] => []
  | first :: rest => first :: dropRepeats first rest

/-- Check the next file. It counts as checked also when it cannot be read. -/
def checkNext (checker : Checker) (read : Text → Except FileError Text) (result : LintResult)
    (path : Text) : LintResult :=
  let result := result.addChecks (checker.analyze read path)
  { result with filesChecked := result.filesChecked + 1 }

/-- Check the files under the given paths. -/
def run (checker : Checker) (read : Text → Except FileError Text) (paths : List Text) :
    LintResult :=
  (distinct paths).foldl (checkNext checker read) { parsingMethod := checker.parsingMethod }

end Batch

end PatchLint

import PatchLint.Calendar
import PatchLint.Config.Basic

/-!
# Reports

The report of a run: the warnings, the errors, a summary, whether the build may
go on, and how the files were read. A result file holds the same report under a
header that says when it was written.
-/

namespace PatchLint.Report

/-- Whether the build may go on, in words. -/
def status (result : LintResult) : String :=
  match result.countBySeverity with
  | (0, 0) => "BUILD STATUS: PASSED (no issues)"
  | (0, _) => "BUILD STATUS: PASSED (warnings only)"
  | _ => "BUILD STATUS: FAILED (errors found)"

/-- A character repeated. -/
def ruler (c : Char) (width : Nat) : String :=
  String.ofList (List.replicate width c)

/-- The lines about issues of one severity. There are none without issues. -/
def block (title : String) (issues : List Issue) : List String :=
  if issues.isEmpty then []
  else [title ++ ":", ruler '-' 40] ++ issues.map Issue.display ++ [""]

/-- The line that counts errors, warnings and files. -/
def summary (errors warnings files : Nat) : String :=
  "Code check completed: " ++ toString errors ++ " error(s), " ++ toString warnings ++
    " warning(s) found in " ++ toString files ++ " files."

/-- The lines of a report. -/
def lines (result : LintResult) : List String :=
  block "WARNINGS" result.warnings ++ block "ERRORS" result.errors ++
    [summary result.errors.length result.warnings.length result.filesChecked, status result,
      "PARSING METHOD: " ++ result.parsingMethod]

/-- The text of a report. -/
def render (result : LintResult) : String :=
  "\n".intercalate (lines result)

/-- The name of the result file of a point in time. -/
def fileName (stem : Text) (now : Timestamp) : Text :=
  stem ++ '_' :: now.compact ++ ".txt".toList

/-- The text of a result file. -/
def renderFile (toolName : String) (result : LintResult) (now : Timestamp) : String :=
  "\n".intercalate
    ([toolName ++ " Code Quality Check Results",
      "Generated: " ++ String.ofList now.readable,
      "Parsing Method: " ++ result.parsingMethod,
      ruler '=' 60,
      "",
      render result])

end PatchLint.Report

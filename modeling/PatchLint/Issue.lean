import PatchLint.Source.File

/-!
# Issues

What a check reports. An issue is an error or a warning at a line of a file; a
check gathers its issues under its name, and a whole run gathers the issues of
all checks. Only errors fail a run.
-/

namespace PatchLint

/-- How serious an issue is. -/
inductive Severity where
  /-- Advice that never fails a run. -/
  | warning
  /-- A defect that fails a run. -/
  | error
deriving DecidableEq, Repr

namespace Severity

/-- The word for a severity. -/
def label : Severity → String
  | .warning => "warning"
  | .error => "error"

/-- The severity that a word stands for. -/
def ofLabel? (label : String) : Option Severity :=
  if label = "warning" then some .warning
  else if label = "error" then some .error
  else none

end Severity

/-- A single finding. -/
structure Issue where
  /-- The path of the file, as it is shown. -/
  filePath : String
  /-- The number of the line, counted from one. -/
  line : Nat
  /-- How serious the finding is. -/
  severity : Severity
  /-- The code of the rule. -/
  code : String
  /-- What was found, in words. -/
  description : String
deriving DecidableEq, Repr

namespace Issue

/-- An issue at a line; a line number of zero stands for the first line. -/
def atLine (filePath : String) (line : Nat) (severity : Severity)
    (code description : String) : Issue :=
  ⟨filePath, max line 1, severity, code, description⟩

/-- The same finding with another severity. -/
def withSeverity (issue : Issue) (severity : Severity) : Issue :=
  { issue with severity := severity }

/-- The issue is an error. -/
def isError (issue : Issue) : Bool :=
  issue.severity = .error

/-- The issue on one line, the way compilers write it. -/
def display (issue : Issue) : String :=
  issue.filePath ++ "(" ++ toString issue.line ++ "): " ++ issue.severity.label ++ " " ++
    issue.code ++ ": " ++ issue.description

end Issue

/-- An issue in a source file. -/
def SourceFile.issue (file : SourceFile) (line : Nat) (severity : Severity)
    (code description : String) : Issue :=
  .atLine (String.ofList file.shownPath) line severity code description

/-- The issues that one check found in one file. -/
structure CheckResult where
  /-- The name of the check. -/
  checkName : String
  /-- The issues, in the order of their discovery. -/
  issues : List Issue
deriving DecidableEq, Repr

namespace CheckResult

/-- The errors among the issues. -/
def errors (result : CheckResult) : List Issue :=
  result.issues.filter Issue.isError

/-- The warnings among the issues. -/
def warnings (result : CheckResult) : List Issue :=
  result.issues.filter fun issue => !issue.isError

end CheckResult

/-- What a whole run found. -/
structure LintResult where
  /-- All issues, file by file and check by check. -/
  issues : List Issue := []
  /-- The number of files that were checked. -/
  filesChecked : Nat := 0
  /-- How the files were read, in words. -/
  parsingMethod : String := ""
deriving DecidableEq, Repr

namespace LintResult

/-- Add the issues of further checks. -/
def addChecks (result : LintResult) (checks : List CheckResult) : LintResult :=
  { result with issues := result.issues ++ checks.flatMap CheckResult.issues }

/-- The errors of the run. -/
def errors (result : LintResult) : List Issue :=
  result.issues.filter fun issue => issue.severity = .error

/-- The warnings of the run. -/
def warnings (result : LintResult) : List Issue :=
  result.issues.filter fun issue => issue.severity = .warning

/-- The number of errors and the number of warnings. -/
def countBySeverity (result : LintResult) : Nat × Nat :=
  let errors := result.issues.countP Issue.isError
  (errors, result.issues.length - errors)

/-- There is an error. -/
def hasErrors (result : LintResult) : Bool :=
  result.issues.any Issue.isError

/-- The run lets a build go on. -/
def passed (result : LintResult) : Bool :=
  !result.hasErrors

/-- The exit code of the run. -/
def exitCode (result : LintResult) : Nat :=
  if result.hasErrors then 1 else 0

end LintResult

end PatchLint

import PatchLint.Proofs.Text.Bytes
import PatchLint.Proofs.Text.Lines
import PatchLint.Report

/-!
# Reports can be read back

`decode?` reads a report from the front: a block of warnings and a block of errors, if there
are such blocks, and then the three lines at the end. What is said about an issue can look like
any line of a report. It does no harm: a block is recognised by the line with which it starts,
no line about an issue is empty, and the empty line ends the block.

The numbers at the end are read on their own, so that their agreement with the blocks is a fact
about the report and not about its reader.
-/

namespace PatchLint

namespace Report

/-- What can be read from a report. -/
structure Reading where
  /-- The lines about warnings. -/
  warnings : List String
  /-- The lines about errors. -/
  errors : List String
  /-- The number of errors, as the summary has it. -/
  errorCount : Nat
  /-- The number of warnings, as the summary has it. -/
  warningCount : Nat
  /-- The number of files that were checked. -/
  filesChecked : Nat
  /-- The line that says whether the build may go on. -/
  status : String
  /-- How the files were read, in words. -/
  parsingMethod : String
deriving DecidableEq, Repr

/-! ## The reader -/

/-- The lines of a report. -/
def linesOf (report : String) : List String :=
  (Text.lines report.toList).map String.ofList

/-- The lines of the block under a title, and what follows the block. -/
def readBlock (title : String) : List String → List String × List String
  | heading :: divider :: rest =>
    if heading = title ++ ":" ∧ divider = ruler '-' 40 then
      (rest.takeWhile (· != ""), (rest.dropWhile (· != "")).drop 1)
    else ([], heading :: divider :: rest)
  | rest => ([], rest)

/-- A number, and what follows it. -/
def readCount? (text : Text) : Option (Nat × Text) :=
  let digits := text.takeWhile Char.isDigit
  if digits.isEmpty then none
  else some (Nat.ofDigitChars 10 digits 0, text.dropWhile Char.isDigit)

/-- The numbers of errors, warnings and files in a summary. -/
def readSummary? (line : Text) : Option (Nat × Nat × Nat) := do
  let (errors, line) ← readCount? (← Text.after? "Code check completed: ".toList line)
  let (warnings, line) ← readCount? (← Text.after? " error(s), ".toList line)
  let (files, line) ← readCount? (← Text.after? " warning(s) found in ".toList line)
  if line = " files.".toList then some (errors, warnings, files) else none

/-- Read the lines of a report. -/
def readLines? (lines : List String) : Option Reading := do
  let (warnings, lines) := readBlock "WARNINGS" lines
  let (errors, lines) := readBlock "ERRORS" lines
  let [summary, status, method] := lines | none
  let (errorCount, warningCount, filesChecked) ← readSummary? summary.toList
  let parsingMethod ← Text.after? "PARSING METHOD: ".toList method.toList
  return ⟨warnings, errors, errorCount, warningCount, filesChecked, status,
    String.ofList parsingMethod⟩

/-- Read a report. -/
def decode? (report : String) : Option Reading :=
  readLines? (linesOf report)

/-! ## Numbers -/

/-- A number is read up to the first character that is not a digit. -/
theorem readCount?_append (number : Nat) {rest : Text} (ends : rest.takeWhile Char.isDigit = []) :
    readCount? (Nat.toDigits 10 number ++ rest) = some (number, rest) := by
  have numeric : ∀ c ∈ Nat.toDigits 10 number, c.isDigit = true := fun _ =>
    Nat.isDigit_of_mem_toDigits (by decide) (by decide)
  have taken : (Nat.toDigits 10 number ++ rest).takeWhile Char.isDigit =
      Nat.toDigits 10 number := by
    rw [List.takeWhile_append_of_pos numeric, ends, List.append_nil]
  have left : (Nat.toDigits 10 number ++ rest).dropWhile Char.isDigit = rest := by
    rw [List.dropWhile_append_of_pos numeric]
    exact List.append_cancel_left (ends ▸ List.takeWhile_append_dropWhile)
  rw [readCount?, taken, left, Nat.ofDigitChars_ten_toDigits, if_neg]
  simp

private theorem newline_not_mem_toDigits (number : Nat) :
    '\n' ∉ Nat.toDigits 10 number := fun member =>
  absurd (Nat.isDigit_of_mem_toDigits (by decide) (by decide) member) (by decide)

private theorem toList_summary (errors warnings files : Nat) :
    (summary errors warnings files).toList =
      "Code check completed: ".toList ++ (Nat.toDigits 10 errors ++
        (" error(s), ".toList ++ (Nat.toDigits 10 warnings ++
          (" warning(s) found in ".toList ++ (Nat.toDigits 10 files ++ " files.".toList))))) := by
  unfold summary
  simp only [String.toList_append, List.append_assoc, Nat.toString_eq_repr, Nat.toList_repr]

private theorem readSummary?_summary (errors warnings files : Nat) :
    readSummary? (summary errors warnings files).toList = some (errors, warnings, files) := by
  have behind (front back : Text) : Text.after? front (front ++ back) = some back :=
    Text.after?_eq_some_iff.mpr rfl
  rw [toList_summary, readSummary?]
  simp only [behind, Option.bind_eq_bind, Option.bind_some]
  rw [readCount?_append errors rfl]
  simp only [behind, Option.bind_some]
  rw [readCount?_append warnings rfl]
  simp only [behind, Option.bind_some]
  rw [readCount?_append files rfl]
  rfl

/-! ## Blocks -/

private theorem display_ne_empty (issue : Issue) : issue.display ≠ "" := by
  intro empty
  have shown := congrArg String.toList empty
  simp [Issue.display] at shown

/-- A block is read as the lines about its issues, unless something else can be taken for its
heading. -/
theorem readBlock_append (title : String) (issues : List Issue) {rest : List String}
    (noHeading : rest.head? ≠ some (title ++ ":")) :
    readBlock title (block title issues ++ rest) = (issues.map Issue.display, rest) := by
  cases issues with
  | nil =>
      match rest with
      | [] => rfl
      | [line] => rfl
      | heading :: divider :: rest =>
          have other : heading ≠ title ++ ":" := fun same => noHeading (by rw [same]; rfl)
          exact if_neg fun starts => other starts.1
  | cons issue issues =>
      -- The first empty line is the one that ends the block.
      have shown : ∀ line ∈ (issue :: issues).map Issue.display, (line != "") = true := by
        simp [display_ne_empty]
      have spelled : block title (issue :: issues) ++ rest =
          (title ++ ":") :: ruler '-' 40 ::
            ((issue :: issues).map Issue.display ++ "" :: rest) := by
        simp [block]
      rw [spelled, readBlock, if_pos ⟨rfl, rfl⟩, List.takeWhile_append_of_pos shown,
        List.dropWhile_append_of_pos shown]
      simp

/-- The lines behind the blocks. -/
def ending (result : LintResult) : List String :=
  [summary result.errors.length result.warnings.length result.filesChecked, status result,
    "PARSING METHOD: " ++ result.parsingMethod]

/-- The first of the lines behind the blocks is no heading. -/
theorem head?_ending_ne {heading : String} (other : heading.toList.head? ≠ some 'C')
    (result : LintResult) : (ending result).head? ≠ some heading := by
  intro same
  apply other
  rw [← Option.some.inj same, toList_summary]
  rfl

/-- What starts with a block starts with its heading or, if there is no issue, with what follows. -/
theorem head?_block_append (title : String) (issues : List Issue) (rest : List String) :
    (block title issues ++ rest).head? =
      if issues.isEmpty then rest.head? else some (title ++ ":") := by
  cases issues <;> rfl

/-! ## Lines -/

/-- Every text of a result is on one line. -/
structure OneLine (result : LintResult) : Prop where
  issues : ∀ issue ∈ result.issues, '\n' ∉ issue.filePath.toList ∧ '\n' ∉ issue.code.toList ∧
    '\n' ∉ issue.description.toList
  parsingMethod : '\n' ∉ result.parsingMethod.toList

variable {result : LintResult}

private theorem OneLine.display (clean : OneLine result) {issue : Issue}
    (member : issue ∈ result.issues) : '\n' ∉ issue.display.toList := by
  obtain ⟨path, code, description⟩ := clean.issues issue member
  have label : '\n' ∉ issue.severity.label.toList := by
    cases issue.severity <;> decide
  simp [Issue.display, path, code, description, label, newline_not_mem_toDigits]

private theorem newline_not_mem_block {title : String} {issues : List Issue}
    (oneLine : '\n' ∉ title.toList)
    (shown : ∀ issue ∈ issues, '\n' ∉ issue.display.toList) :
    ∀ line ∈ block title issues, '\n' ∉ line.toList := by
  intro line member
  unfold block at member
  split at member
  next => simp at member
  next =>
    simp only [List.mem_append, List.mem_cons, List.mem_map, List.not_mem_nil, or_false] at member
    rcases member with ((rfl | rfl) | ⟨issue, among, rfl⟩) | rfl
    · simpa using oneLine
    · decide
    · exact shown issue among
    · simp

private theorem OneLine.lines (clean : OneLine result) :
    ∀ line ∈ Report.lines result, '\n' ∉ line.toList := by
  have shown (severity : Severity) :
      ∀ issue ∈ result.issues.filter fun issue => issue.severity = severity,
        '\n' ∉ issue.display.toList :=
    fun issue member => clean.display (List.mem_filter.mp member).1
  intro line member
  simp only [Report.lines, List.mem_append, List.mem_cons, List.not_mem_nil, or_false] at member
  rcases member with (warning | error) | rfl | rfl | rfl
  · exact newline_not_mem_block (by decide) (shown .warning) line warning
  · exact newline_not_mem_block (by decide) (shown .error) line error
  · simp [toList_summary, newline_not_mem_toDigits]
  · unfold status
    split <;> decide
  · simpa using clean.parsingMethod

/-- The lines of a report can be told apart. -/
theorem OneLine.linesOf_render (clean : OneLine result) :
    linesOf (render result) = Report.lines result := by
  have joined : (render result).toList =
      Text.joinLines ((Report.lines result).map String.toList) :=
    String.toList_intercalate
  have some : (Report.lines result).map String.toList ≠ [] := by
    simp [Report.lines]
  rw [linesOf, joined, Text.lines_joinLines some (by simpa using clean.lines), List.map_map]
  simp [Function.comp_def]

/-- The lines of a report are read as what they say. -/
theorem readLines?_lines (result : LintResult) :
    readLines? (lines result) =
      some ⟨result.warnings.map Issue.display, result.errors.map Issue.display,
        result.errors.length, result.warnings.length, result.filesChecked, status result,
        result.parsingMethod⟩ := by
  have method : Text.after? "PARSING METHOD: ".toList
      ("PARSING METHOD: " ++ result.parsingMethod).toList = some result.parsingMethod.toList :=
    Text.after?_eq_some_iff.mpr String.toList_append
  have noWarning : (block "ERRORS" result.errors ++ ending result).head? ≠
      some ("WARNINGS" ++ ":") := by
    rw [head?_block_append]
    split
    next => exact head?_ending_ne (by decide) result
    next => decide
  have noError : (ending result).head? ≠ some ("ERRORS" ++ ":") :=
    head?_ending_ne (by decide) result
  rw [readLines?, lines, List.append_assoc, ← ending, readBlock_append _ _ noWarning]
  dsimp only
  rw [readBlock_append _ _ noError, ending]
  dsimp only
  rw [readSummary?_summary, method]
  simp

/-! ## The verdict -/

private theorem errors_eq_nil_iff : result.errors = [] ↔ result.hasErrors = false := by
  simp [LintResult.errors, LintResult.hasErrors, Issue.isError]

/-- What is no error is a warning: the pair of counts is that of the two lists. -/
theorem countBySeverity_eq (result : LintResult) :
    result.countBySeverity = (result.errors.length, result.warnings.length) := by
  have errors : result.issues.countP Issue.isError = result.errors.length := by
    rw [List.countP_eq_length_filter]
    rfl
  have warnings : (result.issues.countP fun issue => ¬ issue.isError = true) =
      result.warnings.length := by
    rw [List.countP_eq_length_filter, LintResult.warnings]
    refine congrArg List.length (List.filter_congr fun issue _ => ?_)
    cases severity : issue.severity <;> simp [Issue.isError, severity]
  have total := List.length_eq_countP_add_countP Issue.isError (l := result.issues)
  rw [errors, warnings] at total
  simp only [LintResult.countBySeverity, errors, total, Nat.add_sub_cancel_left]

/-- The status, from the two lists of issues. -/
theorem status_eq (result : LintResult) :
    status result =
      if result.errors ≠ [] then "BUILD STATUS: FAILED (errors found)"
      else if result.warnings = [] then "BUILD STATUS: PASSED (no issues)"
      else "BUILD STATUS: PASSED (warnings only)" := by
  rw [status, countBySeverity_eq]
  cases result.errors <;> cases result.warnings <;> rfl

private theorem mentions_failed_status :
    Text.mentions (status result).toList "FAILED" = true ↔ result.errors ≠ [] := by
  rw [status_eq]
  split_ifs with failed none
  · exact iff_of_true (by decide) failed
  · exact iff_of_false (by decide) failed
  · exact iff_of_false (by decide) failed

private theorem mentions_noIssues_status :
    Text.mentions (status result).toList "no issues" = true ↔
      result.warnings = [] ∧ result.errors = [] := by
  rw [status_eq]
  split_ifs with failed none
  · exact iff_of_false (by decide) fun clean => failed clean.2
  · exact iff_of_true (by decide) ⟨none, not_not.mp failed⟩
  · exact iff_of_false (by decide) fun clean => none clean.1

private theorem exitCode_eq_one_iff : result.exitCode = 1 ↔ result.errors ≠ [] := by
  rw [Ne, errors_eq_nil_iff, LintResult.exitCode]
  cases result.hasErrors <;> simp

/-- A report can be read back. If every text of a result is on one line, then the reader finds in
its report the lines about the warnings and those about the errors, in their order, the number of
files and how they were read. The summary counts these lines, the status says that the build
failed exactly if there is a line about an error, which is when the exit code is one, and that
there are no issues exactly if there is no line about any. -/
theorem decode?_render (clean : OneLine result) :
    ∃ reading, decode? (render result) = some reading ∧
      reading.warnings = result.warnings.map Issue.display ∧
      reading.errors = result.errors.map Issue.display ∧
      reading.filesChecked = result.filesChecked ∧
      reading.parsingMethod = result.parsingMethod ∧
      reading.errorCount = reading.errors.length ∧
      reading.warningCount = reading.warnings.length ∧
      (Text.mentions reading.status.toList "FAILED" = true ↔ reading.errors ≠ []) ∧
      (reading.errors ≠ [] ↔ result.exitCode = 1) ∧
      (Text.mentions reading.status.toList "no issues" = true ↔
        reading.warnings = [] ∧ reading.errors = []) := by
  refine ⟨_, (congrArg readLines? clean.linesOf_render).trans (readLines?_lines result), rfl, rfl,
    rfl, rfl, List.length_map _ |>.symm, List.length_map _ |>.symm, ?_, ?_, ?_⟩
  · rw [mentions_failed_status, Ne, Ne, List.map_eq_nil_iff]
  · rw [exitCode_eq_one_iff, Ne, Ne, List.map_eq_nil_iff]
  · rw [mentions_noIssues_status, List.map_eq_nil_iff, List.map_eq_nil_iff]

/-- A result with texts that look like the lines of a report. -/
def disguised : LintResult where
  issues := [⟨"ERRORS:", 3, .error, "WARNINGS:", "BUILD STATUS: PASSED (no issues)"⟩,
    ⟨"", 0, .warning, "", ""⟩]
  filesChecked := 12
  parsingMethod := "PARSING METHOD: "

/-- Texts that look like the lines of a report are read back like any others. -/
theorem decode?_render_disguised :
    OneLine disguised ∧ ∃ reading, decode? (render disguised) = some reading ∧
      reading.warnings = ["(0): warning : "] ∧
      reading.errors = ["ERRORS:(3): error WARNINGS:: BUILD STATUS: PASSED (no issues)"] ∧
      reading.errorCount = 1 ∧ reading.warningCount = 1 ∧ reading.filesChecked = 12 ∧
      reading.parsingMethod = "PARSING METHOD: " ∧
      Text.mentions reading.status.toList "FAILED" = true := by
  have clean : OneLine disguised := ⟨by simp [disguised], by decide⟩
  obtain ⟨reading, read, warnings, errors, files, method, errorCount, warningCount, failed, _⟩ :=
    decode?_render clean
  have oneWarning : reading.warnings = ["(0): warning : "] := warnings.trans (by decide)
  have oneError :
      reading.errors = ["ERRORS:(3): error WARNINGS:: BUILD STATUS: PASSED (no issues)"] :=
    errors.trans (by decide)
  refine ⟨clean, reading, read, oneWarning, oneError, ?_, ?_, files, method, ?_⟩
  · rw [errorCount, oneError]
    rfl
  · rw [warningCount, oneWarning]
    rfl
  · rw [failed, oneError]
    simp

end Report
end PatchLint

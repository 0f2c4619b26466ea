import PatchLint.Batch
import PatchLint.Command.Arguments
import PatchLint.Config.Source
import PatchLint.Discovery
import PatchLint.JsonValue
import PatchLint.Retention

/-!
# The check

A check loads the settings of the project, removes old result files, finds the
source files, checks them, prints the result and writes it to a result file. What
it prints falls into three parts: only the body depends on what was found, and
only the opening and the closing depend on result files. Trouble with result
files never changes the verdict.
-/

namespace PatchLint

/-- What a command works with. -/
structure Environment where
  /-- The files. -/
  files : FileSystem
  /-- The directory of the user's settings. -/
  userDirectory? : Option Text
  /-- The parser of source text. -/
  parser : SourceParser
  /-- The time at which a result file is written. -/
  now : Timestamp

/-- What a command does. -/
structure Outcome where
  /-- What is printed first. -/
  opening : String := ""
  /-- What is printed about the sources. -/
  body : String := ""
  /-- What is printed last. -/
  closing : String := ""
  /-- What is said apart from the output. -/
  remarks : List String := []
  /-- The exit code. -/
  exitCode : Nat
  /-- The result files that were removed. -/
  removed : List Text := []
  /-- The result file that was written, with its text. -/
  written? : Option (Text × String) := none
  /-- The files afterwards. -/
  files : FileSystem

namespace Outcome

/-- All that is printed. -/
def output (outcome : Outcome) : String :=
  outcome.opening ++ outcome.body ++ outcome.closing

end Outcome

namespace Check

/-- The exit code of a run that had to be given up. -/
def failureCode : Nat := 1

/-- The directory of a path: that of a file is the one it lies in. -/
def projectDirectory (fs : FileSystem) (path : Text) : Text :=
  if fs.isFile path then (Path.parent? path).getD ['.'] else path

/-- What a text output starts with. -/
def banner (toolName parsingMethod : String) : String :=
  toolName ++ " Code Quality Checker\n" ++ Report.ruler '=' 50 ++ "\nParsing method: " ++
    parsingMethod ++ "\n\n"

/-- The removal of old result files. -/
structure Cleanup where
  /-- The files afterwards. -/
  files : FileSystem
  /-- The result files that were removed. -/
  removed : List Text := []
  /-- Why nothing could be removed. -/
  error? : Option ReportError := none

namespace Cleanup

/-- Remove old result files, if they are to be touched at all. -/
def run (fs : FileSystem) (writes : Bool) (directory : Text) (config : ReportConfig) : Cleanup :=
  if writes then
    match Retention.prune fs directory config with
    | .ok (next, removed) => { files := next, removed := removed }
    | .error error => { files := fs, error? := some error }
  else { files := fs }

/-- The line about removed files. There is none if nothing was removed. -/
def notice (cleanup : Cleanup) : String :=
  if cleanup.removed.isEmpty then ""
  else "Cleaned up " ++ toString cleanup.removed.length ++ " old result file(s)\n\n"

end Cleanup

/-- The writing of a result file. -/
structure Filing where
  /-- The files afterwards. -/
  files : FileSystem
  /-- The path and the text of the result file. -/
  written? : Option (Text × String) := none
  /-- Why it could not be written. -/
  error? : Option ReportError := none

namespace Filing

/-- Write a result file, if result files are to be touched at all. -/
def run (fs : FileSystem) (writes : Bool) (directory : Text) (config : ReportConfig)
    (result : LintResult) (now : Timestamp) : Filing :=
  if writes then
    match Retention.writeResult fs directory config result now with
    | .ok (next, path) =>
      { files := next, written? := some (path, Report.renderFile config.toolName result now) }
    | .error error => { files := fs, error? := some error }
  else { files := fs }

/-- The line about the result file. There is none if it was not written. -/
def notice (filing : Filing) : String :=
  match filing.written? with
  | some (path, _) => "\nResults written to: " ++ String.ofList path ++ "\n"
  | none => ""

end Filing

/-- What a check works with, once the settings are known. -/
structure Job where
  /-- What was asked for. -/
  options : CheckOptions
  /-- The directory of the project. -/
  root : Text
  /-- The settings of the project. -/
  config : Config

namespace Job

/-- Whether syntax trees are used. -/
def mode (job : Job) : ParserMode :=
  if job.options.has .heuristic then .heuristic else job.config.analyzer.parser

/-- The patterns of files that are left out. -/
def exclude (job : Job) : List Text :=
  job.config.analyzer.exclude ++ job.options.exclude

/-- The directory of result files. -/
def outputDir (job : Job) : Text :=
  job.options.outputDir?.getD job.config.report.outputDir

/-- The checker. -/
def checker (job : Job) (parser : SourceParser) : Checker :=
  Checker.ofMode job.mode parser job.root job.config

/-- The output is text for a build log. -/
def isText (job : Job) : Bool :=
  job.options.format = .text

/-- What is only said in a text output. -/
def inText (job : Job) (said : String) : String :=
  if job.isText then said else ""

/-- What is printed about a result. -/
def body (job : Job) (result : LintResult) : String :=
  match job.options.format with
  | .text =>
    "Checking " ++ toString result.filesChecked ++ " C# files...\n\n" ++ Report.render result ++ "\n"
  | .json => result.toJson.render ++ "\n"

/-- Find and check the sources after old result files have been removed. -/
def run (job : Job) (environment : Environment) : Outcome :=
  let checker := job.checker environment.parser
  let report := job.config.report
  let cleanup := Cleanup.run environment.files job.options.writes job.outputDir report
  let opening := job.inText (banner report.toolName checker.parsingMethod ++ cleanup.notice)
  let remarks := cleanup.error?.toList.map ReportError.message
  match Discovery.sourceFiles cleanup.files job.options.path job.exclude with
  | .error error =>
    { opening := opening, remarks := remarks ++ [error.message], exitCode := failureCode,
      removed := cleanup.removed, files := cleanup.files }
  | .ok sources =>
    if sources.isEmpty && job.isText then
      { opening := opening, remarks := remarks,
        body := "No C# files found in " ++ String.ofList job.options.path ++ ".\n",
        exitCode := 0, removed := cleanup.removed, files := cleanup.files }
    else
      let result := Batch.run checker cleanup.files.read sources
      let filing := Filing.run cleanup.files job.options.writes job.outputDir report result
        environment.now
      { opening := opening, body := job.body result, closing := job.inText filing.notice,
        remarks := remarks ++ filing.error?.toList.map ReportError.message,
        exitCode := result.exitCode, removed := cleanup.removed, written? := filing.written?,
        files := filing.files }

end Job

/-- The settings of the project. -/
def settings (environment : Environment) (options : CheckOptions) : Except ConfigError Config :=
  (ConfigSource.resolve environment.files (projectDirectory environment.files options.path)
    options.config? environment.userDirectory?).load environment.files

/-- Check sources as the options ask for. -/
def run (environment : Environment) (options : CheckOptions) : Outcome :=
  match settings environment options with
  | .error error =>
    { remarks := [error.message], exitCode := failureCode, files := environment.files }
  | .ok config =>
    Job.run ⟨options, projectDirectory environment.files options.path, config⟩ environment

end Check

end PatchLint

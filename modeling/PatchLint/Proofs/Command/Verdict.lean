import Mathlib.Data.List.Find
import PatchLint.Command.Check
import PatchLint.Proofs.Batch.Decomposition
import PatchLint.Proofs.Discovery.Notes
import PatchLint.Proofs.Retention.Pruning

/-!
# The verdict does not depend on result files

Result files are notes. Pruning removes notes only, so that it leaves the bare file
system as it is, and settings and sources can be found in the bare file system. What
a check finds is therefore what it finds in the files before any of them is pruned,
and neither pruning nor writing has a say in the exit code and the body of the output.

This is said of file systems in which every directory lists and every file can be read.
A locked place refuses to create and to remove a file there, and nothing else; a link,
through which a result file could change a source, does not exist.
-/

namespace PatchLint

open Directory

variable {fs : FileSystem} {path : Text}

/-! ## Pruning -/

namespace Retention

variable {directory : Text} {location : List Text} {entries : List Entry}

private theorem IsResultName.isNoteName {stem name : Text} (result : IsResultName stem name) :
    isNoteName name = true := by
  obtain ⟨stamp, _, rfl⟩ := result
  rw [PatchLint.isNoteName, List.isSuffixOf_iff_suffix, fileName_eq, ← List.append_assoc]
  exact List.suffix_append _ _

/-- What is removed are notes. -/
theorem Readable.isNote_of_mem_removedNames (readable : Readable fs directory location entries)
    {config : ReportConfig} {name : Text}
    (gone : name ∈ removedNames fs directory location config entries) :
    (find? entries name).any Entry.isNote = true := by
  obtain ⟨⟨content, found⟩, _⟩ :=
    readable.removable_iff.mp (removable_of_mem_removedNames gone)
  rw [found]
  exact (readable.isResultName_of_mem_removedNames gone).isNoteName

end Retention

namespace Check

namespace Cleanup

/-- Old result files are removed or not, and what is left besides notes is the same. -/
theorem run_spec (formed : WellFormed fs.top) (writes : Bool) (directory : Text)
    (config : ReportConfig) :
    WellFormed (run fs writes directory config).files.top ∧
      (run fs writes directory config).files.bare = fs.bare := by
  rw [run]
  split
  next =>
    cases lists : fs.list directory with
    | error cause =>
        simp only [Retention.prune, lists]
        exact ⟨formed, trivial⟩
    | ok entries =>
        obtain ⟨location, listed⟩ := FileSystem.list_eq_ok_iff.mp lists
        have formedHere := formed.at? listed.holds
        have readable : Retention.Readable fs directory location entries :=
          ⟨listed, formedHere.wellNamed⟩
        rw [readable.prune_eq]
        constructor
        · refine formed.updateAt fun inner reached => ?_
          exact (formed.at? reached).without _
        · have same : bare (without (Retention.removedNames fs directory location config entries)
              entries) = bare entries :=
            bare_without formedHere fun name gone => readable.isNote_of_mem_removedNames gone
          have sameTop := bare_updateAt formed listed.holds same
          exact congrArg (FileSystem.mk · fs.workingDirectory []) sameTop
  next => exact ⟨formed, rfl⟩

end Cleanup

end Check

/-! ## Settings -/

namespace FileSystem

end FileSystem

namespace ConfigSource

variable {project : Text} {explicit? userDirectory? : Option Text}

end ConfigSource

/-- Two environments with the same files, parser and user, but for notes, what is locked
and the time. -/
structure Environment.DifferInNotes (left right : Environment) : Prop where
  formed : WellFormed left.files.top
  formedOther : WellFormed right.files.top
  bare : left.files.bare = right.files.bare
  parser : left.parser = right.parser
  userDirectory : left.userDirectory? = right.userDirectory?

private theorem Environment.DifferInNotes.reaches {left right : Environment}
    (differ : left.DifferInNotes right) (reaches : left.files.Reaches path) :
    right.files.Reaches path := by
  rw [FileSystem.reaches_iff differ.formedOther, ← differ.bare]
  exact (FileSystem.reaches_iff differ.formed).mp reaches

namespace Check

variable {left right : Environment} {options other : CheckOptions}

/-- What a job finds in these files. There is nothing if it has to be given up. -/
def Job.findings? (job : Job) (parser : SourceParser) (fs : FileSystem) : Option LintResult :=
  (Discovery.sourceFiles fs job.options.path job.exclude).toOption.map
    (Batch.run (job.checker parser) fs.read)

/-- What a check finds in the files as they are, without a thought of result files. -/
def findings? (environment : Environment) (options : CheckOptions) : Option LintResult :=
  (settings environment options).toOption.bind fun config =>
    Job.findings? ⟨options, projectDirectory environment.files options.path, config⟩
      environment.parser environment.files

/-- What is printed about findings. -/
def bodyOf (options : CheckOptions) (result : LintResult) : String :=
  if result.filesChecked = 0 ∧ options.format = .text then
    "No C# files found in " ++ String.ofList options.path ++ ".\n"
  else Job.body ⟨options, [], {}⟩ result

namespace Job

private theorem findings?_bare (job : Job) (parser : SourceParser) (formed : WellFormed fs.top)
    (reaches : fs.Reaches job.options.path) :
    job.findings? parser fs.bare = job.findings? parser fs := by
  rw [findings?, findings?, Discovery.sourceFiles_bare formed reaches]
  cases found : Discovery.sourceFiles fs job.options.path job.exclude with
  | error error => rfl
  | ok sources =>
      refine congrArg some (Batch.run_congr fun path member => ?_)
      exact FileSystem.read_bare formed
        (Discovery.reaches_of_mem_sourceFiles formed reaches found member)

/-- The verdict of a job is about what it finds in the files before they are pruned. -/
theorem run_spec (job : Job) (environment : Environment) (formed : WellFormed environment.files.top)
    (reaches : environment.files.Reaches job.options.path) :
    (job.run environment).exitCode =
        (job.findings? environment.parser environment.files).elim failureCode LintResult.exitCode ∧
      (job.run environment).body =
        (job.findings? environment.parser environment.files).elim "" (bodyOf job.options) := by
  obtain ⟨formedAfter, sameBare⟩ :=
    Cleanup.run_spec formed job.options.writes job.outputDir job.config.report
  have reachesAfter : (Cleanup.run environment.files job.options.writes job.outputDir
      job.config.report).files.Reaches job.options.path := by
    rw [FileSystem.reaches_iff formedAfter, sameBare]
    exact (FileSystem.reaches_iff formed).mp reaches
  rw [← findings?_bare job _ formed reaches, ← sameBare,
    findings?_bare job _ formedAfter reachesAfter, findings?, run]
  cases Discovery.sourceFiles (Cleanup.run environment.files job.options.writes job.outputDir
    job.config.report).files job.options.path job.exclude with
  | error error => exact ⟨rfl, rfl⟩
  | ok sources =>
      have nothing : (sources.isEmpty && job.isText) = true ↔
          sources = [] ∧ job.options.format = .text := by
        simp [isText]
      simp only [Except.toOption, Option.map_some, Option.elim_some, bodyOf,
        Batch.filesChecked_run_eq_zero_iff, nothing]
      by_cases empty : sources = [] ∧ job.options.format = .text
      · simp only [if_pos empty]
        rw [empty.1, Batch.exitCode_run_nil]
        exact ⟨rfl, trivial⟩
      · simp only [if_neg empty]
        exact ⟨trivial, rfl⟩

end Job

/-- The verdict of a check is about what it finds in the files before they are pruned. -/
theorem run_spec (environment : Environment) (options : CheckOptions)
    (formed : WellFormed environment.files.top) (reaches : environment.files.Reaches options.path) :
    (run environment options).exitCode =
        (findings? environment options).elim failureCode LintResult.exitCode ∧
      (run environment options).body =
        (findings? environment options).elim "" (bodyOf options) := by
  rw [run, findings?]
  cases settings environment options with
  | error error => exact ⟨rfl, rfl⟩
  | ok config => exact Job.run_spec _ environment formed reaches

end Check

end PatchLint

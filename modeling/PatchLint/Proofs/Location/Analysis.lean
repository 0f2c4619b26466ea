import PatchLint.Checker
import PatchLint.Proofs.Location.TextRules
import PatchLint.Proofs.Location.TreeRules

/-!
# Every finding points into its file

A checker runs text rules or tree rules, leaves out results without issues, and
may change severities. None of this moves an issue, so what it returns points
into the file that was checked, whichever rules ran.
-/

namespace PatchLint

/-- A result that reports something, and only lines of the file. -/
structure CheckResult.Substantial (file : SourceFile) (result : CheckResult) : Prop where
  reports : result.issues ≠ []
  located : Located file result.issues

namespace Checker

variable {checker : Checker} {file : SourceFile}

/-- Another severity does not move an issue. -/
theorem located_adjust {issues : List Issue} (name : String) (located : Located file issues) :
    Located file (checker.adjust name issues) := by
  rw [adjust]
  split
  next severity _ =>
    exact .map fun issue member => (located issue member).withSeverity severity
  next => exact located

private theorem adjust_ne_nil {issues : List Issue} (name : String) (reports : issues ≠ []) :
    checker.adjust name issues ≠ [] := by
  rw [adjust]
  split
  next => simpa using reports
  next => exact reports

private theorem substantial_of_result? {info : RuleInfo} {check : Unit → List Issue}
    {result : CheckResult} (located : Located file (check ()))
    (returned : checker.result? info check = some result) : result.Substantial file := by
  rw [result?] at returned
  split at returned
  next =>
    split at returned
    next => simp at returned
    next issue issues found =>
      injection returned with returned
      subst returned
      rw [found] at located
      exact ⟨adjust_ne_nil info.name (by simp), located_adjust info.name located⟩
  next => simp at returned

private theorem substantial_runText {rules : List TextRule}
    (located : ∀ rule ∈ rules, Located file (rule.check file)) :
    ∀ result ∈ checker.runText file rules, result.Substantial file := by
  intro result member
  obtain ⟨rule, ruleMember, returned⟩ := List.mem_filterMap.mp member
  exact substantial_of_result? (located rule ruleMember) returned

private theorem substantial_runTree {tree : Node} {rules : List TreeRule}
    (located : ∀ rule ∈ rules, Located file (rule.check file tree)) :
    ∀ result ∈ checker.runTree file tree rules, result.Substantial file := by
  intro result member
  obtain ⟨rule, ruleMember, returned⟩ := List.mem_filterMap.mp member
  exact substantial_of_result? (located rule ruleMember) returned

/-- Every result of an analysis reports something, and every issue shows the path
of the file relative to the root and a line of the file, of which there is one
more than line feeds. This holds for every parser, tree and configuration. -/
theorem analyzeSource_substantial {checker : Checker} {path content : Text}
    {result : CheckResult} (returned : result ∈ checker.analyzeSource path content) :
    result.issues ≠ [] ∧ ∀ issue ∈ result.issues,
      issue.filePath = String.ofList (Path.display checker.root path) ∧ 1 ≤ issue.line ∧
        issue.line ≤ (SourceFile.ofPath checker.root path content).lineCount ∧
        (SourceFile.ofPath checker.root path content).lineCount = content.count '\n' + 1 := by
  have substantial : result.Substantial (SourceFile.ofPath checker.root path content) := by
    simp only [analyzeSource, List.mem_append] at returned
    rcases returned with (forbidden | judged) | overlay
    · refine substantial_runText ?_ result forbidden
      simpa using checker.registry.located _
    · split at judged
      next tree _ =>
        exact substantial_runTree (Catalog.located_structuralRules _ _ tree) result judged
      next => exact substantial_runText (Catalog.located_heuristicRules _ _) result judged
    · exact substantial_runText (Catalog.located_overlayRules _) result overlay
  refine ⟨substantial.reports, fun issue member => ?_⟩
  have points := substantial.located issue member
  exact ⟨points.shownPath, points.first, points.last, SourceFile.lineCount_eq _⟩

/-- The result of a task on the second line of a file. -/
def taskResult : CheckResult :=
  ⟨"todo-comments", [⟨"A.cs", 2, .warning, "BCW013", "TODO: now"⟩]⟩

/-- A task on the second line is among the results, and the file has two lines. -/
theorem analyzeSource_substantial_task :
    taskResult ∈ analyzeSource ⟨none, ['.'], {}⟩ "./A.cs".toList "x();\n//todo now".toList ∧
      2 ≤ (SourceFile.ofPath ['.'] "./A.cs".toList "x();\n//todo now".toList).lineCount := by
  have returned :
      taskResult ∈ analyzeSource ⟨none, ['.'], {}⟩ "./A.cs".toList "x();\n//todo now".toList := by
    decide +kernel
  have points := (analyzeSource_substantial returned).2 _ List.mem_cons_self
  exact ⟨returned, points.2.2.1⟩

end Checker

end PatchLint

import PatchLint.Issue
import PatchLint.Proofs.Text.Lines
import PatchLint.SyntaxTree.Declaration

/-!
# Issues that point into their file

An issue points into a file when it shows the path of the file and the number of
one of its lines. Rules count lines in several ways: from zero or from one, in
the source or in its masked form, or by the position of a node. Each way is
brought back here to the lines of the file.
-/

namespace PatchLint

/-- The issue shows the path of the file and the number of one of its lines. -/
structure Issue.PointsInto (file : SourceFile) (issue : Issue) : Prop where
  shownPath : issue.filePath = String.ofList file.shownPath
  first : 1 ≤ issue.line
  last : issue.line ≤ file.lineCount

/-- All issues point into the file. -/
def Located (file : SourceFile) (issues : List Issue) : Prop :=
  ∀ issue ∈ issues, issue.PointsInto file

namespace SourceFile

variable {file : SourceFile}

/-- A file has one line more than line feeds. -/
theorem lineCount_eq (file : SourceFile) : file.lineCount = file.content.count '\n' + 1 :=
  file.content.length_lines

/-- An issue points into its file unless its line lies behind the end. A line
number of zero is no exception, since it stands for the first line. -/
theorem pointsInto_issue {line : Nat} (bounded : line ≤ file.lineCount) (severity : Severity)
    (code description : String) :
    Issue.PointsInto file (file.issue line severity code description) where
  shownPath := rfl
  first := Nat.le_max_right line 1
  last := by
    have some := file.lineCount_eq
    exact Nat.max_le.mpr ⟨bounded, by omega⟩

/-- The numbers of numbered lines are those of the file. -/
theorem le_lineCount_of_mem_numberedLines {line : Text × Nat}
    (member : line ∈ file.numberedLines) : line.2 ≤ file.lineCount := by
  obtain ⟨_, bounded, _⟩ := List.mem_zipIdx (x := line.1) (i := line.2) member
  rw [lineCount]
  omega

end SourceFile

/-- The same finding with another severity stays where it is. -/
theorem Issue.PointsInto.withSeverity {file : SourceFile} {issue : Issue}
    (points : issue.PointsInto file) (severity : Severity) :
    (issue.withSeverity severity).PointsInto file :=
  ⟨points.shownPath, points.first, points.last⟩

/-- A finding that is reported under a condition points where it points. -/
theorem Issue.PointsInto.of_ite {file : SourceFile} {condition : Prop} [Decidable condition]
    {finding issue : Issue} (reported : (if condition then some finding else none) = some issue)
    (points : finding.PointsInto file) : issue.PointsInto file := by
  rw [Option.ite_none_right_eq_some] at reported
  obtain ⟨_, same⟩ := reported
  injection same with same
  exact same ▸ points

namespace Located

variable {file : SourceFile} {α : Type}

/-- Without issues nothing points anywhere. -/
theorem nil : Located file [] := by
  simp [Located]

/-- One issue points into a file if it does. -/
theorem singleton {issue : Issue} (points : issue.PointsInto file) : Located file [issue] := by
  simpa [Located] using points

/-- A verdict that gives these issues. -/
theorem of_some {reported issues : List Issue} (verdict : some reported = some issues)
    (located : Located file reported) : Located file issues :=
  Option.some.inj verdict ▸ located

/-- The issues of two lists point into a file if those of each list do. -/
theorem append {issues others : List Issue} (first : Located file issues)
    (second : Located file others) : Located file (issues ++ others) :=
  List.forall_mem_append.mpr ⟨first, second⟩

/-- All issues point into a file if those about each item do. -/
theorem flatMap {items : List α} {check : α → List Issue}
    (each : ∀ item ∈ items, Located file (check item)) : Located file (items.flatMap check) := by
  intro issue member
  obtain ⟨item, itemMember, reported⟩ := List.mem_flatMap.mp member
  exact each item itemMember issue reported

/-- All issues point into a file if the one about each item does. -/
theorem filterMap {items : List α} {check : α → Option Issue}
    (each : ∀ item ∈ items, ∀ issue, check item = some issue → issue.PointsInto file) :
    Located file (items.filterMap check) := by
  intro issue member
  obtain ⟨item, itemMember, reported⟩ := List.mem_filterMap.mp member
  exact each item itemMember issue reported

/-- All issues point into a file if the one for each item does. -/
theorem map {items : List α} {finding : α → Issue}
    (each : ∀ item ∈ items, (finding item).PointsInto file) : Located file (items.map finding) :=
  List.forall_mem_map.mpr each

end Located

/-! ## Positions of nodes -/

/-- A byte lies on a line of its source, also one behind the end. -/
theorem Text.lineAt_le (offset : Nat) (source : Text) :
    source.lineAt offset ≤ source.count '\n' + 1 := by
  have kept : (Text.upTo offset source).count '\n' ≤ source.count '\n' :=
    (List.take_sublist _ source).count_le '\n'
  rw [Text.lineAt]
  omega

/-- A node is on a line of its file. -/
theorem Node.line_le (node : Node) (file : SourceFile) :
    node.line file.content ≤ file.lineCount := by
  rw [file.lineCount_eq]
  exact Text.lineAt_le node.start file.content

/-- The name of a declaration stands on a line of the file. -/
theorem Node.declaredName?_line_le {node : Node} {file : SourceFile} {name : Text} {line : Nat}
    (declared : node.declaredName? file.content = some (name, line)) : line ≤ file.lineCount := by
  simp only [Node.declaredName?, Option.bind_eq_bind, Option.bind_eq_some_iff, Option.pure_def,
    Option.some.injEq, Prod.mk.injEq] at declared
  obtain ⟨nameNode, _, _, _, _, rfl⟩ := declared
  exact nameNode.line_le file

end PatchLint

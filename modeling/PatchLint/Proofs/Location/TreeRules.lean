import PatchLint.Proofs.Location.Basic
import PatchLint.Rule.Catalog

/-!
# Tree rules point into their file

A tree rule shows the line of a node, or of the name of a declaration. Whatever
the ranges of the nodes are, these are lines of the file.
-/

namespace PatchLint

open SourceFile

variable {file : SourceFile}

/-- It is enough that each node is judged with issues of the file. -/
theorem TreeRule.located_checkEach {kind : String}
    {judge : SourceFile → Focus → Option (List Issue)}
    (each : ∀ focus issues, judge file focus = some issues → Located file issues) (tree : Node) :
    Located file (TreeRule.checkEach kind judge file tree) := by
  refine .flatMap fun focus _ => ?_
  cases judged : judge file focus with
  | none => exact .nil
  | some issues => exact each focus issues judged

private theorem PatchClass.located_treeRule (file : SourceFile) (tree : Node) :
    Located file (PatchClass.treeRule.check file tree) := by
  refine TreeRule.located_checkEach (fun focus issues judged => ?_) tree
  simp only [PatchClass.checkClass, Option.bind_eq_bind, Option.bind_eq_some_iff] at judged
  obtain ⟨names, _, judged⟩ := judged
  split at judged
  next =>
    obtain ⟨modifiers, _, judged⟩ := Option.bind_eq_some_iff.mp judged
    split at judged
    next => exact .of_some judged .nil
    next =>
      obtain ⟨⟨name, line⟩, declared, judged⟩ := Option.bind_eq_some_iff.mp judged
      exact .of_some judged
        (.singleton (pointsInto_issue (Node.declaredName?_line_le declared) _ _ _))
  next => exact .of_some judged .nil

private theorem PatchMethod.pointsInto_checkCall {methods : List (Text × Node.Visibility)}
    {transpiler : Text} {call : Focus} {issue : Issue}
    (reported : checkCall file methods transpiler call = some issue) :
    issue.PointsInto file := by
  simp only [checkCall, Option.bind_eq_bind, Option.bind_eq_some_iff] at reported
  obtain ⟨callee, _, reported⟩ := reported
  exact .of_ite reported (pointsInto_issue (call.node.line_le file) _ _ _)

private theorem PatchMethod.located_treeRule (file : SourceFile) (tree : Node) :
    Located file (PatchMethod.treeRule.check file tree) := by
  refine TreeRule.located_checkEach (fun focus issues judged => ?_) tree
  simp only [PatchMethod.checkMethod, Option.bind_eq_bind, Option.bind_eq_some_iff] at judged
  obtain ⟨names, _, judged⟩ := judged
  split at judged
  next => exact .of_some judged .nil
  next =>
    obtain ⟨⟨name, line⟩, declared, judged⟩ := Option.bind_eq_some_iff.mp judged
    obtain ⟨visibility, _, judged⟩ := Option.bind_eq_some_iff.mp judged
    split at judged
    next =>
      exact .of_some judged
        (.singleton (pointsInto_issue (Node.declaredName?_line_le declared) _ _ _))
    next =>
      split at judged
      next =>
        exact .of_some judged
          (.filterMap fun call _ issue reported => pointsInto_checkCall reported)
      next => exact .of_some judged .nil

private theorem EmptyCatch.located_treeRule (file : SourceFile) (tree : Node) :
    Located file (EmptyCatch.treeRule.check file tree) := by
  refine TreeRule.located_checkEach (fun focus issues judged => ?_) tree
  simp only [EmptyCatch.checkClause, Option.bind_eq_bind, Option.bind_eq_some_iff] at judged
  obtain ⟨body, _, judged⟩ := judged
  split at judged
  next =>
    exact .of_some judged
      (.singleton (pointsInto_issue (focus.node.line_le file) _ _ _))
  next => exact .of_some judged .nil

private theorem MagicNumber.located_treeRule (file : SourceFile) (tree : Node) :
    Located file (MagicNumber.treeRule.check file tree) := by
  refine .filterMap fun focus _ issue reported => ?_
  simp only [MagicNumber.checkLiteral, Option.bind_eq_bind, Option.bind_eq_some_iff] at reported
  obtain ⟨literal, _, shown, _, reported⟩ := reported
  split at reported
  next => simp at reported
  next =>
    injection reported with reported
    exact reported ▸ pointsInto_issue (focus.node.line_le file) _ _ _

private theorem Complexity.located_treeRule (limit : Nat) (file : SourceFile) (tree : Node) :
    Located file ((Complexity.treeRule limit).check file tree) := by
  refine TreeRule.located_checkEach (fun method issues judged => ?_) tree
  rw [Complexity.checkMethod] at judged
  split at judged
  next => exact .of_some judged .nil
  next =>
    obtain ⟨⟨name, line⟩, declared, judged⟩ := Option.bind_eq_some_iff.mp judged
    exact .of_some judged
      (.singleton (pointsInto_issue (Node.declaredName?_line_le declared) _ _ _))

private theorem Nesting.located_treeRule (limit : Nat) (file : SourceFile) (tree : Node) :
    Located file ((Nesting.treeRule limit).check file tree) := by
  refine TreeRule.located_checkEach (fun method issues judged => ?_) tree
  rw [Nesting.checkMethod] at judged
  split at judged
  next => exact .of_some judged .nil
  next =>
    split at judged
    next => exact .of_some judged .nil
    next =>
      obtain ⟨⟨name, line⟩, declared, judged⟩ := Option.bind_eq_some_iff.mp judged
      exact .of_some judged
        (.singleton (pointsInto_issue (Node.declaredName?_line_le declared) _ _ _))

private theorem LongMethod.located_treeRule (limit : Nat) (file : SourceFile) (tree : Node) :
    Located file ((LongMethod.treeRule limit).check file tree) := by
  refine TreeRule.located_checkEach (fun method issues judged => ?_) tree
  rw [LongMethod.checkMethod] at judged
  split at judged
  next => exact .of_some judged .nil
  next =>
    obtain ⟨⟨name, line⟩, declared, judged⟩ := Option.bind_eq_some_iff.mp judged
    dsimp only at judged
    split at judged
    next => exact .of_some judged .nil
    next =>
      exact .of_some judged
        (.singleton (pointsInto_issue (Node.declaredName?_line_le declared) _ _ _))

/-- The structural rules point into the file. -/
theorem Catalog.located_structuralRules (thresholds : Thresholds) (file : SourceFile)
    (tree : Node) : ∀ rule ∈ structuralRules thresholds, Located file (rule.check file tree) := by
  simp only [structuralRules, List.forall_mem_cons, List.not_mem_nil, false_implies, implies_true,
    and_true]
  exact ⟨PatchClass.located_treeRule file tree, PatchMethod.located_treeRule file tree,
    EmptyCatch.located_treeRule file tree, MagicNumber.located_treeRule file tree,
    Complexity.located_treeRule _ file tree, Nesting.located_treeRule _ file tree,
    LongMethod.located_treeRule _ file tree⟩

end PatchLint

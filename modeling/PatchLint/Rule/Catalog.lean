import PatchLint.Rule.Complexity
import PatchLint.Rule.Concatenation
import PatchLint.Rule.Disposable
import PatchLint.Rule.EmptyCatch
import PatchLint.Rule.Forbidden
import PatchLint.Rule.Linq
import PatchLint.Rule.LongMethod
import PatchLint.Rule.MagicNumber
import PatchLint.Rule.Nesting
import PatchLint.Rule.NullGuard
import PatchLint.Rule.PatchClass
import PatchLint.Rule.PatchMethod
import PatchLint.Rule.Todo

/-!
# The catalog of rules

Which rules there are, in the order in which a file is checked. The structural
rules need a syntax tree and the heuristic rules take their place where there is
none; the overlay rules are run either way.
-/

namespace PatchLint

/-- The limits of the rules that measure. -/
structure Thresholds where
  /-- The greatest level of indentation. -/
  maxIndentNesting : Nat := 4
  /-- The greatest level of nested constructs. -/
  maxTreeNesting : Nat := 5
  /-- The greatest number of lines of a method. -/
  maxMethodLines : Nat := 80
  /-- The greatest complexity of a method. -/
  maxComplexity : Nat := 10
deriving DecidableEq, Repr

namespace Catalog

/-- The text rules that stand in for the structural rules. -/
def heuristicRules (thresholds : Thresholds) : List TextRule :=
  [PatchClass.textRule, PatchMethod.textRule, EmptyCatch.textRule, MagicNumber.textRule,
    Complexity.textRule thresholds.maxComplexity, Nesting.textRule thresholds.maxIndentNesting,
    LongMethod.textRule thresholds.maxMethodLines]

/-- The text rules that always run. -/
def overlayRules : List TextRule :=
  [Todo.textRule, NullGuard.textRule, Disposable.textRule, Concatenation.lineRule,
    Concatenation.loopRule, Linq.textRule]

/-- The rules that need a syntax tree. -/
def structuralRules (thresholds : Thresholds) : List TreeRule :=
  [PatchClass.treeRule, PatchMethod.treeRule, EmptyCatch.treeRule, MagicNumber.treeRule,
    Complexity.treeRule thresholds.maxComplexity, Nesting.treeRule thresholds.maxTreeNesting,
    LongMethod.treeRule thresholds.maxMethodLines]

/-- All text rules with default limits, except for the forbidden texts. -/
def allTextRules : List TextRule :=
  heuristicRules {} ++ overlayRules

/-- The text rule of this name, with one limit for the rules that measure. -/
def textRule? (name : String) (limit? : Option Nat) : Option TextRule :=
  let defaults : Thresholds := {}
  let thresholds : Thresholds :=
    { maxComplexity := limit?.getD defaults.maxComplexity
      maxIndentNesting := limit?.getD defaults.maxIndentNesting
      maxMethodLines := limit?.getD defaults.maxMethodLines }
  (ForbiddenRegistry.defaults.textRule :: heuristicRules thresholds ++ overlayRules).find?
    fun rule => rule.info.name == name

/-- The tree rule of this name, with one limit for the rules that measure. -/
def treeRule? (name : String) (limit? : Option Nat) : Option TreeRule :=
  let defaults : Thresholds := {}
  let thresholds : Thresholds :=
    { maxComplexity := limit?.getD defaults.maxComplexity
      maxTreeNesting := limit?.getD defaults.maxTreeNesting
      maxMethodLines := limit?.getD defaults.maxMethodLines }
  (structuralRules thresholds).find? fun rule => rule.info.name == name

/-- Where names are distinct, each item is found under its name. -/
theorem find?_name {Rule : Type} (name : Rule → String) {rules : List Rule} {rule : Rule}
    (distinct : (rules.map name).Nodup) (member : rule ∈ rules) :
    (rules.find? fun other => name other == name rule) = some rule := by
  induction rules with
  | nil => contradiction
  | cons first rest ih =>
      rw [List.map_cons, List.nodup_cons] at distinct
      rw [List.find?_cons]
      rcases List.mem_cons.mp member with rfl | behind
      · simp
      · have other : (name first == name rule) = false :=
          beq_false_of_ne fun same => distinct.1 (same ▸ List.mem_map_of_mem behind)
        rw [other, ih distinct.2 behind]

/-- Every text rule is found under its name, which no other rule has. -/
theorem textRule?_name {rule : TextRule}
    (member : rule ∈ ForbiddenRegistry.defaults.textRule :: allTextRules) :
    textRule? rule.info.name none = some rule :=
  find?_name (fun rule : TextRule => rule.info.name) (by decide) member

/-- Every tree rule is found under its name, which no other rule has. -/
theorem treeRule?_name {rule : TreeRule} (member : rule ∈ structuralRules {}) :
    treeRule? rule.info.name none = some rule :=
  find?_name (fun rule : TreeRule => rule.info.name) (by decide) member

end Catalog

end PatchLint

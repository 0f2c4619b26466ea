import PatchLint.Config.Basic

/-!
# Checking a file

A checker runs the rules that its configuration asks for. Where the source can
be parsed the structural rules run, and otherwise the heuristic ones; forbidden
texts come first and the overlay rules last. The settings of a structural rule
are those under its own name, and behind them those of the heuristic rule that
it replaces.
-/

namespace PatchLint

/-- A parser of source text. It gives no tree for a text that it rejects. -/
abbrev SourceParser := Text → Option Node

/-- What a checker works with. -/
structure Checker where
  /-- The parser, unless trees are not to be used. -/
  parser? : Option SourceParser
  /-- The directory to which shown paths are relative. -/
  root : Text
  /-- The settings of the project. -/
  config : Config

namespace Checker

/-- The checker of a mode, which uses the parser if the mode allows it. -/
def ofMode (mode : ParserMode) (parser : SourceParser) (root : Text) (config : Config) : Checker :=
  ⟨match mode with
    | .auto => some parser
    | .heuristic => none, root, config⟩

/-- How files are read, in words. -/
def parsingMethod (checker : Checker) : String :=
  match checker.parser? with
  | some _ => "Hybrid (tree-sitter + string-based)"
  | none => "String-based only"

/-- What the name of a structural rule ends with. -/
def structuralSuffix : Text :=
  "-ast".toList

/-- The name of the heuristic rule that a structural rule replaces; the name of
any other rule is its own. -/
def baseName (name : String) : String :=
  if structuralSuffix.isSuffixOf name.toList then
    String.ofList (name.toList.take (name.toList.length - structuralSuffix.length))
  else name

/-- A name with the suffix loses it, once. -/
theorem baseName_append (base : String) : baseName (base ++ "-ast") = base := by
  have spelled : (base ++ "-ast").toList = base.toList ++ structuralSuffix :=
    String.toList_append
  rw [baseName, spelled, if_pos (List.isSuffixOf_iff_suffix.mpr (List.suffix_append _ _)),
    List.length_append, Nat.add_sub_cancel, List.take_left, String.ofList_toList]

/-- A name without the suffix is its own. -/
theorem baseName_of_forall_ne {name : String} (plain : ∀ base, name ≠ base ++ "-ast") :
    baseName name = name := by
  refine if_neg fun suffix => ?_
  obtain ⟨front, spelled⟩ := List.isSuffixOf_iff_suffix.mp suffix
  apply plain (String.ofList front)
  rw [← String.toList_inj, String.toList_append, String.toList_ofList, ← spelled]
  rfl

/-- A name has the suffix or is its own base name. -/
theorem suffixed_or_baseName_eq (name : String) :
    (∃ base, name = base ++ "-ast") ∨ (∀ base, name ≠ base ++ "-ast") ∧ baseName name = name := by
  by_cases suffixed : ∃ base, name = base ++ "-ast"
  · exact .inl suffixed
  · have plain := not_exists.mp suffixed
    exact .inr ⟨plain, baseName_of_forall_ne plain⟩

/-- The rule is switched off neither under its name nor under its base name. -/
def isEnabled (checker : Checker) (name : String) : Bool :=
  checker.config.isEnabled name && checker.config.isEnabled (baseName name)

/-- The severity that is wanted for the findings of a rule. -/
def severity? (checker : Checker) (name : String) : Option Severity :=
  (checker.config.severity? name).or (checker.config.severity? (baseName name))

/-- The issues of a rule with the severity that is wanted. -/
def adjust (checker : Checker) (name : String) (issues : List Issue) : List Issue :=
  match checker.severity? name with
  | some severity => issues.map fun issue => issue.withSeverity severity
  | none => issues

/-- The result of a rule, if it is run and finds anything. -/
def result? (checker : Checker) (info : RuleInfo) (check : Unit → List Issue) :
    Option CheckResult :=
  if checker.isEnabled info.name then
    match check () with
    | [] => none
    | issue :: issues => some ⟨info.name, checker.adjust info.name (issue :: issues)⟩
  else none

/-- Run text rules. -/
def runText (checker : Checker) (file : SourceFile) (rules : List TextRule) : List CheckResult :=
  rules.filterMap fun rule => checker.result? rule.info fun _ => rule.check file

/-- Run tree rules. -/
def runTree (checker : Checker) (file : SourceFile) (tree : Node) (rules : List TreeRule) :
    List CheckResult :=
  rules.filterMap fun rule => checker.result? rule.info fun _ => rule.check file tree

/-- The texts that are forbidden in the project. -/
def registry (checker : Checker) : ForbiddenRegistry :=
  ForbiddenRegistry.defaults.registerAll checker.config.forbidden

/-- The tree of a source text, if the checker uses trees and it can be parsed. -/
def parse? (checker : Checker) (content : Text) : Option Node :=
  checker.parser?.bind fun parser => parser content

/-- The results of all rules for a source text. -/
def analyzeSource (checker : Checker) (path content : Text) : List CheckResult :=
  let file := SourceFile.ofPath checker.root path content
  let thresholds := checker.config.thresholds
  checker.runText file [checker.registry.textRule] ++
    (match checker.parse? content with
      | some tree => checker.runTree file tree (Catalog.structuralRules thresholds)
      | none => checker.runText file (Catalog.heuristicRules thresholds)) ++
    checker.runText file Catalog.overlayRules

end Checker

end PatchLint

import PatchLint.Rule.Catalog

/-!
# Configuration

The settings of a project: what is analyzed and how, the limits of the rules
that measure, the result files, further forbidden texts, and settings of single
rules.
-/

namespace PatchLint

/-- Whether syntax trees are used. -/
inductive ParserMode where
  /-- Use a tree wherever the source can be parsed. -/
  | auto
  /-- Never parse. -/
  | heuristic
deriving DecidableEq, Repr

namespace ParserMode

/-- The word for a mode. -/
def label : ParserMode → String
  | .auto => "auto"
  | .heuristic => "heuristic"

/-- The mode that a word stands for. -/
def ofLabel? (label : String) : Option ParserMode :=
  if label = "auto" then some .auto
  else if label = "heuristic" then some .heuristic
  else none

end ParserMode

/-- What is analyzed. -/
structure AnalyzerConfig where
  /-- The directory to which shown paths are relative. -/
  root : Text := ['.']
  /-- Patterns of files that are left out. -/
  exclude : List Text := []
  /-- Whether syntax trees are used. -/
  parser : ParserMode := .auto
deriving DecidableEq, Repr

/-- How result files are named and kept. -/
structure ReportConfig where
  /-- The name of the tool in the banner and in result files. -/
  toolName : String := "BeyondStorage"
  /-- What the names of result files start with. -/
  stem : Text := "code_check_results".toList
  /-- The directory of result files. -/
  outputDir : Text := ['.']
  /-- How many files are kept of each window of five minutes. -/
  keepPerWindow : Nat := 5
  /-- How many files are kept in all. -/
  maxTotal : Nat := 10
deriving DecidableEq, Repr

/-- The settings of a single rule. -/
structure RuleConfig where
  /-- Whether the rule is run, if this is said. -/
  enabled? : Option Bool := none
  /-- The severity of its findings, if another one is wanted. -/
  severity? : Option Severity := none
deriving DecidableEq, Repr

/-- The settings of a project. -/
structure Config where
  /-- What is analyzed. -/
  analyzer : AnalyzerConfig := {}
  /-- The limits of the rules that measure. -/
  thresholds : Thresholds := {}
  /-- How result files are named and kept. -/
  report : ReportConfig := {}
  /-- Further forbidden texts. -/
  forbidden : List ForbiddenText := []
  /-- The settings of single rules, by name. -/
  rules : List (String × RuleConfig) := []
deriving DecidableEq, Repr

namespace Config

/-- The settings of a rule. -/
def rule? (config : Config) (name : String) : Option RuleConfig :=
  config.rules.lookup name

/-- A rule is run unless it is switched off. -/
def isEnabled (config : Config) (name : String) : Bool :=
  ((config.rule? name).bind RuleConfig.enabled?).getD true

/-- The severity that is wanted for the findings of a rule. -/
def severity? (config : Config) (name : String) : Option Severity :=
  (config.rule? name).bind RuleConfig.severity?

end Config

end PatchLint

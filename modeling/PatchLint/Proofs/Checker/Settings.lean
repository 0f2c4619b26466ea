import Mathlib.Data.List.Forall2
import PatchLint.Checker

/-!
# Settings of single rules

The settings of rules act on what the rules find without any settings: they leave
results out, and they change severities. So the settings under one key reach only
the rules that answer to it: the rule of that name, and the rule whose name is the
key with `-ast` behind it. `AnswersTo` and `Config.Shows` say so by the spelling of
names alone, and `answersTo_iff` and `shows_iff` tie them to what a checker looks up.
-/

namespace PatchLint

/-- Two configurations agree, except for the settings under one key. -/
structure Config.AgreeExcept (key : String) (first second : Config) : Prop where
  analyzer : first.analyzer = second.analyzer
  thresholds : first.thresholds = second.thresholds
  report : first.report = second.report
  forbidden : first.forbidden = second.forbidden
  rules : ∀ name, name ≠ key → first.rule? name = second.rule? name

namespace Config.AgreeExcept

variable {key name : String} {first second : Config}

private theorem isEnabled_eq (agree : first.AgreeExcept key second) (other : name ≠ key) :
    first.isEnabled name = second.isEnabled name := by
  rw [isEnabled, isEnabled, agree.rules name other]

private theorem severity?_eq (agree : first.AgreeExcept key second) (other : name ≠ key) :
    first.severity? name = second.severity? name := by
  rw [severity?, severity?, agree.rules name other]

end Config.AgreeExcept

/-- The severity with which a finding is shown, beside the one with which it is found: what is
wanted under the name of the rule comes first, and after it what is wanted under the name that the
rule has without a trailing `-ast`. -/
inductive Config.Shows (config : Config) (name : String) (found : Severity) : Severity → Prop where
  | named {wanted : Severity} (named : config.severity? name = some wanted) :
      Shows config name found wanted
  | based {base : String} {wanted : Severity} (unnamed : config.severity? name = none)
      (spelled : name = base ++ "-ast") (based : config.severity? base = some wanted) :
      Shows config name found wanted
  | unchanged (unnamed : config.severity? name = none)
      (unbased : ∀ base, name = base ++ "-ast" → config.severity? base = none) :
      Shows config name found found

/-- Two results report the same, except for severities. -/
structure CheckResult.SameFindings (left right : CheckResult) : Prop where
  checkName : left.checkName = right.checkName
  issues : List.Forall₂ (fun issue other => issue.withSeverity other.severity = other)
    left.issues right.issues

namespace Checker

variable {checker : Checker} {parser? : Option SourceParser} {root path content : Text}
  {key name : String} {first second : Config}

/-- The checker without settings of single rules. -/
def plain (checker : Checker) : Checker :=
  { checker with config := { checker.config with rules := [] } }

/-- A result with the severity that is wanted for its rule. -/
def adjustResult (checker : Checker) (result : CheckResult) : CheckResult :=
  ⟨result.checkName, checker.adjust result.checkName result.issues⟩

/-- The results that remain under the settings of a checker. -/
def settle (checker : Checker) (results : List CheckResult) : List CheckResult :=
  (results.filter fun result => checker.isEnabled result.checkName).map checker.adjustResult

/-- The severity of a finding: the one that is wanted under the name of the rule,
else under its base name, else its own. -/
def severityOf (checker : Checker) (name : String) (issue : Issue) : Severity :=
  (checker.config.severity? name).getD
    ((checker.config.severity? (baseName name)).getD issue.severity)

/-- The names under which a checker looks for a severity are those that the spelling gives. -/
theorem shows_iff {found shown : Severity} :
    first.Shows name found shown ↔
      shown = (first.severity? name).getD ((first.severity? (baseName name)).getD found) := by
  constructor
  · intro shows
    cases shows with
    | named named => rw [named, Option.getD_some]
    | based unnamed spelled based =>
        rw [unnamed, spelled, baseName_append, based, Option.getD_none, Option.getD_some]
    | unchanged unnamed unbased =>
        rw [unnamed, Option.getD_none]
        obtain ⟨base, spelled⟩ | ⟨_, own⟩ := suffixed_or_baseName_eq name
        · rw [spelled, baseName_append, unbased base spelled, Option.getD_none]
        · rw [own, unnamed, Option.getD_none]
  · rintro rfl
    cases named : first.severity? name with
    | some wanted => exact .named named
    | none =>
        rw [Option.getD_none]
        obtain ⟨base, rfl⟩ | ⟨plain, own⟩ := suffixed_or_baseName_eq name
        · rw [baseName_append]
          cases based : first.severity? base with
          | some wanted => exact .based named rfl based
          | none =>
              refine .unchanged named fun other same => ?_
              have bases := congrArg baseName same
              rw [baseName_append, baseName_append] at bases
              rwa [← bases]
        · rw [own, named]
          exact .unchanged named fun base spelled => absurd spelled (plain base)

private theorem adjust_eq_map (checker : Checker) (name : String) (issues : List Issue) :
    checker.adjust name issues =
      issues.map fun issue => issue.withSeverity (checker.severityOf name issue) := by
  simp only [adjust, severity?, severityOf]
  cases checker.config.severity? name with
  | some severity => rfl
  | none =>
      cases checker.config.severity? (baseName name) with
      | some severity => rfl
      | none => exact (List.map_id' issues).symm

/-! ## What settings do -/

private theorem isEnabled_plain (checker : Checker) (name : String) :
    checker.plain.isEnabled name = true := rfl

private theorem adjust_plain (checker : Checker) (name : String) (issues : List Issue) :
    checker.plain.adjust name issues = issues := rfl

/-- The settings of a rule act on the result that it has without settings. -/
theorem result?_eq_plain (checker : Checker) (info : RuleInfo) (check : Unit → List Issue) :
    checker.result? info check =
      ((checker.plain.result? info check).filter fun result =>
        checker.isEnabled result.checkName).map checker.adjustResult := by
  rw [result?, result?, isEnabled_plain, if_pos rfl]
  cases check () with
  | nil => split <;> rfl
  | cons issue issues =>
      by_cases enabled : checker.isEnabled info.name = true <;>
        simp [enabled, adjust_plain, adjustResult, Option.filter]

private theorem runText_eq_plain (checker : Checker) (file : SourceFile) (rules : List TextRule) :
    checker.runText file rules = checker.settle (checker.plain.runText file rules) := by
  rw [runText, runText, settle, List.filter_filterMap, List.map_filterMap]
  exact List.filterMap_congr fun rule _ => result?_eq_plain checker rule.info _

private theorem runTree_eq_plain (checker : Checker) (file : SourceFile) (tree : Node)
    (rules : List TreeRule) :
    checker.runTree file tree rules = checker.settle (checker.plain.runTree file tree rules) := by
  rw [runTree, runTree, settle, List.filter_filterMap, List.map_filterMap]
  exact List.filterMap_congr fun rule _ => result?_eq_plain checker rule.info _

private theorem settle_append (checker : Checker) (front back : List CheckResult) :
    checker.settle (front ++ back) = checker.settle front ++ checker.settle back := by
  simp only [settle, List.filter_append, List.map_append]

/-- An analysis is the analysis without settings of single rules, less the results
of rules that are switched off and with the severities that are wanted. -/
theorem analyzeSource_eq_plain (checker : Checker) (path content : Text) :
    checker.analyzeSource path content =
      checker.settle (checker.plain.analyzeSource path content) := by
  rw [analyzeSource, analyzeSource, settle_append, settle_append]
  refine congrArg₂ _ (congrArg₂ _ (runText_eq_plain ..) ?_) (runText_eq_plain ..)
  have same : checker.plain.parse? content = checker.parse? content := rfl
  rw [same]
  cases checker.parse? content with
  | some tree => exact runTree_eq_plain ..
  | none => exact runText_eq_plain ..

private theorem mem_analyzeSource_iff {result : CheckResult} :
    result ∈ checker.analyzeSource path content ↔
      ∃ found ∈ checker.plain.analyzeSource path content,
        checker.isEnabled found.checkName = true ∧ checker.adjustResult found = result := by
  rw [analyzeSource_eq_plain, settle, List.mem_map]
  simp only [List.mem_filter, and_assoc]

/-! ## Settings under one key -/

/-- The settings under a key are settings of a rule of this name: the name is the key, or the key
with `-ast` behind it. -/
def AnswersTo (key name : String) : Prop :=
  name = key ∨ name = key ++ "-ast"

instance (key name : String) : Decidable (AnswersTo key name) :=
  inferInstanceAs (Decidable (name = key ∨ name = key ++ "-ast"))

/-- A rule answers to its name and to its base name. -/
theorem answersTo_iff : AnswersTo key name ↔ name = key ∨ baseName name = key := by
  constructor
  · rintro (same | suffixed)
    · exact .inl same
    · exact .inr (suffixed ▸ baseName_append key)
  · rintro (same | based)
    · exact .inl same
    · obtain ⟨base, rfl⟩ | ⟨_, own⟩ := suffixed_or_baseName_eq name
      · rw [baseName_append] at based
        exact .inr (based ▸ rfl)
      · exact .inl (own.symm.trans based)

/-- A rule runs if no name that it answers to is switched off. -/
theorem isEnabled_iff :
    isEnabled ⟨parser?, root, first⟩ name = true ↔
      ∀ key, AnswersTo key name → first.isEnabled key = true := by
  simp only [isEnabled, Bool.and_eq_true, answersTo_iff]
  constructor
  · rintro ⟨named, based⟩ key (rfl | rfl)
    · exact named
    · exact based
  · intro enabled
    exact ⟨enabled name (.inl rfl), enabled _ (.inr rfl)⟩

/-- An adjusted result is the result with the severities that are shown. -/
theorem adjustResult_eq_iff {found result : CheckResult} :
    adjustResult ⟨parser?, root, first⟩ found = result ↔
      result.checkName = found.checkName ∧
        List.Forall₂ (fun issue shown =>
          first.Shows found.checkName issue.severity shown.severity ∧
            issue.withSeverity shown.severity = shown) found.issues result.issues := by
  have shown (issue other : Issue) :
      first.Shows found.checkName issue.severity other.severity ∧
          issue.withSeverity other.severity = other ↔
        issue.withSeverity (severityOf ⟨parser?, root, first⟩ found.checkName issue) = other := by
    rw [shows_iff, severityOf]
    constructor
    · rintro ⟨severity, same⟩
      rw [← severity, same]
    · rintro rfl
      exact ⟨rfl, rfl⟩
  simp only [shown]
  rw [← List.forall₂_map_left_iff (R := Eq), List.forall₂_eq_eq_eq, ← adjust_eq_map]
  obtain ⟨checkName, issues⟩ := result
  rw [adjustResult, CheckResult.mk.injEq, eq_comm (a := found.checkName)]

private theorem plain_eq_of_agreeExcept (agree : first.AgreeExcept key second) :
    plain ⟨parser?, root, first⟩ = plain ⟨parser?, root, second⟩ := by
  simp only [plain, agree.analyzer, agree.thresholds, agree.report, agree.forbidden]

private theorem isEnabled_eq_of_agreeExcept (agree : first.AgreeExcept key second)
    (other : ¬ AnswersTo key name) :
    isEnabled ⟨parser?, root, first⟩ name = isEnabled ⟨parser?, root, second⟩ name := by
  obtain ⟨notName, notBase⟩ := not_or.mp (answersTo_iff.not.mp other)
  simp only [isEnabled, agree.isEnabled_eq notName, agree.isEnabled_eq notBase]

private theorem adjustResult_eq_of_agreeExcept (agree : first.AgreeExcept key second)
    {result : CheckResult} (other : ¬ AnswersTo key result.checkName) :
    adjustResult ⟨parser?, root, first⟩ result = adjustResult ⟨parser?, root, second⟩ result := by
  obtain ⟨notName, notBase⟩ := not_or.mp (answersTo_iff.not.mp other)
  simp only [adjustResult, adjust, severity?, agree.severity?_eq notName,
    agree.severity?_eq notBase]

/-- A rule is switched off by the settings under a key that it answers to. -/
theorem not_answersTo_of_isEnabled (disabled : checker.config.isEnabled key = false)
    (enabled : checker.isEnabled name = true) : ¬ AnswersTo key name := by
  intro answers
  rw [isEnabled_iff.mp enabled key answers] at disabled
  contradiction

/-- Leaving out rules before or after the settings are applied is the same. -/
theorem filter_settle (checker : Checker) (keep : String → Bool) (results : List CheckResult) :
    (checker.settle results).filter (fun result => keep result.checkName) =
      checker.settle (results.filter fun result => keep result.checkName) := by
  rw [settle, List.filter_map, settle, List.filter_comm]
  rfl

private theorem settle_eq_of_agreeExcept (agree : first.AgreeExcept key second)
    {results : List CheckResult} (others : ∀ result ∈ results, ¬ AnswersTo key result.checkName) :
    settle ⟨parser?, root, first⟩ results = settle ⟨parser?, root, second⟩ results := by
  have enabled : (results.filter fun result =>
      isEnabled ⟨parser?, root, first⟩ result.checkName) =
      results.filter fun result => isEnabled ⟨parser?, root, second⟩ result.checkName :=
    List.filter_congr fun result member =>
      isEnabled_eq_of_agreeExcept agree (others result member)
  rw [settle, settle, enabled]
  refine List.map_congr_left fun result member => ?_
  exact adjustResult_eq_of_agreeExcept agree (others result (List.mem_of_mem_filter member))

/-- The results of all other rules are the same, in the same order. -/
theorem filter_analyzeSource_eq (agree : first.AgreeExcept key second) :
    (analyzeSource ⟨parser?, root, first⟩ path content).filter
        (fun result => ¬ AnswersTo key result.checkName) =
      (analyzeSource ⟨parser?, root, second⟩ path content).filter
        fun result => ¬ AnswersTo key result.checkName := by
  let keep (name : String) : Bool := ¬ AnswersTo key name
  rw [analyzeSource_eq_plain, analyzeSource_eq_plain ⟨_, _, second⟩,
    plain_eq_of_agreeExcept agree, filter_settle _ keep, filter_settle _ keep]
  refine settle_eq_of_agreeExcept agree fun result member => ?_
  exact of_decide_eq_true (List.mem_filter.mp member).2

/-- Switching rules off leaves out their results and nothing else. -/
theorem analyzeSource_eq_filter (agree : first.AgreeExcept key second)
    (disabled : second.isEnabled key = false) :
    analyzeSource ⟨parser?, root, second⟩ path content =
      (analyzeSource ⟨parser?, root, first⟩ path content).filter
        fun result => ¬ AnswersTo key result.checkName := by
  rw [filter_analyzeSource_eq agree, eq_comm, List.filter_eq_self]
  intro result member
  obtain ⟨found, _, enabled, rfl⟩ := mem_analyzeSource_iff.mp member
  exact decide_eq_true (not_answersTo_of_isEnabled disabled enabled)

private theorem sameFindings_adjustResult (left right : Checker) (result : CheckResult) :
    (left.adjustResult result).SameFindings (right.adjustResult result) where
  checkName := rfl
  issues := by
    simp only [adjustResult, adjust_eq_map]
    rw [List.forall₂_map_left_iff, List.forall₂_map_right_iff, List.forall₂_same]
    exact fun issue _ => rfl

/-- Settings that switch nothing off change severities at most. -/
theorem forall₂_analyzeSource (agree : first.AgreeExcept key second)
    (enabledFirst : first.isEnabled key = true) (enabledSecond : second.isEnabled key = true) :
    List.Forall₂
      (fun left right => left.SameFindings right ∧
        (¬ AnswersTo key left.checkName → left = right))
      (analyzeSource ⟨parser?, root, first⟩ path content)
      (analyzeSource ⟨parser?, root, second⟩ path content) := by
  have configs (name : String) : first.isEnabled name = second.isEnabled name := by
    by_cases same : name = key
    · rw [same, enabledFirst, enabledSecond]
    · exact agree.isEnabled_eq same
  have enabled (name : String) :
      isEnabled ⟨parser?, root, first⟩ name = isEnabled ⟨parser?, root, second⟩ name := by
    simp only [isEnabled, configs]
  rw [analyzeSource_eq_plain, analyzeSource_eq_plain ⟨_, _, second⟩,
    plain_eq_of_agreeExcept agree, settle, settle]
  simp only [enabled]
  rw [List.forall₂_map_left_iff, List.forall₂_map_right_iff, List.forall₂_same]
  intro result _
  refine ⟨sameFindings_adjustResult _ _ result, fun other => ?_⟩
  exact adjustResult_eq_of_agreeExcept agree other

/-- Settings under one key do not interfere with the rules that do not answer to
it: their results are the same, in the same order. Switching the key off leaves out
exactly the results of the rules that answer to it, and otherwise only severities
change. Compared with the analysis without settings of single rules, those results are
there whose rules answer to no key that is switched off, with the severities that the
settings show. -/
theorem analyzeSource_noninterference (parser? : Option SourceParser) (root path content : Text)
    (agree : first.AgreeExcept key second) :
    (analyzeSource ⟨parser?, root, first⟩ path content).filter
        (fun result => ¬ AnswersTo key result.checkName) =
      (analyzeSource ⟨parser?, root, second⟩ path content).filter
        (fun result => ¬ AnswersTo key result.checkName) ∧
    (second.isEnabled key = false →
      analyzeSource ⟨parser?, root, second⟩ path content =
        (analyzeSource ⟨parser?, root, first⟩ path content).filter
          fun result => ¬ AnswersTo key result.checkName) ∧
    (first.isEnabled key = true → second.isEnabled key = true →
      List.Forall₂
        (fun left right => left.SameFindings right ∧
          (¬ AnswersTo key left.checkName → left = right))
        (analyzeSource ⟨parser?, root, first⟩ path content)
        (analyzeSource ⟨parser?, root, second⟩ path content)) ∧
    ∀ result, result ∈ analyzeSource ⟨parser?, root, second⟩ path content ↔
      ∃ found ∈ analyzeSource ⟨parser?, root, { second with rules := [] }⟩ path content,
        (∀ name, AnswersTo name found.checkName → second.isEnabled name = true) ∧
        result.checkName = found.checkName ∧
        List.Forall₂ (fun issue shown =>
          second.Shows found.checkName issue.severity shown.severity ∧
            issue.withSeverity shown.severity = shown) found.issues result.issues := by
  refine ⟨filter_analyzeSource_eq agree, analyzeSource_eq_filter agree,
    forall₂_analyzeSource agree, fun result => ?_⟩
  rw [mem_analyzeSource_iff]
  simp only [isEnabled_iff, adjustResult_eq_iff]
  rfl

/-- Severities for a structural rule, under its own name and under that of the rule that it
replaces. -/
def twoSeverities : Config :=
  { rules := [("empty-catch-blocks-ast", { severity? := some .warning }),
      ("empty-catch-blocks", { severity? := some .error })] }

/-- The same settings, but the replaced rule is switched off. -/
def withoutTwin : Config :=
  { rules := [("empty-catch-blocks-ast", { severity? := some .warning }),
      ("empty-catch-blocks", { enabled? := some false, severity? := some .error })] }

/-- An empty catch block before a task. -/
def catchAndTask : Text :=
  "try { f(); } catch { } // todo".toList

/-- A parser that finds the empty catch block. -/
def catchParser : SourceParser := fun _ =>
  some ⟨"compilation_unit", true, 0, 30, none,
    [⟨"catch_clause", true, 13, 22, none, [⟨"block", true, 19, 22, some "body", []⟩]⟩]⟩

/-- The names of the rules that found something, with the severities of what they found. -/
def outline (results : List CheckResult) : List (String × List Severity) :=
  results.map fun result => (result.checkName, result.issues.map Issue.severity)

/-- Of two severities the one under the own name of the structural rule is shown. Switching off the
rule that it replaces leaves its result out, and the task is reported as before. -/
theorem analyzeSource_noninterference_twin :
    Config.AgreeExcept "empty-catch-blocks" twoSeverities withoutTwin ∧
      outline (analyzeSource ⟨some catchParser, ['.'], twoSeverities⟩ "A.cs".toList catchAndTask) =
        [("empty-catch-blocks-ast", [.warning]), ("todo-comments", [.warning])] ∧
      outline (analyzeSource ⟨some catchParser, ['.'], withoutTwin⟩ "A.cs".toList catchAndTask) =
        [("todo-comments", [.warning])] := by
  have agree : Config.AgreeExcept "empty-catch-blocks" twoSeverities withoutTwin := by
    refine ⟨rfl, rfl, rfl, rfl, fun name other => ?_⟩
    simp [Config.rule?, twoSeverities, withoutTwin, List.lookup_cons, beq_false_of_ne other]
  obtain ⟨_, switchedOff, _⟩ :=
    analyzeSource_noninterference (some catchParser) ['.'] "A.cs".toList catchAndTask agree
  rw [switchedOff (by decide)]
  exact ⟨agree, by decide +kernel, by decide +kernel⟩

end Checker

end PatchLint

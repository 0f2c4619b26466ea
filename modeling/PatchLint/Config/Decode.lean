import PatchLint.Config.Basic
import PatchLint.Toml.Document

/-!
# Reading a configuration

A configuration is written as a TOML document. Keys that are not known say
nothing, a setting of the wrong kind makes the whole document invalid. A record
may also be written as an array of its settings in order, and a date counts as a
record that says nothing.
-/

namespace PatchLint.Config

open Toml (Value)

/-- A string. -/
def decodeText? : Value → Option Text
  | .string text => some text
  | _ => none

/-- A string. -/
def decodeString? (value : Value) : Option String :=
  (decodeText? value).map String.ofList

/-- A whole number that is not negative. -/
def decodeNat? : Value → Option Nat
  | .integer (.ofNat value) => some value
  | _ => none

/-- A truth value. -/
def decodeBool? : Value → Option Bool
  | .boolean value => some value
  | _ => none

/-- A value that holds nothing, which may follow the name of a choice. -/
def isEmptyValue : Value → Bool
  | .array items => items.isEmpty
  | .tables items => items.isEmpty
  | .table _ entries => entries.isEmpty
  | _ => false

/-- A choice by name: a string, or a table whose only key is the name and whose
value is empty. -/
def decodeChoice? {α : Type} (ofLabel? : String → Option α) : Value → Option α
  | .string text => ofLabel? (String.ofList text)
  | .table _ [(name, value)] =>
    if isEmptyValue value then ofLabel? (String.ofList name) else none
  | _ => none

/-- The items of an array. -/
def items? : Value → Option (List Value)
  | .array items => some items
  | .tables items => some (items.map fun entries => .table .header entries)
  | _ => none

/-- An array whose items are all of one kind. -/
def decodeList? {α : Type} (decode? : Value → Option α) (value : Value) : Option (List α) := do
  (← items? value).mapM decode?

/-- The settings of a record by name, from a table, an array or a date. -/
def settings? (names : List String) : Value → Option (List (String × Value))
  | .table _ entries => some (entries.map fun entry => (String.ofList entry.1, entry.2))
  | .datetime => some []
  | value => (items? value).map names.zip

/-- A setting that may be missing. -/
def optional? {α : Type} (settings : List (String × Value)) (name : String)
    (decode? : Value → Option α) : Option (Option α) :=
  match settings.lookup name with
  | none => some none
  | some value => (decode? value).map some

/-- A setting with a default. -/
def setting? {α : Type} (settings : List (String × Value)) (name : String)
    (decode? : Value → Option α) (default : α) : Option α :=
  (optional? settings name decode?).map fun found => found.getD default

/-- A setting that has to be there. -/
def required? {α : Type} (settings : List (String × Value)) (name : String)
    (decode? : Value → Option α) : Option α :=
  (settings.lookup name).bind decode?

/-- What is analyzed. -/
def decodeAnalyzer? (value : Value) : Option AnalyzerConfig := do
  let settings ← settings? ["root", "exclude", "parser"] value
  let defaults : AnalyzerConfig := {}
  return {
    root := ← setting? settings "root" decodeText? defaults.root
    exclude := ← setting? settings "exclude" (decodeList? decodeText?) defaults.exclude
    parser := ← setting? settings "parser" (decodeChoice? ParserMode.ofLabel?) defaults.parser }

/-- The limits of the rules that measure. -/
def decodeThresholds? (value : Value) : Option Thresholds := do
  let settings ← settings?
    ["max_indent_nesting", "max_tree_nesting", "max_method_lines", "max_complexity"] value
  let defaults : Thresholds := {}
  return {
    maxIndentNesting := ← setting? settings "max_indent_nesting" decodeNat?
      defaults.maxIndentNesting
    maxTreeNesting := ← setting? settings "max_tree_nesting" decodeNat? defaults.maxTreeNesting
    maxMethodLines := ← setting? settings "max_method_lines" decodeNat? defaults.maxMethodLines
    maxComplexity := ← setting? settings "max_complexity" decodeNat? defaults.maxComplexity }

/-- How result files are named and kept. -/
def decodeReport? (value : Value) : Option ReportConfig := do
  let settings ← settings?
    ["tool_name", "prefix", "output_dir", "keep_per_window", "max_total"] value
  let defaults : ReportConfig := {}
  return {
    toolName := ← setting? settings "tool_name" decodeString? defaults.toolName
    stem := ← setting? settings "prefix" decodeText? defaults.stem
    outputDir := ← setting? settings "output_dir" decodeText? defaults.outputDir
    keepPerWindow := ← setting? settings "keep_per_window" decodeNat? defaults.keepPerWindow
    maxTotal := ← setting? settings "max_total" decodeNat? defaults.maxTotal }

/-- A forbidden text, of which everything has to be given. -/
def decodeForbidden? (value : Value) : Option ForbiddenText := do
  let settings ← settings? ["pattern", "severity", "code", "description"] value
  return {
    pattern := ← required? settings "pattern" decodeString?
    severity := ← required? settings "severity" (decodeChoice? Severity.ofLabel?)
    code := ← required? settings "code" decodeString?
    description := ← required? settings "description" decodeString? }

/-- The settings of a single rule. -/
def decodeRule? (value : Value) : Option RuleConfig := do
  let settings ← settings? ["enabled", "severity"] value
  return {
    enabled? := ← optional? settings "enabled" decodeBool?
    severity? := ← optional? settings "severity" (decodeChoice? Severity.ofLabel?) }

/-- The settings of single rules: a table, and nothing else. -/
def decodeRules? : Value → Option (List (String × RuleConfig))
  | .table _ entries => entries.mapM fun entry => do
    return (String.ofList entry.1, ← decodeRule? entry.2)
  | _ => none

/-- The settings of a project. -/
def decode? (document : Toml.Table) : Option Config := do
  let settings := document.entries.map fun entry => (String.ofList entry.1, entry.2)
  return {
    analyzer := ← setting? settings "analyzer" decodeAnalyzer? {}
    thresholds := ← setting? settings "thresholds" decodeThresholds? {}
    report := ← setting? settings "report" decodeReport? {}
    forbidden := ← setting? settings "forbidden" (decodeList? decodeForbidden?) []
    rules := ← setting? settings "rules" decodeRules? [] }

/-- The configuration that a document describes, if it is valid. -/
def parse? (text : Text) : Option Config := do
  decode? (← Toml.document? text)

end PatchLint.Config

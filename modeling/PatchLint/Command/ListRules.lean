import PatchLint.Report

/-!
# The list of rules

The list of all rules with default limits, and of the texts that are forbidden
from the start, in columns.
-/

namespace PatchLint.ListRules

/-- A text in a column of some width, with blanks after it. -/
def column (width : Nat) (text : String) : String :=
  text ++ String.ofList (List.replicate (width - text.length) ' ')

/-- A line of the list. -/
def row (code name description : String) : String :=
  column 10 code ++ " " ++ column 30 name ++ " " ++ description

/-- The lines above a list. -/
def header (title : String) : List String :=
  [title ++ ":", "", row "Code" "Name" "Description", Report.ruler '-' 80]

/-- The line of a rule. -/
def ofRule (info : RuleInfo) : String :=
  row info.code info.name info.description

/-- The line of a forbidden text. -/
def ofForbidden (entry : ForbiddenText) : String :=
  column 10 entry.code ++ " " ++ column 8 entry.severity.label ++ " " ++ entry.pattern

/-- The lines of the list. -/
def lines : List String :=
  header "String-based rules" ++
    Catalog.allTextRules.map (fun rule => ofRule rule.info) ++ [""] ++
    header "Tree-sitter rules (replace their string-based twins when a file parses)" ++
    (Catalog.structuralRules {}).map (fun rule => ofRule rule.info) ++
    ["", "Forbidden strings (extend with [[forbidden]] in modcheck.toml):", ""] ++
    ForbiddenRegistry.defaults.entries.map ofForbidden ++
    ["", "Disable a rule or change its severity in modcheck.toml, e.g.:",
      "  [rules.todo-comments]", "  enabled = false"]

/-- The text of the list. -/
def render : String :=
  String.join (lines.map (· ++ "\n"))

end PatchLint.ListRules

import PatchLint.Issue

/-!
# Results as JSON

The part of JSON that results need, printed over several lines: each member on a
line of its own, two blanks further in than what it belongs to. An empty list or
object stays on one line.
-/

namespace PatchLint

/-- A value. -/
inductive JsonValue where
  /-- Text in quotes. -/
  | string (text : String)
  /-- A natural number. -/
  | number (value : Nat)
  /-- A list in brackets. -/
  | array (items : List JsonValue)
  /-- Named values in braces, in order. -/
  | object (fields : List (String × JsonValue))
deriving Repr

namespace JsonValue

/-- A hexadecimal digit in lower case. -/
def hexDigit (value : Nat) : Char :=
  (Nat.digitChar value)

/-- A character between quotes. Quotes, backslashes and control characters are
escaped, the latter by a letter where there is one. -/
def escape (c : Char) : Text :=
  if c = '"' then ['\\', '"']
  else if c = '\\' then ['\\', '\\']
  else if c = '\n' then ['\\', 'n']
  else if c = '\r' then ['\\', 'r']
  else if c = '\t' then ['\\', 't']
  else if c = '\x08' then ['\\', 'b']
  else if c = '\x0c' then ['\\', 'f']
  else if c.toNat < 0x20 then
    ['\\', 'u', '0', '0', hexDigit (c.toNat / 16), hexDigit (c.toNat % 16)]
  else [c]

/-- Text in quotes. -/
def quote (text : String) : Text :=
  '"' :: text.toList.flatMap escape ++ ['"']

/-- The start of a new line at a level. -/
def newLine (level : Nat) : Text :=
  '\n' :: List.replicate (2 * level) ' '

/-- Members between an opening and a closing mark, at a level. -/
def enclose (opening closing : Char) (level : Nat) (members : List Text) : Text :=
  if members.isEmpty then [opening, closing]
  else
    opening :: List.intercalate [','] (members.map (newLine (level + 1) ++ ·)) ++
      newLine level ++ [closing]

mutual

/-- A value whose first line stands at a level. -/
def print (level : Nat) : JsonValue → Text
  | .string text => quote text
  | .number value => (toString value).toList
  | .array items => enclose '[' ']' level (printItems (level + 1) items)
  | .object fields => enclose '{' '}' level (printFields (level + 1) fields)

/-- The members of a list. -/
def printItems (level : Nat) : List JsonValue → List Text
  | [] => []
  | item :: rest => print level item :: printItems level rest

/-- The members of an object. -/
def printFields (level : Nat) : List (String × JsonValue) → List Text
  | [] => []
  | (name, value) :: rest => (quote name ++ ':' :: ' ' :: print level value) :: printFields level rest

end

/-- The text of a value. -/
def render (value : JsonValue) : String :=
  String.ofList (print 0 value)

end JsonValue

/-- An issue as JSON. -/
def Issue.toJson (issue : Issue) : JsonValue :=
  .object [("file_path", .string issue.filePath), ("line_number", .number issue.line),
    ("severity", .string issue.severity.label), ("code", .string issue.code),
    ("description", .string issue.description)]

/-- The result of a run as JSON. -/
def LintResult.toJson (result : LintResult) : JsonValue :=
  .object [("issues", .array (result.issues.map Issue.toJson)),
    ("files_checked", .number result.filesChecked),
    ("parsing_method", .string result.parsingMethod)]

end PatchLint

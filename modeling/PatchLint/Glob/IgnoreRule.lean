import PatchLint.Glob.IgnorePattern

/-!
# Ignore files

Each line of an ignore file is a rule about what lies below the directory of the
file. A rule is matched against the relative path of an entry. The last rule
that matches decides, and a line that is not well formed is left out. A file in
which a pattern is nested too deeply has no rules at all.
-/

namespace PatchLint

/-- What a rule decides about an entry. -/
inductive Verdict where
  /-- The entry is left out. -/
  | ignore
  /-- The entry is kept, whatever rules of less weight say. -/
  | keep
deriving DecidableEq, Repr

/-- A rule of an ignore file. -/
structure IgnoreRule where
  /-- What the rule decides. -/
  verdict : Verdict
  /-- The rule is about directories only. -/
  directoriesOnly : Bool
  /-- The pattern of the paths that the rule is about. -/
  pattern : MeasuredGlob
deriving DecidableEq, Repr

namespace IgnoreRule

/-! ## Reading -/

/-- Leave out the blanks at the end of a line, unless the last one is escaped. -/
def trimLine (line : Text) : Text :=
  if ['\\', ' '].isSuffixOf line then line else line.trimEnd

/-- Leave out the slash at the end, and a backslash before it. -/
def dropSlash (pattern : Text) : Text :=
  let rest := pattern.dropLast
  if rest.getLast? = some '\\' then rest.dropLast else rest

/-- The full form of a pattern. A pattern without a slash is about entries
anywhere below, and one with a double star at the end only about what is in the
directory before it. -/
def complete (anchored : Bool) (pattern : Text) : Text :=
  let everywhere := ['*', '*']
  let located :=
    if anchored ∨ '/' ∈ pattern ∨ pattern = everywhere then pattern
    else everywhere ++ '/' :: pattern
  if ['/', '*', '*'].isSuffixOf located then located ++ ['/', '*'] else located

/-- The rule of a pattern with its slashes at both ends. -/
def ofPattern? (verdict : Verdict) (pattern : Text) : Option IgnoreRule :=
  let anchored := pattern.head? = some '/'
  let located := if anchored then pattern.drop 1 else pattern
  let directoriesOnly := located.getLast? = some '/'
  let body := if directoriesOnly then dropSlash located else located
  (IgnorePattern.read? (complete anchored body)).map fun read =>
    ⟨verdict, directoriesOnly, read⟩

/-- The rule of a line, if it has one. A backslash in front takes the meaning
from an exclamation mark or a number sign. -/
def ofLine? (line : Text) : Option IgnoreRule :=
  match trimLine line with
  | [] => none
  | '\\' :: c :: rest =>
    if c = '!' ∨ c = '#' then ofPattern? .ignore (c :: rest)
    else ofPattern? .ignore ('\\' :: c :: rest)
  | c :: rest =>
    if c = '#' then none
    else if c = '!' then ofPattern? .keep rest
    else ofPattern? .ignore (c :: rest)

/-- The lines of a file without the byte order marks at its start. -/
def dropMarks : List Text → List Text
  | [] => []
  | first :: more => first.dropWhile (· == '\uFEFF') :: more

/-- The rules of the lines of a file. They stand or fall together: if one of the
patterns is nested too deeply, there are none. -/
def ofLines (lines : List Text) : List IgnoreRule :=
  let rules := (dropMarks lines).filterMap ofLine?
  if rules.any fun rule => IgnorePattern.isTooDeep rule.pattern then [] else rules

/-! ## Deciding -/

/-- The rule is about the entry with this relative path. -/
def isAbout (rule : IgnoreRule) (isDirectory : Bool) (path : Text) : Bool :=
  (isDirectory || !rule.directoriesOnly) && rule.pattern.glob.covers (IgnorePattern.bytes path)

/-- What the last rule about an entry decides. -/
def verdict? (rules : List IgnoreRule) (isDirectory : Bool) (path : Text) : Option Verdict :=
  (rules.reverse.find? fun rule => rule.isAbout isDirectory path).map IgnoreRule.verdict

end IgnoreRule

end PatchLint

import PatchLint.Text.Basic

/-!
# Masking comments and literals

`codeLines` blanks comments and the contents of string and character literals,
so that whoever counts braces or looks for keywords sees code alone. A masked
line keeps the length of its source line and the delimiters of its literals.
Block comments and verbatim strings run on from line to line; every other mode
ends with its line.

`comment?` is the single-line view: the text of the first comment of a line.
-/

namespace PatchLint.Mask

/-- What the text at hand belongs to. -/
inductive Mode where
  /-- Code. -/
  | code
  /-- A comment that ends at `*/`. -/
  | blockComment
  /-- A string in which a backslash escapes. -/
  | string
  /-- A string in which a quote is written twice and a backslash is itself. -/
  | verbatim
  /-- A character literal. -/
  | character
deriving DecidableEq, Repr

/-- The mode in which the next line starts. -/
def Mode.nextLine : Mode → Mode
  | .blockComment => .blockComment
  | .verbatim => .verbatim
  | _ => .code

/-- The delimiter of an escaped literal. -/
def Mode.delimiter : Mode → Char
  | .character => '\''
  | _ => '"'

/-- A quote that comes right after these characters, the nearest first, opens a
verbatim string. -/
def opensVerbatim : Text → Bool
  | '@' :: _ => true
  | '$' :: '@' :: _ => true
  | _ => false

/-- A masked line with the mode at its end, with a character put in front. -/
def emit (c : Char) (masked : Text × Mode) : Text × Mode :=
  (c :: masked.1, masked.2)

/-- Mask the rest of a line. `before` holds what the line has so far, the
nearest character first. -/
def maskFrom (mode : Mode) (before : Text) (line : Text) : Text × Mode :=
  match mode, line with
  | mode, [] => ([], mode)
  | .code, '/' :: '/' :: rest => (List.replicate (rest.length + 2) ' ', .code)
  | .code, '/' :: '*' :: rest =>
    emit ' ' (emit ' ' (maskFrom .blockComment ('*' :: '/' :: before) rest))
  | .code, '"' :: rest =>
    emit '"' (maskFrom (if opensVerbatim before then .verbatim else .string) ('"' :: before) rest)
  | .code, '\'' :: rest => emit '\'' (maskFrom .character ('\'' :: before) rest)
  | .code, c :: rest => emit c (maskFrom .code (c :: before) rest)
  | .blockComment, '*' :: '/' :: rest =>
    emit ' ' (emit ' ' (maskFrom .code ('/' :: '*' :: before) rest))
  | .blockComment, c :: rest => emit ' ' (maskFrom .blockComment (c :: before) rest)
  | .verbatim, '"' :: '"' :: rest =>
    emit ' ' (emit ' ' (maskFrom .verbatim ('"' :: '"' :: before) rest))
  | .verbatim, '"' :: rest => emit '"' (maskFrom .code ('"' :: before) rest)
  | .verbatim, c :: rest => emit ' ' (maskFrom .verbatim (c :: before) rest)
  | mode, '\\' :: c :: rest => emit ' ' (emit ' ' (maskFrom mode (c :: '\\' :: before) rest))
  | mode, c :: rest =>
    if c = mode.delimiter then emit c (maskFrom .code (c :: before) rest)
    else emit ' ' (maskFrom mode (c :: before) rest)
termination_by structural line

/-- Mask a line that starts in the given mode. -/
def maskLine (mode : Mode) (line : Text) : Text × Mode :=
  maskFrom mode [] line

/-- Mask line after line, the first one starting in the given mode. -/
def maskLines : Mode → List Text → List Text
  | _, [] => []
  | mode, line :: rest =>
    (maskLine mode line).1 :: maskLines (maskLine mode line).2.nextLine rest

/-- The masked lines of a source text. -/
def codeLines (content : Text) : List Text :=
  maskLines .code content.lines

/-! ## The comment of a single line -/

/-- The text before the first `*/`, or all of it. -/
def blockCommentText : Text → Text
  | '*' :: '/' :: _ => []
  | c :: rest => c :: blockCommentText rest
  | [] => []

/-- The first comment at or after this place, which lies outside of a literal or
inside of one with the delimiter `quote`. -/
def commentFrom (quote : Option Char) (line : Text) : Option Text :=
  match quote, line with
  | _, [] => none
  | some delimiter, '\\' :: _ :: rest => commentFrom (some delimiter) rest
  | some delimiter, c :: rest =>
    commentFrom (if c = delimiter then none else some delimiter) rest
  | none, '/' :: '/' :: rest => some rest
  | none, '/' :: '*' :: rest => some (blockCommentText rest)
  | none, c :: rest => commentFrom (if c = '"' ∨ c = '\'' then some c else none) rest
termination_by structural line

/-- The text of the first comment of a line, without its delimiters. Comment
signs inside of string and character literals do not count. -/
def comment? (line : Text) : Option Text :=
  commentFrom none line

end PatchLint.Mask

import PatchLint.Text.Basic

/-!
# Kinds of lines

What a single line is, judged from its first characters: an attribute, a
directive of the preprocessor, a comment, or something that a search for the
declaration behind an attribute has to stop at.
-/

namespace PatchLint.Line

/-- The directives that may stand between an attribute and its declaration. -/
def directives : List String :=
  ["#if", "#else", "#elif", "#endif", "#region", "#endregion"]

/-- The name of the attribute that the line opens with: what stands between its
bracket and the first parenthesis or the closing bracket. There is none if the
bracket is not closed on the line or the name is empty. -/
def attributeName? (line : Text) : Option Text :=
  match line.trim with
  | '[' :: rest =>
    if rest.contains ']' then
      let name := Text.trim (Text.before '(' (Text.before ']' rest))
      if name.isEmpty then none else some name
    else none
  | _ => none

/-- The line is a directive of the preprocessor. -/
def isDirective (line : Text) : Bool :=
  directives.any line.trim.startsWith

/-- The line starts as a comment does, or as a line inside a block comment is
usually laid out. -/
def isComment (line : Text) : Bool :=
  line.trim.startsWith "//" || line.trim.startsWith "*" || line.trim.startsWith "/*"

/-- The line says nothing about the declaration that follows an attribute:
blank lines, comments, further attributes and directives. -/
def isSkippable (line : Text) : Bool :=
  line.trim.isEmpty || isComment line.trim || line.trim.startsWith "[" ||
    isDirective line.trim

end PatchLint.Line

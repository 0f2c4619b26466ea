import PatchLint.Text.Basic

/-!
# Numbers inside of identifiers of assemblies

A number that belongs to a globally unique identifier or to the metadata of an
assembly is not a number that a reader could name. Whether it does is judged
from its line: by a keyword anywhere in it, or by the shape of an identifier
near the number.
-/

namespace PatchLint

namespace GuidContext

/-- How many bytes on each side of a number are looked at. -/
def window : Nat := 20

/-- The words that mark a line of metadata, in lower case. -/
def keywords : List String :=
  ["guid", "assembly:", "typelib", "version="]

/-- A hexadecimal digit. -/
def isHexDigit (c : Char) : Bool :=
  c.isDigit || ('a' ≤ c && c ≤ 'f') || ('A' ≤ c && c ≤ 'F')

/-- A hexadecimal digit or the dash that joins groups of them. -/
def isHexOrDash (c : Char) : Bool :=
  isHexDigit c || c == '-'

/-- The lengths of the groups of a full identifier, which dashes join. -/
def groupLengths : List Nat :=
  [8, 4, 4, 4, 12]

/-- The text starts with groups of hexadecimal digits of these lengths, joined
by dashes. -/
def startsWithGroups : List Nat → Text → Bool
  | [], _ => true
  | [size], text => size ≤ text.length && (text.take size).all isHexDigit
  | size :: more, text =>
    size ≤ text.length && (text.take size).all isHexDigit &&
      match text.drop size with
      | '-' :: rest => startsWithGroups more rest
      | _ => false

/-- The text starts with hexadecimal digits and dashes between two delimiters,
with at least one of them. -/
def startsWithDelimited (opening closing : Char) : Text → Bool
  | [] => false
  | c :: rest =>
    c == opening && !(rest.takeWhile isHexOrDash).isEmpty &&
      (rest.dropWhile isHexOrDash).head? == some closing

/-- The text starts like a full identifier, or like a quoted or braced part of
one. -/
def startsLikeGuid (text : Text) : Bool :=
  startsWithGroups groupLengths text || startsWithDelimited '"' '"' text ||
    startsWithDelimited '{' '}' text

/-- The shape of an identifier occurs in the text. -/
def hasGuidShape (text : Text) : Bool :=
  text.cuts.any fun cut => startsLikeGuid cut.after

/-- The line mentions a keyword of metadata, in any letter case. -/
def mentionsKeyword (line : Text) : Bool :=
  keywords.any line.lower.mentions

/-- The part of a line around the bytes from `start` to `stop`, widened to whole
characters. There is none if the widened range is still the wrong way round. -/
def nearby? (line : Text) (start stop : Nat) : Option Text :=
  let first := Text.charsWithin (start - window) line
  let last := Text.charsBefore (stop + window) line
  if first ≤ last then some ((line.take last).drop first) else none

end GuidContext

/-- The bytes from `start` to `stop` of a line belong to an identifier or to
metadata. -/
def inGuidContext (line : Text) (start stop : Nat) : Bool :=
  GuidContext.mentionsKeyword line ||
    (GuidContext.nearby? line start stop).any GuidContext.hasGuidShape

end PatchLint

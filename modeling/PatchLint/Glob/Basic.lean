import PatchLint.Text.Basic

/-!
# Wildcard patterns

A pattern leads from places in a text to later ones, and it covers a text when
it leads from its start to its end. All places are followed at once, so that
stars that could divide a text among them in many ways cost no more than others.
How patterns are spelled is not settled here: exclude patterns and ignore files
have spellings of their own.
-/

namespace PatchLint

/-- A set of characters, given by ranges. -/
structure CharClass where
  /-- The set holds what lies outside of the ranges. -/
  negated : Bool
  /-- The ranges, with both ends in them. -/
  ranges : List (Char × Char)
deriving DecidableEq, Repr

namespace CharClass

/-- The set of one character. -/
def single (c : Char) : CharClass :=
  ⟨false, [(c, c)]⟩

/-- The set of all characters. -/
def all : CharClass :=
  ⟨true, []⟩

/-- The set of all characters but the slash. -/
def notSlash : CharClass :=
  ⟨true, [('/', '/')]⟩

/-- The character belongs to the set. -/
def contains (chars : CharClass) (c : Char) : Bool :=
  (chars.ranges.any fun (low, high) => low ≤ c && c ≤ high) != chars.negated

end CharClass

/-- A pattern. -/
inductive Glob where
  /-- No text. -/
  | empty
  /-- One character of a set. -/
  | one (chars : CharClass)
  /-- Any number of characters of a set. -/
  | many (chars : CharClass)
  /-- All that is left of the text. -/
  | remainder
  /-- A pattern followed by another one. -/
  | seq (first second : Glob)
  /-- One of two patterns. -/
  | either (first second : Glob)
deriving DecidableEq, Repr

namespace Glob

/-- A slash. -/
def slash : Glob :=
  .one (.single '/')

/-- Any text. -/
def anything : Glob :=
  .many .all

/-- Patterns one after the other. -/
def inOrder (globs : List Glob) : Glob :=
  globs.foldr .seq .empty

/-- Which places between the characters of a text have been reached, from its
start to its end. -/
abbrev Places := List Bool

/-- Only the start of a text. -/
def atStart (text : Text) : Places :=
  true :: text.map fun _ => false

/-- Only the end of a text, if any place has been reached. -/
def atEnd (places : Places) : Places :=
  places.dropLast.map (fun _ => false) ++ [places.any id]

/-- Go on by one character of a set. -/
def advance (chars : CharClass) (text : Text) (places : Places) : Places :=
  false :: List.zipWith (fun c place => place && chars.contains c) text places

/-- Go on by any number of characters of a set. `carried` says that the first
place is reached from before it. -/
def spread (chars : CharClass) (carried : Bool) : Text → Places → Places
  | c :: text, place :: places =>
    (place || carried) :: spread chars ((place || carried) && chars.contains c) text places
  | [], place :: _ => [place || carried]
  | _, [] => []

/-- The places that the pattern reaches from other places. -/
def reach (text : Text) : Glob → Places → Places
  | .empty, places => places
  | .one chars, places => advance chars text places
  | .many chars, places => spread chars false text places
  | .remainder, places => atEnd places
  | .seq first second, places => reach text second (reach text first places)
  | .either first second, places =>
    List.zipWith or (reach text first places) (reach text second places)

/-- The pattern matches the whole text. -/
def covers (glob : Glob) (text : Text) : Bool :=
  (reach text glob (atStart text)).getLast? == some true

end Glob

end PatchLint

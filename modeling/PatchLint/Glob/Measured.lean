import PatchLint.Glob.Basic

/-!
# How deeply patterns are nested

What a pattern covers does not depend on how it is spelled, but how deeply it is
nested does: braces around a pattern are a level of their own even if they hold
only one alternative. So the measure is taken while a pattern is put together.
-/

namespace PatchLint

/-- A pattern with the measure of its spelling. -/
structure MeasuredGlob where
  /-- What the pattern stands for. -/
  glob : Glob
  /-- How many things stand side by side in it. With none it says nothing. -/
  width : Nat
  /-- How many levels the deepest of these things has. -/
  depth : Nat
deriving DecidableEq, Repr

namespace MeasuredGlob

/-- One character for itself, which is no level. -/
def char (c : Char) : MeasuredGlob :=
  ⟨.one (.single c), 1, 0⟩

/-- A slash. -/
def slash : MeasuredGlob :=
  ⟨.slash, 1, 0⟩

/-- A slash, or nothing. -/
def optionalSlash : MeasuredGlob :=
  ⟨.either .empty .slash, 1, 1⟩

/-- One character of a set. Ranges side by side are a level below the set. -/
def one (chars : CharClass) : MeasuredGlob :=
  ⟨.one chars, 1, if chars.ranges.length ≤ 1 then 1 else 2⟩

/-- Any number of characters of a set, which are a level above the set. -/
def many (chars : CharClass) : MeasuredGlob :=
  ⟨.many chars, 1, (one chars).depth + 1⟩

/-- Any text. -/
def anything : MeasuredGlob :=
  ⟨.anything, 1, 1⟩

/-- Patterns one after the other. -/
def inOrder (parts : List MeasuredGlob) : MeasuredGlob where
  glob := .inOrder (parts.map MeasuredGlob.glob)
  width := parts.foldr (fun part width => part.width + width) 0
  depth := (parts.map MeasuredGlob.depth).foldl max 0

/-- How many levels a pattern has as one thing: those of its parts, and one more
if there are several. -/
def levels (part : MeasuredGlob) : Nat :=
  if part.width ≤ 1 then part.depth else part.depth + 1

/-- One of several patterns in braces, which are a level, with one more below it
for a choice. Alternatives that say nothing are left out, and braces without
alternatives say nothing. -/
def oneOf (branches : List MeasuredGlob) : MeasuredGlob :=
  match branches.filter (·.width ≠ 0) with
  | [] => ⟨.empty, 0, 0⟩
  | [only] => ⟨only.glob, 1, only.levels + 1⟩
  | first :: more =>
    ⟨more.foldl (fun glob branch => .either glob branch.glob) first.glob, 1,
      (more.map levels).foldl max first.levels + 2⟩

end MeasuredGlob

end PatchLint

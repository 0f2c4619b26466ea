import PatchLint.Glob.Basic

/-!
# Exclude patterns

A file is left out when its path, relative to the directory that is searched,
matches an exclude pattern, or when the path holds what is left of the pattern
without its double stars. The wildcards of these patterns do not stop at
slashes, and a pattern that is not well formed matches nothing.
-/

namespace PatchLint.Exclude

/-- What stands in brackets. -/
structure Bracket where
  /-- The brackets start with a mark of negation. -/
  negated : Bool
  /-- The characters between the brackets, without the mark. -/
  body : Text
  /-- How many characters follow the opening bracket, the closing one included. -/
  length : Nat
deriving DecidableEq, Repr

/-- The characters up to the closing bracket. The first of them is never taken
for it. -/
def bracketBody? : Text → Option Text
  | [] => none
  | first :: rest => if ']' ∈ rest then some (first :: Text.before ']' rest) else none

/-- The brackets whose opening one has been read, if they are closed. An
exclamation mark stands for negation. -/
def bracket? (text : Text) : Option Bracket :=
  let negated := text.head? == some '!'
  let marks := if negated then 1 else 0
  (bracketBody? (text.drop marks)).map fun body => ⟨negated, body, marks + body.length + 1⟩

/-- The ranges that stand in brackets: two characters with a dash between them,
or a single character. -/
def ranges : Text → List (Char × Char)
  | low :: '-' :: high :: rest => (low, high) :: ranges rest
  | c :: rest => (c, c) :: ranges rest
  | [] => []

/-- Any number of whole directories: nothing, text up to a slash, or all of the
text that is left. -/
def directories : Glob :=
  .either .empty (.either (.seq .anything .slash) .remainder)

/-- The parts of a pattern, if it is well formed. A double star has to be a
whole piece of the path, and takes the slash after it along; `previous` is the
character before, and `skip` characters belong to the last part. -/
def partsFrom? (previous : Option Char) : Nat → Text → Option (List Glob)
  | _, [] => some []
  | skip + 1, c :: rest => partsFrom? (some c) skip rest
  | 0, c :: rest =>
    if c = '?' then (partsFrom? (some c) 0 rest).map (.one .all :: ·)
    else if c = '*' then
      match rest with
      | '*' :: after =>
        let startsPiece := previous.all (· == '/')
        if startsPiece ∧ after = [] then (partsFrom? (some c) 1 rest).map (directories :: ·)
        else if startsPiece ∧ after.head? = some '/' then
          (partsFrom? (some c) 2 rest).map (directories :: ·)
        else none
      | _ => (partsFrom? (some c) 0 rest).map (.anything :: ·)
    else if c = '[' then
      (bracket? rest).bind fun bracket =>
        (partsFrom? (some c) bracket.length rest).map
          (.one ⟨bracket.negated, ranges bracket.body⟩ :: ·)
    else (partsFrom? (some c) 0 rest).map (.one (.single c) :: ·)

/-- What a pattern stands for, if it is well formed. -/
def glob? (pattern : Text) : Option Glob :=
  (partsFrom? none 0 pattern).map Glob.inOrder

/-- A pattern without its double stars. -/
def fragment : Text → Text
  | '*' :: '*' :: rest => fragment rest
  | c :: rest => c :: fragment rest
  | [] => []

/-- The path holds the fragment of the pattern. A fragment that says nothing, or
only that there is a path, is not looked for. -/
def holdsFragment (pattern relative : Text) : Bool :=
  fragment pattern != [] && fragment pattern != ['/'] &&
    (fragment pattern).occursIn ('/' :: relative)

/-- The pattern leaves out the file with this relative path. -/
def covers (pattern relative : Text) : Bool :=
  (glob? pattern).any (fun glob => glob.covers relative) || holdsFragment pattern relative

end PatchLint.Exclude

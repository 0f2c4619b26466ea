import PatchLint.Text.Basic

/-!
# Paths

A path is text whose pieces stand between slashes. Two spellings name the same
place when their parts agree: empty pieces and single dots say nothing, except
for the slash at the front and a dot as the first piece. Paths are compared and
ordered by parts, and shown as they were spelled.
-/

namespace PatchLint

/-- A piece of a path that says something. -/
inductive PathPart where
  /-- The slash at the front of an absolute path. -/
  | root
  /-- A dot as the first piece. -/
  | here
  /-- Two dots. -/
  | parent
  /-- The name of a file or directory. -/
  | name (text : Text)
deriving DecidableEq, Repr

namespace PathPart

/-- Parts are ordered by kind, and names by their characters. -/
def compare : PathPart → PathPart → Ordering
  | .root, .root => .eq
  | .root, _ => .lt
  | .here, .root => .gt
  | .here, .here => .eq
  | .here, _ => .lt
  | .parent, .parent => .eq
  | .parent, .name _ => .lt
  | .parent, _ => .gt
  | .name left, .name right => compareOfLessAndEq left right
  | .name _, _ => .gt

/-- What a piece says at a place that is not the first one. -/
def ofPiece? (piece : Text) : Option PathPart :=
  if piece = [] ∨ piece = ['.'] then none
  else if piece = ['.', '.'] then some .parent
  else some (.name piece)

/-- What the first piece of a relative path says. -/
def ofFirstPiece? (piece : Text) : Option PathPart :=
  if piece = ['.'] then some .here else ofPiece? piece

end PathPart

namespace Path

/-- A piece as it was spelled, with what it says. -/
structure Piece where
  /-- What the piece says, if anything. -/
  part? : Option PathPart
  /-- The spelling of the piece. -/
  text : Text
deriving DecidableEq, Repr

/-- The pieces of a path. The root is the empty piece before the first slash. -/
def pieces (path : Text) : List Piece :=
  match path.splitOn '/' with
  | [] => []
  | first :: more =>
    let front : Option PathPart :=
      if path.head? = some '/' then some .root else PathPart.ofFirstPiece? first
    ⟨front, first⟩ :: more.map fun piece => ⟨PathPart.ofPiece? piece, piece⟩

/-- What a path says. -/
def parts (path : Text) : List PathPart :=
  (pieces path).filterMap Piece.part?

/-- Two spellings of the same path. -/
def same (left right : Text) : Bool :=
  parts left == parts right

/-- Order paths by their parts. -/
def compareParts : List PathPart → List PathPart → Ordering
  | [], [] => .eq
  | [], _ :: _ => .lt
  | _ :: _, [] => .gt
  | left :: lefts, right :: rights => (left.compare right).then (compareParts lefts rights)

/-- The first path does not come after the second. -/
def le (left right : Text) : Bool :=
  compareParts (parts left) (parts right) != .gt

/-- Drop pieces up to and including the last of the first `count` that say
something. -/
def dropParts : Nat → List Piece → List Piece
  | 0, pieces => pieces
  | _ + 1, [] => []
  | count + 1, piece :: rest =>
    dropParts (if piece.part?.isSome then count else count + 1) rest

/-- Drop the pieces at the end that say nothing. -/
def dropTrailing (pieces : List Piece) : List Piece :=
  (pieces.reverse.dropWhile fun piece => piece.part?.isNone).reverse

/-- Spell pieces out again. -/
def spell (pieces : List Piece) : Text :=
  match pieces with
  | [⟨some .root, _⟩] => ['/']
  | _ => List.intercalate ['/'] (pieces.map Piece.text)

/-- The rest of a path below `root`, as it was spelled, when the path starts
with the parts of `root`. -/
def below? (root path : Text) : Option Text :=
  let rootParts := parts root
  if rootParts.isPrefixOf (parts path) then
    let rest := dropTrailing (dropParts rootParts.length (pieces path))
    some (spell (if rootParts = [] then rest else rest.dropWhile fun piece => piece.part?.isNone))
  else none

/-- A path followed by another one, which an absolute path replaces. -/
def join (path more : Text) : Text :=
  if path = [] ∨ more.head? = some '/' then more
  else if path.getLast? = some '/' then path ++ more
  else path ++ '/' :: more

/-- The path of the directory in which a path lies, as it was spelled. The root
lies in none, and neither does a path that says nothing. -/
def parent? (path : Text) : Option Text :=
  let spoken := dropTrailing (pieces path)
  match spoken.getLast? with
  | none => none
  | some last =>
    if last.part? = some .root then none else some (spell (dropTrailing spoken.dropLast))

/-- Leave out a dot and slash in front. -/
def dropHere (path : Text) : Text :=
  (Text.after? ['.', '/'] path).getD path

/-- Leave out a directory in front, by its characters, and the slash after it. -/
def dropStart (directory path : Text) : Text :=
  let rest := (Text.after? directory path).getD path
  (Text.after? ['/'] rest).getD rest

/-- A path the way it is shown: relative to the root when it lies below it,
with slashes only, and without a dot and slash in front. -/
def display (root path : Text) : Text :=
  dropHere (((below? root path).getD path).map fun c => if c = '\\' then '/' else c)

end Path

end PatchLint

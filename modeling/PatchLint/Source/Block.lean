import PatchLint.Text.Basic

/-!
# Blocks in braces

`blockSpan?` finds the block that follows a place in masked lines. The search
has two halves: `findOpen` reads the header up to the opening brace, and
`findClose` reads the body up to the brace that matches it. A semicolon outside
of parentheses ends the header, because then no body follows.
-/

namespace PatchLint

/-- The number of opening braces of a line less the number of closing ones. -/
def braceBalance : Text → Int
  | [] => 0
  | c :: rest =>
    (if c = '{' then 1 else if c = '}' then -1 else 0) + braceBalance rest

/-- The depth after each further line, the depth before the first one given. -/
def braceDepths (depth : Int) : List Text → List Int
  | [] => []
  | line :: rest => (depth + braceBalance line) :: braceDepths (depth + braceBalance line) rest

/-- Where a block stands, in lines counted from zero. -/
structure BlockSpan where
  /-- The line of the opening brace. -/
  openLine : Nat
  /-- The line of the closing brace. -/
  closeLine : Nat
  /-- Nothing but blanks stand between the braces. -/
  empty : Bool
deriving DecidableEq, Repr

namespace BlockSpan

/-- The characters of lines numbered from `number` on, each with its line. -/
def located (number : Nat) : List Text → List (Char × Nat)
  | [] => []
  | line :: rest => line.map (fun c => (c, number)) ++ located (number + 1) rest

/-- Read a header inside of `parens` parentheses up to its opening brace: the
line of that brace and what follows it. A closing parenthesis without an
opening one counts for nothing. -/
def findOpen (parens : Nat) : List (Char × Nat) → Option (Nat × List (Char × Nat))
  | [] => none
  | (c, line) :: rest =>
    if c = '{' then some (line, rest)
    else if c = ';' ∧ parens = 0 then none
    else if c = '(' then findOpen (parens + 1) rest
    else if c = ')' then findOpen (parens - 1) rest
    else findOpen parens rest

/-- Read a body inside of `inner` further blocks up to its closing brace: the
line of that brace, and whether only blanks were read. -/
def findClose (inner : Nat) (empty : Bool) : List (Char × Nat) → Option (Nat × Bool)
  | [] => none
  | (c, line) :: rest =>
    if c = '{' then findClose (inner + 1) false rest
    else if c = '}' then
      match inner with
      | 0 => some (line, empty)
      | outer + 1 => findClose outer false rest
    else findClose inner (empty && isBlank c) rest

/-- What a line holds from byte `column` on. A column past the end is the end,
and a column inside of a character leaves nothing. -/
def fromColumn (column : Nat) (line : Text) : Text :=
  (Text.dropBytes? (min column line.byteSize) line).getD []

/-- The characters from byte `column` of line `line` to the end, each with its
line. -/
def searchText (code : List Text) (line column : Nat) : List (Char × Nat) :=
  match code.drop line with
  | [] => []
  | first :: rest => located line (fromColumn column first :: rest)

end BlockSpan

/-- The block that starts at or after byte `column` of line `line`. There is
none if its header ends early or its body never does. -/
def blockSpan? (code : List Text) (line column : Nat) : Option BlockSpan := do
  let (openLine, body) ← BlockSpan.findOpen 0 (BlockSpan.searchText code line column)
  let (closeLine, empty) ← BlockSpan.findClose 0 true body
  return ⟨openLine, closeLine, empty⟩

end PatchLint

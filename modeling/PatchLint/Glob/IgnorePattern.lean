import PatchLint.Glob.Measured

/-!
# Patterns of ignore files

These patterns are matched byte by byte. A star and a question mark stop at
slashes, brackets do not, and braces hold alternatives, which may hold braces in
turn. A double star that is a whole piece of the path stands for any number of
directories. At the start of an alternative that takes a slash after it, and
elsewhere a slash before it, or in braces the comma or brace it stands behind.
A pattern may be nested only so deeply.
-/

namespace PatchLint.IgnorePattern

/-! ## Bytes -/

/-- The bytes of a text in UTF-8, each as a character of its own. -/
def bytes (text : Text) : Text :=
  text.flatMap fun c => (String.utf8EncodeChar c).map fun byte => Char.ofNat byte.toNat

/-- A character for itself. -/
def literal (c : Char) : MeasuredGlob :=
  .inOrder ((bytes [c]).map .char)

/-- What a range of characters says about a single byte. The ends of the range
are spelled out in bytes, of which the last of the one and the first of the
other are the ends of a range. -/
def byteRanges (range : Char × Char) : List (Char × Char) :=
  let single (byte : Char) : Char × Char := (byte, byte)
  let low := bytes [range.1]
  let high := bytes [range.2]
  if range.1 = range.2 then low.map single
  else low.dropLast.map single ++ (low.getLast?.toList.zip high.head?.toList) ++
    (high.drop 1).map single

/-! ## Brackets -/

/-- What came of reading brackets. -/
inductive Bracket where
  /-- The ranges between the brackets, and how many characters belong to them. -/
  | closed (ranges : List (Char × Char)) (length : Nat)
  /-- The closing bracket is missing. -/
  | unclosed
  /-- A range runs backwards. -/
  | backwards
deriving DecidableEq, Repr

/-- Read ranges up to the closing bracket, after `length` characters with the
ranges `done`, the last one first. The first character is never taken for the
closing bracket or a dash; a later dash waits for the other end of a range, and
stands for itself if none comes. -/
def readRanges (done : List (Char × Char)) (waiting : Bool) (length : Nat) : Text → Bracket
  | [] => .unclosed
  | c :: rest =>
    if c = ']' ∧ done ≠ [] then
      .closed (if waiting then ('-', '-') :: done else done) (length + 1)
    else
      match done, waiting with
      | (low, _) :: before, true =>
        if low ≤ c then readRanges ((low, c) :: before) false (length + 1) rest else .backwards
      | _, _ =>
        if c = '-' ∧ done ≠ [] then readRanges done true (length + 1) rest
        else readRanges ((c, c) :: done) false (length + 1) rest

/-! ## Pieces -/

/-- A part of a pattern. -/
inductive Piece where
  /-- A double star at the start of an alternative, with the slash after it. -/
  | anywhere
  /-- Anything else. -/
  | plain (part : MeasuredGlob)
deriving DecidableEq, Repr

namespace Piece

/-- What a piece stands for. -/
def part : Piece → MeasuredGlob
  | .anywhere => .oneOf [.optionalSlash, .inOrder [.anything, .slash]]
  | .plain part => part

/-- A double star between slashes. -/
def between : Piece :=
  .plain (.oneOf [.slash, .inOrder [.slash, .anything, .slash]])

/-- A double star after a slash, with nothing behind it. -/
def below : Piece :=
  .plain (.inOrder [.slash, .anything])

/-- A star. -/
def star : Piece :=
  .plain (.many .notSlash)

/-- What pieces stand for together. -/
def together (pieces : List Piece) : MeasuredGlob :=
  .inOrder (pieces.map part)

end Piece

/-- Braces of which the closing one has not been read. -/
structure Group where
  /-- The pieces before the opening brace, the last one first. -/
  before : List Piece
  /-- The alternatives that are complete, the last one first. -/
  branches : List MeasuredGlob
deriving DecidableEq, Repr

/-- A pattern that is being read. -/
structure State where
  /-- The braces that are open, the innermost first. -/
  groups : List Group := []
  /-- The pieces of the alternative at hand, the last one first. -/
  current : List Piece := []
  /-- The character before. -/
  previous? : Option Char := none
  /-- A bracket was not closed, so that brackets now stand for themselves. -/
  plainBrackets : Bool := false
deriving DecidableEq, Repr

namespace State

/-- Add a piece. -/
def push (state : State) (piece : Piece) : State :=
  { state with current := piece :: state.current }

/-- Add a pattern. -/
def pushPart (state : State) (part : MeasuredGlob) : State :=
  state.push (.plain part)

/-- The alternatives of the innermost braces, the one at hand included and first. -/
def branches (state : State) (group : Group) : List MeasuredGlob :=
  Piece.together state.current.reverse :: group.branches

/-- Open braces. -/
def openGroup (state : State) : State :=
  { state with groups := ⟨state.current, []⟩ :: state.groups, current := [] }

/-- Go on to the next alternative. Outside of braces a comma is a character. -/
def comma (state : State) : State :=
  match state.groups with
  | [] => state.pushPart (literal ',')
  | group :: outer =>
    { state with groups := ⟨group.before, state.branches group⟩ :: outer, current := [] }

/-- Close braces, if any are open. -/
def closeGroup? (state : State) : Option State :=
  match state.groups with
  | [] => none
  | group :: outer =>
    let part := MeasuredGlob.oneOf (state.branches group).reverse
    some { state with groups := outer, current := .plain part :: group.before }

/-- Put a piece in place of the last one. A double star that stands for any
directories already says as much. -/
def replaceLast (state : State) (piece : Piece) : State :=
  match state.current with
  | [] => state.push piece
  | .anywhere :: _ => state
  | .plain _ :: before => { state with current := piece :: before }

/-- Read two stars with `after` behind them: the state, and how many more
characters belong to them. -/
def doubleStar (state : State) (after : Text) : State × Nat :=
  let twoStars := (state.push .star).push .star
  if state.current = [] then
    if after.head?.all (· == '/') then (state.push .anywhere, 1) else (twoStars, 0)
  else if state.previous? = some '/' ∨ (state.groups ≠ [] ∧
      (state.previous? = some ',' ∨ state.previous? = some '{')) then
    match after with
    | [] => (state.replaceLast .below, 0)
    | '/' :: _ => (state.replaceLast .between, 1)
    | c :: _ =>
      if state.groups ≠ [] ∧ (c = ',' ∨ c = '}') then (state.replaceLast .below, 0)
      else (twoStars, 0)
  else (twoStars, 0)

/-- Read what follows an opening bracket, the mark of negation first. -/
def bracket? (state : State) (rest : Text) : Option (State × Nat) :=
  let negated := rest.head?.any fun c => c == '!' || c == '^'
  let marks := if negated then 1 else 0
  match readRanges [] false marks (rest.drop marks) with
  | .closed ranges length =>
    some (state.pushPart (.one ⟨negated, ranges.flatMap byteRanges⟩), length)
  | .unclosed => some ({ state.pushPart (literal '[') with plainBrackets := true }, 0)
  | .backwards => none

/-- Read a character with `rest` behind it: the state, and how many more
characters belong to it. -/
def step? (state : State) (c : Char) (rest : Text) : Option (State × Nat) :=
  if c = '?' then some (state.pushPart (.one .notSlash), 0)
  else if c = '*' then
    match rest with
    | '*' :: after =>
      let (next, taken) := state.doubleStar after
      some (next, taken + 1)
    | _ => some (state.push .star, 0)
  else if c = '[' ∧ !state.plainBrackets then state.bracket? rest
  else if c = '{' then some (state.openGroup, 0)
  else if c = '}' then state.closeGroup?.map fun next => (next, 0)
  else if c = ',' then some (state.comma, 0)
  else if c = '\\' then rest.head?.map fun escaped => (state.pushPart (literal escaped), 1)
  else some (state.pushPart (literal c), 0)

end State

/-- Read the pieces of a pattern, of which `skip` characters belong to the last
piece. There are none if braces do not match, a backslash stands at the end, or
a range runs backwards. -/
def piecesFrom? (state : State) : Nat → Text → Option (List Piece)
  | _, [] => if state.groups.isEmpty then some state.current.reverse else none
  | skip + 1, c :: rest => piecesFrom? { state with previous? := some c } skip rest
  | 0, c :: rest =>
    (state.step? c rest).bind fun (next, skip) =>
      piecesFrom? { next with previous? := some c } skip rest

/-- What a pattern stands for. A double star alone stands for everything. -/
def read? (pattern : Text) : Option MeasuredGlob :=
  (piecesFrom? {} 0 pattern).map fun pieces =>
    if pieces = [.anywhere] then .anything else Piece.together pieces

/-- How many levels a pattern may have at most. The pattern as a whole is one. -/
def maxLevels : Nat :=
  250

/-- The pattern is nested more deeply than patterns may be. -/
def isTooDeep (part : MeasuredGlob) : Bool :=
  maxLevels < part.depth + 1

end PatchLint.IgnorePattern

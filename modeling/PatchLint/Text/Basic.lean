import PatchLint.Text.Blank

/-!
# Text

Source text is a list of characters. Lines are what stands between line feeds,
so a carriage return stays in its line, and a position in a line is a number of
UTF-8 bytes: `byteSize` measures, `slice?` cuts, and `charsWithin` and
`charsBefore` round a byte position to the nearest character on either side.

A `Cut` is a place between two characters with what stands on both sides. Rules
that look for a shape anywhere in a line ask for a cut at which it starts.
-/

namespace PatchLint

/-- Text, one character after the other. -/
abbrev Text := List Char

namespace Text

/-- The lines of a text: the pieces between its line feeds. -/
def lines (text : Text) : List Text :=
  text.splitOn '\n'

/-! ## Blank space -/

/-- Drop the blanks at the start. -/
def trimStart (text : Text) : Text :=
  text.dropWhile isBlank

/-- Drop the blanks at the end. -/
def trimEnd (text : Text) : Text :=
  (text.reverse.dropWhile isBlank).reverse

/-- Drop the blanks at both ends. -/
def trim (text : Text) : Text :=
  trimEnd (trimStart text)

/-- Nothing but blanks. -/
def isBlankText (text : Text) : Bool :=
  text.all isBlank

/-! ## Parts of a text -/

/-- The text starts with these characters. -/
def startsWith (text : Text) (start : String) : Bool :=
  start.toList.isPrefixOf text

/-- What follows `start`, when the text starts with it. -/
def after? (start : Text) (text : Text) : Option Text :=
  if start.isPrefixOf text then some (text.drop start.length) else none

/-- The pattern occurs somewhere in the text. -/
def occursIn (pattern : Text) : Text → Bool
  | [] => pattern.isEmpty
  | c :: rest => pattern.isPrefixOf (c :: rest) || occursIn pattern rest

/-- The text mentions these characters somewhere. -/
def mentions (text : Text) (pattern : String) : Bool :=
  occursIn pattern.toList text

/-- Count from the left, where a counted occurrence hides those that overlap
it: `skip` characters still belong to the last one counted. -/
def countFrom (pattern : Text) : Nat → Text → Nat
  | _, [] => 0
  | skip + 1, _ :: rest => countFrom pattern skip rest
  | 0, c :: rest =>
    if pattern.isPrefixOf (c :: rest) then 1 + countFrom pattern (pattern.length - 1) rest
    else countFrom pattern 0 rest

/-- The number of occurrences of a non-empty pattern, found from the left and
without overlap. -/
def occurrences (text : Text) (pattern : String) : Nat :=
  countFrom pattern.toList 0 text

/-- The text before the first `mark`, or the whole text if there is none. -/
def before (mark : Char) (text : Text) : Text :=
  text.takeWhile (· != mark)

/-! ## Letter case -/

/-- The lower case of a character, as far as a search for ASCII text can see
it: the ASCII capitals, and the two other characters whose lower case holds an
ASCII letter. -/
def lowerChar (c : Char) : Text :=
  if c == '\u212A' then ['k']
  else if c == '\u0130' then ['i', '\u0307']
  else [c.toLower]

/-- Lower case for a search that ignores it. -/
def lower (text : Text) : Text :=
  text.flatMap lowerChar

/-! ## Byte positions -/

/-- The number of UTF-8 bytes. -/
def byteSize (text : Text) : Nat :=
  text.foldr (fun c size => c.utf8Size + size) 0

/-- What follows the first bytes, so many as given, when a character ends there. -/
def dropBytes? : Nat → Text → Option Text
  | 0, text => some text
  | _ + 1, [] => none
  | bytes + 1, c :: rest =>
    if c.utf8Size ≤ bytes + 1 then dropBytes? (bytes + 1 - c.utf8Size) rest else none

/-- The first bytes, so many as given, when a character ends there. -/
def takeBytes? : Nat → Text → Option Text
  | 0, _ => some []
  | _ + 1, [] => none
  | bytes + 1, c :: rest =>
    if c.utf8Size ≤ bytes + 1 then (takeBytes? (bytes + 1 - c.utf8Size) rest).map (c :: ·)
    else none

/-- The bytes from `start` to `stop`, when both lie between characters and in
this order. -/
def slice? (start stop : Nat) (text : Text) : Option Text :=
  if start ≤ stop then (dropBytes? start text).bind (takeBytes? (stop - start)) else none

/-- How many characters end within the first `bytes` bytes. -/
def charsWithin : Nat → Text → Nat
  | _, [] => 0
  | bytes, c :: rest =>
    if c.utf8Size ≤ bytes then 1 + charsWithin (bytes - c.utf8Size) rest else 0

/-- How many characters start before byte `bytes`. -/
def charsBefore : Nat → Text → Nat
  | 0, _ => 0
  | _ + 1, [] => 0
  | bytes + 1, c :: rest => 1 + charsBefore (bytes + 1 - c.utf8Size) rest

/-! ## Cuts -/

/-- A place between two characters of a text. -/
structure Cut where
  /-- What stands before the place, the nearest character first. -/
  before : Text
  /-- What stands after the place. -/
  after : Text
deriving DecidableEq, Repr

/-- The byte position of a cut. -/
def Cut.offset (cut : Cut) : Nat :=
  byteSize cut.before

/-- The cuts of a text of which `before` has been read, from left to right. -/
def cutsFrom (before : Text) : Text → List Cut
  | [] => [⟨before, []⟩]
  | c :: rest => ⟨before, c :: rest⟩ :: cutsFrom (c :: before) rest

/-- Every cut of a text, from its start to its end. -/
def cuts (text : Text) : List Cut :=
  cutsFrom [] text

end Text

end PatchLint

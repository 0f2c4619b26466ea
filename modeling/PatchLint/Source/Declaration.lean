import PatchLint.Text.Words

/-!
# Parts of declarations

The names that can be read off the text of a declaration or of a call without
parsing it, and the removal of type arguments that would get in the way.
-/

namespace PatchLint.Declaration

/-- The modifiers that a member of a class may start with. -/
def memberModifiers : List String :=
  ["public", "private", "protected", "internal", "static"]

/-- What stands before a parenthesis is the head of an initializer and not of a
declaration. -/
def isInitializerHead (head : Text) : Bool :=
  head.contains '=' || head.hasWord "new".toList

/-- Drop what stands in angle brackets, from a place inside of `depth` pairs. -/
def stripGenericsFrom (depth : Nat) : Text → Text
  | [] => []
  | c :: rest =>
    if c = '<' then stripGenericsFrom (depth + 1) rest
    else if c = '>' then stripGenericsFrom (depth - 1) rest
    else if depth = 0 then c :: stripGenericsFrom 0 rest
    else stripGenericsFrom depth rest

/-- Drop type arguments, nested ones included. -/
def stripGenerics (text : Text) : Text :=
  stripGenericsFrom 0 text

/-- Type arguments go with their brackets, and what stands around them stays. -/
theorem stripGenerics_append {front arguments : Text} (plain : ∀ c ∈ front, c ≠ '<' ∧ c ≠ '>')
    (inner : ∀ c ∈ arguments, c ≠ '<' ∧ c ≠ '>') (back : Text) :
    stripGenerics (front ++ '<' :: (arguments ++ '>' :: back)) = front ++ stripGenerics back := by
  have dropped : stripGenericsFrom 1 (arguments ++ '>' :: back) = stripGenericsFrom 0 back := by
    induction arguments with
    | nil => simp [stripGenericsFrom]
    | cons c rest ih =>
        obtain ⟨here, later⟩ := List.forall_mem_cons.mp inner
        simpa [stripGenericsFrom, here] using ih later
  induction front with
  | nil => simpa [stripGenerics, stripGenericsFrom] using dropped
  | cons c rest ih =>
      obtain ⟨here, later⟩ := List.forall_mem_cons.mp plain
      simpa [stripGenerics, stripGenericsFrom, here] using ih later

/-- What follows the keyword `class` at this cut, when it stands there on its
own and a blank follows it. -/
def afterClassKeyword? (cut : Text.Cut) : Option Text :=
  if cut.startsWord then
    (Text.after? "class".toList cut.after).filter fun rest => rest.head?.any isBlank
  else none

/-- The identifier after the first keyword `class`. -/
def className? (declaration : Text) : Option Text := do
  let rest ← declaration.cuts.findSome? afterClassKeyword?
  let name := rest.trimStart.takeWhile isWordChar
  if name.isEmpty then none else some name

/-- The identifier that ends at the cut, up to spaces and tabs. -/
def identifierBefore? (cut : Text.Cut) : Option Text :=
  let name := (cut.before.dropWhile fun c => c == ' ' || c == '\t').takeWhile isWordChar
  if name.isEmpty then none else some name.reverse

/-- An opening parenthesis follows the cut. -/
def opensParen (cut : Text.Cut) : Bool :=
  cut.after.head? == some '('

/-- The identifier before the first parenthesis. -/
def methodName? (declaration : Text) : Option Text := do
  identifierBefore? (← declaration.cuts.find? opensParen)

/-- Each identifier that a parenthesis follows, with the byte position of the
parenthesis, from left to right. -/
def callNames (line : Text) : List (Text × Nat) :=
  (line.cuts.filter opensParen).filterMap fun cut =>
    (identifierBefore? cut).map fun name => (name, cut.offset)

end PatchLint.Declaration

import PatchLint.Calendar
import PatchLint.Literal
import PatchLint.Toml.Basic

/-!
# Strings, numbers and dates of a document

Each reader takes the text at which a value starts, and gives the value with the
text behind it. It gives nothing if the value is malformed.
-/

namespace PatchLint.Toml

/-- A reader: the value at the start of a text, and what follows it. -/
abbrev Reader (α : Type) := Text → Option (α × Text)

/-- Spaces and tabs separate what stands on one line. -/
def isSpace (c : Char) : Bool :=
  c == ' ' || c == '\t'

/-- Drop spaces and tabs. -/
def skipSpace (text : Text) : Text :=
  text.dropWhile isSpace

/-- A character that may stand in a comment or, up to its delimiters, in a
string: a tab, or no control character. -/
def isPrintable (c : Char) : Bool :=
  c == '\t' || (0x20 ≤ c.toNat && c.toNat != 0x7F)

/-- What follows a line feed, which a carriage return may precede. -/
def afterNewline? : Text → Option Text
  | '\n' :: rest => some rest
  | '\r' :: '\n' :: rest => some rest
  | _ => none

/-! ## Strings -/

/-- The character of a hexadecimal escape. -/
def escaped? (digits : Text) : Option Char := do
  let code ← Literal.readNat? 16 digits
  if code.isValidChar then some (Char.ofNat code) else none

/-- Put a character in front of a string that has been read. -/
def prepend (c : Char) (read : Option (Text × Text)) : Option (Text × Text) :=
  read.map fun (text, rest) => (c :: text, rest)

/-- The character that a backslash and a letter stand for. -/
def simpleEscape? : Char → Option Char
  | 'b' => some '\x08'
  | 't' => some '\t'
  | 'n' => some '\n'
  | 'f' => some '\x0c'
  | 'r' => some '\r'
  | '"' => some '"'
  | '\\' => some '\\'
  | _ => none

/-- The rest of a string in quotes. -/
def basicBody : Reader Text
  | [] => none
  | '"' :: rest => some ([], rest)
  | '\\' :: 'u' :: a :: b :: c :: d :: rest => do
    prepend (← escaped? [a, b, c, d]) (basicBody rest)
  | '\\' :: 'U' :: a :: b :: c :: d :: e :: f :: g :: h :: rest => do
    prepend (← escaped? [a, b, c, d, e, f, g, h]) (basicBody rest)
  | '\\' :: c :: rest => do prepend (← simpleEscape? c) (basicBody rest)
  | c :: rest => if isPrintable c && c != '\\' then prepend c (basicBody rest) else none

/-- The rest of a string in apostrophes. -/
def literalBody : Reader Text
  | [] => none
  | '\'' :: rest => some ([], rest)
  | c :: rest => if isPrintable c then prepend c (literalBody rest) else none

/-- The rest of a string in three quotes. Up to two further quotes may stand
before those that end it. `trimming` says that a backslash at the end of a line
has been read, which drops the blanks and line breaks behind it. -/
def multilineBody (trimming : Bool) : Reader Text
  | [] => none
  | '"' :: '"' :: '"' :: '"' :: '"' :: rest => some (['"', '"'], rest)
  | '"' :: '"' :: '"' :: '"' :: rest => some (['"'], rest)
  | '"' :: '"' :: '"' :: rest => some ([], rest)
  | '\r' :: '\n' :: rest =>
    if trimming then multilineBody true rest else prepend '\n' (multilineBody false rest)
  | '\n' :: rest =>
    if trimming then multilineBody true rest else prepend '\n' (multilineBody false rest)
  | '\\' :: 'u' :: a :: b :: c :: d :: rest => do
    prepend (← escaped? [a, b, c, d]) (multilineBody false rest)
  | '\\' :: 'U' :: a :: b :: c :: d :: e :: f :: g :: h :: rest => do
    prepend (← escaped? [a, b, c, d, e, f, g, h]) (multilineBody false rest)
  | '\\' :: c :: rest =>
    if (afterNewline? (skipSpace (c :: rest))).isSome then multilineBody true (c :: rest)
    else do prepend (← simpleEscape? c) (multilineBody false rest)
  | c :: rest =>
    if trimming && isSpace c then multilineBody true rest
    else if isPrintable c && c != '\\' then prepend c (multilineBody false rest)
    else none

/-- The rest of a string in three apostrophes. Up to two further apostrophes may
stand before those that end it. -/
def multilineLiteralBody : Reader Text
  | [] => none
  | '\'' :: '\'' :: '\'' :: '\'' :: '\'' :: rest => some (['\'', '\''], rest)
  | '\'' :: '\'' :: '\'' :: '\'' :: rest => some (['\''], rest)
  | '\'' :: '\'' :: '\'' :: rest => some ([], rest)
  | '\r' :: '\n' :: rest => prepend '\n' (multilineLiteralBody rest)
  | '\n' :: rest => prepend '\n' (multilineLiteralBody rest)
  | c :: rest => if isPrintable c then prepend c (multilineLiteralBody rest) else none

/-- A line break right behind the opening delimiter does not count. -/
def dropFirstBreak (text : Text) : Text :=
  (afterNewline? text).getD text

/-- A string of any of the four notations. -/
def readString : Reader Text
  | '"' :: '"' :: '"' :: rest => multilineBody false (dropFirstBreak rest)
  | '"' :: rest => basicBody rest
  | '\'' :: '\'' :: '\'' :: rest => multilineLiteralBody (dropFirstBreak rest)
  | '\'' :: rest => literalBody rest
  | _ => none

/-! ## Numbers -/

/-- The rest of a run of digits, of which one has been read. An underscore may
stand between two digits. -/
def digitsAfter (isDigit : Char → Bool) : Reader Text
  | [] => some ([], [])
  | '_' :: c :: rest => if isDigit c then prepend c (digitsAfter isDigit rest) else none
  | c :: rest =>
    if isDigit c then prepend c (digitsAfter isDigit rest)
    else if c == '_' then none
    else some ([], c :: rest)

/-- A run of digits. -/
def readDigits (isDigit : Char → Bool) : Reader Text
  | [] => none
  | c :: rest => if isDigit c then prepend c (digitsAfter isDigit rest) else none

/-- The digits of a whole number in base ten, in which a zero stands alone. -/
def readWhole : Reader Text
  | '0' :: rest => some (['0'], rest)
  | text => readDigits Char.isDigit text

/-- An optional sign. -/
def readSign : Text → Text × Text
  | '+' :: rest => ([], rest)
  | '-' :: rest => (['-'], rest)
  | rest => ([], rest)

/-- The point and the digits behind it, if there is a point. -/
def readFraction : Reader Text
  | '.' :: rest => prepend '.' (readDigits Char.isDigit rest)
  | rest => some ([], rest)

/-- The exponent, if there is one. -/
def readExponent : Reader Text
  | c :: rest =>
    if c == 'e' || c == 'E' then do
      let (sign, rest) := readSign rest
      let (digits, rest) ← readDigits Char.isDigit rest
      return ('e' :: sign ++ digits, rest)
    else some ([], c :: rest)
  | [] => some ([], [])

/-- A whole number of 64 bits. -/
def integer? (base : Nat) (sign digits : Text) : Option Value := do
  let value ← Literal.readSigned? base (sign ++ digits)
  if -Int.pow 2 63 ≤ value ∧ value < Int.pow 2 63 then some (.integer value) else none

/-- A floating-point number. One that is too great is refused, one that is too
small counts as an infinite number below zero. -/
def float? (sign number : Text) : Option Value := do
  let decimal ← Literal.readDecimal? number
  if sign.isEmpty && decimal.overflows then none else some .float

/-- A number in base ten, with or without a fraction and an exponent. -/
def readDecimalNumber : Reader Value := fun text => do
  let (sign, text) := readSign text
  let (whole, text) ← readWhole text
  let (fraction, text) ← readFraction text
  let (exponent, text) ← readExponent text
  if fraction.isEmpty && exponent.isEmpty then return (← integer? 10 sign whole, text)
  else return (← float? sign (whole ++ fraction ++ exponent), text)

/-- A whole number in another base, with the letter of its base read. -/
def readBased (base : Nat) : Reader Value := fun text => do
  let (digits, rest) ← readDigits (fun c => (Literal.digitValue? base c).isSome) text
  return (← integer? base [] digits, rest)

/-- An infinite number, or none at all. -/
def readSpecial (text : Text) : Option (Value × Text) :=
  let (_, unsigned) := readSign text
  ((Text.after? "inf".toList unsigned).or (Text.after? "nan".toList unsigned)).map fun rest =>
    (.float, rest)

/-- A number. -/
def readNumber (text : Text) : Option (Value × Text) :=
  match text with
  | '0' :: 'x' :: rest => readBased 16 rest
  | '0' :: 'o' :: rest => readBased 8 rest
  | '0' :: 'b' :: rest => readBased 2 rest
  | _ => (readSpecial text).or (readDecimalNumber text)

/-! ## Dates and times -/

/-- A number of exactly so many digits, within bounds. -/
def readField (digits least greatest : Nat) : Reader Nat := fun text => do
  let field := text.take digits
  if field.length = digits ∧ field.all Char.isDigit then
    let value ← Literal.readNat? 10 field
    if least ≤ value ∧ value ≤ greatest then some (value, text.drop digits) else none
  else none

/-- What follows a character that has to come first. -/
def expect (c : Char) (text : Text) : Option Text :=
  Text.after? [c] text

/-- What follows a date. -/
def afterDate? (text : Text) : Option Text := do
  let (year, text) ← readField 4 0 9999 text
  let (month, text) ← readField 2 1 12 (← expect '-' text)
  let (_, text) ← readField 2 1 (daysOfMonth year month) (← expect '-' text)
  return text

/-- What follows a fraction of a second, if there is one. -/
def afterSecondFraction? : Text → Option Text
  | '.' :: c :: rest => if c.isDigit then some (rest.dropWhile Char.isDigit) else none
  | '.' :: [] => none
  | rest => some rest

/-- What follows a time of the day. -/
def afterTime? (text : Text) : Option Text := do
  let (_, text) ← readField 2 0 23 text
  let (_, text) ← readField 2 0 59 (← expect ':' text)
  let (_, text) ← readField 2 0 60 (← expect ':' text)
  afterSecondFraction? text

/-- What follows the distance from universal time, if it is given. -/
def afterOffset? : Text → Option Text
  | [] => some []
  | c :: rest =>
    if c == 'Z' || c == 'z' then some rest
    else if c == '+' || c == '-' then do
      let (_, text) ← readField 2 0 23 rest
      let (_, text) ← readField 2 0 59 (← expect ':' text)
      return text
    else some (c :: rest)

/-- What follows the time behind a date, if there is one. A blank behind a date
need not belong to it. -/
def afterDateTime? (text : Text) : Option Text :=
  match text with
  | c :: rest =>
    if (c == 'T' || c == 't' || c == ' ') && (readField 2 0 23 rest).any (·.2.head? == some ':')
    then (afterTime? rest).bind afterOffset?
    else some text
  | [] => some []

/-- The text starts with a date: four digits and a dash. -/
def startsDate (text : Text) : Bool :=
  (readField 4 0 9999 text).any (·.2.head? == some '-')

/-- The text starts with a time: two digits and a colon. -/
def startsTime (text : Text) : Bool :=
  (readField 2 0 23 text).any (·.2.head? == some ':')

/-- A number, a date or a time. -/
def readNumberOrDate (text : Text) : Option (Value × Text) :=
  if startsDate text then ((afterDate? text).bind afterDateTime?).map fun rest => (.datetime, rest)
  else if startsTime text then (afterTime? text).map fun rest => (.datetime, rest)
  else readNumber text

/-- A value that is neither an array nor a table. -/
def readScalar (text : Text) : Option (Value × Text) :=
  match text with
  | [] => none
  | c :: _ =>
    if c == '"' || c == '\'' then (readString text).map fun (value, rest) => (.string value, rest)
    else if c == 't' then
      (Text.after? "true".toList text).map fun rest => (.boolean true, rest)
    else if c == 'f' then
      (Text.after? "false".toList text).map fun rest => (.boolean false, rest)
    else readNumberOrDate text

end PatchLint.Toml

import PatchLint.Toml.Scalar

/-!
# Documents

A document is a sequence of headers and pairs of a key and a value, one on a
line. `statements?` reads them, and `document?` puts them together: every header
opens a table, and the pairs up to the next header go into it. Nesting of arrays
and braces and the number of parts of a key are bounded.
-/

namespace PatchLint.Toml

/-- Arrays and braces may stand in each other less often than this, and a key
has fewer parts. -/
def nestingLimit : Nat := 80

/-! ## Keys -/

/-- A character of a key without quotes. -/
def isKeyChar (c : Char) : Bool :=
  c.isAlphanum || c == '-' || c == '_'

/-- One part of a key. -/
def readKeyPart (text : Text) : Option (Text × Text) :=
  match text with
  | '"' :: rest => basicBody rest
  | '\'' :: rest => literalBody rest
  | _ =>
    if text.head?.any isKeyChar then some (text.takeWhile isKeyChar, text.dropWhile isKeyChar)
    else none

/-- The parts of a key that dots join, blanks around them dropped. The fuel
bounds the number of parts. -/
def readKeyParts : Nat → Text → Option (List Text × Text)
  | 0, _ => none
  | fuel + 1, text => do
    let (part, rest) ← readKeyPart (skipSpace text)
    match skipSpace rest with
    | '.' :: rest => do
      let (parts, rest) ← readKeyParts fuel rest
      return (part :: parts, rest)
    | rest => return ([part], rest)

/-- A key: the parts on the way, and the last part. -/
structure Key where
  /-- The tables that the key leads through. -/
  path : List Text
  /-- The name in the last table. -/
  name : Text
deriving DecidableEq, Repr

/-- A key. -/
def readKey (text : Text) : Option (Key × Text) := do
  let (parts, rest) ← readKeyParts (nestingLimit - 1) text
  return (⟨parts.dropLast, ← parts.getLast?⟩, rest)

/-! ## Arrays and tables in braces -/

/-- Drop blanks, line breaks and comments. -/
def skipLayout (inComment : Bool) : Text → Text
  | [] => []
  | '\n' :: rest => skipLayout false rest
  | '\r' :: '\n' :: rest => skipLayout false rest
  | c :: rest =>
    if inComment then if isPrintable c then skipLayout true rest else c :: rest
    else if c == '#' then skipLayout true rest
    else if isSpace c then skipLayout false rest
    else c :: rest

/-- The rest of an array. The fuel bounds the number of items. -/
def readItems (item : Reader Value) : Nat → Text → Option (List Value × Text)
  | 0, _ => none
  | fuel + 1, text =>
    match skipLayout false text with
    | ']' :: rest => some ([], rest)
    | text => do
      let (value, rest) ← item text
      match skipLayout false rest with
      | ',' :: rest => do
        let (values, rest) ← readItems item fuel rest
        return (value :: values, rest)
      | ']' :: rest => return ([value], rest)
      | _ => none

/-- A key, an equals sign and a value. -/
def readPair (item : Reader Value) (text : Text) : Option ((Key × Value) × Text) := do
  let (key, rest) ← readKey text
  let (value, rest) ← item (skipSpace (← expect '=' rest))
  return ((key, value), rest)

/-- The rest of a table in braces behind a pair or at its start. The fuel bounds
the number of pairs. -/
def readPairs (item : Reader Value) : Nat → Text → Option (List (Key × Value) × Text)
  | 0, _ => none
  | fuel + 1, text => do
    let (pair, rest) ← readPair item text
    match skipSpace rest with
    | ',' :: rest => do
      let (pairs, rest) ← readPairs item fuel rest
      return (pair :: pairs, rest)
    | '}' :: rest => return ([pair], rest)
    | _ => none

/-- Add pairs one after the other. -/
def addPairs? (table : Table) (pairs : List (Key × Value)) : Option Table :=
  pairs.foldlM (fun table pair => table.addPair? pair.1.path pair.1.name pair.2) table

/-- A value. The depth bounds the nesting of arrays and braces. -/
def readValue : Nat → Text → Option (Value × Text)
  | 0, text => readScalar text
  | depth + 1, text =>
    match text with
    | '[' :: rest =>
      (readItems (readValue depth) (rest.length + 1) rest).map fun (items, rest) =>
        (.array items, rest)
    | '{' :: rest =>
      match skipSpace rest with
      | '}' :: rest => some (.table .braces [], rest)
      | rest => do
        let (pairs, rest) ← readPairs (readValue depth) (rest.length + 1) rest
        let table ← addPairs? ⟨.braces, []⟩ pairs
        return (.table .braces table.entries, rest)
    | _ => readScalar text

/-! ## Statements -/

/-- A line of a document. -/
inductive Statement where
  /-- The header of a table. -/
  | header (key : Key)
  /-- The header of a further table of an array. -/
  | arrayHeader (key : Key)
  /-- A pair that belongs to the last header. -/
  | pair (key : Key) (value : Value)
deriving Repr

/-- What follows the end of a line: blanks, a comment, and a line break or the
end of the document. -/
def afterLine? (text : Text) : Option Text :=
  match skipSpace text with
  | '#' :: rest => lineEnd? (rest.dropWhile isPrintable)
  | rest => lineEnd? rest
where
  /-- What follows a line break, or the end of the document. -/
  lineEnd? : Text → Option Text
    | [] => some []
    | rest => afterNewline? rest

/-- The statement at the start of a line. -/
def readStatement (text : Text) : Option (Statement × Text) :=
  match text with
  | '[' :: '[' :: rest => do
    let (key, rest) ← readKey rest
    return (.arrayHeader key, ← Text.after? "]]".toList rest)
  | '[' :: rest => do
    let (key, rest) ← readKey rest
    return (.header key, ← expect ']' rest)
  | _ => do
    let ((key, value), rest) ← readPair (readValue (nestingLimit - 1)) text
    return (.pair key value, rest)

/-- The statements of a document. The fuel bounds the number of lines. -/
def readStatements : Nat → Text → Option (List Statement)
  | 0, _ => none
  | fuel + 1, text =>
    match skipSpace text with
    | [] => some []
    | '#' :: _ => (afterLine? text).bind (readStatements fuel)
    | text =>
      match afterNewline? text with
      | some rest => readStatements fuel rest
      | none => do
        let (statement, rest) ← readStatement text
        return statement :: (← readStatements fuel (← afterLine? rest))

/-- The statements of a document, which a byte order mark may precede. -/
def statements? (document : Text) : Option (List Statement) :=
  let text := (Text.after? ['\ufeff'] document).getD document
  readStatements (text.length + 1) text

/-! ## Documents -/

/-- Fill the table under a header. A table that was only named so far is filled
up; the table then takes the last place. -/
def fillTable? (name : Text) (pairs : List (Key × Value)) (parent : Table) : Option Table := do
  let start ← match parent.get? name with
    | none => some []
    | some (.table kind entries) => if kind = .parent then some entries else none
    | some _ => none
  let table ← addPairs? ⟨.header, start⟩ pairs
  (parent.erase name).add? name (.table .header table.entries)

/-- Add a table to an array of tables. -/
def fillArray? (name : Text) (pairs : List (Key × Value)) (parent : Table) : Option Table := do
  let table ← addPairs? ⟨.header, []⟩ pairs
  match parent.get? name with
  | none => parent.add? name (.tables [table.entries])
  | some (.tables items) => return parent.set name (.tables (items ++ [table.entries]))
  | some _ => none

/-- A header with the pairs up to the next one. -/
structure Section where
  /-- The header, unless the section stands before all headers. -/
  header? : Option (Key × Bool)
  /-- The pairs of the section. -/
  pairs : List (Key × Value)
deriving Repr

/-- Divide statements into what belongs to no header of theirs, and sections. -/
def sections : List Statement → List (Key × Value) × List Section
  | [] => ([], [])
  | statement :: rest =>
    let (pairs, others) := sections rest
    match statement with
    | .pair key value => ((key, value) :: pairs, others)
    | .header key => ([], ⟨some (key, false), pairs⟩ :: others)
    | .arrayHeader key => ([], ⟨some (key, true), pairs⟩ :: others)

/-- Add a section to a document. -/
def addSection? (document : Table) (part : Section) : Option Table :=
  match part.header? with
  | none => addPairs? document part.pairs
  | some (key, isArray) =>
    document.modifyAt? .parent
      (if isArray then fillArray? key.name part.pairs else fillTable? key.name part.pairs) key.path

/-- The table that a document describes, if it is well formed. -/
def document? (text : Text) : Option Table := do
  let (pairs, parts) := sections (← statements? text)
  (⟨none, pairs⟩ :: parts).foldlM addSection? ⟨.header, []⟩

end PatchLint.Toml

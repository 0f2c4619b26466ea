import PatchLint.Text.Basic

/-!
# TOML values

What a TOML document holds, as far as a reader of settings can tell: floats and
dates are known by their kind only. A table remembers how it came about, because
that decides whether more may be added to it later.
-/

namespace PatchLint.Toml

/-- How a table came about. -/
structure TableKind where
  /-- It is, or belongs to, a table in braces. -/
  inline : Bool
  /-- It was only named on the way to another key. -/
  implicit : Bool
  /-- It was named in a dotted key. -/
  dotted : Bool
deriving DecidableEq, Repr

namespace TableKind

/-- A table in braces. -/
def braces : TableKind := ⟨true, false, false⟩

/-- A table under its own header, and the document itself. -/
def header : TableKind := ⟨false, false, false⟩

/-- A table that the header of another one names. -/
def parent : TableKind := ⟨false, true, false⟩

/-- A table that a dotted key names, inside of braces or not. -/
def onTheWay (inline : Bool) : TableKind := ⟨inline, true, true⟩

end TableKind

/-- A value of a document. -/
inductive Value where
  /-- A string of any of the four notations. -/
  | string (text : Text)
  /-- A whole number of 64 bits. -/
  | integer (value : Int)
  /-- A floating-point number. -/
  | float
  /-- A truth value. -/
  | boolean (value : Bool)
  /-- A date, a time, or both. -/
  | datetime
  /-- An array in brackets. -/
  | array (items : List Value)
  /-- The tables under headers in double brackets. -/
  | tables (items : List (List (Text × Value)))
  /-- A table with its entries, in the order of their first appearance. -/
  | table (kind : TableKind) (entries : List (Text × Value))
deriving Repr

/-- A table that is still being filled. -/
structure Table where
  /-- How the table came about. -/
  kind : TableKind
  /-- The entries so far. -/
  entries : List (Text × Value)
deriving Repr

namespace Table

/-- The value of a key. -/
def get? (table : Table) (key : Text) : Option Value :=
  table.entries.lookup key

/-- Put a value in the place of the one that the key has, or at the end. -/
def setEntry (key : Text) (value : Value) : List (Text × Value) → List (Text × Value)
  | [] => [(key, value)]
  | entry :: rest =>
    if entry.1 = key then (key, value) :: rest else entry :: setEntry key value rest

/-- Put a value in the place of the one that the key has, or at the end. -/
def set (table : Table) (key : Text) (value : Value) : Table :=
  { table with entries := setEntry key value table.entries }

/-- Leave a key out. -/
def erase (table : Table) (key : Text) : Table :=
  { table with entries := table.entries.filter fun entry => entry.1 != key }

/-- Add a key that has no value yet. -/
def add? (table : Table) (key : Text) (value : Value) : Option Table :=
  if (table.get? key).isSome then none
  else some { table with entries := table.entries ++ [(key, value)] }

/-- Change the table that the keys lead to. Tables that do not exist are made on
the way, of the kind `made`. A header leads into the last table of an array; a
dotted key does not lead into a table that has a header or braces of its own. -/
def modifyAt? (made : TableKind) (change : Table → Option Table) :
    List Text → Table → Option Table
  | [], table => change table
  | key :: path, table =>
    match table.get? key with
    | none => do
      let child ← modifyAt? made change path ⟨made, []⟩
      table.add? key (.table child.kind child.entries)
    | some (.table kind entries) =>
      if kind.inline != made.inline || (made.dotted && !kind.implicit) then none
      else do
        let child ← modifyAt? made change path ⟨kind, entries⟩
        return table.set key (.table child.kind child.entries)
    | some (.tables items) => do
      let last ← items.getLast?
      let child ← modifyAt? made change path ⟨.header, last⟩
      return table.set key (.tables (items.dropLast ++ [child.entries]))
    | some _ => none

/-- Add a value under a dotted key. The table that takes it was named by a
dotted key too, or the key has no dots. -/
def addPair? (table : Table) (path : List Text) (key : Text) (value : Value) : Option Table :=
  modifyAt? (.onTheWay table.kind.inline)
    (fun target => if target.kind.dotted = path.isEmpty then none else target.add? key value)
    path table

end Table

end PatchLint.Toml

import PatchLint.Rule.Basic
import PatchLint.Source.Line
import PatchLint.Text.Words

/-!
# Disposable objects

An object that has to be disposed of and is created outside of a `using`.
-/

namespace PatchLint.Disposable

/-- The types whose objects have to be disposed of. -/
def types : List String :=
  ["FileStream", "StreamWriter", "StreamReader", "SqlConnection", "HttpClient"]

/-- An object of the type is created at this cut: the word `new`, blanks, and
the name of the type on its own. -/
def createsAt (type : String) (cut : Text.Cut) : Bool :=
  cut.startsRun &&
    match Text.after? "new".toList cut.after with
    | some rest =>
      rest.head?.any isBlank && (Text.after? type.toList rest.trimStart).any Text.endsRun
    | none => false

/-- An object of the type is created on the line. -/
def creates (line : Text) (type : String) : Bool :=
  line.cuts.any (createsAt type)

/-- The findings on a line, numbered from one: one for each type. -/
def checkLine (file : SourceFile) (line : Text × Nat) : List Issue :=
  if Line.isComment line.1 || line.1.hasWord "using".toList then []
  else
    (types.filter (creates line.1)).map fun type =>
      file.issue line.2 .error "BCS010"
        ("IDisposable type '" ++ type ++ "' should be wrapped in using statement")

/-- Disposable objects have to be created in a `using`. -/
def textRule : TextRule where
  info := ⟨"disposable-usage", "BCS010",
    "Flags IDisposable types created outside a using statement", .error⟩
  check file := file.numberedLines.flatMap (checkLine file)

end PatchLint.Disposable

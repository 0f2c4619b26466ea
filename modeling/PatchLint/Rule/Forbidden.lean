import PatchLint.Rule.Basic

/-!
# Forbidden text

A registry of text that must not occur in a source file. A text is registered
once: registering it again replaces what is said about it and keeps its place.
-/

namespace PatchLint

/-- A text that must not occur, with the finding about it. -/
structure ForbiddenText where
  /-- The text, letter case included. -/
  pattern : String
  /-- The severity of an occurrence. -/
  severity : Severity
  /-- The code of an occurrence. -/
  code : String
  /-- What is said about an occurrence. -/
  description : String
deriving DecidableEq, Repr

/-- The registered texts, in the order of their first registration. -/
structure ForbiddenRegistry where
  /-- The entries of the registry. -/
  entries : List ForbiddenText := []
deriving DecidableEq, Repr

namespace ForbiddenRegistry

/-- Put an entry in the place of one with the same pattern, or at the end. -/
def insertInto (entry : ForbiddenText) : List ForbiddenText → List ForbiddenText
  | [] => [entry]
  | existing :: rest =>
    if existing.pattern = entry.pattern then entry :: rest
    else existing :: insertInto entry rest

/-- Register a text. -/
def register (registry : ForbiddenRegistry) (entry : ForbiddenText) : ForbiddenRegistry :=
  ⟨insertInto entry registry.entries⟩

/-- Register texts one after the other. -/
def registerAll (registry : ForbiddenRegistry) (entries : List ForbiddenText) :
    ForbiddenRegistry :=
  entries.foldl register registry

/-- The texts that are forbidden in every project. -/
def defaultEntries : List ForbiddenText :=
  [⟨"throw new NotImplementedException(", .error, "BCS002",
      "NotImplementedException found - should be properly implemented"⟩,
    ⟨r"name} ", .error, "BCS004",
      r"Logging format violation 'name} ' found - check for malformed interpolation"⟩,
    ⟨"System.Threading.Thread.Sleep", .error, "BCS030",
      "Thread.Sleep can cause performance issues - use async/await patterns"⟩,
    ⟨"Console.WriteLine", .warning, "BCW001",
      "Console.WriteLine should be replaced with ModLogger"⟩,
    ⟨"Debug.Log", .warning, "BCW002", "Debug.Log should be replaced with ModLogger"⟩,
    ⟨"UnityEngine.Debug.Log", .warning, "BCW003",
      "Unity Debug.Log should be replaced with ModLogger"⟩,
    ⟨".Result", .warning, "BCW060",
      "Synchronous access to async result can cause deadlocks - use await"⟩,
    ⟨"ExtraLogging = true", .warning, "BCW061",
      "Too much logging of Harmony Patch. Ok for Debug, but not ok for Release"⟩]

/-- The registry of the texts that are forbidden in every project. -/
def defaults : ForbiddenRegistry :=
  registerAll {} defaultEntries

/-- The occurrences of one entry, line by line. -/
def checkEntry (file : SourceFile) (entry : ForbiddenText) : List Issue :=
  (file.numberedLines.filter fun line => line.1.mentions entry.pattern).map fun line =>
    file.issue line.2 entry.severity entry.code entry.description

/-- The occurrences of all entries, entry by entry. -/
def check (registry : ForbiddenRegistry) (file : SourceFile) : List Issue :=
  registry.entries.flatMap (checkEntry file)

/-- Registered texts must not occur. -/
def textRule (registry : ForbiddenRegistry) : TextRule where
  info := ⟨"forbidden-strings", "BCS002",
    "Flags registered substrings (blocking calls, raw logging, placeholders)", .error⟩
  check := registry.check

end ForbiddenRegistry

end PatchLint

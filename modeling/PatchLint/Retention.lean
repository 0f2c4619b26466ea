import PatchLint.FileSystem
import PatchLint.Report

/-!
# Keeping result files

Result files pile up, so that old ones are removed before a new one is written.
Of each window of five minutes only the newest files stay, and of those only the
newest overall. A file counts as a result file by its name alone, and one that
cannot be removed is left alone.
-/

namespace PatchLint

namespace Retention

/-- A result file. -/
structure Candidate where
  /-- The point in time in its name. -/
  stamp : Timestamp
  /-- Its path. -/
  path : Text
deriving DecidableEq, Repr

/-- Candidates are ordered by time, and then by path. -/
def Candidate.compare (left right : Candidate) : Ordering :=
  (left.stamp.compare right.stamp).then
    (Path.compareParts (Path.parts left.path) (Path.parts right.path))

/-- The first candidate is not older than the second. -/
def Candidate.notOlder (left right : Candidate) : Bool :=
  left.compare right != .lt

/-- The point in time in the name of a result file with this stem. -/
def stamp? (stem name : Text) : Option Timestamp := do
  let rest ← Text.after? (stem ++ ['_']) name
  if ".txt".toList.isSuffixOf rest then Timestamp.ofCompact? (rest.take (rest.length - 4))
  else none

/-- The result files among the entries of a directory. -/
def candidates (directory stem : Text) (entries : List Entry) : List Candidate :=
  entries.filterMap fun entry =>
    (stamp? stem entry.name).map fun stamp => ⟨stamp, Path.join directory entry.name⟩

/-- The candidates from the newest to the oldest. -/
def newestFirst (candidates : List Candidate) : List Candidate :=
  candidates.mergeSort Candidate.notOlder

/-- The windows of candidates, each once. -/
def windows (candidates : List Candidate) : List Timestamp.Window :=
  (candidates.map fun candidate => candidate.stamp.window).eraseDups

/-- The candidates of a window, from the newest to the oldest. -/
def inWindow (candidates : List Candidate) (window : Timestamp.Window) : List Candidate :=
  newestFirst (candidates.filter fun candidate => candidate.stamp.window = window)

/-- The candidates that are too many: those of a window beyond its newest
`perWindow`, and of the others those beyond the newest `total`. -/
def selectForDeletion (candidates : List Candidate) (perWindow total : Nat) : List Candidate :=
  let groups := (windows candidates).map (inWindow candidates)
  let kept := newestFirst (groups.flatMap fun group => group.take perWindow)
  groups.flatMap (fun group => group.drop perWindow) ++ kept.drop total

end Retention

/-- Why a result directory could not be used. -/
inductive ReportError where
  /-- The result file could not be written. -/
  | write (path : Text) (cause : FileError)
  /-- The directory could not be listed. -/
  | list (path : Text) (cause : FileError)
deriving DecidableEq, Repr

/-- The words for a failure. -/
def ReportError.message : ReportError → String
  | .write path cause =>
    "Could not write results file " ++ String.ofList path ++ ": " ++ cause.message
  | .list path cause =>
    "Could not list result directory " ++ String.ofList path ++ ": " ++ cause.message

namespace Retention

/-- Remove files one after the other, and say which of them could be removed. -/
def removeAll (fs : FileSystem) : List Text → FileSystem × List Text
  | [] => (fs, [])
  | path :: rest =>
    match fs.remove path with
    | .ok next =>
      let (last, removed) := removeAll next rest
      (last, path :: removed)
    | .error _ => removeAll fs rest

/-- Remove the result files that are too many, and list those that are gone. -/
def prune (fs : FileSystem) (directory : Text) (config : ReportConfig) :
    Except ReportError (FileSystem × List Text) :=
  match fs.list directory with
  | .error cause => .error (.list directory cause)
  | .ok entries =>
    let found := candidates directory config.stem entries
    let excess := selectForDeletion found config.keepPerWindow config.maxTotal
    let (next, removed) := removeAll fs (excess.map Candidate.path)
    .ok (next, removed.mergeSort Path.le)

/-- Write the result file of a run. -/
def writeResult (fs : FileSystem) (directory : Text) (config : ReportConfig)
    (result : LintResult) (now : Timestamp) : Except ReportError (FileSystem × Text) :=
  let path := Path.join directory (Report.fileName config.stem now)
  match fs.create path (Report.renderFile config.toolName result now).toList with
  | .ok next => .ok (next, path)
  | .error cause => .error (.write path cause)

end Retention

end PatchLint

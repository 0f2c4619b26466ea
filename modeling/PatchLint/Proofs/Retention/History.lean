import PatchLint.Command.Check
import PatchLint.Proofs.Retention.Pruning

/-!
# Result directories over many runs

A run prunes its result directory and then writes its own result file, at a point
in time after those of the result files there. However many runs follow each
other, the directory never holds more than one result file above its limits, the
file of a run is still there after the next run has pruned, and nothing else in
the tree is ever touched.

The invariant is that the directory can be listed and its result files can be
removed. A run keeps it, because the file that it writes can be removed as well.
-/

namespace PatchLint

namespace Retention

open Directory

variable {fs before after start middle last : FileSystem} {directory stem : Text}
  {location : List Text} {entries : List Entry} {config : ReportConfig}

/-! ## Directories whose result files can be removed -/

/-- A directory whose result files are files that can be removed. -/
structure Prunable (fs : FileSystem) (directory : Text) (location : List Text) (stem : Text)
    (entries : List Entry) : Prop extends Readable fs directory location entries where
  removable : ∀ candidate ∈ candidates directory stem entries,
    fs.removable (location ++ [candidate.name stem]) = true

private theorem Readable.prunable (readable : Readable fs directory location entries)
    (deletable : ∀ candidate ∈ candidates directory stem entries,
      ∃ next, fs.remove candidate.path = .ok next) :
    Prunable fs directory location stem entries where
  toReadable := readable
  removable candidate member :=
    (readable.removable_iff_remove member).mpr (deletable candidate member)

namespace Prunable

/-- Without resistance, what is left is what is kept. -/
theorem candidates_pruned (prunable : Prunable fs directory location config.stem entries) :
    candidates directory config.stem
        (without (removedNames fs directory location config entries) entries) =
      kept (candidates directory config.stem entries) config.keepPerWindow config.maxTotal := by
  rw [candidates_without, kept]
  refine List.filter_congr fun candidate member => ?_
  have can := prunable.removable candidate member
  rw [decide_eq_decide, prunable.mem_removedNames_iff member, can]
  simp [retainedIn]

private theorem pruned (prunable : Prunable fs directory location config.stem entries) :
    Prunable (pruned fs directory location config entries) directory location config.stem
      (without (removedNames fs directory location config entries) entries) where
  toReadable := prunable.toReadable.pruned config
  removable candidate member := by
    obtain ⟨present, kept⟩ := prunable.mem_candidates_pruned.mp member
    have can := prunable.removable candidate present
    have stays : candidate.name config.stem ∉
        removedNames fs directory location config entries := by
      rw [prunable.mem_removedNames_iff present]
      exact fun gone => gone.1 (kept can)
    rw [Retention.pruned, removable_changeAt_without prunable.toListed
      fun _ => Readable.removable_of_mem_removedNames]
    simp [can, stays]

end Prunable

/-! ## One run -/

/-- A run of the tool: it prunes the result directory and then writes its result
file, at a point in time after that of every result file that is left. -/
structure Run (directory : Text) (config : ReportConfig) (before after : FileSystem) where
  /-- What the tool found. -/
  result : LintResult
  /-- The point in time of the result file. -/
  now : Timestamp
  valid : now.IsValid
  /-- The file system after pruning. -/
  pruned : FileSystem
  /-- The files that pruning removed. -/
  removed : List Text
  prunes : prune before directory config = .ok (pruned, removed)
  later : ∀ entries, pruned.list directory = .ok entries →
    ∀ candidate ∈ candidates directory config.stem entries, candidate.stamp.compare now = .lt
  /-- The path of the result file. -/
  path : Text
  writes : writeResult pruned directory config result now = .ok (after, path)

namespace Run

/-- The text of the result file. -/
def content (run : Run directory config before after) : Text :=
  (Report.renderFile config.toolName run.result run.now).toList

/-- The name of the result file. -/
def name (run : Run directory config before after) : Text :=
  Report.fileName config.stem run.now

/-- The result file as a candidate. -/
def candidate (run : Run directory config before after) : Candidate :=
  ⟨run.now, Path.join directory run.name⟩

/-- What a run leaves of the entries after pruning, with the file that it writes. -/
def leaves (run : Run directory config before after) (rest : List Entry) : List Entry :=
  rest ++ [.file run.name (.text run.content)]

private theorem isResultName (run : Run directory config before after) :
    IsResultName config.stem run.name :=
  ⟨run.now, run.valid, rfl⟩

private theorem isEntryName (run : Run directory config before after)
    (noSlash : '/' ∉ config.stem) :
    Path.IsEntryName run.name :=
  run.isResultName.isEntryName (slash_not_mem_fileName noSlash run.now)

/-- What a run does: it writes a new file where nothing is locked. -/
theorem written (run : Run directory config before after) (noSlash : '/' ∉ config.stem)
    {rest : List Entry} (listed : run.pruned.Listed directory location rest) :
    run.path = Path.join directory run.name ∧ find? rest run.name = none ∧
      location ++ [run.name] ∉ run.pruned.locked ∧
      after = run.pruned.changeAt location run.leaves := by
  have writes := run.writes
  rw [writeResult] at writes
  cases created : run.pruned.create (Path.join directory (Report.fileName config.stem run.now))
      (Report.renderFile config.toolName run.result run.now).toList with
  | error cause => simp [created] at writes
  | ok next =>
      simp only [created, Except.ok.injEq, Prod.mk.injEq] at writes
      obtain ⟨rfl, path⟩ := writes
      obtain ⟨absent, unlocked, changed⟩ :=
        (listed.create_join_eq_ok_iff (run.isEntryName noSlash)).mp created
      exact ⟨path.symm, absent, unlocked, changed⟩

/-- The file that a run writes is one more candidate. -/
theorem candidates_leaves (run : Run directory config before after) (rest : List Entry) :
    candidates directory config.stem (run.leaves rest) =
      candidates directory config.stem rest ++ [run.candidate] := by
  have read : stamp? config.stem run.name = some run.now :=
    stamp?_eq_some_iff.mpr ⟨run.valid, rfl⟩
  rw [leaves, candidates, List.filterMap_append]
  simp [Entry.name, read, candidates, candidate]

/-- What pruning leaves, when a run starts with a directory whose result files can
be removed. -/
theorem prunable_pruned (run : Run directory config before after)
    (prunable : Prunable before directory location config.stem entries) :
    Prunable run.pruned directory location config.stem
        (without (removedNames before directory location config entries) entries) ∧
      SparesOthers config.stem location before run.pruned := by
  have prunes := run.prunes
  rw [prunable.prune_eq, Except.ok.injEq, Prod.mk.injEq] at prunes
  rw [← prunes.1]
  exact ⟨prunable.pruned, prunable.sparesOthers_pruned config⟩

/-- Writing a result file keeps the directory prunable. -/
theorem prunable_leaves (run : Run directory config before after) (noSlash : '/' ∉ config.stem)
    {rest : List Entry} (prunable : Prunable run.pruned directory location config.stem rest) :
    Prunable after directory location config.stem (run.leaves rest) ∧
      SparesOthers config.stem location run.pruned after := by
  obtain ⟨_, absent, unlocked, changed⟩ := run.written noSlash prunable.toListed
  have differ : DifferInFiles (fun name => name = run.name) rest (run.leaves rest) :=
    differInFiles_append (.text run.content) absent
  have listed := prunable.toListed.changeAt differ
  have spares : SparesOthers config.stem location run.pruned
      (run.pruned.changeAt location run.leaves) :=
    sparesOthers_changeAt prunable.toListed differ fun _ same => same ▸ run.isResultName
  have named : WellNamed (run.leaves rest) :=
    prunable.named.append_file absent (run.isEntryName noSlash).noSlash (.text run.content)
  -- The type of the run speaks of the tree afterwards, so the change is folded here
  -- instead of being put in place of it.
  rw [← changed] at listed spares
  refine ⟨⟨⟨listed, named⟩, fun candidate member => ?_⟩, spares⟩
  rw [candidates_leaves, List.mem_append, List.mem_singleton] at member
  rw [listed.removable_iff, spares.locked, leaves, find?_append_file]
  rcases member with old | rfl
  · obtain ⟨⟨content, found⟩, free⟩ :=
      prunable.toListed.removable_iff.mp (prunable.removable candidate old)
    exact ⟨⟨content, by simp [found]⟩, free⟩
  · have same : run.candidate.name config.stem = run.name := rfl
    exact ⟨⟨.text run.content, by simp [same, absent]⟩, unlocked⟩

/-- A run leaves one result file more than are kept. -/
theorem length_candidates_le (run : Run directory config before after)
    (prunable : Prunable before directory location config.stem entries) :
    (candidates directory config.stem (run.leaves
      (without (removedNames before directory location config entries) entries))).length ≤
      config.maxTotal + 1 := by
  have distinct := prunable.distinctPaths config.stem
  have bound := distinct.length_kept_le config.keepPerWindow config.maxTotal
  rw [run.candidates_leaves, prunable.candidates_pruned, List.length_append,
    List.length_singleton]
  omega

private theorem length_candidates_window_le (run : Run directory config before after)
    (prunable : Prunable before directory location config.stem entries)
    (window : Timestamp.Window) :
    ((candidates directory config.stem (run.leaves
      (without (removedNames before directory location config entries) entries))).filter
        fun candidate => candidate.stamp.window = window).length ≤ config.keepPerWindow + 1 := by
  have distinct := prunable.distinctPaths config.stem
  have bound := distinct.length_kept_window_le config.keepPerWindow config.maxTotal window
  have one : ([run.candidate].filter fun candidate => candidate.stamp.window = window).length ≤ 1 :=
    List.length_filter_le _ _
  rw [run.candidates_leaves, prunable.candidates_pruned, List.filter_append, List.length_append]
  omega

/-- The file that a run writes is the newest one, so that it is retained. -/
theorem mem_retainedIn (run : Run directory config before after) {rest : List Entry}
    (listed : run.pruned.Listed directory location rest) (somePerWindow : 1 ≤ config.keepPerWindow)
    (someInTotal : 1 ≤ config.maxTotal) :
    run.candidate ∈ retainedIn directory config (run.leaves rest) := by
  refine mem_retained_of_newest ?_ ?_ somePerWindow someInTotal
  · simp [run.candidates_leaves]
  · intro other member
    rw [List.mem_toFinset, run.candidates_leaves, List.mem_append, List.mem_singleton] at member
    rcases member with old | rfl
    · have earlier : other.stamp.compare run.now = .lt :=
        run.later rest (FileSystem.list_eq_ok_iff.mpr ⟨location, listed⟩) other old
      have older : other.Older run.candidate := by
        rw [Candidate.Older, Candidate.compare, candidate, earlier]
        rfl
      exact older.asymm
    · exact Candidate.Older.irrefl _

/-- The file that a run writes survives the next pruning. -/
theorem survives (run : Run directory config before after) (noSlash : '/' ∉ config.stem)
    (somePerWindow : 1 ≤ config.keepPerWindow) (someInTotal : 1 ≤ config.maxTotal)
    {rest : List Entry} (prunable : Prunable run.pruned directory location config.stem rest) :
    ∃ next removed, prune after directory config = .ok (next, removed) ∧
      run.path ∉ removed ∧ next.read run.path = .ok run.content := by
  obtain ⟨path, absent, _⟩ := run.written noSlash prunable.toListed
  have found : find? (run.leaves rest) (run.candidate.name config.stem) =
      some (.file run.name (.text run.content)) := by
    rw [leaves, find?_append_file, show run.candidate.name config.stem = run.name from rfl, absent]
    simp
  have kept := run.mem_retainedIn prunable.toListed somePerWindow someInTotal
  rw [path]
  exact (run.prunable_leaves noSlash prunable).1.prune_retained kept found

end Run

/-! ## Checks as runs -/

private theorem writeResult_of_filing {fs : FileSystem} {writes : Bool} {directory : Text}
    {config : ReportConfig} {result : LintResult} {now : Timestamp} {path : Text} {text : String}
    (written : (Check.Filing.run fs writes directory config result now).written? =
      some (path, text)) :
    writes = true ∧ writeResult fs directory config result now =
      .ok ((Check.Filing.run fs writes directory config result now).files, path) := by
  rw [Check.Filing.run] at written ⊢
  cases writes with
  | false => simp at written
  | true =>
      cases wrote : writeResult fs directory config result now with
      | error cause => simp [wrote] at written
      | ok next =>
          obtain ⟨after, filed⟩ := next
          simp_all

/-- A check that has written a result file has pruned the directory before. -/
theorem writeResult_of_written {job : Check.Job} {environment : Environment} {path : Text}
    {text : String} (written : (job.run environment).written? = some (path, text)) :
    ∃ result, writeResult
        (Check.Cleanup.run environment.files true job.outputDir job.config.report).files
        job.outputDir job.config.report result environment.now =
      .ok ((job.run environment).files, path) := by
  generalize outcome : job.run environment = done at written ⊢
  rw [Check.Job.run] at outcome
  split at outcome
  next => simp [← outcome] at written
  next sources _ =>
    split at outcome
    next => simp [← outcome] at written
    next =>
      subst outcome
      obtain ⟨writes, wrote⟩ := writeResult_of_filing written
      rw [writes] at wrote ⊢
      exact ⟨_, wrote⟩

/-- A check that writes a result file after those of a readable directory is a run. -/
theorem Readable.exists_run {job : Check.Job} {environment : Environment} {path : Text}
    {text : String}
    (readable : Readable environment.files job.outputDir location entries)
    (valid : environment.now.IsValid)
    (later : ∀ candidate ∈ candidates job.outputDir job.config.report.stem entries,
      candidate.stamp.compare environment.now = .lt)
    (written : (job.run environment).written? = some (path, text)) :
    ∃ run : Run job.outputDir job.config.report environment.files (job.run environment).files,
      run.path = path := by
  obtain ⟨result, writes⟩ := writeResult_of_written written
  have prunes := readable.prune_eq job.config.report
  have cleaned : (Check.Cleanup.run environment.files true job.outputDir
      job.config.report).files = Retention.pruned environment.files job.outputDir location
        job.config.report entries := by
    simp [Check.Cleanup.run, prunes]
  rw [cleaned] at writes
  refine ⟨⟨result, environment.now, valid, _, _, prunes, ?_, path, writes⟩, rfl⟩
  intro rest lists candidate member
  have after := readable.pruned job.config.report
  rw [FileSystem.list_eq_ok_iff.mpr ⟨location, after.toListed⟩, Except.ok.injEq] at lists
  rw [← lists] at member
  exact later candidate (readable.mem_candidates_pruned.mp member).1

/-! ## Many runs -/

/-- Runs that follow each other. -/
inductive History (directory : Text) (config : ReportConfig) : FileSystem → FileSystem → Prop where
  | start (fs : FileSystem) : History directory config fs fs
  | step {start before after : FileSystem} (history : History directory config start before)
      (run : Run directory config before after) : History directory config start after

/-- The result files of a directory can be removed after every run. -/
theorem History.prunable (history : History directory config start last)
    (noSlash : '/' ∉ config.stem)
    (prunable : Prunable start directory location config.stem entries) :
    ∃ rest, Prunable last directory location config.stem rest ∧
      SparesOthers config.stem location start last := by
  -- The location stays the same through all runs, only the entries change.
  induction history with
  | start => exact ⟨entries, prunable, .refl _ _ _⟩
  | step _ run ih =>
      obtain ⟨rest, holds, spares⟩ := ih
      obtain ⟨holdsPruned, sparesPruned⟩ := run.prunable_pruned holds
      obtain ⟨holdsAfter, sparesAfter⟩ := run.prunable_leaves noSlash holdsPruned
      exact ⟨_, holdsAfter, spares.trans (sparesPruned.trans sparesAfter)⟩

/-- After every run of a history the directory holds at most one result file more
than its limits, in all and in each window; the file of the run survives the next
pruning with its text; and nothing but result files of the directory has changed
since the start of the history. -/
theorem History.bounded (noSlash : '/' ∉ config.stem) (somePerWindow : 1 ≤ config.keepPerWindow)
    (someInTotal : 1 ≤ config.maxTotal) (lists : start.list directory = .ok entries)
    (named : WellNamed entries)
    (deletable : ∀ candidate ∈ candidates directory config.stem entries,
      ∃ next, start.remove candidate.path = .ok next)
    (history : History directory config start middle) (run : Run directory config middle last) :
    (∃ rest, last.list directory = .ok rest ∧
        (candidates directory config.stem rest).length ≤ config.maxTotal + 1 ∧
        ∀ window, ((candidates directory config.stem rest).filter fun candidate =>
          candidate.stamp.window = window).length ≤ config.keepPerWindow + 1) ∧
      (∃ next removed, prune last directory config = .ok (next, removed) ∧
        run.path ∉ removed ∧ next.read run.path = .ok run.content) ∧
      ∃ location, start.locate directory = .ok location ∧
        SparesOthers config.stem location start run.pruned ∧
        SparesOthers config.stem location start last := by
  obtain ⟨location, listed⟩ := FileSystem.list_eq_ok_iff.mp lists
  have prunable := Readable.prunable ⟨listed, named⟩ deletable
  obtain ⟨rest, holds, spares⟩ := history.prunable noSlash prunable
  obtain ⟨holdsPruned, sparesPruned⟩ := run.prunable_pruned holds
  obtain ⟨holdsAfter, sparesAfter⟩ := run.prunable_leaves noSlash holdsPruned
  refine ⟨⟨_, FileSystem.list_eq_ok_iff.mpr ⟨location, holdsAfter.toListed⟩,
      run.length_candidates_le holds, run.length_candidates_window_le holds⟩,
    run.survives noSlash somePerWindow someInTotal holdsPruned,
    location, listed.located, spares.trans sparesPruned,
    spares.trans (sparesPruned.trans sparesAfter)⟩

/-- Settings that keep one result file of each window, and two in all. -/
def keepTwo : ReportConfig := { stem := ['r'], keepPerWindow := 1, maxTotal := 2 }

/-- Two result files that are a minute apart but lie in different windows, and a file of another
kind. -/
def quietEntries : List Entry :=
  ["r_20240309_100400.txt", "r_20240309_100500.txt", "notes.txt"].map fun name =>
    .file name.toList (.text [])

/-- A directory with two result files. -/
def quiet : FileSystem where
  top := [.directory "out".toList quietEntries]
  workingDirectory := []

/-- The result files of the directory. -/
def quietCandidates : List Candidate :=
  [⟨⟨2024, 3, 9, 10, 4, 0⟩, "out/r_20240309_100400.txt".toList⟩,
    ⟨⟨2024, 3, 9, 10, 5, 0⟩, "out/r_20240309_100500.txt".toList⟩]

private theorem candidates_quiet :
    candidates "out".toList keepTwo.stem quietEntries = quietCandidates := by
  decide +kernel

/-- Nothing is removed, because each window keeps its one file. -/
theorem prune_quiet : prune quiet "out".toList keepTwo = .ok (quiet, []) := by
  have lists : quiet.list "out".toList = .ok quietEntries := by rfl
  have distinct : DistinctPaths quietCandidates := by
    rw [DistinctPaths]
    decide +kernel
  have kept : ∀ candidate ∈ quietCandidates, candidate ∈ retained 1 2 quietCandidates.toFinset := by
    decide +kernel
  have excess : selectForDeletion quietCandidates keepTwo.keepPerWindow keepTwo.maxTotal = [] := by
    refine List.eq_nil_iff_forall_not_mem.mpr fun candidate deleted => ?_
    obtain ⟨member, gone⟩ := (distinct.mem_selectForDeletion 1 2 candidate).mp deleted
    exact gone (kept candidate member)
  rw [prune, lists]
  simp only
  rw [candidates_quiet, excess]
  simp [removeAll]

/-- The directory with a third result file. -/
def quietAfter : FileSystem :=
  quiet.changeAt ["out".toList] fun entries => entries ++
    [.file "r_20240309_100700.txt".toList
      (.text (Report.renderFile keepTwo.toolName {} ⟨2024, 3, 9, 10, 7, 0⟩).toList)]

/-- A run two minutes after the newer result file. -/
def quietRun : Run "out".toList keepTwo quiet quietAfter where
  result := {}
  now := ⟨2024, 3, 9, 10, 7, 0⟩
  valid := by decide
  pruned := quiet
  removed := []
  prunes := prune_quiet
  later := by
    intro entries lists candidate member
    obtain rfl : quietEntries = entries := Except.ok.inj lists
    rw [candidates_quiet] at member
    have before : ∀ candidate ∈ quietCandidates,
        candidate.stamp.compare ⟨2024, 3, 9, 10, 7, 0⟩ = .lt := by
      decide
    exact before candidate member
  path := "out/r_20240309_100700.txt".toList
  writes := by rfl

/-- With two files to be kept in all, a run leaves three of them, two in the window of its own one,
which survives the next pruning. -/
theorem bounded_quiet :
    (∃ rest, quietAfter.list "out".toList = .ok rest ∧
        (candidates "out".toList keepTwo.stem rest).length = keepTwo.maxTotal + 1 ∧
        ((candidates "out".toList keepTwo.stem rest).filter fun candidate =>
          candidate.stamp.window = quietRun.now.window).length = keepTwo.keepPerWindow + 1) ∧
      ∃ next removed, prune quietAfter "out".toList keepTwo = .ok (next, removed) ∧
        quietRun.path ∉ removed ∧ next.read quietRun.path = .ok quietRun.content := by
  have lists : quiet.list "out".toList = .ok quietEntries := by rfl
  have named : WellNamed quietEntries := ⟨by decide +kernel, by decide +kernel⟩
  have deletable : ∀ candidate ∈ candidates "out".toList keepTwo.stem quietEntries,
      ∃ next, quiet.remove candidate.path = .ok next := by
    rw [candidates_quiet, quietCandidates]
    simp only [List.forall_mem_cons]
    exact ⟨⟨_, rfl⟩, ⟨_, rfl⟩, by simp⟩
  obtain ⟨_, survives, _⟩ := History.bounded (by decide) (by decide) (by decide) lists named
    deletable (.start quiet) quietRun
  exact ⟨⟨_, rfl, by decide +kernel, by decide +kernel⟩, survives⟩

end Retention

end PatchLint

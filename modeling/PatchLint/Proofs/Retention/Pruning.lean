import PatchLint.Proofs.FileSystem.Listing
import PatchLint.Proofs.Retention.Names
import PatchLint.Proofs.Retention.Selection

/-!
# Pruning a result directory

Pruning removes the result files that the selection deletes, except for those
that cannot be removed. What is left is what is retained and what resists. A
second run finds nothing more to remove: what resisted competes again, but it
displaces nothing that was retained, and it resists again.

Nothing but result files of the directory is touched.
-/

namespace PatchLint

namespace Retention

open Directory

variable {fs next : FileSystem} {directory stem : Text} {location : List Text}
  {entries : List Entry} {config : ReportConfig}

/-! ## The candidates of a directory -/

/-- The name of a result file, by its point in time. -/
def Candidate.name (stem : Text) (candidate : Candidate) : Text :=
  Report.fileName stem candidate.stamp

/-- The candidates are the entries with the name of a result file. -/
theorem mem_candidates {candidate : Candidate} :
    candidate ∈ candidates directory stem entries ↔
      candidate.stamp.IsValid ∧ candidate.path = Path.join directory (candidate.name stem) ∧
        ∃ entry ∈ entries, entry.name = candidate.name stem := by
  simp only [candidates, List.mem_filterMap, Option.map_eq_some_iff, stamp?_eq_some_iff]
  constructor
  · rintro ⟨entry, member, stamp, ⟨valid, named⟩, rfl⟩
    exact ⟨valid, by rw [named]; rfl, entry, member, named⟩
  · rintro ⟨valid, path, entry, member, named⟩
    refine ⟨entry, member, candidate.stamp, ⟨valid, named⟩, ?_⟩
    rw [named, ← path]

private theorem isResultName_of_mem_candidates {candidate : Candidate}
    (member : candidate ∈ candidates directory stem entries) :
    IsResultName stem (candidate.name stem) :=
  ⟨candidate.stamp, (mem_candidates.mp member).1, rfl⟩

/-- Candidates of one directory are told apart by their names. -/
theorem candidate_eq_of_name_eq {others : List Entry} {left right : Candidate}
    (memberLeft : left ∈ candidates directory stem entries)
    (memberRight : right ∈ candidates directory stem others)
    (same : left.name stem = right.name stem) : left = right := by
  obtain ⟨valid, path, _⟩ := mem_candidates.mp memberLeft
  obtain ⟨validRight, pathRight, _⟩ := mem_candidates.mp memberRight
  have sameStamp : left.stamp = right.stamp := stamp_eq_of_fileName_eq valid validRight same
  have samePath : left.path = right.path := by rw [path, pathRight, same]
  calc left = ⟨left.stamp, left.path⟩ := rfl
    _ = ⟨right.stamp, right.path⟩ := by rw [sameStamp, samePath]

/-- Once names are left out, the candidates are those with other names. -/
theorem candidates_without (gone : List Text) :
    candidates directory stem (without gone entries) =
      (candidates directory stem entries).filter fun candidate => candidate.name stem ∉ gone := by
  rw [candidates, candidates, without, List.filterMap_filter, List.filter_filterMap]
  refine List.filterMap_congr fun entry _ => ?_
  cases read : stamp? stem entry.name with
  | none => simp
  | some stamp =>
      obtain ⟨_, named⟩ := stamp?_eq_some_iff.mp read
      by_cases dropped : Report.fileName stem stamp ∈ gone <;>
        simp [named, dropped, Candidate.name, Option.filter]

private theorem isEntryName_of_mem_candidates (named : WellNamed entries) {candidate : Candidate}
    (member : candidate ∈ candidates directory stem entries) :
    Path.IsEntryName (candidate.name stem) := by
  obtain ⟨_, _, entry, present, same⟩ := mem_candidates.mp member
  exact (isResultName_of_mem_candidates member).isEntryName (same ▸ named.noSlash entry present)

private theorem distinctPaths_candidates (given : directory ≠ []) (named : WellNamed entries) :
    DistinctPaths (candidates directory stem entries) := by
  have nodup := List.pairwise_map.mp named.distinct
  refine List.pairwise_filterMap.mpr (nodup.imp_of_mem ?_)
  intro left right leftMember rightMember different first firstRead second secondRead
  rw [← Bool.not_eq_true]
  intro same
  simp only [Option.map_eq_some_iff, stamp?_eq_some_iff] at firstRead secondRead
  obtain ⟨stamp, ⟨valid, leftNamed⟩, rfl⟩ := firstRead
  obtain ⟨other, ⟨otherValid, rightNamed⟩, rfl⟩ := secondRead
  have properLeft := IsResultName.isEntryName ⟨stamp, valid, leftNamed⟩
    (named.noSlash left leftMember)
  have properRight := IsResultName.isEntryName ⟨other, otherValid, rightNamed⟩
    (named.noSlash right rightMember)
  exact different (Path.name_eq_of_same given properLeft properRight same)

/-! ## Removing files one after the other -/

private theorem removeAll_cons (fs : FileSystem) (path : Text) (rest : List Text) :
    removeAll fs (path :: rest) =
      match (fs.remove path).toOption with
      | some next => ((removeAll next rest).1, path :: (removeAll next rest).2)
      | none => removeAll fs rest := by
  rw [removeAll]
  cases fs.remove path <;> rfl

/-- What may be removed does not depend on the other files. -/
theorem removable_changeAt_without (listed : fs.Listed directory location entries)
    {gone : List Text} (removes : ∀ name ∈ gone, fs.removable (location ++ [name]) = true)
    (name : Text) :
    (fs.changeAt location (without gone)).removable (location ++ [name]) =
      (fs.removable (location ++ [name]) && name ∉ gone) := by
  have after := listed.changeAt (listed.differInFiles_without removes)
  rw [FileSystem.removable, FileSystem.removable, after.entryAt?_append, listed.entryAt?_append,
    find?_without]
  split
  next dropped => simp [dropped]
  next kept =>
    simp only [kept, not_false_eq_true, decide_true, Bool.and_true]
    rfl

/-- Of the files of a directory all go that can be removed. -/
theorem removeAll_join (listed : fs.Listed directory location entries) {names : List Text}
    (nodup : names.Nodup) (proper : ∀ name ∈ names, Path.IsEntryName name) :
    removeAll fs (names.map (Path.join directory)) =
      let gone := names.filter fun name => fs.removable (location ++ [name])
      (fs.changeAt location (without gone), gone.map (Path.join directory)) := by
  -- A removal changes the tree for the names behind it, but not whether they can be
  -- removed, since every name occurs once.
  induction names generalizing fs entries with
  | nil => simp [removeAll, without_nil, FileSystem.changeAt_id]
  | cons name rest ih =>
      obtain ⟨absent, nodupRest⟩ := List.nodup_cons.mp nodup
      obtain ⟨properName, properRest⟩ := List.forall_mem_cons.mp proper
      rw [List.map_cons, removeAll_cons, listed.remove_join properName]
      by_cases can : fs.removable (location ++ [name]) = true
      · have removes : ∀ other ∈ [name], fs.removable (location ++ [other]) = true := by
          simpa using can
        have after := listed.changeAt (listed.differInFiles_without removes)
        have stillCan : (rest.filter fun other =>
            (fs.changeAt location (without [name])).removable (location ++ [other])) =
            rest.filter fun other => fs.removable (location ++ [other]) := by
          refine List.filter_congr fun other member => ?_
          have different : other ≠ name := fun same => absent (same ▸ member)
          simp [removable_changeAt_without listed removes, different]
        simp only [can, if_true, erase_eq_without, ih after nodupRest properRest, stillCan,
          FileSystem.changeAt_changeAt, without_without, List.filter_cons, List.map_cons,
          List.singleton_append]
      · simp only [can, if_false, Bool.false_eq_true, ih listed nodupRest properRest,
          List.filter_cons]

/-! ## What is spared -/

/-- Two file systems agree, except for result files of one directory. -/
structure SparesOthers (stem : Text) (location : List Text) (before after : FileSystem) : Prop where
  workingDirectory : after.workingDirectory = before.workingDirectory
  locked : after.locked = before.locked
  face : ∀ place, (∀ name, IsResultName stem name → place ≠ location ++ [name]) →
    after.face? place = before.face? place

/-- Nothing changes for others where nothing changes. -/
theorem SparesOthers.refl (stem : Text) (location : List Text) (fs : FileSystem) :
    SparesOthers stem location fs fs :=
  ⟨rfl, rfl, fun _ _ => rfl⟩

/-- What two steps leave to others, both together leave to them. -/
theorem SparesOthers.trans {first second third : FileSystem}
    (left : SparesOthers stem location first second)
    (right : SparesOthers stem location second third) :
    SparesOthers stem location first third where
  workingDirectory := right.workingDirectory.trans left.workingDirectory
  locked := right.locked.trans left.locked
  face place other := (right.face place other).trans (left.face place other)

/-- A change of result files in one directory is no change for others. -/
theorem sparesOthers_changeAt (listed : fs.Listed directory location entries)
    {touched : Text → Prop} {change : List Entry → List Entry}
    (differ : DifferInFiles touched entries (change entries))
    (results : ∀ name, touched name → IsResultName stem name) :
    SparesOthers stem location fs (fs.changeAt location change) where
  workingDirectory := rfl
  locked := rfl
  face _ other :=
    FileSystem.face?_changeAt listed.holds differ fun name changes =>
      other name (results name changes)

/-! ## One run -/

/-- The result files that are retained among the entries of a directory. -/
def retainedIn (directory : Text) (config : ReportConfig) (entries : List Entry) :
    Finset Candidate :=
  retained config.keepPerWindow config.maxTotal
    (candidates directory config.stem entries).toFinset

/-- The names of the files that pruning removes from a directory. -/
def removedNames (fs : FileSystem) (directory : Text) (location : List Text)
    (config : ReportConfig) (entries : List Entry) : List Text :=
  let found := candidates directory config.stem entries
  let excess := selectForDeletion found config.keepPerWindow config.maxTotal
  (excess.map (Candidate.name config.stem)).filter fun name => fs.removable (location ++ [name])

/-- The file system after pruning. -/
def pruned (fs : FileSystem) (directory : Text) (location : List Text) (config : ReportConfig)
    (entries : List Entry) : FileSystem :=
  fs.changeAt location (without (removedNames fs directory location config entries))

/-- A path leads to a directory, which holds these entries under proper names. -/
structure Readable (fs : FileSystem) (directory : Text) (location : List Text)
    (entries : List Entry) : Prop extends fs.Listed directory location entries where
  named : WellNamed entries

namespace Readable

/-- The candidates of a directory have paths of their own. -/
theorem distinctPaths (readable : Readable fs directory location entries) (stem : Text) :
    DistinctPaths (candidates directory stem entries) :=
  distinctPaths_candidates readable.given readable.named

/-- Pruning a directory that can be read never fails, and tells what it has removed. -/
theorem prune_eq (readable : Readable fs directory location entries) (config : ReportConfig) :
    prune fs directory config =
      .ok (pruned fs directory location config entries,
        ((removedNames fs directory location config entries).map
          (Path.join directory)).mergeSort Path.le) := by
  let found := candidates directory config.stem entries
  let excess := selectForDeletion found config.keepPerWindow config.maxTotal
  have distinct := readable.distinctPaths config.stem
  have member : ∀ candidate ∈ excess, candidate ∈ found := fun candidate deleted =>
    ((distinct.mem_selectForDeletion _ _ candidate).mp deleted).1
  have paths : excess.map Candidate.path =
      (excess.map (Candidate.name config.stem)).map (Path.join directory) := by
    rw [List.map_map]
    exact List.map_congr_left fun candidate deleted =>
      (mem_candidates.mp (member candidate deleted)).2.1
  have nodup : (excess.map (Candidate.name config.stem)).Nodup := by
    refine List.Nodup.map_on ?_ (distinct.nodup_selectForDeletion _ _)
    intro left leftDeleted right rightDeleted same
    exact candidate_eq_of_name_eq (member left leftDeleted) (member right rightDeleted) same
  have proper : ∀ name ∈ excess.map (Candidate.name config.stem), Path.IsEntryName name := by
    intro name present
    obtain ⟨candidate, deleted, rfl⟩ := List.mem_map.mp present
    exact isEntryName_of_mem_candidates readable.named (member candidate deleted)
  have lists : fs.list directory = .ok entries :=
    FileSystem.list_eq_ok_iff.mpr ⟨location, readable.toListed⟩
  rw [prune, lists]
  simp only
  rw [paths, removeAll_join readable.toListed nodup proper]
  rfl

/-- What is removed could be removed. -/
theorem removable_of_mem_removedNames {name : Text}
    (gone : name ∈ removedNames fs directory location config entries) :
    fs.removable (location ++ [name]) = true :=
  (List.mem_filter.mp gone).2

/-- A candidate is removed if it is not retained and does not resist. -/
theorem mem_removedNames_iff (readable : Readable fs directory location entries)
    {candidate : Candidate} (member : candidate ∈ candidates directory config.stem entries) :
    candidate.name config.stem ∈ removedNames fs directory location config entries ↔
      candidate ∉ retainedIn directory config entries ∧
        fs.removable (location ++ [candidate.name config.stem]) = true := by
  have distinct := readable.distinctPaths config.stem
  rw [removedNames, List.mem_filter, List.mem_map]
  refine and_congr_left fun _ => ?_
  simp only [distinct.mem_selectForDeletion]
  constructor
  · rintro ⟨other, ⟨otherMember, excess⟩, same⟩
    rwa [← candidate_eq_of_name_eq otherMember member same]
  · exact fun excess => ⟨candidate, ⟨member, excess⟩, rfl⟩

/-- Only candidates that are not retained are removed. -/
theorem exists_candidate_of_mem_removedNames (readable : Readable fs directory location entries)
    {name : Text} (gone : name ∈ removedNames fs directory location config entries) :
    ∃ candidate ∈ candidates directory config.stem entries,
      candidate ∉ retainedIn directory config entries ∧ candidate.name config.stem = name := by
  obtain ⟨present, _⟩ := List.mem_filter.mp gone
  obtain ⟨candidate, deleted, same⟩ := List.mem_map.mp present
  have distinct := readable.distinctPaths config.stem
  obtain ⟨member, excess⟩ := (distinct.mem_selectForDeletion _ _ candidate).mp deleted
  exact ⟨candidate, member, excess, same⟩

/-- What is removed has the name of a result file of the stem. -/
theorem isResultName_of_mem_removedNames (readable : Readable fs directory location entries)
    {name : Text} (gone : name ∈ removedNames fs directory location config entries) :
    IsResultName config.stem name := by
  obtain ⟨candidate, member, _, rfl⟩ := readable.exists_candidate_of_mem_removedNames gone
  exact isResultName_of_mem_candidates member

private theorem isEntryName_of_mem_removedNames (readable : Readable fs directory location entries)
    {name : Text} (gone : name ∈ removedNames fs directory location config entries) :
    Path.IsEntryName name := by
  obtain ⟨candidate, member, _, rfl⟩ := readable.exists_candidate_of_mem_removedNames gone
  exact isEntryName_of_mem_candidates readable.named member

/-- A pruned directory can be read, and lists what is left. -/
theorem pruned (readable : Readable fs directory location entries) (config : ReportConfig) :
    Readable (pruned fs directory location config entries) directory location
      (without (removedNames fs directory location config entries) entries) where
  toListed := readable.toListed.changeAt
    (readable.differInFiles_without fun _ => removable_of_mem_removedNames)
  named := readable.named.without _

/-- Pruning changes nothing but result files of the directory. -/
theorem sparesOthers_pruned (readable : Readable fs directory location entries)
    (config : ReportConfig) :
    SparesOthers config.stem location fs (Retention.pruned fs directory location config entries) :=
  sparesOthers_changeAt readable.toListed
    (readable.differInFiles_without fun _ => removable_of_mem_removedNames)
    fun _ => readable.isResultName_of_mem_removedNames

/-- A candidate resists exactly when its file cannot be removed. -/
theorem removable_iff_remove (readable : Readable fs directory location entries)
    {candidate : Candidate} (member : candidate ∈ candidates directory stem entries) :
    fs.removable (location ++ [candidate.name stem]) = true ↔
      ∃ next, fs.remove candidate.path = .ok next := by
  have proper := isEntryName_of_mem_candidates readable.named member
  have removes := readable.remove_join proper
  rw [← (mem_candidates.mp member).2.1] at removes
  constructor
  · intro can
    rw [if_pos can] at removes
    cases removed : fs.remove candidate.path with
    | error cause => simp [removed, Except.toOption] at removes
    | ok next => exact ⟨next, rfl⟩
  · rintro ⟨next, removed⟩
    by_contra cannot
    rw [removed, if_neg cannot] at removes
    exact Option.some_ne_none _ removes

/-- What is left is what is retained and what resists. -/
theorem mem_candidates_pruned (readable : Readable fs directory location entries)
    {candidate : Candidate} :
    candidate ∈ candidates directory config.stem
        (without (removedNames fs directory location config entries) entries) ↔
      candidate ∈ candidates directory config.stem entries ∧
        (fs.removable (location ++ [candidate.name config.stem]) = true →
          candidate ∈ retainedIn directory config entries) := by
  rw [candidates_without, List.mem_filter]
  refine and_congr_right fun member => ?_
  rw [decide_eq_true_eq, readable.mem_removedNames_iff member]
  tauto

/-- A retained result file is still there after pruning, and holds what it held. -/
theorem prune_retained (readable : Readable fs directory location entries)
    {candidate : Candidate} {name content : Text}
    (kept : candidate ∈ retainedIn directory config entries)
    (found : find? entries (candidate.name config.stem) = some (.file name (.text content))) :
    ∃ next removed, prune fs directory config = .ok (next, removed) ∧
      candidate.path ∉ removed ∧ next.read candidate.path = .ok content := by
  have member : candidate ∈ candidates directory config.stem entries :=
    List.mem_toFinset.mp (retained_subset _ _ _ kept)
  have stays : candidate.name config.stem ∉
      removedNames fs directory location config entries := by
    rw [readable.mem_removedNames_iff member]
    exact fun gone => gone.1 kept
  have proper := isEntryName_of_mem_candidates readable.named member
  have path := (mem_candidates.mp member).2.1
  refine ⟨_, _, readable.prune_eq config, ?_, ?_⟩
  · rw [(List.mergeSort_perm _ _).mem_iff, List.mem_map]
    rintro ⟨gone, removed, same⟩
    have properGone := readable.isEntryName_of_mem_removedNames removed
    have spellings : Path.same (Path.join directory gone)
        (Path.join directory (candidate.name config.stem)) = true := by
      rw [same, path, Path.same_iff]
    exact stays (Path.name_eq_of_same readable.given properGone proper spellings ▸ removed)
  · have remains : find? (without (removedNames fs directory location config entries) entries)
        (candidate.name config.stem) = some (.file name (.text content)) := by
      rw [find?_without, if_neg stays, found]
    rw [path]
    exact (readable.pruned config).read_join proper remains

end Readable

end Retention

end PatchLint

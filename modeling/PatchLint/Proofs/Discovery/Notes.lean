import PatchLint.Discovery
import PatchLint.Proofs.FileSystem.Notes

/-!
# Sources are found without looking at notes

The search for sources reads the names of entries and the content of ignore files.
Neither a source nor an ignore file is a note, and a repository points to files that
are no notes. So the search goes the same way through the bare file system, and it
finds the same sources.

What is found is there: the path of a source leads to a file with the name of a
source.
-/

namespace PatchLint

open Directory

variable {fs : FileSystem} {entries : List Entry}

/-- A file of another name holds the same without the notes around it. -/
theorem Directory.content?_find?_bare (formed : WellFormed entries) {name : Text}
    (other : isNoteName name = false) :
    (find? (bare entries) name).bind Entry.content? =
      (find? entries name).bind Entry.content? := by
  rw [find?_bare formed]
  cases found : find? entries name with
  | none => rfl
  | some entry =>
      refine Entry.content?_bare? ?_
      rw [Entry.isNote, name_of_find? found, other, Bool.and_false]

private theorem Directory.isSome_find?_bare (formed : WellFormed entries) {name : Text}
    (other : isNoteName name = false) :
    (find? (bare entries) name).isSome = (find? entries name).isSome := by
  rw [find?_bare formed]
  cases found : find? entries name with
  | none => rfl
  | some entry =>
      have stays : entry.bare? ≠ none := by
        rw [Ne, Entry.bare?_eq_none_iff, Entry.isNote, name_of_find? found, other]
        simp
      exact Option.isSome_iff_ne_none.mpr stays

/-! ## Ignore files -/

namespace Repository

private theorem content?_sharedPointer (formed : WellFormed fs.top) (directory : Text) :
    fs.bare.content? (sharedPointer directory) = fs.content? (sharedPointer directory) :=
  FileSystem.content?_bare formed
    (FileSystem.avoidsNotes_of_lastPiece? (Path.lastPiece?_join _ _) (by decide) (by decide))

private theorem content?_excludeFile (formed : WellFormed fs.top) (directory : Text) :
    fs.bare.content? (excludeFile directory) = fs.content? (excludeFile directory) :=
  FileSystem.content?_bare formed
    (FileSystem.avoidsNotes_of_lastPiece? (Path.lastPiece?_join _ _) (by decide) (by decide))

private theorem exclude?_bare (formed : WellFormed fs.top) (formedHere : WellFormed entries) :
    exclude? fs.bare (bare entries) = exclude? fs entries := by
  rw [exclude?, exclude?, find?_bare formedHere]
  cases found : find? entries ".git".toList with
  | none => rfl
  | some entry =>
      cases entry with
      | file name content =>
          have named : isNoteName name = false := by
            rw [show name = ".git".toList from name_of_find? found]
            decide
          simp only [Option.bind_some, Entry.bare?, named, Bool.false_eq_true, if_false,
            content?_sharedPointer formed, content?_excludeFile formed]
      | directory name inner =>
          have formedInner := formedHere.deeper _ (List.mem_of_find?_eq_some found) inner rfl
          have infos (holder : List Entry) :
              (Directory.entry? (["info", "exclude"].map String.toList) holder).bind
                  Entry.content? =
                (at? ["info".toList] holder).bind fun info =>
                  (find? info "exclude".toList).bind Entry.content? := by
            rw [← Option.bind_assoc, ← entry?_append_singleton]
            rfl
          simp only [Option.bind_some, Entry.bare?]
          rw [infos, infos, at?_bare formedInner]
          cases reached : at? ["info".toList] inner with
          | none => rfl
          | some info => exact content?_find?_bare (formedInner.at? reached) (by decide)

end Repository

namespace IgnoreLayer

private theorem rulesIn_bare (formedHere : WellFormed entries) {name : String}
    (other : isNoteName name.toList = false) :
    rulesIn name (bare entries) = rulesIn name entries := by
  rw [rulesIn, rulesIn, content?_find?_bare formedHere other]

private theorem ofEntries_bare (formed : WellFormed fs.top) (formedHere : WellFormed entries)
    (path : Text) : ofEntries fs.bare path (bare entries) = ofEntries fs path entries := by
  have marked : (Repository.marks.any fun name => (find? (bare entries) name).isSome) =
      Repository.marks.any fun name => (find? entries name).isSome := by
    have other : ∀ name ∈ Repository.marks, isNoteName name = false := by decide
    rw [Bool.eq_iff_iff, List.any_eq_true, List.any_eq_true]
    refine exists_congr fun name => and_congr_right fun member => ?_
    rw [isSome_find?_bare formedHere (other name member)]
  rw [ofEntries, ofEntries, rulesIn_bare formedHere (by decide),
    rulesIn_bare formedHere (by decide), Repository.exclude?_bare formed formedHere, marked]

end IgnoreLayer

namespace Surroundings

private theorem layersAbove_bare (formed : WellFormed fs.top) (location : List Text) :
    layersAbove fs.bare location = layersAbove fs location := by
  refine List.map_congr_left fun count _ => ?_
  have here : (at? (location.take count) fs.bare.top).getD [] =
      bare ((at? (location.take count) fs.top).getD []) := by
    rw [FileSystem.bare, at?_bare formed]
    cases at? (location.take count) fs.top <;> simp [bare]
  have formedHere : WellFormed ((at? (location.take count) fs.top).getD []) := by
    cases reached : at? (location.take count) fs.top with
    | none => exact .intro (by simp) (by simp) (by simp)
    | some inner => exact formed.at? reached
  simp only [here, IgnoreLayer.ofEntries_bare formed formedHere]

private theorem ofStart_bare (formed : WellFormed fs.top) (formedHere : WellFormed entries)
    (start : Text) (location : List Text) :
    ofStart fs.bare start location (bare entries) = ofStart fs start location entries := by
  rw [ofStart, ofStart, IgnoreLayer.ofEntries_bare formed formedHere, layersAbove_bare formed]

private theorem enter_bare (formed : WellFormed fs.top) (formedHere : WellFormed entries)
    (place : Surroundings) (name : Text) :
    place.enter fs.bare name (bare entries) = place.enter fs name entries := by
  rw [enter, enter, IgnoreLayer.ofEntries_bare formed formedHere]

end Surroundings

namespace Discovery

/-! ## Sources -/

private theorem isNoteName_of_isSourceName {name : Text} (source : isSourceName name = true) :
    isNoteName name = false := by
  rw [isSourceName, Bool.and_eq_true] at source
  obtain ⟨front, rfl⟩ := List.isSuffixOf_iff_suffix.mp source.1
  refine Bool.eq_false_iff.mpr fun note => ?_
  obtain ⟨other, equal⟩ := List.isSuffixOf_iff_suffix.mp note
  have last := congrArg List.getLast? equal
  simp at last

/-- The sources of a directory are those of its entries, one after the other. -/
theorem sourcesIn_eq_flatMap (fs : FileSystem) (place : Surroundings) (entries : List Entry) :
    sourcesIn fs place entries = entries.flatMap (sourcesAt fs place) := by
  induction entries with
  | nil => rw [sourcesIn]; rfl
  | cons entry rest ih => rw [sourcesIn, ih, List.flatMap_cons]

mutual

/-- The sources that an entry leads to are those that it leads to without notes. -/
theorem sourcesAt_bare (formed : WellFormed fs.top) (place : Surroundings) (entry : Entry)
    (deeper : ∀ inner, entry.inner? = some inner → WellFormed inner) :
    entry.bare?.toList.flatMap (sourcesAt fs.bare place) = sourcesAt fs place entry := by
  match entry, deeper with
  | .file name content, _ =>
      rw [Entry.bare?]
      split
      next note =>
        have noSource : isSourceName name = false := by
          refine Bool.eq_false_iff.mpr fun source => ?_
          rw [isNoteName_of_isSourceName source] at note
          contradiction
        simp [sourcesAt, noSource]
      next => simp [sourcesAt]
  | .directory name inner, deeper =>
      have formedInner := deeper inner rfl
      have below := sourcesIn_bare formed (place.enter fs name inner) inner formedInner.deeper
      rw [Entry.bare?, Option.toList_some, List.flatMap_singleton, sourcesAt, sourcesAt,
        Surroundings.enter_bare formed formedInner, below]

private theorem sourcesIn_bare (formed : WellFormed fs.top) (place : Surroundings)
    (entries : List Entry)
    (deeper : ∀ entry ∈ entries, ∀ inner, entry.inner? = some inner → WellFormed inner) :
    sourcesIn fs.bare place (bare entries) = sourcesIn fs place entries := by
  match entries, deeper with
  | [], _ => rw [bare, sourcesIn, sourcesIn]
  | entry :: rest, deeper =>
      obtain ⟨here, behind⟩ := List.forall_mem_cons.mp deeper
      rw [bare, sourcesIn_eq_flatMap, List.flatMap_append, sourcesAt_bare formed place entry here,
        ← sourcesIn_eq_flatMap, sourcesIn_bare formed place rest behind, sourcesIn]

end

/-! ## Paths of sources -/

/-- The path of a source leads to a file with the name of a source. -/
theorem exists_file_of_mem_sourcesIn {names location : List Text} {directory : Text}
    {place : Surroundings} (listed : fs.Listed directory location entries)
    (formedHere : WellFormed entries) (found : names ∈ sourcesIn fs place entries) :
    ∃ name content, isSourceName name = true ∧
      fs.entry (pathOf directory names) = .ok (.file name content) := by
  induction names generalizing directory location entries place with
  | nil =>
      rw [sourcesIn_eq_flatMap, List.mem_flatMap] at found
      obtain ⟨entry, _, found⟩ := found
      cases entry <;> simp [sourcesAt] at found
  | cons first rest ih =>
      rw [sourcesIn_eq_flatMap, List.mem_flatMap] at found
      obtain ⟨entry, member, found⟩ := found
      have proper := formedHere.proper entry member
      have there := listed.entryAt?_append entry.name
      rw [formedHere.find?_eq member] at there
      have located := listed.locate_join proper
      cases entry with
      | file name content =>
          simp only [sourcesAt, List.mem_ite_nil_right, Bool.and_eq_true, List.mem_singleton,
            List.cons.injEq] at found
          obtain ⟨⟨source, _⟩, rfl, rfl⟩ := found
          exact ⟨first, content, source, FileSystem.entry_eq_ok_iff.mpr ⟨_, located, there⟩⟩
      | directory name inner =>
          simp only [sourcesAt, List.mem_ite_nil_left, List.mem_map, List.cons.injEq] at found
          obtain ⟨_, below, found, rfl, rfl⟩ := found
          have holds : at? (location ++ [name]) fs.top = some inner := by
            rw [← FileSystem.inner?_entryAt?]
            exact there.symm ▸ rfl
          exact ih ⟨located, holds⟩ (formedHere.deeper _ member inner rfl) found

/-! ## The search -/

variable {root : Text} {exclude : List Text}

/-- A search that starts at something other than a note finds the same sources. -/
theorem sourceFiles_bare (formed : WellFormed fs.top) (reaches : fs.Reaches root) :
    sourceFiles fs.bare root exclude = sourceFiles fs root exclude := by
  obtain ⟨start, there, other⟩ := reaches
  obtain ⟨location, located, there⟩ := FileSystem.entry_eq_ok_iff.mp there
  have thereBare := FileSystem.entryAt?_bare formed location
  rw [there, Option.bind_some] at thereBare
  rw [sourceFiles, sourceFiles, located, (FileSystem.locate_bare_eq_ok_iff formed).mpr located]
  simp only [there, thereBare]
  cases start with
  | file name content =>
      have named : isNoteName name = false := other
      rw [Entry.bare?, named]
      rfl
  | directory name entries =>
      have holds : at? location fs.top = some entries := by
        rw [← FileSystem.inner?_entryAt?, there]
        rfl
      have formedHere := formed.at? holds
      simp only [Entry.bare?, Surroundings.ofStart_bare formed formedHere,
        sourcesIn_bare formed _ entries formedHere.deeper]

/-- There are no notes among what is found. -/
theorem reaches_of_mem_sourceFiles (formed : WellFormed fs.top) (reaches : fs.Reaches root)
    {sources : List Text} (found : sourceFiles fs root exclude = .ok sources) {path : Text}
    (member : path ∈ sources) : fs.Reaches path := by
  obtain ⟨start, there, other⟩ := reaches
  obtain ⟨location, located, thereAt⟩ := FileSystem.entry_eq_ok_iff.mp there
  rw [sourceFiles, located] at found
  simp only [thereAt] at found
  cases start with
  | file name content =>
      simp only [Except.ok.injEq] at found
      rw [← found, List.mem_singleton] at member
      exact ⟨_, member ▸ there, other⟩
  | directory name entries =>
      have holds : at? location fs.top = some entries := by
        rw [← FileSystem.inner?_entryAt?, thereAt]
        rfl
      simp only at found
      split at found
      next =>
        simp only [Except.ok.injEq] at found
        simp [← found] at member
      next =>
        simp only [Except.ok.injEq] at found
        rw [← found, List.mem_mergeSort, List.mem_map] at member
        obtain ⟨names, isFound, rfl⟩ := member
        obtain ⟨name, content, source, leads⟩ := exists_file_of_mem_sourcesIn ⟨located, holds⟩
          (formed.at? holds) (List.mem_of_mem_filter isFound)
        exact ⟨_, leads, isNoteName_of_isSourceName source⟩

end Discovery

end PatchLint

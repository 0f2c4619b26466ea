import Mathlib.Data.List.Nodup
import PatchLint.Proofs.Batch.Decomposition
import PatchLint.Proofs.Discovery.Notes

/-!
# What a search finds

Where no ignore file applies, a search finds exactly the sources below its start that can be
reached without passing through a skipped directory and that no exclude pattern covers. They
come in the order of paths and each of them once, so more exclude patterns only take sources
away.

The walk goes down the tree entry by entry. `LeadsToSource` says of names what they have to
lead to, and `mem_sourcesIn_iff` ties the two by induction on the names.
-/

namespace PatchLint

open Directory

variable {fs : FileSystem} {entries inner : List Entry}

/-! ## Directories without ignore files -/

/-- The directory holds no ignore file, and if it is the topmost one of a repository, the
repository has none of its own. -/
structure Directory.HasNoIgnoreFile (fs : FileSystem) (entries : List Entry) : Prop where
  general : (find? entries ".ignore".toList).bind Entry.content? = none
  shared : (find? entries ".gitignore".toList).bind Entry.content? = none
  own : Repository.exclude? fs entries = none

/-- No ignore file applies to what is below a location: there is none in the directories on
the way to it, and none in those below it. -/
def FileSystem.Unruled (fs : FileSystem) (location : List Text) : Prop :=
  ∀ place entries, at? place fs.top = some entries →
    place <+: location ∨ location <+: place → HasNoIgnoreFile fs entries

namespace IgnoreLayer

/-- The layer decides nothing. -/
structure IsEmpty (layer : IgnoreLayer) : Prop where
  general : layer.general = []
  shared : layer.shared = []
  own : layer.own = []

private theorem isEmpty_ofEntries (absent : HasNoIgnoreFile fs entries) (path : Text) :
    (ofEntries fs path entries).IsEmpty where
  general := congrArg rulesOf absent.general
  shared := congrArg rulesOf absent.shared
  own := congrArg rulesOf absent.own

end IgnoreLayer

namespace Surroundings

variable {place : Surroundings}

/-- No layer of the surroundings decides anything. -/
def Unruled (place : Surroundings) : Prop :=
  ∀ layer ∈ place.inside ++ place.above, layer.IsEmpty

private theorem mem_layers_of_mem_views {name : Text} {view : IgnoreLayer × Text}
    (member : view ∈ place.views name) : view.1 ∈ place.inside ++ place.above := by
  rw [views, List.mem_append, List.mem_map, List.mem_map] at member
  rw [List.mem_append]
  rcases member with ⟨layer, inside, rfl⟩ | ⟨layer, above, rfl⟩
  · exact .inl inside
  · exact .inr above

private theorem withinRepository_subset (views : List (IgnoreLayer × Text)) :
    withinRepository views ⊆ views := by
  rw [withinRepository]
  split
  next => simp
  next last rest behind =>
    have lastMember : last ∈ views :=
      (List.dropWhile_subset _) (behind ▸ List.mem_cons_self)
    rw [List.append_subset]
    exact ⟨List.takeWhile_subset _, by simpa using lastMember⟩

private theorem decide?_eq_none {rules : IgnoreLayer → List IgnoreRule}
    {views : List (IgnoreLayer × Text)} (ruleless : ∀ view ∈ views, rules view.1 = [])
    (isDirectory : Bool) : decide? rules isDirectory views = none := by
  rw [decide?, List.findSome?_eq_none_iff]
  rintro ⟨layer, path⟩ member
  simp only [ruleless _ member]
  rfl

private theorem Unruled.ignores_eq_false (unruled : place.Unruled) (isDirectory : Bool)
    (name : Text) :
    place.ignores isDirectory name = false := by
  have everywhere : ∀ view ∈ place.views name, view.1.IsEmpty :=
    fun view member => unruled view.1 (mem_layers_of_mem_views member)
  have within : ∀ view ∈ withinRepository (place.views name), view.1.IsEmpty :=
    fun view member => everywhere view (withinRepository_subset _ member)
  rw [ignores, decide?_eq_none fun view member => (everywhere view member).general,
    decide?_eq_none fun view member => (within view member).shared,
    decide?_eq_none fun view member => (within view member).own]
  rfl

private theorem Unruled.enter (unruled : place.Unruled) (absent : HasNoIgnoreFile fs entries)
    (name : Text) : (place.enter fs name entries).Unruled := by
  rw [Unruled, Surroundings.enter, List.cons_append, List.forall_mem_cons]
  exact ⟨IgnoreLayer.isEmpty_ofEntries absent _, unruled⟩

private theorem unruled_ofStart {location : List Text} (unruled : fs.Unruled location)
    (holds : at? location fs.top = some entries) (start : Text) :
    (ofStart fs start location entries).Unruled := by
  have here : HasNoIgnoreFile fs entries := unruled location entries holds (.inl List.prefix_rfl)
  rw [Unruled, ofStart, List.singleton_append, List.forall_mem_cons]
  refine ⟨IgnoreLayer.isEmpty_ofEntries here start, fun layer member => ?_⟩
  obtain ⟨count, _, rfl⟩ := List.mem_map.mp member
  apply IgnoreLayer.isEmpty_ofEntries
  cases reached : at? (location.take count) fs.top with
  | none => exact ⟨rfl, rfl, rfl⟩
  | some inner => exact unruled _ inner reached (.inl (List.take_prefix count location))

end Surroundings

namespace Discovery

variable {place : Surroundings} {directories names : List Text} {name : Text}

/-! ## The walk -/

/-- The names lead to a source: a file with the extension `cs`, behind directories none of which
is for a repository, an editor, a build or packages. -/
structure LeadsToSource (entries : List Entry) (directories : List Text) (name : Text) :
    Prop where
  isFile : ∃ content, entry? (directories ++ [name]) entries = some (.file name content)
  extension : ∃ stem, stem ≠ [] ∧ name = stem ++ ".cs".toList
  entered : ∀ directory ∈ directories,
    directory ∉ [".git", ".vs", ".vscode", "bin", "obj", "packages"].map String.toList

private theorem isSourceName_iff :
    isSourceName name = true ↔ ∃ stem, stem ≠ [] ∧ name = stem ++ ".cs".toList := by
  rw [isSourceName, Bool.and_eq_true, List.isSuffixOf_iff_suffix, decide_eq_true_eq]
  constructor
  · rintro ⟨⟨stem, rfl⟩, longer⟩
    refine ⟨stem, ?_, rfl⟩
    rintro rfl
    simp at longer
  · rintro ⟨stem, given, rfl⟩
    have longer := List.length_pos_iff.mpr given
    rw [List.length_append]
    exact ⟨List.suffix_append _ _, by omega⟩

private theorem leadsToSource_nil :
    LeadsToSource entries [] name ↔
      (∃ content, find? entries name = some (.file name content)) ∧ isSourceName name = true := by
  rw [isSourceName_iff]
  exact ⟨fun leads => ⟨leads.isFile, leads.extension⟩, fun ⟨isFile, extension⟩ =>
    ⟨isFile, extension, by simp⟩⟩

private theorem leadsToSource_cons {directory : Text} :
    LeadsToSource entries (directory :: directories) name ↔
      directory ∉ skippedDirectories ∧ ∃ inner,
        find? entries directory = some (.directory directory inner) ∧
          LeadsToSource inner directories name := by
  obtain ⟨next, more, split⟩ := List.exists_cons_of_ne_nil
    (List.append_ne_nil_of_right_ne_nil directories (List.cons_ne_nil name []))
  constructor
  · rintro ⟨⟨content, found⟩, extension, entered⟩
    obtain ⟨here, behind⟩ := List.forall_mem_cons.mp entered
    rw [List.cons_append, split, entry?_cons_cons] at found
    obtain ⟨inner, opened, foundBelow⟩ := Option.bind_eq_some_iff.mp found
    obtain ⟨entry, isThere, isInner⟩ := Option.bind_eq_some_iff.mp opened
    have named := name_of_find? isThere
    cases entry with
    | file other content => simp [Entry.inner?] at isInner
    | directory other inside =>
        obtain rfl := Option.some.inj isInner
        obtain rfl : other = directory := named
        exact ⟨here, inside, isThere, ⟨content, split ▸ foundBelow⟩, extension, behind⟩
  · rintro ⟨here, inner, isThere, ⟨content, found⟩, extension, behind⟩
    refine ⟨⟨content, ?_⟩, extension, List.forall_mem_cons.mpr ⟨here, behind⟩⟩
    rw [List.cons_append, split, entry?_cons_cons, isThere, ← found, split]
    rfl

/-- What one step of the walk finds at an entry. -/
theorem mem_sourcesAt_iff (unruled : place.Unruled) {entry : Entry} :
    names ∈ sourcesAt fs place entry ↔
      (∃ name content, entry = .file name content ∧ isSourceName name = true ∧
        names = [name]) ∨
      ∃ name inner rest, entry = .directory name inner ∧ name ∉ skippedDirectories ∧
        rest ∈ sourcesIn fs (place.enter fs name inner) inner ∧ names = name :: rest := by
  cases entry with
  | file name content => simp [sourcesAt, unruled.ignores_eq_false]
  | directory name inner =>
      simp only [sourcesAt, unruled.ignores_eq_false, Bool.or_false, List.mem_ite_nil_left,
        List.contains_eq_mem, decide_eq_true_eq, List.mem_map]
      constructor
      · rintro ⟨entered, rest, found, rfl⟩
        exact .inr ⟨name, inner, rest, rfl, entered, found, rfl⟩
      · rintro (⟨_, _, isFile, _⟩ | ⟨_, _, rest, same, entered, found, rfl⟩)
        · cases isFile
        · obtain ⟨rfl, rfl⟩ := Entry.directory.inj same
          exact ⟨entered, rest, found, rfl⟩

/-- The walk finds exactly the names that lead to a source. -/
theorem mem_sourcesIn_iff (formed : WellFormed entries) (unruled : place.Unruled)
    (below : ∀ names inner, at? names entries = some inner → HasNoIgnoreFile fs inner) :
    names ∈ sourcesIn fs place entries ↔
      ∃ directories name, names = directories ++ [name] ∧
        LeadsToSource entries directories name := by
  induction names generalizing entries place with
  | nil =>
      rw [sourcesIn_eq_flatMap]
      simp [mem_sourcesAt_iff unruled]
  | cons first rest ih =>
      have stepsInto {inner : List Entry}
          (isThere : find? entries first = some (.directory first inner)) :
          rest ∈ sourcesIn fs (place.enter fs first inner) inner ↔
            ∃ directories name, rest = directories ++ [name] ∧
              LeadsToSource inner directories name := by
        have leads (names : List Text) : at? (first :: names) entries = at? names inner := by
          rw [at?_cons, isThere]
          rfl
        have formedBelow := formed.deeper _ (List.mem_of_find?_eq_some isThere) inner rfl
        refine ih formedBelow (unruled.enter (below [first] inner (leads [])) first) ?_
        intro names deeper reached
        exact below (first :: names) deeper ((leads names).trans reached)
      rw [sourcesIn_eq_flatMap, List.mem_flatMap]
      constructor
      · rintro ⟨entry, member, found⟩
        have isThere := formed.find?_eq member
        rcases (mem_sourcesAt_iff unruled).mp found with
          ⟨name, content, rfl, source, same⟩ | ⟨name, inner, names, rfl, entered, found, same⟩
        · rw [same]
          exact ⟨[], name, rfl, leadsToSource_nil.mpr ⟨⟨content, isThere⟩, source⟩⟩
        · obtain ⟨rfl, rfl⟩ := List.cons.inj same
          obtain ⟨directories, last, rfl, leads⟩ := (stepsInto isThere).mp found
          exact ⟨first :: directories, last, rfl, leadsToSource_cons.mpr
            ⟨entered, inner, isThere, leads⟩⟩
      · rintro ⟨directories, name, split, leads⟩
        cases directories with
        | nil =>
            obtain ⟨rfl, rfl⟩ := List.cons.inj split
            obtain ⟨⟨content, isThere⟩, source⟩ := leadsToSource_nil.mp leads
            exact ⟨_, List.mem_of_find?_eq_some isThere, (mem_sourcesAt_iff unruled).mpr
              (.inl ⟨first, content, rfl, source, rfl⟩)⟩
        | cons directory directories =>
            obtain ⟨rfl, rfl⟩ := List.cons.inj split
            obtain ⟨entered, inner, isThere, leads⟩ := leadsToSource_cons.mp leads
            exact ⟨_, List.mem_of_find?_eq_some isThere, (mem_sourcesAt_iff unruled).mpr
              (.inr ⟨first, inner, _, rfl, entered,
                (stepsInto isThere).mpr ⟨directories, name, rfl, leads⟩, rfl⟩)⟩

/-! ## One path for each source -/

private theorem head?_of_mem_sourcesAt {entry : Entry} (found : names ∈ sourcesAt fs place entry) :
    names.head? = some entry.name := by
  cases entry with
  | file name content =>
      rw [sourcesAt, List.mem_ite_nil_right, List.mem_singleton] at found
      rw [found.2]
      rfl
  | directory name inner =>
      rw [sourcesAt, List.mem_ite_nil_left, List.mem_map] at found
      obtain ⟨_, rest, _, rfl⟩ := found
      rfl

/-- The walk finds no names twice. -/
theorem nodup_sourcesIn (formed : WellFormed entries) (place : Surroundings) :
    (sourcesIn fs place entries).Nodup := by
  induction formed generalizing place with
  | @intro entries proper distinct deeper ih =>
      rw [sourcesIn_eq_flatMap, List.nodup_flatMap]
      constructor
      · intro entry member
        cases entry with
        | file name content =>
            rw [sourcesAt]
            split <;> simp
        | directory name inner =>
            rw [sourcesAt]
            split
            next => simp
            next => exact (ih _ member inner rfl _).map (List.cons_injective)
      · -- Entries of different names never share a first name.
        rw [List.Nodup, List.pairwise_map] at distinct
        refine distinct.imp fun different names left right => different ?_
        have same := (head?_of_mem_sourcesAt left).symm.trans (head?_of_mem_sourcesAt right)
        exact Option.some.inj same

private theorem isEntryName_of_leadsToSource (formed : WellFormed entries)
    (leads : LeadsToSource entries directories name) :
    ∀ piece ∈ directories ++ [name], Path.IsEntryName piece := by
  induction directories generalizing entries with
  | nil =>
      obtain ⟨⟨content, isThere⟩, _⟩ := leadsToSource_nil.mp leads
      rw [List.nil_append, List.forall_mem_singleton]
      exact formed.proper _ (List.mem_of_find?_eq_some isThere)
  | cons directory directories ih =>
      obtain ⟨_, inner, isThere, leads⟩ := leadsToSource_cons.mp leads
      have member := List.mem_of_find?_eq_some isThere
      rw [List.cons_append, List.forall_mem_cons]
      exact ⟨formed.proper _ member, ih (formed.deeper _ member inner rfl) leads⟩

/-- The path of names says what the start says and then the names. -/
theorem parts_pathOf {root : Text} (given : root ≠ [])
    (proper : ∀ name ∈ names, Path.IsEntryName name) :
    Path.parts (pathOf root names) = Path.parts root ++ names.map .name := by
  induction names generalizing root with
  | nil => simp [pathOf]
  | cons name names ih =>
      obtain ⟨here, behind⟩ := List.forall_mem_cons.mp proper
      rw [pathOf, List.foldl_cons, ← pathOf, ih (Path.join_ne_nil given here.noSlash) behind,
        Path.parts_join given here]
      simp

/-- Different names have different paths. -/
theorem eq_of_same_pathOf {root : Text} {others : List Text} (given : root ≠ [])
    (proper : ∀ name ∈ names, Path.IsEntryName name)
    (properOthers : ∀ name ∈ others, Path.IsEntryName name)
    (spellings : Path.same (pathOf root names) (pathOf root others) = true) : names = others := by
  rw [Path.same_iff, parts_pathOf given proper, parts_pathOf given properOthers,
    List.append_cancel_left_eq] at spellings
  exact List.map_injective_iff.mpr (fun _ _ same => PathPart.name.inj same) spellings

/-! ## The search -/

variable {root : Text} {location : List Text} {exclude : List Text}

/-- Of two lists in strict order with members of one in the other, the one is what is left of
the other. -/
theorem sublist_of_pairwise_before {fewer files : List Text} (ordered : fewer.Pairwise Path.Before)
    (filesOrdered : files.Pairwise Path.Before) (subset : fewer ⊆ files) : fewer.Sublist files := by
  have left : files.filter (· ∈ fewer) = fewer := by
    refine Batch.eq_of_pairwise_before (filesOrdered.filter _) ordered fun path => ?_
    simpa using fun member => subset member
  rw [← left]
  exact List.filter_sublist

/-- What a search finds, where no ignore file applies. -/
structure Finds (root : Text) (entries : List Entry) (exclude files : List Text) : Prop where
  ordered : files.Pairwise Path.Before
  mem_iff : ∀ path, path ∈ files ↔ ∃ directories name,
    path = pathOf root (directories ++ [name]) ∧ LeadsToSource entries directories name ∧
      ∀ pattern ∈ exclude, Exclude.covers pattern (relative (directories ++ [name])) = false

private theorem sourceFiles_of_listed (listed : fs.Listed root location entries)
    (walked : Path.same root typedIn = false) (exclude : List Text) :
    sourceFiles fs root exclude =
      .ok ((((sourcesIn fs (.ofStart fs root location entries) entries).filter fun names =>
        !isExcluded exclude names).map (pathOf root)).mergeSort Path.le) := by
  have opened : (fs.entryAt? location).bind Entry.inner? = some entries := by
    rw [FileSystem.inner?_entryAt?, listed.holds]
  obtain ⟨entry, there, isInner⟩ := Option.bind_eq_some_iff.mp opened
  cases entry with
  | file name content => simp [Entry.inner?] at isInner
  | directory name inner =>
      obtain rfl := Option.some.inj isInner
      simp [sourceFiles, listed.located, there, walked]

/-- Sorted paths of different names are in strict order. -/
theorem pairwise_before_mergeSort (given : root ≠ []) {found : List (List Text)}
    (nodup : found.Nodup) (proper : ∀ names ∈ found, ∀ name ∈ names, Path.IsEntryName name) :
    ((found.map (pathOf root)).mergeSort Path.le).Pairwise Path.Before := by
  have different : (found.map (pathOf root)).Pairwise fun left right =>
      Path.same left right = false := by
    rw [List.pairwise_map]
    refine nodup.imp_of_mem fun {left right} leftFound rightFound different => ?_
    refine Bool.eq_false_iff.mpr fun spellings => different ?_
    exact eq_of_same_pathOf given (proper left leftFound) (proper right rightFound) spellings
  have differentSorted : ((found.map (pathOf root)).mergeSort Path.le).Pairwise
      fun left right => Path.same left right = false := by
    refine (List.mergeSort_perm _ Path.le).symm.pairwise different fun {left right} differ => ?_
    rw [Path.same_comm, differ]
  have sorted := List.pairwise_mergeSort Path.le_trans Path.le_total (found.map (pathOf root))
  exact (sorted.and differentSorted).imp fun both => Path.before_of_le both.1 both.2

private theorem isExcluded_eq_false_iff :
    isExcluded exclude names = false ↔
      ∀ pattern ∈ exclude, Exclude.covers pattern (relative names) = false := by
  simp [isExcluded]

private theorem exists_finds (formed : WellFormed fs.top) (listed : fs.Listed root location entries)
    (unruled : fs.Unruled location) (walked : Path.same root typedIn = false)
    (exclude : List Text) :
    ∃ files, sourceFiles fs root exclude = .ok files ∧ Finds root entries exclude files := by
  have formedHere := formed.at? listed.holds
  have below : ∀ names inner, at? names entries = some inner → HasNoIgnoreFile fs inner := by
    intro names inner reached
    refine unruled (location ++ names) inner ?_ (.inr (List.prefix_append location names))
    rw [at?_append, listed.holds, Option.bind_some, reached]
  have quiet := Surroundings.unruled_ofStart unruled listed.holds root
  have found (names : List Text) :
      names ∈ sourcesIn fs (.ofStart fs root location entries) entries ↔
        ∃ directories name, names = directories ++ [name] ∧
          LeadsToSource entries directories name := mem_sourcesIn_iff formedHere quiet below
  refine ⟨_, sourceFiles_of_listed listed walked exclude, ?_, fun path => ?_⟩
  · refine pairwise_before_mergeSort listed.given ((nodup_sourcesIn formedHere _).filter _) ?_
    intro names member
    obtain ⟨directories, name, rfl, leads⟩ := (found names).mp (List.mem_of_mem_filter member)
    exact isEntryName_of_leadsToSource formedHere leads
  · simp only [List.mem_mergeSort, List.mem_map, List.mem_filter, found, Bool.not_eq_true',
      isExcluded_eq_false_iff]
    constructor
    · rintro ⟨_, ⟨⟨directories, name, rfl, leads⟩, kept⟩, rfl⟩
      exact ⟨directories, name, rfl, leads, kept⟩
    · rintro ⟨directories, name, rfl, leads, kept⟩
      exact ⟨_, ⟨⟨directories, name, rfl, leads⟩, kept⟩, rfl⟩

/-- A search of a directory to which no ignore file applies finds exactly the sources below it
that are not behind a skipped directory and not covered by an exclude pattern, in the order of
paths. More patterns take some of them away and leave the others in their order. `walked` says
that the search goes through the directory: a start that is spelled `-` is what is typed in. -/
theorem sourceFiles_exact (formed : WellFormed fs.top) (listed : fs.Listed root location entries)
    (unruled : fs.Unruled location) (walked : Path.same root typedIn = false)
    (exclude : List Text) :
    ∃ files, sourceFiles fs root exclude = .ok files ∧ Finds root entries exclude files ∧
      ∀ extended, exclude ⊆ extended →
        ∃ fewer, sourceFiles fs root extended = .ok fewer ∧ fewer.Sublist files := by
  obtain ⟨files, searched, finds⟩ := exists_finds formed listed unruled walked exclude
  refine ⟨files, searched, finds, fun extended more => ?_⟩
  obtain ⟨fewer, searchedAgain, findsAgain⟩ := exists_finds formed listed unruled walked extended
  refine ⟨fewer, searchedAgain, sublist_of_pairwise_before findsAgain.ordered finds.ordered ?_⟩
  intro path member
  obtain ⟨directories, name, rfl, leads, kept⟩ := (findsAgain.mem_iff path).mp member
  refine (finds.mem_iff _).mpr ⟨directories, name, rfl, leads, fun pattern listedPattern => ?_⟩
  exact kept pattern (more listedPattern)

/-- What a build has made, a source in a directory that is named like one, and a generated
source. -/
def workshop : List Entry :=
  [.directory "bin".toList [.file "Made.cs".toList (.text [])],
    .directory "Old.cs".toList [.file "Util.cs".toList (.text [])],
    .file "Gen.cs".toList (.text [])]

/-- A file system with the workshop as working directory. -/
def atWorkshop : FileSystem where
  top := [.directory "mod".toList workshop]
  workingDirectory := ["mod".toList]

private theorem wellFormed_workshop : WellFormed workshop := by
  have files {name : Text} (proper : Path.IsEntryName name) :
      WellFormed [.file name (.text [])] :=
    .intro (List.forall_mem_singleton.mpr proper) (List.nodup_singleton _)
      (by simp [Entry.inner?])
  refine .intro (by decide) (by decide) ?_
  simp only [workshop, List.forall_mem_cons, Entry.inner?, Option.some.injEq, forall_eq']
  exact ⟨files (by decide), files (by decide), by simp, by simp⟩

private theorem wellFormed_atWorkshop : WellFormed atWorkshop.top := by
  refine .intro (by decide) (by decide) ?_
  simp only [atWorkshop, List.forall_mem_singleton, Entry.inner?, Option.some.injEq, forall_eq']
  exact wellFormed_workshop

private theorem unruled_atWorkshop (location : List Text) : atWorkshop.Unruled location := by
  let directories : List (List Entry) := [atWorkshop.top, workshop,
    [.file "Made.cs".toList (.text [])], [.file "Util.cs".toList (.text [])]]
  have silent : ∀ entries ∈ directories, HasNoIgnoreFile atWorkshop entries := by
    simp only [directories, List.forall_mem_cons]
    refine ⟨?_, ?_, ?_, ?_, by simp⟩
    all_goals exact ⟨by decide, by decide, by decide⟩
  have closed : ∀ {entries}, entries ∈ directories → ∀ entry ∈ entries, ∀ inner,
      entry.inner? = some inner → inner ∈ directories := by
    simp [directories, atWorkshop, workshop, Entry.inner?]
  intro place entries reached _
  exact silent entries (of_at?_eq_some closed List.mem_cons_self reached)

/-- The source in the directory that is named like one is found. What the build has made is not,
although no pattern covers it, and the pattern hides the generated source. -/
theorem sourceFiles_exact_workshop :
    ∃ files, sourceFiles atWorkshop ['.'] ["Gen".toList] = .ok files ∧
      "./Old.cs/Util.cs".toList ∈ files ∧ "./bin/Made.cs".toList ∉ files ∧
      "./Gen.cs".toList ∉ files := by
  have listed : atWorkshop.Listed ['.'] ["mod".toList] workshop := ⟨by rfl, by rfl⟩
  obtain ⟨files, searched, finds, _⟩ := sourceFiles_exact wellFormed_atWorkshop listed
    (unruled_atWorkshop _) (by decide) ["Gen".toList]
  -- The names behind a path that is found can be told from the path.
  have behind (names : List Text) (proper : ∀ name ∈ names, Path.IsEntryName name)
      (found : pathOf ['.'] names ∈ files) : ∃ directories name, directories ++ [name] = names ∧
        LeadsToSource workshop directories name ∧
          Exclude.covers "Gen".toList (relative names) = false := by
    obtain ⟨directories, name, path, leads, kept⟩ := (finds.mem_iff _).mp found
    have spellings : Path.same (pathOf ['.'] (directories ++ [name])) (pathOf ['.'] names) = true :=
      Path.same_iff.mpr (congrArg Path.parts path.symm)
    have same := eq_of_same_pathOf (by decide)
      (isEntryName_of_leadsToSource wellFormed_workshop leads) proper spellings
    exact ⟨directories, name, same, leads, same ▸ kept _ List.mem_cons_self⟩
  refine ⟨files, searched, ?_, fun found => ?_, fun found => ?_⟩
  · refine (finds.mem_iff _).mpr ⟨["Old.cs".toList], "Util.cs".toList, ?_⟩
    have leads : LeadsToSource workshop ["Old.cs".toList] "Util.cs".toList :=
      ⟨⟨.text [], by rfl⟩, ⟨"Util".toList, by decide, by decide⟩, by decide⟩
    exact ⟨by decide, leads, by decide⟩
  · obtain ⟨directories, name, split, leads, _⟩ :=
      behind ["bin".toList, "Made.cs".toList] (by decide) found
    have made : directories ++ [name] = ["bin".toList] ++ ["Made.cs".toList] := split
    obtain ⟨rfl, _⟩ := List.append_inj' made rfl
    exact leads.entered "bin".toList List.mem_cons_self (by decide)
  · obtain ⟨_, _, _, _, kept⟩ := behind ["Gen.cs".toList] (by decide) found
    exact absurd kept (by decide)

end Discovery

end PatchLint

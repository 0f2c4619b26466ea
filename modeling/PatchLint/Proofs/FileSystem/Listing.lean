import PatchLint.Proofs.FileSystem.Tree
import PatchLint.Proofs.Path.Parts

/-!
# Files of a listed directory

What happens to the file system when a file of a directory is made or removed.
The directory is given by a path, its entries are listed by the same path before
and after, and nothing else in the tree is touched.
-/

namespace PatchLint

namespace Directory

variable {touched : Text → Prop} {before after entries : List Entry} {name : Text}

/-- Two lists of entries agree but for files of these names. -/
structure DifferInFiles (touched : Text → Prop) (before after : List Entry) : Prop where
  same : ∀ name, ¬ touched name → find? after name = find? before name
  files : ∀ name, touched name →
    (find? before name).bind Entry.inner? = none ∧ (find? after name).bind Entry.inner? = none

private theorem DifferInFiles.inner?_eq (differ : DifferInFiles touched before after)
    (name : Text) :
    (find? after name).bind Entry.inner? = (find? before name).bind Entry.inner? := by
  by_cases changes : touched name
  · obtain ⟨none, noneAfter⟩ := differ.files name changes
    rw [none, noneAfter]
  · rw [differ.same name changes]

/-- The entries below are the same, except for those files. -/
theorem DifferInFiles.entry?_eq (differ : DifferInFiles touched before after) {name : Text}
    {rest : List Text} (untouched : touched name → rest ≠ []) :
    entry? (name :: rest) after = entry? (name :: rest) before := by
  cases rest with
  | nil => exact differ.same name fun changes => untouched changes rfl
  | cons next more => rw [entry?_cons_cons, entry?_cons_cons, differ.inner?_eq]

/-- Leave out the entries of these names. -/
def without (gone : List Text) (entries : List Entry) : List Entry :=
  entries.filter fun entry => entry.name ∉ gone

/-- With no name left out everything stays. -/
theorem without_nil : without [] = id := by
  funext entries
  simp [without]

/-- Erasing a name leaves it out. -/
theorem erase_eq_without (name : Text) : erase name = without [name] := by
  funext entries
  refine List.filter_congr fun entry _ => ?_
  by_cases same : entry.name = name <;> simp [same]

/-- Names can be left out one list after the other. -/
theorem without_without (first second : List Text) (entries : List Entry) :
    without second (without first entries) = without (first ++ second) entries := by
  simp only [without, List.filter_filter]
  refine List.filter_congr fun entry _ => ?_
  by_cases dropped : entry.name ∈ first <;> simp [dropped]

/-- A name that is left out is not found, and all others are found as before. -/
theorem find?_without (gone : List Text) (entries : List Entry) (name : Text) :
    find? (without gone entries) name = if name ∈ gone then none else find? entries name := by
  rw [find?, without, List.find?_filter]
  split
  next dropped =>
    refine List.find?_eq_none.mpr fun entry _ => ?_
    by_cases same : entry.name = name <;> simp [same, dropped]
  next kept =>
    rw [find?]
    congr 1
    funext entry
    by_cases same : entry.name = name <;> simp [same, kept]

/-- An added file is found under its name, if nothing else was. -/
theorem find?_append_file (entries : List Entry) (added name : Text) (content : FileContent) :
    find? (entries ++ [.file added content]) name =
      (find? entries name).or (if added = name then some (.file added content) else none) := by
  rw [find?, find?, List.find?_append]
  by_cases same : added = name <;> simp [Entry.name, same]

/-- A name is not found exactly when no entry has it. -/
theorem find?_eq_none_iff :
    find? entries name = none ↔ ∀ entry ∈ entries, entry.name ≠ name := by
  simp [find?]

/-- Leaving out files of some names. -/
theorem differInFiles_without {gone : List Text}
    (files : ∀ name ∈ gone, (find? entries name).bind Entry.inner? = none) :
    DifferInFiles (fun name => name ∈ gone) entries (without gone entries) where
  same name kept := by
    rw [find?_without, if_neg kept]
  files name dropped := by
    rw [find?_without, if_pos dropped]
    exact ⟨files name dropped, rfl⟩

/-- Adding a file of a new name. -/
theorem differInFiles_append {added : Text} (content : FileContent)
    (absent : find? entries added = none) :
    DifferInFiles (fun name => name = added) entries (entries ++ [.file added content]) where
  same name other := by
    rw [find?_append_file, if_neg (Ne.symm other), Option.or_none]
  files name same := by
    subst same
    rw [find?_append_file, absent]
    simp [Entry.inner?]

/-- Entries as a directory holds them: no name has a slash in it, and no name
occurs twice. -/
structure WellNamed (entries : List Entry) : Prop where
  noSlash : ∀ entry ∈ entries, '/' ∉ entry.name
  distinct : (entries.map Entry.name).Nodup

/-- Leaving names out keeps names apart. -/
theorem WellNamed.without (named : WellNamed entries) (gone : List Text) :
    WellNamed (without gone entries) where
  noSlash entry member := named.noSlash entry (List.mem_of_mem_filter member)
  distinct := named.distinct.sublist (List.filter_sublist.map Entry.name)

/-- Adding a file under a new name keeps names apart. -/
theorem WellNamed.append_file (named : WellNamed entries) (absent : find? entries name = none)
    (noSlash : '/' ∉ name) (content : FileContent) :
    WellNamed (entries ++ [.file name content]) where
  noSlash entry member := by
    rcases List.mem_append.mp member with old | new
    · exact named.noSlash entry old
    · rw [List.mem_singleton.mp new]
      exact noSlash
  distinct := by
    rw [List.map_append, List.map_singleton, List.nodup_append]
    refine ⟨named.distinct, by simp, ?_⟩
    rintro _ present _ new rfl
    rw [List.mem_singleton.mp new] at present
    obtain ⟨entry, member, same⟩ := List.mem_map.mp present
    exact find?_eq_none_iff.mp absent entry member same

end Directory

namespace FileSystem

open Directory

variable {fs : FileSystem} {directory name : Text} {location place : List Text}
  {entries : List Entry} {change : List Entry → List Entry} {touched : Text → Prop}

/-- The face of what is at a location. -/
def face? (fs : FileSystem) (place : List Text) : Option (Text × Option FileContent) :=
  (fs.entryAt? place).map Entry.face

/-- The file system after a change of the entries of one directory. -/
def changeAt (fs : FileSystem) (location : List Text) (change : List Entry → List Entry) :
    FileSystem :=
  { fs with top := updateAt change location fs.top }

/-- A change that changes nothing leaves the file system as it is. -/
theorem changeAt_id (fs : FileSystem) (location : List Text) : fs.changeAt location id = fs := by
  rw [changeAt, updateAt_id]

/-- Two changes in one place are one change. -/
theorem changeAt_changeAt (fs : FileSystem) (location : List Text)
    (first second : List Entry → List Entry) :
    (fs.changeAt location first).changeAt location second =
      fs.changeAt location fun entries => second (first entries) := by
  simp only [changeAt, updateAt_updateAt]

/-- An entry is found by its name in the directory that holds it. -/
theorem entryAt?_append_singleton (fs : FileSystem) (front : List Text) (name : Text) :
    fs.entryAt? (front ++ [name]) = (at? front fs.top).bind fun inner => find? inner name := by
  rw [entryAt?, if_neg (by simp), entry?_append_singleton]

/-- There is a directory at a location exactly when its entries can be reached. -/
theorem inner?_entryAt? (fs : FileSystem) (place : List Text) :
    (fs.entryAt? place).bind Entry.inner? = at? place fs.top := by
  rcases List.eq_nil_or_concat place with rfl | ⟨front, name, rfl⟩
  · rfl
  · rw [List.concat_eq_append, entryAt?_append_singleton, at?_append, Option.bind_assoc]
    congr 1
    funext inner
    rw [at?_cons]
    exact (Option.bind_fun_some _).symm

/-- What is not one of the touched files keeps its face. -/
theorem face?_changeAt (holds : at? location fs.top = some entries)
    (differ : DifferInFiles touched entries (change entries))
    (untouched : ∀ name, touched name → place ≠ location ++ [name]) :
    (fs.changeAt location change).face? place = fs.face? place := by
  rw [face?, face?, entryAt?, entryAt?]
  split
  next => rfl
  next =>
    by_cases below : ∃ name rest, place = location ++ name :: rest
    · obtain ⟨name, rest, rfl⟩ := below
      simp only [changeAt, entry?_append_cons, at?_updateAt, holds, Option.map_some,
        Option.bind_some]
      rw [differ.entry?_eq fun changes empty => untouched name changes (by rw [empty])]
    · simp only [not_exists] at below
      exact face?_updateAt change below fs.top

/-- There is a directory at a location exactly when the face says so. -/
theorem isSome_at?_eq_face? (fs : FileSystem) (place : List Text) :
    (at? place fs.top).isSome = (fs.face? place).any fun face => face.2.isNone := by
  rw [← inner?_entryAt?, face?]
  cases fs.entryAt? place with
  | none => rfl
  | some entry => cases entry <;> rfl

/-- The tree has its directories where it had them. -/
theorem isSome_at?_changeAt (holds : at? location fs.top = some entries)
    (differ : DifferInFiles touched entries (change entries)) (place : List Text) :
    (at? place (fs.changeAt location change).top).isSome = (at? place fs.top).isSome := by
  by_cases file : ∃ name, touched name ∧ place = location ++ [name]
  · obtain ⟨name, changes, rfl⟩ := file
    obtain ⟨none, noneAfter⟩ := differ.files name changes
    simp only [changeAt, at?_append, at?_updateAt, holds, Option.map_some, Option.bind_some,
      at?_cons, none, noneAfter]
  · have untouched : ∀ name, touched name → place ≠ location ++ [name] :=
      fun name changes there => file ⟨name, changes, there⟩
    rw [isSome_at?_eq_face?, isSome_at?_eq_face?, face?_changeAt holds differ untouched]

/-! ## Paths to a directory and to its entries -/

/-- Where a path starts. -/
def origin (fs : FileSystem) (path : Text) : List Text :=
  if path.head? = some '/' then [] else fs.workingDirectory

/-- A path is located by following its pieces from its origin. -/
theorem locate_eq_follow (fs : FileSystem) {path : Text} (given : path ≠ []) :
    fs.locate path = fs.follow (fs.origin path) (path.splitOn '/') := by
  rw [locate, if_neg given, origin]
  split <;> rfl

/-- A piece of a path is followed only from a directory. -/
theorem follow_cons_eq_ok_iff {piece : Text} {rest last : List Text} :
    fs.follow location (piece :: rest) = .ok last ↔
      (at? location fs.top).isSome ∧
        (if piece = [] ∨ piece = ['.'] then fs.follow location rest
          else if piece = ['.', '.'] then fs.follow location.dropLast rest
          else fs.follow (location ++ [piece]) rest) = .ok last := by
  rw [follow, ← inner?_entryAt?]
  cases fs.entryAt? location with
  | none => simp
  | some entry => cases entry <;> simp [Entry.inner?]

/-- Pieces are followed one part after the other. -/
theorem follow_append_eq_ok_iff {front back last : List Text} :
    fs.follow location (front ++ back) = .ok last ↔
      ∃ middle, fs.follow location front = .ok middle ∧ fs.follow middle back = .ok last := by
  induction front generalizing location with
  | nil => simp [follow]
  | cons piece rest ih =>
      simp only [List.cons_append, follow_cons_eq_ok_iff]
      split_ifs <;> simp only [ih] <;> grind

/-- A path leads where it led as long as no directory disappears. -/
theorem follow_eq_ok_of_directories {next : FileSystem} {pieces last : List Text}
    (directories : ∀ place, (at? place fs.top).isSome → (at? place next.top).isSome)
    (leads : fs.follow location pieces = .ok last) : next.follow location pieces = .ok last := by
  induction pieces generalizing location with
  | nil => exact leads
  | cons piece rest ih =>
      rw [follow_cons_eq_ok_iff] at leads ⊢
      obtain ⟨directory, leads⟩ := leads
      refine ⟨directories location directory, ?_⟩
      split_ifs at leads ⊢
      all_goals exact ih leads

/-- A path leads to a directory, which holds these entries. -/
structure Listed (fs : FileSystem) (directory : Text) (location : List Text)
    (entries : List Entry) : Prop where
  located : fs.locate directory = .ok location
  holds : at? location fs.top = some entries

/-- The entries of a directory can be listed exactly when the path leads to it. -/
theorem list_eq_ok_iff :
    fs.list directory = .ok entries ↔ ∃ location, fs.Listed directory location entries := by
  have listed (location : List Text) (located : fs.locate directory = .ok location) :
      fs.list directory = .ok entries ↔ at? location fs.top = some entries := by
    rw [← inner?_entryAt?, list, entry, located]
    simp only [bind, Except.bind]
    cases fs.entryAt? location with
    | none => simp
    | some found => cases found <;> simp [Entry.inner?]
  constructor
  · intro lists
    cases located : fs.locate directory with
    | error cause => simp [list, entry, located, bind, Except.bind] at lists
    | ok location => exact ⟨location, located, (listed location located).mp lists⟩
  · rintro ⟨location, located, holds⟩
    exact (listed location located).mpr holds

namespace Listed

/-- The path of a directory that lists is not empty. -/
theorem given (listed : fs.Listed directory location entries) : directory ≠ [] := by
  rintro rfl
  have located := listed.located
  simp [locate] at located

/-- Below a listed directory an entry is found by its name. -/
theorem entryAt?_append (listed : fs.Listed directory location entries) (name : Text) :
    fs.entryAt? (location ++ [name]) = find? entries name := by
  rw [entryAt?_append_singleton, listed.holds]
  rfl

/-- The path of an entry leads to the entry. -/
theorem locate_join (listed : fs.Listed directory location entries)
    (proper : Path.IsEntryName name) :
    fs.locate (Path.join directory name) = .ok (location ++ [name]) := by
  obtain ⟨front, slash, spelled⟩ := Path.exists_withSlash_eq directory
  have path : Path.join directory name = front ++ '/' :: name := by
    rw [Path.join_eq_withSlash_append listed.given proper.noSlash, slash]
    simp
  have isDirectory : (at? location fs.top).isSome := by simp [listed.holds]
  have located := listed.located
  rw [locate_eq_follow fs listed.given] at located
  have reached : fs.follow (fs.origin (front ++ '/' :: name)) (front.splitOn '/') =
      .ok location := by
    -- A slash at the end of the directory is one more piece, which says nothing.
    rcases spelled with rfl | rfl
    · have starts : fs.origin (directory ++ '/' :: name) = fs.origin directory := by
        rw [origin, origin, List.head?_append_of_ne_nil _ listed.given]
      rw [starts, located]
    · have starts : fs.origin (front ++ '/' :: name) = fs.origin (front ++ ['/']) := by
        cases front <;> rfl
      rw [Path.splitOn_withSlash_append List.not_mem_nil, follow_append_eq_ok_iff] at located
      obtain ⟨middle, reached, same⟩ := located
      rw [follow_cons_eq_ok_iff] at same
      rw [starts, reached, ← same.2]
      simp [follow]
  rw [path, locate_eq_follow fs (by simp), Path.splitOn_withSlash_append proper.noSlash,
    follow_append_eq_ok_iff]
  refine ⟨location, reached, ?_⟩
  rw [follow_cons_eq_ok_iff]
  simp [isDirectory, proper.notEmpty, proper.notHere, proper.notParent, follow]

/-- A directory whose files change is listed by the same path. -/
theorem changeAt (listed : fs.Listed directory location entries)
    (differ : DifferInFiles touched entries (change entries)) :
    (fs.changeAt location change).Listed directory location (change entries) where
  located := by
    have located := listed.located
    rw [locate_eq_follow _ listed.given] at located ⊢
    refine follow_eq_ok_of_directories (fun place directory => ?_) located
    rwa [isSome_at?_changeAt listed.holds differ]
  holds := by
    simp [FileSystem.changeAt, at?_updateAt, listed.holds]

end Listed

/-! ## Files that are removed and made -/

/-- There is a file that may be removed. -/
def removable (fs : FileSystem) (place : List Text) : Bool :=
  (fs.entryAt? place).any Entry.isFile && !fs.locked.contains place

namespace Listed

/-- A file of a listed directory can be removed unless it is locked. -/
theorem removable_iff (listed : fs.Listed directory location entries) :
    fs.removable (location ++ [name]) = true ↔
      (∃ content, find? entries name = some (.file name content)) ∧
        location ++ [name] ∉ fs.locked := by
  rw [removable, listed.entryAt?_append]
  cases found : find? entries name with
  | none => simp
  | some entry =>
      have same := name_of_find? found
      cases entry <;> simp_all [Entry.isFile, Entry.name]

/-- Removing a file of a listed directory erases its name, if the file can be removed. -/
theorem remove_join (listed : fs.Listed directory location entries)
    (proper : Path.IsEntryName name) :
    (fs.remove (Path.join directory name)).toOption =
      if fs.removable (location ++ [name]) then some (fs.changeAt location (erase name))
      else none := by
  rw [remove, listed.locate_join proper, removable]
  simp only [bind, Except.bind, List.getLast?_concat, List.dropLast_concat]
  cases fs.entryAt? (location ++ [name]) with
  | none => rfl
  | some entry =>
      cases entry with
      | directory other inner => rfl
      | file other content =>
          by_cases locked : location ++ [name] ∈ fs.locked <;>
            simp [locked, Entry.isFile, FileSystem.changeAt, Except.toOption]

/-- A file can be made exactly where nothing is and nothing is locked. -/
theorem create_join_eq_ok_iff (listed : fs.Listed directory location entries)
    (proper : Path.IsEntryName name) {content : Text} {next : FileSystem} :
    fs.create (Path.join directory name) content = .ok next ↔
      find? entries name = none ∧ location ++ [name] ∉ fs.locked ∧
        next = fs.changeAt location fun entries => entries ++ [.file name (.text content)] := by
  rw [create, listed.locate_join proper]
  simp only [bind, Except.bind, List.getLast?_concat, List.dropLast_concat,
    listed.entryAt?_append]
  cases find? entries name with
  | some entry => simp
  | none =>
      by_cases locked : location ++ [name] ∈ fs.locked <;>
        simp [locked, FileSystem.changeAt, eq_comm]

/-- The path of a file shows what the file holds. -/
theorem read_join (listed : fs.Listed directory location entries)
    (proper : Path.IsEntryName name) {other content : Text}
    (found : find? entries name = some (.file other (.text content))) :
    fs.read (Path.join directory name) = .ok content := by
  rw [read, entry, listed.locate_join proper]
  simp only [bind, Except.bind, listed.entryAt?_append, found]

/-- The directory without files that may be removed. -/
theorem differInFiles_without (listed : fs.Listed directory location entries) {gone : List Text}
    (removes : ∀ name ∈ gone, fs.removable (location ++ [name]) = true) :
    DifferInFiles (fun name => name ∈ gone) entries (without gone entries) := by
  refine Directory.differInFiles_without fun name member => ?_
  obtain ⟨⟨content, found⟩, _⟩ := listed.removable_iff.mp (removes name member)
  rw [found]
  rfl

end Listed

end FileSystem

end PatchLint

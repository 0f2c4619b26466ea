import Mathlib.Data.List.Nodup
import PatchLint.Proofs.FileSystem.Listing

/-!
# File systems without their notes

A note is a file whose name ends in `.txt`. The bare file system is what is left
without all notes. Paths lead to the same places in it, and whatever is under a
path is the same, unless it is a note. So a question about a file system that
never turns to a note has one answer for all file systems that differ in notes.

All this is about trees as an operating system keeps them: entries of one
directory have different names, and a name is one piece of a path.
-/

namespace PatchLint

namespace Directory

variable {entries inner : List Entry} {location : List Text} {name : Text}
  {change : List Entry → List Entry}

/-! ## Trees with proper names -/

/-- Entries with proper names, here and in all directories below. -/
inductive WellFormed : List Entry → Prop where
  | intro {entries : List Entry} (proper : ∀ entry ∈ entries, Path.IsEntryName entry.name)
      (distinct : (entries.map Entry.name).Nodup)
      (deeper : ∀ entry ∈ entries, ∀ inner, entry.inner? = some inner → WellFormed inner) :
      WellFormed entries

namespace WellFormed

/-- Names in a well-formed directory are proper names of entries. -/
theorem proper (formed : WellFormed entries) :
    ∀ entry ∈ entries, Path.IsEntryName entry.name := by
  cases formed
  assumption

private theorem distinct (formed : WellFormed entries) : (entries.map Entry.name).Nodup := by
  cases formed
  assumption

/-- What is inside of a well-formed directory is well-formed. -/
theorem deeper (formed : WellFormed entries) :
    ∀ entry ∈ entries, ∀ inner, entry.inner? = some inner → WellFormed inner := by
  cases formed
  assumption

/-- Names in a well-formed directory are kept apart. -/
theorem wellNamed (formed : WellFormed entries) : WellNamed entries where
  noSlash entry member := (formed.proper entry member).noSlash
  distinct := formed.distinct

/-- A directory that is reached in a well-formed one is well-formed. -/
theorem at? (formed : WellFormed entries) (reached : at? location entries = some inner) :
    WellFormed inner :=
  of_at?_eq_some deeper formed reached

/-- An entry is found by its name. -/
theorem find?_eq (formed : WellFormed entries) {entry : Entry} (member : entry ∈ entries) :
    find? entries entry.name = some entry := by
  cases search : find? entries entry.name with
  | none => exact absurd rfl (find?_eq_none_iff.mp search entry member)
  | some found =>
      rw [List.inj_on_of_nodup_map formed.distinct (List.mem_of_find?_eq_some search) member
        (name_of_find? search)]

/-- Leaving names out keeps a directory well-formed. -/
theorem without (formed : WellFormed entries) (gone : List Text) :
    WellFormed (without gone entries) :=
  .intro (fun entry member => formed.proper entry (List.mem_of_mem_filter member))
    (formed.wellNamed.without gone).distinct
    fun entry member => formed.deeper entry (List.mem_of_mem_filter member)

/-- A tree stays well-formed when one of its directories does. -/
theorem updateAt (formed : WellFormed entries)
    (changed : ∀ inner, Directory.at? location entries = some inner → WellFormed (change inner)) :
    WellFormed (updateAt change location entries) := by
  induction location generalizing entries with
  | nil => exact changed entries rfl
  | cons name rest ih =>
      rw [updateAt_cons]
      refine .intro ?_ ?_ ?_
      · intro entry member
        obtain ⟨old, oldMember, rfl⟩ := List.mem_map.mp member
        rw [Entry.name_descend]
        exact formed.proper old oldMember
      · have names : Entry.name ∘ Entry.descend name (Directory.updateAt change rest) =
            Entry.name := funext (Entry.name_descend name _)
        rw [List.map_map, names]
        exact formed.distinct
      · intro entry member inner isInner
        obtain ⟨old, oldMember, rfl⟩ := List.mem_map.mp member
        rw [Entry.inner?_descend] at isInner
        split at isInner
        next same =>
          obtain ⟨deeper, opened, rfl⟩ := Option.map_eq_some_iff.mp isInner
          refine ih (formed.deeper old oldMember deeper opened) fun inner reached => ?_
          refine changed inner ?_
          rw [at?_cons, ← same, formed.find?_eq oldMember, Option.bind_some, opened]
          exact reached
        next => exact formed.deeper old oldMember inner isInner

end WellFormed

end Directory

/-! ## Notes -/

/-- The name of a note. -/
def isNoteName (name : Text) : Bool :=
  ".txt".toList.isSuffixOf name

namespace Entry

/-- The entry is a note. -/
def isNote (entry : Entry) : Bool :=
  entry.isFile && isNoteName entry.name

end Entry

mutual

/-- An entry without the notes in it. Of a note nothing is left. -/
def Entry.bare? : Entry → Option Entry
  | .file name content => if isNoteName name then none else some (.file name content)
  | .directory name entries => some (.directory name (Directory.bare entries))

/-- Entries without the notes among them and in them. -/
def Directory.bare : List Entry → List Entry
  | [] => []
  | entry :: rest => entry.bare?.toList ++ Directory.bare rest

end

namespace Entry

variable {entry : Entry}

/-- Of a note nothing is left, and of anything else something. -/
theorem bare?_eq_none_iff : entry.bare? = none ↔ entry.isNote = true := by
  cases entry with
  | file name content =>
      rw [bare?]
      split <;> simp_all [isNote, isFile, Entry.name]
  | directory name entries => simp [bare?, isNote, isFile]

private theorem name_of_bare? {left : Entry} (rest : entry.bare? = some left) :
    left.name = entry.name := by
  cases entry with
  | file name content =>
      rw [bare?, Option.ite_none_left_eq_some] at rest
      rw [← Option.some.inj rest.2]
  | directory name entries =>
      rw [bare?] at rest
      rw [← Option.some.inj rest]
      rfl

private theorem inner?_bare? (entry : Entry) :
    entry.bare?.bind inner? = entry.inner?.map Directory.bare := by
  cases entry with
  | file name content =>
      rw [bare?]
      split <;> rfl
  | directory name entries => rw [bare?]; rfl

/-- What is no note keeps its content. -/
theorem content?_bare? (other : entry.isNote = false) :
    entry.bare?.bind content? = entry.content? := by
  cases entry with
  | file name content =>
      have named : isNoteName name = false := other
      rw [bare?, named]
      rfl
  | directory name entries => rw [bare?]; rfl

end Entry

namespace Directory

variable {entries inner : List Entry} {location : List Text} {name : Text}

private theorem bare_eq_filterMap (entries : List Entry) :
    bare entries = entries.filterMap Entry.bare? := by
  induction entries with
  | nil => rw [bare]; rfl
  | cons entry rest ih =>
      rw [bare, ih]
      cases bared : entry.bare? <;> simp [bared]

private theorem find?_cons (entry : Entry) (rest : List Entry) (name : Text) :
    find? (entry :: rest) name = if entry.name = name then some entry else find? rest name := by
  by_cases same : entry.name = name <;> simp [find?, same]

private theorem find?_append (front back : List Entry) (name : Text) :
    find? (front ++ back) name = (find? front name).or (find? back name) :=
  List.find?_append

/-- What is found under a name is what was found, without notes. -/
theorem find?_bare (formed : WellFormed entries) (name : Text) :
    find? (bare entries) name = (find? entries name).bind Entry.bare? := by
  have distinct := formed.distinct
  clear formed
  induction entries with
  | nil => rw [bare]; rfl
  | cons entry rest ih =>
      rw [List.map_cons, List.nodup_cons] at distinct
      obtain ⟨absent, distinct⟩ := distinct
      rw [bare, find?_append, find?_cons, ih distinct]
      split
      next same =>
        have noOther : find? rest name = none := by
          refine find?_eq_none_iff.mpr fun other member equal => absent ?_
          exact List.mem_map.mpr ⟨other, member, equal.trans same.symm⟩
        rw [noOther, Option.bind_none, Option.or_none, Option.bind_some]
        cases bared : entry.bare? with
        | none => rfl
        | some left => rw [Option.toList_some, find?_cons, Entry.name_of_bare? bared, if_pos same]
      next different =>
        have skipped : find? entry.bare?.toList name = none := by
          refine find?_eq_none_iff.mpr fun left member => ?_
          rw [Entry.name_of_bare? (Option.mem_toList.mp member)]
          exact different
        rw [skipped, Option.none_or]

/-- Directories are reached as before once notes are left out, and they hold no notes then. -/
theorem at?_bare (formed : WellFormed entries) (location : List Text) :
    at? location (bare entries) = (at? location entries).map bare := by
  induction location generalizing entries with
  | nil => rfl
  | cons name rest ih =>
      rw [at?_cons, at?_cons, find?_bare formed]
      cases found : find? entries name with
      | none => rfl
      | some entry =>
          rw [Option.bind_some, Option.bind_some, Entry.inner?_bare?]
          cases isInner : entry.inner? with
          | none => rfl
          | some inner =>
              exact ih (formed.deeper entry (List.mem_of_find?_eq_some found) inner isInner)

private theorem entry?_bare (formed : WellFormed entries) (names : List Text) :
    Directory.entry? names (bare entries) =
      (Directory.entry? names entries).bind Entry.bare? := by
  rw [Directory.entry?, Directory.entry?, at?_bare formed]
  cases names.getLast? with
  | none => rfl
  | some name =>
      cases reached : at? names.dropLast entries with
      | none => rfl
      | some inner => exact find?_bare (formed.at? reached) name

/-- Notes that go leave the bare entries as they are. -/
theorem bare_without {gone : List Text} (formed : WellFormed entries)
    (notes : ∀ name ∈ gone, (find? entries name).any Entry.isNote = true) :
    bare (without gone entries) = bare entries := by
  rw [bare_eq_filterMap, bare_eq_filterMap, without, List.filterMap_filter]
  refine List.filterMap_congr fun entry member => ?_
  by_cases dropped : entry.name ∈ gone
  · have isNote := notes entry.name dropped
    rw [formed.find?_eq member, Option.any_some] at isNote
    simp [dropped, Entry.bare?_eq_none_iff.mpr isNote]
  · simp [dropped]

/-- A tree has the same bare tree when one of its directories has. -/
theorem bare_updateAt {change : List Entry → List Entry} (formed : WellFormed entries)
    (reached : at? location entries = some inner) (same : bare (change inner) = bare inner) :
    bare (updateAt change location entries) = bare entries := by
  induction location generalizing entries with
  | nil =>
      obtain rfl := Option.some.inj reached
      exact same
  | cons name rest ih =>
      rw [updateAt_cons, bare_eq_filterMap, bare_eq_filterMap, List.filterMap_map]
      refine List.filterMap_congr fun entry member => ?_
      cases entry with
      | file other content => rfl
      | directory other deeper =>
          rw [Function.comp_apply, Entry.descend]
          split
          next sameName =>
            -- There is one directory of this name, the one that leads to the change.
            have found := formed.find?_eq member
            rw [Entry.name, sameName] at found
            rw [at?_cons, found] at reached
            rw [Entry.bare?, Entry.bare?, ih (formed.deeper _ member deeper rfl) reached]
          next => rfl

end Directory

namespace FileSystem

open Directory

variable {fs : FileSystem} {path : Text} {location : List Text}

/-- The file system without its notes, in which nothing is locked. -/
def bare (fs : FileSystem) : FileSystem where
  top := Directory.bare fs.top
  workingDirectory := fs.workingDirectory

/-- Entries are reached as before once notes are left out, unless they are notes. -/
theorem entryAt?_bare (formed : WellFormed fs.top) (location : List Text) :
    fs.bare.entryAt? location = (fs.entryAt? location).bind Entry.bare? := by
  rw [entryAt?, entryAt?]
  split
  next => rw [Option.bind_some, Entry.bare?]; rfl
  next => exact entry?_bare formed location

/-- Paths lead to the same places. -/
theorem locate_bare_eq_ok_iff (formed : WellFormed fs.top) :
    fs.bare.locate path = .ok location ↔ fs.locate path = .ok location := by
  have directories (place : List Text) :
      (at? place fs.bare.top).isSome = (at? place fs.top).isSome := by
    rw [bare, at?_bare formed, Option.isSome_map]
  by_cases given : path = []
  · simp [locate, given]
  · have origins : fs.bare.origin path = fs.origin path := rfl
    rw [locate_eq_follow _ given, locate_eq_follow _ given, origins]
    constructor
    · exact follow_eq_ok_of_directories fun place => by rw [directories]; exact id
    · exact follow_eq_ok_of_directories fun place => by rw [directories]; exact id

/-- An answer is the value exactly when there is no error. -/
theorem toOption_eq_some_iff {ε α : Type} {answer : Except ε α} {value : α} :
    answer.toOption = some value ↔ answer = .ok value := by
  cases answer <;> simp [Except.toOption]

/-- There is an entry under a path exactly when the path is located and leads to the entry. -/
theorem entry_eq_ok_iff {entry : Entry} :
    fs.entry path = .ok entry ↔
      ∃ location, fs.locate path = .ok location ∧ fs.entryAt? location = some entry := by
  rw [FileSystem.entry]
  cases fs.locate path with
  | error cause => simp [bind, Except.bind]
  | ok location =>
      simp only [bind, Except.bind, Except.ok.injEq, exists_eq_left']
      cases fs.entryAt? location <;> simp

/-- What is under a path is what was there, without notes. -/
theorem entry_bare_eq_ok_iff (formed : WellFormed fs.top) {left : Entry} :
    fs.bare.entry path = .ok left ↔
      ∃ entry, fs.entry path = .ok entry ∧ entry.bare? = some left := by
  simp only [entry_eq_ok_iff, locate_bare_eq_ok_iff formed, entryAt?_bare formed,
    Option.bind_eq_some_iff]
  constructor
  · rintro ⟨location, located, entry, there, bared⟩
    exact ⟨entry, ⟨location, located, there⟩, bared⟩
  · rintro ⟨entry, ⟨location, located, there⟩, bared⟩
    exact ⟨location, located, entry, there, bared⟩

private theorem toOption_entry_bare (formed : WellFormed fs.top) (path : Text) :
    (fs.bare.entry path).toOption = (fs.entry path).toOption.bind Entry.bare? := by
  refine Option.ext fun left => ?_
  rw [Option.bind_eq_some_iff]
  simp only [toOption_eq_some_iff, entry_bare_eq_ok_iff formed]

/-- There is no note under a path. -/
def AvoidsNotes (fs : FileSystem) (path : Text) : Prop :=
  ∀ entry, fs.entry path = .ok entry → entry.isNote = false

/-- Off notes, every path gives the same content in the bare file system. -/
theorem content?_bare (formed : WellFormed fs.top) (avoids : fs.AvoidsNotes path) :
    fs.bare.content? path = fs.content? path := by
  rw [content?, content?, toOption_entry_bare formed]
  cases there : fs.entry path with
  | error cause => rfl
  | ok entry => exact Entry.content?_bare? (avoids entry there)

/-- There is something other than a note under a path. -/
def Reaches (fs : FileSystem) (path : Text) : Prop :=
  ∃ entry, fs.entry path = .ok entry ∧ entry.isNote = false

/-- Something other than a note is there exactly when it is left without the notes. -/
theorem reaches_iff (formed : WellFormed fs.top) :
    fs.Reaches path ↔ ∃ left, fs.bare.entry path = .ok left := by
  simp only [entry_bare_eq_ok_iff formed]
  constructor
  · rintro ⟨entry, there, other⟩
    cases bared : entry.bare? with
    | none => simp [Entry.bare?_eq_none_iff.mp bared] at other
    | some left => exact ⟨left, entry, there, bared⟩
  · rintro ⟨left, entry, there, bared⟩
    refine ⟨entry, there, Bool.eq_false_iff.mpr fun note => ?_⟩
    rw [Entry.bare?_eq_none_iff.mpr note] at bared
    contradiction

/-- Where something other than a note is, the same can be read. -/
theorem read_bare (formed : WellFormed fs.top) (reaches : fs.Reaches path) :
    fs.bare.read path = fs.read path := by
  obtain ⟨left, thereBare⟩ := (reaches_iff formed).mp reaches
  obtain ⟨entry, there, bared⟩ := (entry_bare_eq_ok_iff formed).mp thereBare
  rw [read, read, there, thereBare]
  cases entry with
  | file name content =>
      rw [Entry.bare?, Option.ite_none_left_eq_some] at bared
      rw [← Option.some.inj bared.2]
  | directory name entries =>
      rw [Entry.bare?] at bared
      rw [← Option.some.inj bared]
      rfl

/-- A path whose last piece is another name does not lead to a note. -/
theorem avoidsNotes_of_lastPiece? {name : Text} (last : Path.lastPiece? path = some name)
    (proper : Path.IsEntryName name) (other : isNoteName name = false) : fs.AvoidsNotes path := by
  intro entry there
  obtain ⟨location, located, there⟩ := entry_eq_ok_iff.mp there
  have given : path ≠ [] := by
    rintro rfl
    simp [locate] at located
  obtain ⟨front, split⟩ := List.getLast?_eq_some_iff.mp last
  rw [locate_eq_follow _ given, split, follow_append_eq_ok_iff] at located
  obtain ⟨middle, _, located⟩ := located
  rw [follow_cons_eq_ok_iff] at located
  simp only [proper.notEmpty, proper.notHere, proper.notParent, or_self, if_false, follow,
    Except.ok.injEq] at located
  rw [← located.2, entryAt?_append_singleton] at there
  obtain ⟨inner, _, found⟩ := Option.bind_eq_some_iff.mp there
  rw [Entry.isNote, name_of_find? found, other, Bool.and_false]

end FileSystem

end PatchLint

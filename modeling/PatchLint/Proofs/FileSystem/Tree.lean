import Mathlib.Data.List.Basic
import PatchLint.FileSystem

/-!
# Changing one directory of a tree

An entry has a face: its name, and what it holds if it is a file. When the
entries of one directory change, every entry that is not below this directory
keeps its face, and what is below it is what the new entries hold.
-/

namespace PatchLint

namespace Entry

/-- The entries of a directory. -/
def inner? : Entry → Option (List Entry)
  | .file _ _ => none
  | .directory _ inner => some inner

/-- What can be seen of an entry from the outside. -/
def face (entry : Entry) : Text × Option FileContent :=
  (entry.name, entry.content?)

/-- Change the entries of a directory of this name. -/
def descend (name : Text) (change : List Entry → List Entry) : Entry → Entry
  | .directory other inner =>
    if other = name then .directory other (change inner) else .directory other inner
  | .file other content => .file other content

@[simp] private theorem face_descend (name : Text) (change : List Entry → List Entry)
    (entry : Entry) :
    (entry.descend name change).face = entry.face := by
  cases entry with
  | file other content => rfl
  | directory other inner =>
      rw [descend]
      split <;> rfl

/-- A change inside of an entry keeps the name of the entry. -/
@[simp] theorem name_descend (name : Text) (change : List Entry → List Entry) (entry : Entry) :
    (entry.descend name change).name = entry.name :=
  congrArg Prod.fst (face_descend name change entry)

/-- A change inside of entries of one name is a change inside of no other. -/
theorem inner?_descend (name : Text) (change : List Entry → List Entry) (entry : Entry) :
    (entry.descend name change).inner? =
      if entry.name = name then entry.inner?.map change else entry.inner? := by
  cases entry with
  | file other content => simp [descend, inner?]
  | directory other inner =>
      by_cases same : other = name <;> simp [descend, inner?, Entry.name, same]

end Entry

namespace Directory

variable {change : List Entry → List Entry} {name other : Text} {entries : List Entry}

/-- What is found under a name has this name. -/
theorem name_of_find? {entry : Entry} (found : find? entries name = some entry) :
    entry.name = name := by
  simpa using List.find?_some found

/-- A directory is reached through the first name. -/
theorem at?_cons (name : Text) (rest : List Text) (entries : List Entry) :
    at? (name :: rest) entries = ((find? entries name).bind Entry.inner?).bind (at? rest) := by
  rw [at?]
  cases find? entries name with
  | none => rfl
  | some entry => cases entry <;> rfl

/-- A directory is reached by one list of names after the other. -/
theorem at?_append (front back : List Text) (entries : List Entry) :
    at? (front ++ back) entries = (at? front entries).bind (at? back) := by
  induction front generalizing entries with
  | nil => rfl
  | cons name rest ih =>
      have step : at? (rest ++ back) = fun inner => (at? rest inner).bind (at? back) := funext ih
      simp only [List.cons_append, at?_cons, Option.bind_assoc, step]

/-- What holds of a directory and passes on to the directories in it holds of all below. -/
theorem of_at?_eq_some {holds : List Entry → Prop} {location : List Text} {inner : List Entry}
    (passes : ∀ {entries}, holds entries → ∀ entry ∈ entries, ∀ inner,
      entry.inner? = some inner → holds inner)
    (here : holds entries) (reached : at? location entries = some inner) : holds inner := by
  induction location generalizing entries with
  | nil =>
      obtain rfl := Option.some.inj reached
      exact here
  | cons name rest ih =>
      rw [at?_cons] at reached
      obtain ⟨deeper, opened, reached⟩ := Option.bind_eq_some_iff.mp reached
      obtain ⟨entry, found, isInner⟩ := Option.bind_eq_some_iff.mp opened
      exact ih (passes here entry (List.mem_of_find?_eq_some found) deeper isInner) reached

/-- The entry that names lead to is found by the last of them. -/
theorem entry?_append_singleton (front : List Text) (name : Text) (entries : List Entry) :
    entry? (front ++ [name]) entries = (at? front entries).bind fun inner => find? inner name := by
  unfold entry?
  simp

/-- What is below a directory is what its entries hold. -/
theorem entry?_append_cons (front : List Text) (name : Text) (rest : List Text)
    (entries : List Entry) :
    entry? (front ++ name :: rest) entries =
      (at? front entries).bind fun inner => entry? (name :: rest) inner := by
  obtain ⟨before, last, split⟩ := List.eq_nil_or_concat (name :: rest) |>.resolve_left (by simp)
  have below : entry? (before ++ [last]) = fun inner =>
      (at? before inner).bind fun deeper => find? deeper last :=
    funext (entry?_append_singleton before last)
  rw [split, List.concat_eq_append, ← List.append_assoc, entry?_append_singleton, at?_append,
    Option.bind_assoc, below]

/-- An entry is reached through the first of several names. -/
theorem entry?_cons_cons (name next : Text) (rest : List Text) (entries : List Entry) :
    entry? (name :: next :: rest) entries =
      ((find? entries name).bind Entry.inner?).bind fun inner => entry? (next :: rest) inner := by
  have single : at? [name] entries = (find? entries name).bind Entry.inner? := by
    rw [at?_cons]
    exact Option.bind_fun_some _
  rw [← single]
  exact entry?_append_cons [name] next rest entries

/-! ## After a change -/

/-- A change further down is one inside of the entries of the first name. -/
theorem updateAt_cons (change : List Entry → List Entry) (name : Text) (rest : List Text)
    (entries : List Entry) :
    updateAt change (name :: rest) entries =
      entries.map (Entry.descend name (updateAt change rest)) := by
  rw [updateAt]
  refine List.map_congr_left fun entry _ => ?_
  cases entry <;> rfl

private theorem find?_map_descend (name other : Text) (change : List Entry → List Entry)
    (entries : List Entry) :
    find? (entries.map (Entry.descend name change)) other =
      (find? entries other).map (Entry.descend name change) := by
  have same : (fun entry : Entry => entry.name == other) ∘ Entry.descend name change =
      fun entry => entry.name == other := by
    funext entry
    rw [Function.comp_apply, Entry.name_descend]
  rw [find?, List.find?_map, same]
  rfl

/-- Where a change is made, the changed entries are found. -/
theorem at?_updateAt (change : List Entry → List Entry) (location : List Text)
    (entries : List Entry) :
    at? location (updateAt change location entries) = (at? location entries).map change := by
  induction location generalizing entries with
  | nil => rfl
  | cons name rest ih =>
      rw [updateAt_cons, at?_cons, at?_cons, find?_map_descend]
      cases found : find? entries name with
      | none => rfl
      | some entry =>
          simp only [Option.map_some, Option.bind_some, Entry.inner?_descend, name_of_find? found]
          cases entry.inner? with
          | none => rfl
          | some inner => simp [ih]

/-- A change that changes nothing leaves all entries as they are. -/
theorem updateAt_id (location : List Text) (entries : List Entry) :
    updateAt id location entries = entries := by
  induction location generalizing entries with
  | nil => rfl
  | cons name rest ih =>
      have same : updateAt id rest = id := funext ih
      rw [updateAt_cons, same]
      refine List.map_id'' (fun entry => ?_) entries
      cases entry with
      | file other content => rfl
      | directory other inner =>
          rw [Entry.descend]
          split <;> rfl

/-- Two changes in one place are one change. -/
theorem updateAt_updateAt (first second : List Entry → List Entry) (location : List Text)
    (entries : List Entry) :
    updateAt second location (updateAt first location entries) =
      updateAt (fun inner => second (first inner)) location entries := by
  induction location generalizing entries with
  | nil => rfl
  | cons name rest ih =>
      rw [updateAt_cons, updateAt_cons, updateAt_cons, List.map_map]
      refine List.map_congr_left fun entry _ => ?_
      cases entry with
      | file other content => rfl
      | directory other inner =>
          by_cases same : other = name <;> simp [Entry.descend, same, ih]

/-- The face of the entry that names lead to. -/
def face? (place : List Text) (entries : List Entry) : Option (Text × Option FileContent) :=
  Option.map Entry.face <| entry? place entries

/-- What is not below the changed directory keeps its face. -/
theorem face?_updateAt (change : List Entry → List Entry) {location place : List Text}
    (outside : ∀ name rest, place ≠ location ++ name :: rest) (entries : List Entry) :
    face? place (updateAt change location entries) = face? place entries := by
  induction location generalizing place entries with
  | nil =>
      cases place with
      | nil => rfl
      | cons name rest => exact absurd rfl (outside name rest)
  | cons name rest ih =>
      rw [updateAt_cons]
      match place with
      | [] => rfl
      | [only] =>
          have single (inner : List Entry) :
              face? [only] inner = (find? inner only).map Entry.face := rfl
          simp only [single, find?_map_descend, Option.map_map]
          congr 1
          funext entry
          exact Entry.face_descend _ _ _
      | first :: next :: more =>
          rw [face?, face?, entry?_cons_cons, entry?_cons_cons, find?_map_descend]
          cases found : find? entries first with
          | none => rfl
          | some entry =>
              simp only [Option.map_some, Option.bind_some, Entry.inner?_descend,
                name_of_find? found]
              split
              next same =>
                subst same
                cases entry.inner? with
                | none => rfl
                | some inner =>
                    have deeper : ∀ name others, next :: more ≠ rest ++ name :: others := by
                      intro name others below
                      exact outside name others (by rw [below]; rfl)
                    exact ih deeper inner
              next => rfl

end Directory

end PatchLint

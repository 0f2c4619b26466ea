import Mathlib.Data.List.Basic
import PatchLint.Discovery
import PatchLint.Proofs.Path.Parts
import PatchLint.Proofs.Text.Bytes

/-!
# How files below the root are shown

The path of a file below a root is the spelling of the root with the names behind it. To show
it, as many parts are dropped as the root says, and what is left is spelled as it stands. The
root can have been spelled with empty pieces and dots: those between its last part and the
first name are dropped as well, so the names alone are shown, and names can be read back from
what is shown.
-/

namespace PatchLint.Path

open PatchLint.Discovery (pathOf)

variable {root name : Text} {names : List Text}

/-! ## Spelling -/

private theorem withSlash_append (noSlash : '/' ∉ name) (notEmpty : name ≠ []) (front : Text) :
    withSlash (front ++ name) = front ++ name ++ ['/'] := by
  rw [withSlash, if_neg]
  intro slash
  rw [List.getLast?_append_of_ne_nil _ notEmpty] at slash
  exact noSlash (List.mem_of_getLast? slash)

/-- Names are put behind a directory with slashes between them. -/
theorem pathOf_eq_append (given : root ≠ []) (notEmpty : names ≠ [])
    (proper : ∀ name ∈ names, IsEntryName name) :
    pathOf root names = withSlash root ++ spelled names := by
  induction names generalizing root with
  | nil => contradiction
  | cons name names ih =>
      obtain ⟨here, behind⟩ := List.forall_mem_cons.mp proper
      have path := join_eq_withSlash_append given here.noSlash
      by_cases last : names = []
      · simpa [pathOf, last, spelled] using path
      · have step := ih (join_ne_nil given here.noSlash) last behind
        rw [pathOf, List.foldl_cons, ← pathOf, step, path, withSlash_append here.noSlash
          here.notEmpty, spelled_cons last]
        simp

private theorem pathOf_nil (notEmpty : names ≠ []) (proper : ∀ name ∈ names, IsEntryName name) :
    pathOf [] names = spelled names := by
  cases names with
  | nil => contradiction
  | cons name names =>
      obtain ⟨here, behind⟩ := List.forall_mem_cons.mp proper
      have first : pathOf [] (name :: names) = pathOf name names := by
        rw [pathOf, List.foldl_cons, join, if_pos (.inl rfl), pathOf]
      by_cases last : names = []
      · rw [first, last]
        simp [pathOf, spelled]
      · have slash := withSlash_append here.noSlash here.notEmpty []
        rw [first, pathOf_eq_append here.notEmpty last behind, spelled_cons last]
        rw [List.nil_append] at slash
        simp [slash]

private theorem head?_spelled_cons (notEmpty : name ≠ []) (names : List Text) :
    (spelled (name :: names)).head? = name.head? := by
  by_cases last : names = []
  · simp [last, spelled]
  · rw [spelled_cons last, List.head?_append_of_ne_nil _ notEmpty]

/-! ## Pieces -/

/-- The pieces that names are. -/
def namePieces (names : List Text) : List Piece :=
  names.map fun name => ⟨some (.name name), name⟩

private theorem splitOn_spelled (notEmpty : names ≠ [])
    (proper : ∀ name ∈ names, IsEntryName name) :
    (spelled names).splitOn '/' = names :=
  List.splitOn_intercalate '/' (fun name member => (proper name member).noSlash) notEmpty

private theorem map_laterPiece (proper : ∀ name ∈ names, IsEntryName name) :
    names.map laterPiece = namePieces names := by
  refine List.map_congr_left fun name member => ?_
  rw [laterPiece, (proper name member).ofPiece?]

private theorem isSome_ofFirstPiece? (notEmpty : name ≠ []) :
    (PathPart.ofFirstPiece? name).isSome = true := by
  rw [PathPart.ofFirstPiece?]
  split
  next => rfl
  next notHere =>
    rw [PathPart.ofPiece?, if_neg (by simp [notEmpty, notHere])]
    split <;> rfl

/-- A path that is not empty says something. -/
theorem parts_ne_nil {path : Text} (given : path ≠ []) : parts path ≠ [] := by
  obtain ⟨first, more, split⟩ := List.exists_cons_of_ne_nil (List.splitOn_ne_nil '/' path)
  rw [parts, pieces, split]
  by_cases slash : path.head? = some '/'
  · simp [slash]
  · have notEmpty : first ≠ [] := by
      rintro rfl
      have joined : spelled (path.splitOn '/') = path := List.intercalate_splitOn '/'
      rw [split] at joined
      cases more with
      | nil => exact given joined.symm
      | cons piece pieces => exact slash (joined ▸ rfl)
    obtain ⟨part, front⟩ := Option.isSome_iff_exists.mp (isSome_ofFirstPiece? notEmpty)
    simp [slash, front]

/-- Names with slashes between them have the pieces that the names are. -/
theorem pieces_spelled (notEmpty : names ≠ []) (proper : ∀ name ∈ names, IsEntryName name) :
    pieces (spelled names) = namePieces names := by
  obtain ⟨name, more, rfl⟩ := List.exists_cons_of_ne_nil notEmpty
  obtain ⟨here, behind⟩ := List.forall_mem_cons.mp proper
  have first : PathPart.ofFirstPiece? name = some (.name name) := by
    rw [PathPart.ofFirstPiece?, if_neg here.notHere, here.ofPiece?]
  have relative : (spelled (name :: more)).head? ≠ some '/' := by
    rw [head?_spelled_cons here.notEmpty]
    exact fun starts => here.noSlash (List.mem_of_mem_head? starts)
  rw [pieces, splitOn_spelled notEmpty proper]
  simp only [relative, if_false, first]
  exact congrArg _ (map_laterPiece behind)

/-- The pieces of the path of a file are pieces that say what the root says, and the names. -/
theorem exists_pieces_pathOf (given : root ≠ []) (notEmpty : names ≠ [])
    (proper : ∀ name ∈ names, IsEntryName name) :
    ∃ base, pieces (pathOf root names) = base ++ namePieces names ∧
      base.filterMap Piece.part? = parts root := by
  obtain ⟨front, slash, _⟩ := exists_withSlash_eq root
  obtain ⟨base, split⟩ := exists_pieces_append front
  refine ⟨base, ?_, ?_⟩
  · have path : pathOf root names = front ++ '/' :: spelled names := by
      rw [pathOf_eq_append given notEmpty proper, slash]
      simp
    rw [path, split, splitOn_spelled notEmpty proper, map_laterPiece proper]
  · have nothing : PathPart.ofPiece? [] = none := rfl
    rw [← parts_withSlash given, slash, parts, split]
    simp [laterPiece, nothing]

/-- Behind the parts of the root there are pieces that say nothing, and then the names. -/
theorem exists_dropParts_append (base back : List Piece) :
    ∃ silent, dropParts (base.filterMap Piece.part?).length (base ++ back) = silent ++ back ∧
      ∀ piece ∈ silent, piece.part?.isNone = true := by
  induction base with
  | nil => exact ⟨[], by rw [List.filterMap_nil, List.length_nil, dropParts], by simp⟩
  | cons piece rest ih =>
      obtain ⟨silent, dropped, quiet⟩ := ih
      cases spoken : piece.part? with
      | some part =>
          refine ⟨silent, ?_, quiet⟩
          rw [List.filterMap_cons_some spoken, List.length_cons, List.cons_append, dropParts,
            spoken, ← dropped]
          rfl
      | none =>
          rw [List.filterMap_cons_none spoken]
          cases count : (rest.filterMap Piece.part?).length with
          | zero =>
              rw [count, dropParts] at dropped
              refine ⟨piece :: silent, ?_, ?_⟩
              · rw [dropParts, List.cons_append, List.cons_append, dropped]
              · simpa [spoken] using quiet
          | succ left =>
              refine ⟨silent, ?_, quiet⟩
              rw [List.cons_append, dropParts, spoken, ← dropped, count]
              rfl

/-- A piece at the end that says something keeps all pieces in front of it. -/
theorem dropTrailing_append_namePieces (front : List Piece) (notEmpty : names ≠ []) :
    dropTrailing (front ++ namePieces names) = front ++ namePieces names := by
  obtain ⟨start, last, rfl⟩ := List.eq_nil_or_concat names |>.resolve_left notEmpty
  simp [dropTrailing, namePieces]

private theorem spell_namePieces (names : List Text) :
    spell (namePieces names) = spelled names := by
  have texts : (namePieces names).map Piece.text = names := by
    rw [namePieces, List.map_map]
    exact List.map_id names
  rw [spell.eq_def]
  split
  next single =>
    obtain ⟨name, _, piece⟩ := List.map_eq_singleton_iff.mp single
    simp at piece
  next => rw [texts, spelled]

/-- What lies below the root is what the names spell, however the root is spelled. -/
theorem below?_pathOf (root : Text) (notEmpty : names ≠ [])
    (proper : ∀ name ∈ names, IsEntryName name) :
    below? root (pathOf root names) = some (spelled names) := by
  by_cases given : root = []
  · have nothing : parts [] = [] := rfl
    have kept := dropTrailing_append_namePieces [] notEmpty
    rw [List.nil_append] at kept
    simp [given, below?, nothing, pathOf_nil notEmpty proper, pieces_spelled notEmpty proper,
      dropParts, kept, spell_namePieces]
  · obtain ⟨base, split, rootParts⟩ := exists_pieces_pathOf given notEmpty proper
    obtain ⟨silent, dropped, quiet⟩ := exists_dropParts_append base (namePieces names)
    have starts : (parts root).isPrefixOf (parts (pathOf root names)) = true := by
      rw [List.isPrefixOf_iff_prefix, parts.eq_def (pathOf root names), split,
        List.filterMap_append, rootParts]
      exact List.prefix_append ..
    have kept := dropTrailing_append_namePieces silent notEmpty
    have skipped : (silent ++ namePieces names).dropWhile (fun piece => piece.part?.isNone) =
        namePieces names := by
      refine Text.dropWhile_append_of_stop quiet ?_
      cases names <;> rfl
    rw [rootParts] at dropped
    simp only [below?, starts, if_true, split, dropped, kept, skipped, parts_ne_nil given, if_false,
      spell_namePieces]

/-! ## What is shown -/

/-- A text in front of a slash is one of the names. -/
theorem mem_of_spelled_eq {front rest : Text} (notEmpty : names ≠ [])
    (proper : ∀ name ∈ names, IsEntryName name) (noSlash : '/' ∉ front)
    (split : spelled names = front ++ '/' :: rest) : front ∈ names := by
  rw [← splitOn_spelled notEmpty proper, split, List.splitOn_append_cons_self,
    List.splitOn_eq_singleton noSlash]
  simp

private theorem not_mem_spelled {c : Char} (other : c ≠ '/') (missing : ∀ name ∈ names, c ∉ name) :
    c ∉ spelled names := by
  induction names with
  | nil => simp [spelled]
  | cons name names ih =>
      obtain ⟨here, behind⟩ := List.forall_mem_cons.mp missing
      by_cases last : names = []
      · simpa [last, spelled] using here
      · rw [spelled_cons last]
        simp [here, other, ih behind]

/-- The way from a directory to a file below it. -/
@[ext] structure Descent where
  /-- The names of the directories on the way, and that of the file. -/
  names : List Text
  notEmpty : names ≠ []
  isEntryName : ∀ name ∈ names, IsEntryName name
  /-- A backslash would be shown as a slash. -/
  noBackslash : ∀ name ∈ names, '\\' ∉ name

namespace Descent

/-- What the names spell does not start with a dot and a slash. -/
theorem not_here_prefix (descent : Descent) : ¬ ['.', '/'] <+: spelled descent.names := by
  rintro ⟨rest, split⟩
  have noSlash : '/' ∉ ['.'] := by decide
  have member := mem_of_spelled_eq descent.notEmpty descent.isEntryName noSlash split.symm
  exact (descent.isEntryName _ member).notHere rfl

private theorem not_slash_prefix (descent : Descent) : ¬ ['/'] <+: spelled descent.names := by
  rintro ⟨rest, split⟩
  have member := mem_of_spelled_eq descent.notEmpty descent.isEntryName List.not_mem_nil split.symm
  exact (descent.isEntryName _ member).notEmpty rfl

/-- Names can be read back from what they spell. -/
theorem spelled_injective : Function.Injective fun descent : Descent => spelled descent.names := by
  intro descent other equal
  have split := congrArg (List.splitOn '/') equal
  apply Descent.ext
  simpa only [splitOn_spelled descent.notEmpty descent.isEntryName,
    splitOn_spelled other.notEmpty other.isEntryName] using split

/-- A file is shown by its names, however the root is spelled. -/
theorem display_pathOf (root : Text) (descent : Descent) :
    display root (pathOf root descent.names) = spelled descent.names := by
  have below := below?_pathOf root descent.notEmpty descent.isEntryName
  have forward : '\\' ∉ spelled descent.names :=
    not_mem_spelled (by decide) descent.noBackslash
  have unchanged : (spelled descent.names).map (fun c => if c = '\\' then '/' else c) =
      spelled descent.names := by
    refine (List.map_congr_left fun c member => if_neg ?_).trans (List.map_id _)
    rintro rfl
    exact forward member
  have plain : Text.after? ['.', '/'] (spelled descent.names) = none := by
    rw [Option.eq_none_iff_forall_not_mem]
    intro rest found
    exact descent.not_here_prefix ⟨rest, (Text.after?_eq_some_iff.mp found).symm⟩
  rw [display, below, Option.getD_some, unchanged, dropHere, plain, Option.getD_none]

end Descent

/-- Files below a root are shown by their names with slashes between them, so nothing is shown
that starts with a slash or with a dot and a slash, and no two files look alike. -/
theorem display_faithful (root : Text) :
    (∀ descent : Descent,
      display root (pathOf root descent.names) = spelled descent.names ∧
        ¬ ['.', '/'] <+: display root (pathOf root descent.names) ∧
        ¬ ['/'] <+: display root (pathOf root descent.names)) ∧
      Function.Injective fun descent : Descent => display root (pathOf root descent.names) := by
  refine ⟨fun descent => ?_, ?_⟩
  · rw [descent.display_pathOf root]
    exact ⟨rfl, descent.not_here_prefix, descent.not_slash_prefix⟩
  · intro descent other equal
    simp only [Descent.display_pathOf] at equal
    exact Descent.spelled_injective equal

/-- A way by names that look like dots. -/
def dottedDescent : Descent where
  names := ["...".toList, ".hidden".toList, "A.lua".toList]
  notEmpty := by decide
  isEntryName := by decide
  noBackslash := by decide

/-- The root can be spelled with dots and empty pieces in the middle and at the end. -/
theorem display_faithful_dotted :
    display ".//mod/./".toList (pathOf ".//mod/./".toList dottedDescent.names) =
      ".../.hidden/A.lua".toList := by
  obtain ⟨shown, _⟩ := (display_faithful ".//mod/./".toList).1 dottedDescent
  rw [shown]
  decide

end PatchLint.Path

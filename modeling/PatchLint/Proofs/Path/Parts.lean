import Mathlib.Data.Char
import Mathlib.Data.List.Lex
import PatchLint.Path

/-!
# The order of paths, and paths of entries

Paths are compared part by part, and the comparison is a total order of parts:
two paths compare equal exactly when they are spellings of the same path. The
path of an entry of a directory says what the directory says and then its name.
-/

namespace PatchLint

/-- Values are ordered when their keys are. -/
theorem transCmp_onKey {α β : Type} {compare : β → β → Ordering} (ordered : Std.TransCmp compare)
    (key : α → β) : Std.TransCmp fun left right => compare (key left) (key right) where
  eq_swap := ordered.eq_swap
  isLE_trans := ordered.isLE_trans

/-- Texts are totally ordered by their characters. -/
theorem Text.transCmp : Std.TransCmp fun left right : Text => compareOfLessAndEq left right :=
  Std.TransOrd.compareOfLessAndEq_of_antisymm_of_trans_of_total_of_not_le
    le_antisymm le_trans le_total not_le

namespace PathPart

/-- The place of the kind of a part in the order of kinds. -/
def rank : PathPart → Nat
  | .root => 0
  | .here => 1
  | .parent => 2
  | .name _ => 3

/-- The name that a part spells. -/
def spelled : PathPart → Text
  | .name text => text
  | _ => []

/-- Parts are ordered by kind and then by name. -/
theorem compare_eq_compareLex : PathPart.compare =
    compareLex (fun left right => Ord.compare left.rank right.rank)
      (fun left right => compareOfLessAndEq left.spelled right.spelled) := by
  funext left right
  cases left <;> cases right <;> rfl

instance : Std.TransCmp PathPart.compare := by
  have byRank := transCmp_onKey (inferInstance : Std.TransOrd Nat) rank
  have byName := transCmp_onKey Text.transCmp spelled
  rw [compare_eq_compareLex]
  infer_instance

instance : Std.LawfulEqCmp PathPart.compare where
  eq_of_compare {left right} same := by
    rw [compare_eq_compareLex, compareLex_eq_eq, Nat.compare_eq_eq,
      compareOfLessAndEq_eq_eq le_refl not_le] at same
    obtain ⟨sameRank, sameName⟩ := same
    cases left <;> cases right <;> simp_all [rank, spelled]

end PathPart

namespace Path

/-- The order of parts, one after the other. -/
theorem compareParts_eq_compareLex : compareParts = List.compareLex PathPart.compare := by
  funext left right
  induction left generalizing right with
  | nil => cases right <;> simp [compareParts, List.compareLex_nil_nil, List.compareLex_nil_cons]
  | cons part parts ih =>
      cases right with
      | nil => simp [compareParts, List.compareLex_cons_nil]
      | cons other others => rw [compareParts, List.compareLex_cons_cons, ih]

instance : Std.TransCmp compareParts := by
  rw [compareParts_eq_compareLex]
  infer_instance

instance : Std.LawfulEqCmp compareParts := by
  rw [compareParts_eq_compareLex]
  infer_instance

/-- Two paths are the same if they have the same parts. -/
theorem same_iff {left right : Text} : same left right = true ↔ parts left = parts right :=
  beq_iff_eq

/-- Sameness of paths goes both ways. -/
theorem same_comm (left right : Text) : same left right = same right left := by
  rw [same, same, Bool.beq_comm]

/-- The first path comes before the second one. -/
def Before (left right : Text) : Prop :=
  compareParts (parts left) (parts right) = .lt

variable {first second third : Text}

private theorem le_eq_isLE (left right : Text) :
    le left right = (compareParts (parts left) (parts right)).isLE := by
  rw [le]
  cases compareParts (parts left) (parts right) <;> rfl

/-- The order of paths is transitive. -/
theorem le_trans (first second third : Text) (left : le first second = true)
    (right : le second third = true) : le first third = true := by
  rw [le_eq_isLE] at left right ⊢
  exact Std.TransCmp.isLE_trans left right

/-- Any two paths are in order, one way or the other. -/
theorem le_total (left right : Text) : (le left right || le right left) = true := by
  have swapped : compareParts (parts right) (parts left) =
      (compareParts (parts left) (parts right)).swap := Std.OrientedCmp.eq_swap
  rw [le_eq_isLE, le_eq_isLE, swapped]
  cases compareParts (parts left) (parts right) <;> rfl

/-- Spellings of one path are in order both ways. -/
theorem le_of_same (spellings : same first second = true) : le first second = true := by
  have equal : compareParts (parts second) (parts second) = .eq := Std.ReflCmp.compare_self
  rw [le_eq_isLE, same_iff.mp spellings, equal]
  rfl

/-- Of two different paths in order the first one comes before the second one. -/
theorem before_of_le (ordered : le first second = true) (different : same first second = false) :
    Before first second := by
  rw [le_eq_isLE] at ordered
  cases compared : compareParts (parts first) (parts second) with
  | lt => exact compared
  | eq =>
      have spellings := same_iff.mpr (Std.LawfulEqCmp.eq_of_compare compared)
      simp [spellings] at different
  | gt => simp [compared] at ordered

/-- What comes before a path comes before all that follow the path. -/
theorem Before.trans_le (before : Before first second) (ordered : le second third = true) :
    Before first third := by
  rw [le_eq_isLE] at ordered
  exact Std.TransCmp.lt_of_lt_of_isLE before ordered

/-- A path does not come before a spelling of itself. -/
theorem Before.parts_ne (before : Before first second) : parts first ≠ parts second := by
  intro equal
  have self : compareParts (parts second) (parts second) = .eq := Std.ReflCmp.compare_self
  rw [Before, equal, self] at before
  contradiction

/-- A path that comes before another one is not the same. -/
theorem Before.same_eq_false (before : Before first second) : same first second = false :=
  Bool.eq_false_iff.mpr fun spellings => before.parts_ne (same_iff.mp spellings)

/-- Of two paths one comes before the other at most. -/
theorem Before.asymm (before : Before first second) : ¬ Before second first := by
  have swapped : compareParts (parts second) (parts first) =
      (compareParts (parts first) (parts second)).swap := Std.OrientedCmp.eq_swap
  rw [Before] at before
  rw [Before, swapped, before]
  decide

/-! ## Paths of entries -/

/-- A text that can be the name of an entry: one piece of a path, which says
neither nothing nor where it is. -/
structure IsEntryName (name : Text) : Prop where
  noSlash : '/' ∉ name
  notEmpty : name ≠ []
  notHere : name ≠ ['.']
  notParent : name ≠ ['.', '.']

instance (name : Text) : Decidable (IsEntryName name) :=
  decidable_of_iff ('/' ∉ name ∧ name ≠ [] ∧ name ≠ ['.'] ∧ name ≠ ['.', '.'])
    ⟨fun ⟨noSlash, notEmpty, notHere, notParent⟩ => ⟨noSlash, notEmpty, notHere, notParent⟩,
      fun proper => ⟨proper.noSlash, proper.notEmpty, proper.notHere, proper.notParent⟩⟩

/-- The path of a directory with a slash at its end. -/
def withSlash (directory : Text) : Text :=
  if directory.getLast? = some '/' then directory else directory ++ ['/']

/-- The slash behind a directory is put there unless it was there before. -/
theorem exists_withSlash_eq (directory : Text) :
    ∃ front, withSlash directory = front ++ ['/'] ∧
      (directory = front ∨ directory = front ++ ['/']) := by
  rw [withSlash]
  split
  next slash =>
    obtain ⟨front, rfl⟩ := List.getLast?_eq_some_iff.mp slash
    exact ⟨front, rfl, .inr rfl⟩
  next => exact ⟨directory, rfl, .inl rfl⟩

variable {directory name : Text}

/-- A name is joined to a directory with a slash between them. -/
theorem join_eq_withSlash_append (given : directory ≠ []) (noSlash : '/' ∉ name) :
    join directory name = withSlash directory ++ name := by
  have relative : name.head? ≠ some '/' := fun starts => noSlash (List.mem_of_mem_head? starts)
  simp only [join, given, relative, withSlash, or_self, if_false]
  split <;> simp

/-- A slash in front of a name cuts it off. -/
theorem splitOn_withSlash_append {front : Text} (noSlash : '/' ∉ name) :
    (front ++ '/' :: name).splitOn '/' = front.splitOn '/' ++ [name] := by
  rw [List.splitOn_append_cons_self, List.splitOn_eq_singleton noSlash]

/-- The name of an entry is a part of a path by itself. -/
theorem IsEntryName.ofPiece? (proper : IsEntryName name) :
    PathPart.ofPiece? name = some (.name name) := by
  simp [PathPart.ofPiece?, proper.notEmpty, proper.notHere, proper.notParent]

/-- The last piece of a path. -/
def lastPiece? (path : Text) : Option Text :=
  (path.splitOn '/').getLast?

/-- A path that is put behind another one keeps its last piece. -/
theorem lastPiece?_join (directory more : Text) :
    lastPiece? (join directory more) = lastPiece? more := by
  have behind (front : Text) : lastPiece? (front ++ '/' :: more) = lastPiece? more := by
    rw [lastPiece?, List.splitOn_append_cons_self,
      List.getLast?_append_of_ne_nil _ (List.splitOn_ne_nil '/' more), lastPiece?]
  rw [join]
  split
  next => rfl
  next =>
    split
    next slash =>
      obtain ⟨front, rfl⟩ := List.getLast?_eq_some_iff.mp slash
      rw [List.append_assoc]
      exact behind front
    next => exact behind directory

/-- A piece that is not the first one of its path. -/
def laterPiece (piece : Text) : Piece :=
  ⟨PathPart.ofPiece? piece, piece⟩

/-- The pieces in front of a slash stay the same, whatever stands behind it. -/
theorem exists_pieces_append (front : Text) : ∃ base, ∀ more : Text,
    pieces (front ++ '/' :: more) = base ++ (more.splitOn '/').map laterPiece := by
  obtain ⟨first, middle, split⟩ := List.exists_cons_of_ne_nil (List.splitOn_ne_nil '/' front)
  refine ⟨⟨if (front ++ ['/']).head? = some '/' then some .root
      else PathPart.ofFirstPiece? first, first⟩ :: middle.map laterPiece, fun more => ?_⟩
  have starts : (front ++ '/' :: more).head? = (front ++ ['/']).head? := by
    cases front <;> rfl
  rw [pieces, List.splitOn_append_cons_self, split, List.cons_append, starts, List.cons_append,
    ← List.map_append]
  rfl

/-- The path of an entry says its name after what the directory says. -/
theorem parts_withSlash_append (directory : Text) (proper : IsEntryName name) :
    parts (withSlash directory ++ name) = parts (withSlash directory) ++ [.name name] := by
  obtain ⟨front, slash, _⟩ := exists_withSlash_eq directory
  obtain ⟨base, split⟩ := exists_pieces_append front
  have path : withSlash directory ++ name = front ++ '/' :: name := by simp [slash]
  have nothing : PathPart.ofPiece? [] = none := rfl
  rw [path, slash, parts, parts, split, split, List.splitOn_eq_singleton proper.noSlash,
    List.splitOn_nil]
  simp [laterPiece, proper.ofPiece?, nothing]

/-- A slash at the end of a path says nothing. -/
theorem parts_withSlash (given : directory ≠ []) :
    parts (withSlash directory) = parts directory := by
  rw [withSlash]
  split
  next => rfl
  next =>
    obtain ⟨first, more, split⟩ := List.exists_cons_of_ne_nil (List.splitOn_ne_nil '/' directory)
    have nothing : PathPart.ofPiece? [] = none := rfl
    rw [parts, parts, pieces, pieces, splitOn_withSlash_append List.not_mem_nil, split,
      List.head?_append_of_ne_nil _ given]
    simp only [List.cons_append, List.map_append, List.map_singleton, nothing]
    rw [← List.cons_append, List.filterMap_append]
    simp

/-- Joining a name to a directory adds one part. -/
theorem parts_join (given : directory ≠ []) (proper : IsEntryName name) :
    parts (join directory name) = parts directory ++ [.name name] := by
  rw [join_eq_withSlash_append given proper.noSlash, parts_withSlash_append directory proper,
    parts_withSlash given]

/-- A joined path is not empty. -/
theorem join_ne_nil (given : directory ≠ []) (noSlash : '/' ∉ name) :
    join directory name ≠ [] := by
  obtain ⟨front, slash, _⟩ := exists_withSlash_eq directory
  rw [join_eq_withSlash_append given noSlash, slash]
  simp

/-- Entries of a directory have one path only if they have one name. -/
theorem name_eq_of_same {other : Text} (given : directory ≠ []) (proper : IsEntryName name)
    (properOther : IsEntryName other)
    (spellings : same (join directory name) (join directory other) = true) : name = other := by
  rw [same_iff, parts_join given proper, parts_join given properOther] at spellings
  simpa using spellings

/-! ## Names with slashes between them -/

/-- Names with slashes between them. -/
def spelled (names : List Text) : Text :=
  List.intercalate ['/'] names

/-- The first of several names stands before a slash. -/
theorem spelled_cons {names : List Text} (given : names ≠ []) (name : Text) :
    spelled (name :: names) = name ++ '/' :: spelled names := by
  rw [spelled, List.intercalate_cons_of_ne_nil given]
  simp [spelled]

/-- Two lists of names are spelled with a slash between them. -/
theorem spelled_append {front back : List Text} (given : front ≠ []) (also : back ≠ []) :
    spelled (front ++ back) = spelled front ++ '/' :: spelled back := by
  induction front with
  | nil => exact absurd rfl given
  | cons name rest ih =>
      rw [List.cons_append, spelled_cons (by simp [also])]
      by_cases last : rest = []
      · simp [last, spelled]
      · rw [ih last, spelled_cons last]
        simp

end Path

end PatchLint

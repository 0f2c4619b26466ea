import Mathlib.Data.Finset.Card
import Mathlib.Data.Finset.Union
import Mathlib.Data.List.Perm.Lattice
import PatchLint.Proofs.Path.Parts
import PatchLint.Retention

/-!
# Which result files are kept

The kept candidates are described without sorting and without windows in a row:
a candidate is among the newest of a pool when fewer candidates of the pool are
newer than it. Kept are the newest of what the windows keep, which are their own
newest. The selection deletes all others, whatever the order in which a directory
lists them.

What is kept stays kept when other candidates disappear, even though a candidate
that could not be removed competes again.
-/

namespace PatchLint

namespace Timestamp

private theorem parts_injective : Function.Injective Timestamp.parts := by
  intro left right same
  cases left
  cases right
  simpa [parts] using same

instance : Std.TransCmp Timestamp.compare :=
  transCmp_onKey
    (Std.TransOrd.compareOfLessAndEq_of_antisymm_of_trans_of_total_of_not_le
      le_antisymm le_trans le_total not_le) parts

instance : Std.LawfulEqCmp Timestamp.compare where
  eq_of_compare same :=
    parts_injective ((compareOfLessAndEq_eq_eq le_refl not_le).mp same)

end Timestamp

namespace Retention

open scoped List

namespace Candidate

private theorem compare_eq_compareLex : Candidate.compare =
    compareLex (fun left right => left.stamp.compare right.stamp)
      (fun left right => Path.compareParts (Path.parts left.path) (Path.parts right.path)) :=
  rfl

instance : Std.TransCmp Candidate.compare := by
  have byStamp := transCmp_onKey (inferInstance : Std.TransCmp Timestamp.compare) stamp
  have byPath := transCmp_onKey (inferInstance : Std.TransCmp Path.compareParts)
    fun candidate : Candidate => Path.parts candidate.path
  rw [compare_eq_compareLex]
  infer_instance

/-- Candidates that compare equal have the same path. -/
theorem same_of_compare_eq {left right : Candidate} (equal : left.compare right = .eq) :
    Path.same left.path right.path = true := by
  rw [compare_eq_compareLex, compareLex_eq_eq] at equal
  exact Path.same_iff.mpr (Std.LawfulEqCmp.eq_of_compare equal.2)

/-- The first candidate comes before the second one, by time and then by path. -/
def Older (left right : Candidate) : Prop :=
  left.compare right = .lt

instance : DecidableRel Older :=
  fun left right => inferInstanceAs (Decidable (left.compare right = .lt))

variable {first second third : Candidate}

private theorem Older.trans (left : first.Older second) (right : second.Older third) :
    first.Older third :=
  Std.TransCmp.lt_trans left right

/-- No candidate is older than itself. -/
theorem Older.irrefl (candidate : Candidate) : ¬ candidate.Older candidate := by
  have equal : candidate.compare candidate = .eq := Std.ReflCmp.compare_self
  simp [Older, equal]

/-- Of two candidates one is older at most. -/
theorem Older.asymm (left : first.Older second) : ¬ second.Older first :=
  fun right => irrefl first (left.trans right)

/-- Of two candidates with different paths one is older. -/
theorem older_or_older (different : Path.same first.path second.path = false) :
    first.Older second ∨ second.Older first := by
  cases compared : first.compare second with
  | lt => exact .inl compared
  | eq => simp [same_of_compare_eq compared] at different
  | gt => exact .inr (Std.OrientedCmp.lt_of_gt compared)

end Candidate

/-! ## The newest of a pool -/

/-- No two candidates have the same path, however it is spelled. -/
def DistinctPaths (candidates : List Candidate) : Prop :=
  candidates.Pairwise fun left right => Path.same left.path right.path = false

/-- The newest candidates of a pool: those with fewer than `count` newer ones. -/
def newest (count : Nat) (pool : Finset Candidate) : Finset Candidate :=
  pool.filter fun candidate => (pool.filter candidate.Older).card < count

/-- What the windows keep, each its own newest candidates. -/
def keptByWindows (perWindow : Nat) (pool : Finset Candidate) : Finset Candidate :=
  (pool.image fun candidate => candidate.stamp.window).biUnion fun window =>
    newest perWindow (pool.filter fun candidate => candidate.stamp.window = window)

/-- The candidates that are kept: the newest `total` of what the windows keep. -/
def retained (perWindow total : Nat) (pool : Finset Candidate) : Finset Candidate :=
  newest total (keptByWindows perWindow pool)

private theorem mem_newest {count : Nat} {pool : Finset Candidate} {candidate : Candidate} :
    candidate ∈ newest count pool ↔
      candidate ∈ pool ∧ (pool.filter candidate.Older).card < count := by
  rw [newest, Finset.mem_filter]

private theorem mem_keptByWindows {perWindow : Nat} {pool : Finset Candidate}
    {candidate : Candidate} :
    candidate ∈ keptByWindows perWindow pool ↔
      candidate ∈ newest perWindow
        (pool.filter fun other => other.stamp.window = candidate.stamp.window) := by
  simp only [keptByWindows, Finset.mem_biUnion, Finset.mem_image]
  constructor
  · rintro ⟨window, _, member⟩
    have lies := (Finset.mem_filter.mp (mem_newest.mp member).1).2
    exact lies ▸ member
  · intro member
    have present := (Finset.mem_filter.mp (mem_newest.mp member).1).1
    exact ⟨_, ⟨candidate, present, rfl⟩, member⟩

private theorem keptByWindows_subset (perWindow : Nat) (pool : Finset Candidate) :
    keptByWindows perWindow pool ⊆ pool := by
  intro candidate member
  exact (Finset.mem_filter.mp (mem_newest.mp (mem_keptByWindows.mp member)).1).1

/-- Only candidates are retained. -/
theorem retained_subset (perWindow total : Nat) (pool : Finset Candidate) :
    retained perWindow total pool ⊆ pool :=
  (Finset.filter_subset _ _).trans (keptByWindows_subset perWindow pool)

/-! ## Sorting -/

private theorem newestFirst_perm (candidates : List Candidate) :
    newestFirst candidates ~ candidates :=
  List.mergeSort_perm candidates Candidate.notOlder

private theorem DistinctPaths.perm {left right : List Candidate} (perm : left ~ right)
    (distinct : DistinctPaths left) : DistinctPaths right := by
  refine (perm.pairwise_iff ?_).mp distinct
  intro first second different
  rwa [Path.same_comm]

private theorem DistinctPaths.nodup {candidates : List Candidate}
    (distinct : DistinctPaths candidates) :
    candidates.Nodup := by
  refine List.Pairwise.imp ?_ distinct
  rintro first _ different rfl
  simp [Path.same] at different

/-- In a pool a path belongs to one candidate. -/
def Distinguished (pool : Finset Candidate) : Prop :=
  ∀ first ∈ pool, ∀ second ∈ pool, Path.same first.path second.path = true → first = second

/-- Candidates with paths of their own can be told apart. -/
theorem DistinctPaths.distinguished {candidates : List Candidate}
    (distinct : DistinctPaths candidates) : Distinguished candidates.toFinset := by
  intro first firstMember second secondMember same
  by_contra different
  rw [List.mem_toFinset] at firstMember secondMember
  have symmetric : Std.Symm fun left right : Candidate =>
      Path.same left.path right.path = false := ⟨fun _ _ h => Path.same_comm _ _ ▸ h⟩
  simp [distinct.forall firstMember secondMember different] at same

private theorem Distinguished.mono {pool part : Finset Candidate} (subset : part ⊆ pool)
    (distinguished : Distinguished pool) : Distinguished part :=
  fun first firstMember second secondMember =>
    distinguished first (subset firstMember) second (subset secondMember)

private theorem Distinguished.distinctPaths {pool : Finset Candidate}
    (distinguished : Distinguished pool) : DistinctPaths pool.toList := by
  refine pool.nodup_toList.pairwise_of_forall_ne fun first firstMember second secondMember ne => ?_
  rw [Finset.mem_toList] at firstMember secondMember
  rw [← Bool.not_eq_true]
  exact fun same => ne (distinguished first firstMember second secondMember same)

private theorem notOlder_eq_isGE (left right : Candidate) :
    left.notOlder right = (left.compare right).isGE := by
  rw [Candidate.notOlder]
  cases left.compare right <;> rfl

private theorem pairwise_newestFirst (candidates : List Candidate) :
    (newestFirst candidates).Pairwise fun left right => left.notOlder right = true := by
  refine List.pairwise_mergeSort ?_ ?_ candidates
  · intro first second third left right
    rw [notOlder_eq_isGE] at left right ⊢
    exact Std.TransCmp.isGE_trans left right
  · intro left right
    have swapped : right.compare left = (left.compare right).swap := Std.OrientedCmp.eq_swap
    rw [notOlder_eq_isGE, notOlder_eq_isGE, swapped]
    cases left.compare right <;> rfl

/-- The order of candidates with different paths is strict. -/
theorem DistinctPaths.pairwise_older {candidates : List Candidate}
    (distinct : DistinctPaths candidates) :
    (newestFirst candidates).Pairwise fun newer older => older.Older newer := by
  have different := distinct.perm (newestFirst_perm candidates).symm
  refine (pairwise_newestFirst candidates).imp₂ ?_ different
  intro left right notOlder different
  rcases Candidate.older_or_older different with older | older
  · simp [Candidate.notOlder, show left.compare right = .lt from older] at notOlder
  · exact older

/-- Nothing in a pool is newer than its newest candidate. -/
theorem filter_older_insert_first {first : Candidate} {rest : Finset Candidate}
    (newer : ∀ older ∈ rest, older.Older first) :
    (insert first rest).filter first.Older = ∅ := by
  refine Finset.filter_eq_empty_iff.mpr fun other member => ?_
  rcases Finset.mem_insert.mp member with rfl | later
  · exact Candidate.Older.irrefl other
  · exact (newer other later).asymm

/-- A newest candidate in front is newer than every other one. -/
theorem card_filter_older_insert {first candidate : Candidate} {rest : Finset Candidate}
    (newer : ∀ older ∈ rest, older.Older first) (member : candidate ∈ rest) :
    ((insert first rest).filter candidate.Older).card =
      (rest.filter candidate.Older).card + 1 := by
  have absent : first ∉ rest := fun present => Candidate.Older.irrefl first (newer first present)
  rw [Finset.filter_insert, if_pos (newer candidate member), Finset.card_insert_of_notMem]
  exact fun present => absent (Finset.mem_filter.mp present).1

/-- The first so many of a sorted list are its newest. -/
theorem toFinset_take {sorted : List Candidate}
    (strict : sorted.Pairwise fun newer older => older.Older newer) (count : Nat) :
    (sorted.take count).toFinset = newest count sorted.toFinset := by
  induction sorted generalizing count with
  | nil => simp [newest]
  | cons first rest ih =>
      obtain ⟨newer, strictRest⟩ := List.pairwise_cons.mp strict
      have newer : ∀ older ∈ rest.toFinset, older.Older first := by simpa using newer
      cases count with
      | zero => simp [newest]
      | succ count =>
          ext candidate
          rw [List.take_succ_cons, List.toFinset_cons, List.toFinset_cons, Finset.mem_insert,
            ih strictRest, mem_newest, mem_newest, Finset.mem_insert]
          by_cases front : candidate = first
          · subst front
            simp [filter_older_insert_first newer]
          · by_cases member : candidate ∈ rest.toFinset
            · simp only [front, member, false_or, or_true, true_and]
              rw [card_filter_older_insert newer member]
              omega
            · simp [front, member]

/-- A pool has as many newest candidates as asked for, unless it is smaller. -/
theorem Distinguished.card_newest {pool : Finset Candidate} (distinguished : Distinguished pool)
    (count : Nat) : (newest count pool).card = min count pool.card := by
  have distinct := distinguished.distinctPaths
  have perm := newestFirst_perm pool.toList
  have nodup := (distinct.perm perm.symm).nodup
  have same : (newestFirst pool.toList).toFinset = pool := by
    rw [List.toFinset_eq_of_perm _ _ perm, Finset.toList_toFinset]
  calc (newest count pool).card
      = ((newestFirst pool.toList).take count).toFinset.card := by
        rw [toFinset_take distinct.pairwise_older, same]
    _ = ((newestFirst pool.toList).take count).length :=
        List.toFinset_card_of_nodup (nodup.sublist (List.take_sublist _ _))
    _ = min count pool.card := by
        rw [List.length_take, perm.length_eq, Finset.length_toList]

private theorem Distinguished.card_retained_le {pool : Finset Candidate}
    (distinguished : Distinguished pool) (perWindow total : Nat) :
    (retained perWindow total pool).card ≤ total := by
  rw [retained, (distinguished.mono (keptByWindows_subset perWindow pool)).card_newest]
  exact Nat.min_le_left _ _

private theorem Distinguished.card_retained_window_le {pool : Finset Candidate}
    (distinguished : Distinguished pool) (perWindow total : Nat) (window : Timestamp.Window) :
    ((retained perWindow total pool).filter fun candidate =>
      candidate.stamp.window = window).card ≤ perWindow := by
  have subset : ((retained perWindow total pool).filter fun candidate =>
      candidate.stamp.window = window) ⊆
      newest perWindow (pool.filter fun candidate => candidate.stamp.window = window) := by
    intro candidate member
    obtain ⟨kept, rfl⟩ := Finset.mem_filter.mp member
    exact mem_keptByWindows.mp (mem_newest.mp kept).1
  refine (Finset.card_le_card subset).trans ?_
  rw [(distinguished.mono (Finset.filter_subset _ pool)).card_newest]
  exact Nat.min_le_left _ _

/-! ## The selection -/

private theorem nodup_eraseDups {α : Type} [DecidableEq α] (items : List α) :
    items.eraseDups.Nodup := by
  induction length : items.length using Nat.strong_induction_on generalizing items with
  | _ size ih =>
      cases items with
      | nil => simp
      | cons first rest =>
          rw [List.eraseDups_cons, List.nodup_cons]
          refine ⟨by simp, ih _ ?_ _ rfl⟩
          have shorter := List.length_filter_le (fun other => !other == first) rest
          simp only [List.length_cons] at length
          omega

/-- The windows divide the candidates among them. -/
theorem DistinctPaths.flatMap_inWindow_perm {candidates : List Candidate}
    (distinct : DistinctPaths candidates) :
    (windows candidates).flatMap (inWindow candidates) ~ candidates := by
  have member (window : Timestamp.Window) (candidate : Candidate) :
      candidate ∈ inWindow candidates window ↔
        candidate ∈ candidates ∧ candidate.stamp.window = window := by
    rw [inWindow, (newestFirst_perm _).mem_iff, List.mem_filter, decide_eq_true_eq]
  have nodup : ((windows candidates).flatMap (inWindow candidates)).Nodup := by
    refine List.nodup_flatMap.mpr ⟨fun window _ => ?_, ?_⟩
    · exact (newestFirst_perm _).nodup_iff.mpr (distinct.nodup.filter _)
    · refine (nodup_eraseDups _).imp fun {window other} different candidate left right => ?_
      rw [member] at left right
      exact different (left.2.symm.trans right.2)
  rw [List.perm_ext_iff_of_nodup nodup distinct.nodup]
  intro candidate
  simp only [List.mem_flatMap, member]
  constructor
  · rintro ⟨_, _, present, _⟩
    exact present
  · intro present
    refine ⟨candidate.stamp.window, ?_, present, rfl⟩
    rw [windows, List.mem_eraseDups]
    exact List.mem_map_of_mem present

/-- What the windows keep, as the selection lists it. -/
def windowed (candidates : List Candidate) (perWindow : Nat) : List Candidate :=
  (windows candidates).flatMap fun window => (inWindow candidates window).take perWindow

/-- The candidates that the selection leaves, from the newest to the oldest. -/
def survivors (candidates : List Candidate) (perWindow total : Nat) : List Candidate :=
  (newestFirst (windowed candidates perWindow)).take total

/-- What is deleted and what is left make up the candidates. -/
theorem DistinctPaths.selectForDeletion_append_survivors {candidates : List Candidate}
    (distinct : DistinctPaths candidates) (perWindow total : Nat) :
    selectForDeletion candidates perWindow total ++ survivors candidates perWindow total ~
      candidates := by
  let dropped := (windows candidates).flatMap fun window =>
    (inWindow candidates window).drop perWindow
  let sorted := newestFirst (windowed candidates perWindow)
  have selected : selectForDeletion candidates perWindow total = dropped ++ sorted.drop total := by
    simp only [selectForDeletion, List.flatMap_map]
    rfl
  calc selectForDeletion candidates perWindow total ++ survivors candidates perWindow total
      = dropped ++ (sorted.drop total ++ sorted.take total) := by
        rw [selected, List.append_assoc]
        rfl
    _ ~ dropped ++ sorted := by
        refine List.Perm.append_left dropped (List.perm_append_comm.trans ?_)
        rw [List.take_append_drop]
    _ ~ windowed candidates perWindow ++ dropped :=
        (List.Perm.append_left dropped (newestFirst_perm _)).trans List.perm_append_comm
    _ ~ (windows candidates).flatMap (inWindow candidates) := by
        refine (List.flatMap_append_perm _ _ _).trans ?_
        simp only [List.take_append_drop]
        exact List.Perm.refl _
    _ ~ candidates := distinct.flatMap_inWindow_perm

private theorem DistinctPaths.toFinset_take_newestFirst {candidates : List Candidate}
    (distinct : DistinctPaths candidates) (count : Nat) :
    ((newestFirst candidates).take count).toFinset = newest count candidates.toFinset := by
  rw [toFinset_take distinct.pairwise_older, List.toFinset_eq_of_perm _ _ (newestFirst_perm _)]

private theorem DistinctPaths.toFinset_windowed {candidates : List Candidate}
    (distinct : DistinctPaths candidates) (perWindow : Nat) :
    (windowed candidates perWindow).toFinset = keptByWindows perWindow candidates.toFinset := by
  have kept (window : Timestamp.Window) :
      ((inWindow candidates window).take perWindow).toFinset = newest perWindow
        (candidates.toFinset.filter fun candidate => candidate.stamp.window = window) := by
    rw [inWindow, DistinctPaths.toFinset_take_newestFirst (List.Pairwise.filter _ distinct),
      List.toFinset_filter]
    simp only [decide_eq_true_eq]
  ext candidate
  rw [List.mem_toFinset, windowed, keptByWindows, List.mem_flatMap, Finset.mem_biUnion]
  refine exists_congr fun window => and_congr ?_ ?_
  · simp [windows]
  · rw [← kept, List.mem_toFinset]

private theorem DistinctPaths.toFinset_survivors {candidates : List Candidate}
    (distinct : DistinctPaths candidates) (perWindow total : Nat) :
    (survivors candidates perWindow total).toFinset =
      retained perWindow total candidates.toFinset := by
  have subset : windowed candidates perWindow <+~ candidates := by
    refine List.Sublist.subperm ?_ |>.trans distinct.flatMap_inWindow_perm.subperm
    exact List.Sublist.flatMap_right _ fun window _ => List.take_sublist _ _
  obtain ⟨part, perm, sublist⟩ := subset
  have distinctPart : DistinctPaths (windowed candidates perWindow) :=
    DistinctPaths.perm perm (List.Pairwise.sublist sublist distinct)
  rw [survivors, distinctPart.toFinset_take_newestFirst, distinct.toFinset_windowed, retained]

/-- A candidate is deleted exactly when it is not retained. -/
theorem DistinctPaths.mem_selectForDeletion {candidates : List Candidate}
    (distinct : DistinctPaths candidates) (perWindow total : Nat) (candidate : Candidate) :
    candidate ∈ selectForDeletion candidates perWindow total ↔
      candidate ∈ candidates ∧ candidate ∉ retained perWindow total candidates.toFinset := by
  have perm := distinct.selectForDeletion_append_survivors perWindow total
  have disjoint := (List.nodup_append'.mp (perm.nodup_iff.mpr distinct.nodup)).2.2
  rw [← distinct.toFinset_survivors, List.mem_toFinset, ← perm.mem_iff, List.mem_append]
  constructor
  · exact fun deleted => ⟨.inl deleted, fun left => disjoint deleted left⟩
  · rintro ⟨deleted | left, notLeft⟩
    · exact deleted
    · exact absurd left notLeft

/-- No candidate is deleted twice. -/
theorem DistinctPaths.nodup_selectForDeletion {candidates : List Candidate}
    (distinct : DistinctPaths candidates) (perWindow total : Nat) :
    (selectForDeletion candidates perWindow total).Nodup := by
  have perm := distinct.selectForDeletion_append_survivors perWindow total
  exact (List.nodup_append'.mp (perm.nodup_iff.mpr distinct.nodup)).1

/-- The retained candidates in the order of the candidates. -/
def kept (candidates : List Candidate) (perWindow total : Nat) : List Candidate :=
  candidates.filter fun candidate => candidate ∈ retained perWindow total candidates.toFinset

private theorem toFinset_kept (candidates : List Candidate) (perWindow total : Nat) :
    (kept candidates perWindow total).toFinset =
      retained perWindow total candidates.toFinset := by
  ext candidate
  have present := @retained_subset perWindow total candidates.toFinset candidate
  rw [List.mem_toFinset] at present
  simp only [kept, List.mem_toFinset, List.mem_filter, decide_eq_true_eq]
  exact ⟨And.right, fun member => ⟨present member, member⟩⟩

private theorem DistinctPaths.nodup_kept {candidates : List Candidate}
    (distinct : DistinctPaths candidates) (perWindow total : Nat) :
    (kept candidates perWindow total).Nodup :=
  distinct.nodup.filter _

private theorem DistinctPaths.kept_perm_survivors {candidates : List Candidate}
    (distinct : DistinctPaths candidates) (perWindow total : Nat) :
    kept candidates perWindow total ~ survivors candidates perWindow total := by
  have perm := distinct.selectForDeletion_append_survivors perWindow total
  have nodup := (List.nodup_append'.mp (perm.nodup_iff.mpr distinct.nodup)).2.1
  refine List.perm_of_nodup_nodup_toFinset_eq (distinct.nodup_kept perWindow total) nodup ?_
  rw [toFinset_kept, distinct.toFinset_survivors]

/-- No more candidates are kept than in total may be. -/
theorem DistinctPaths.length_kept_le {candidates : List Candidate}
    (distinct : DistinctPaths candidates) (perWindow total : Nat) :
    (kept candidates perWindow total).length ≤ total := by
  rw [← List.toFinset_card_of_nodup (distinct.nodup_kept perWindow total), toFinset_kept]
  exact distinct.distinguished.card_retained_le perWindow total

/-- No more candidates of a window are kept than may be. -/
theorem DistinctPaths.length_kept_window_le {candidates : List Candidate}
    (distinct : DistinctPaths candidates) (perWindow total : Nat) (window : Timestamp.Window) :
    ((kept candidates perWindow total).filter fun candidate =>
      candidate.stamp.window = window).length ≤ perWindow := by
  have nodup := distinct.nodup_kept perWindow total
  rw [← List.toFinset_card_of_nodup (nodup.filter _), List.toFinset_filter, toFinset_kept]
  simp only [decide_eq_true_eq]
  exact distinct.distinguished.card_retained_window_le perWindow total window

/-- The order in which candidates are listed has no part in what is deleted. -/
theorem DistinctPaths.selectForDeletion_perm {candidates listed : List Candidate}
    (distinct : DistinctPaths candidates) (perm : listed ~ candidates) (perWindow total : Nat) :
    selectForDeletion listed perWindow total ~ selectForDeletion candidates perWindow total := by
  have distinctListed := distinct.perm perm.symm
  rw [List.perm_ext_iff_of_nodup (distinctListed.nodup_selectForDeletion perWindow total)
    (distinct.nodup_selectForDeletion perWindow total)]
  intro candidate
  rw [distinctListed.mem_selectForDeletion, distinct.mem_selectForDeletion, perm.mem_iff,
    List.toFinset_eq_of_perm _ _ perm]

/-- The selection deletes exactly the candidates that are not among the newest
`total` of what the windows keep, which are the newest `perWindow` of each. Deleted
and kept candidates make up the candidates, each once; no window keeps more than
`perWindow`, and no more than `total` are kept; and the order in which candidates
are listed has no part in it. -/
theorem selectForDeletion_exact {candidates : List Candidate}
    (distinct : DistinctPaths candidates) (perWindow total : Nat) :
    (∀ candidate, candidate ∈ selectForDeletion candidates perWindow total ↔
        candidate ∈ candidates ∧ candidate ∉ retained perWindow total candidates.toFinset) ∧
      selectForDeletion candidates perWindow total ++ kept candidates perWindow total ~
        candidates ∧
      (∀ window, ((kept candidates perWindow total).filter fun candidate =>
        candidate.stamp.window = window).length ≤ perWindow) ∧
      (kept candidates perWindow total).length ≤ total ∧
      ∀ listed, listed ~ candidates →
        selectForDeletion listed perWindow total ~
          selectForDeletion candidates perWindow total := by
  refine ⟨distinct.mem_selectForDeletion perWindow total, ?_,
    distinct.length_kept_window_le perWindow total, distinct.length_kept_le perWindow total,
    fun listed perm => distinct.selectForDeletion_perm perm perWindow total⟩
  have perm := distinct.kept_perm_survivors perWindow total
  exact (perm.append_left _).trans (distinct.selectForDeletion_append_survivors perWindow total)

/-- Two files of one window and three of the next one. -/
def adjacentWindows : List Candidate :=
  [(0, "b"), (1, "a"), (5, "e"), (6, "d"), (7, "c")].map fun (minute, name) =>
    ⟨⟨2024, 3, 9, 10, minute, 0⟩, name.toList⟩

/-- The newer window has room for two of its files, and the limit on all files takes the oldest one
of the older window. So the oldest file of the newer window goes although an older one stays. -/
theorem selectForDeletion_exact_adjacentWindows :
    DistinctPaths adjacentWindows ∧ ∀ candidate ∈ adjacentWindows,
      candidate ∈ selectForDeletion adjacentWindows 2 3 ↔
        candidate.stamp.minute = 0 ∨ candidate.stamp.minute = 5 := by
  have distinct : DistinctPaths adjacentWindows := by
    rw [DistinctPaths]
    decide +kernel
  have gone : ∀ candidate ∈ adjacentWindows,
      candidate ∉ retained 2 3 adjacentWindows.toFinset ↔
        candidate.stamp.minute = 0 ∨ candidate.stamp.minute = 5 := by
    decide +kernel
  refine ⟨distinct, fun candidate member => ?_⟩
  rw [(selectForDeletion_exact distinct 2 3).1 candidate, and_iff_right member,
    gone candidate member]

/-! ## What stays kept -/

variable {perWindow total : Nat} {pool rest : Finset Candidate} {candidate other : Candidate}

/-- The newest candidate of all is retained, if anything is. -/
theorem mem_retained_of_newest (member : candidate ∈ pool)
    (newest : ∀ other ∈ pool, ¬ candidate.Older other) (somePerWindow : 0 < perWindow)
    (someInTotal : 0 < total) : candidate ∈ retained perWindow total pool := by
  have nothingNewer {part : Finset Candidate} (subset : part ⊆ pool) :
      part.filter candidate.Older = ∅ :=
    Finset.filter_eq_empty_iff.mpr fun other present => newest other (subset present)
  refine mem_newest.mpr ⟨mem_keptByWindows.mpr (mem_newest.mpr ⟨?_, ?_⟩), ?_⟩
  · exact Finset.mem_filter.mpr ⟨member, rfl⟩
  · rwa [nothingNewer (Finset.filter_subset _ pool), Finset.card_empty]
  · rwa [nothingNewer (keptByWindows_subset perWindow pool), Finset.card_empty]

end Retention

end PatchLint

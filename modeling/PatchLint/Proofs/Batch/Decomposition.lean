import Mathlib.Data.Finset.Card
import PatchLint.Batch
import PatchLint.Proofs.Path.Parts

/-!
# A run is made of its files

A run visits one spelling of each path, the one that is listed first, in the order
of the paths. This is said here without sorting, and it leaves one list only. What
a file adds to the result is a block of issues that depends on nothing but what can
be seen of this file: its text, whether it can be read, and its syntax tree.
-/

namespace PatchLint

namespace Checker

/-- What can be seen of a file: its text with the tree of the text, or why it
cannot be read. -/
def view (checker : Checker) (read : Text → Except FileError Text) (path : Text) :
    Except FileError (Text × Option Node) :=
  (read path).map fun content => (content, checker.parse? content)

/-- The issues of all results for a file. -/
def block (checker : Checker) (read : Text → Except FileError Text) (path : Text) : List Issue :=
  (checker.analyze read path).flatMap CheckResult.issues

/-- The checker without its parser. -/
def withoutParser (checker : Checker) : Checker :=
  { checker with parser? := none }

variable {checker other : Checker} {read otherRead : Text → Except FileError Text}
  {path content : Text}

private theorem view_of_ok (opened : read path = .ok content) :
    checker.view read path = .ok (content, checker.parse? content) := by
  rw [view, opened]
  rfl

private theorem view_of_error {error : FileError} (failed : read path = .error error) :
    checker.view read path = .error error := by
  rw [view, failed]
  rfl

/-- The results for a text depend on the parser only through the tree of the text. -/
theorem analyzeSource_congr (sameRoot : other.root = checker.root)
    (sameConfig : other.config = checker.config)
    (sameTree : other.parse? content = checker.parse? content) :
    other.analyzeSource path content = checker.analyzeSource path content := by
  obtain ⟨parser?, root, config⟩ := checker
  obtain ⟨otherParser?, otherRoot, otherConfig⟩ := other
  subst sameRoot sameConfig
  rw [analyzeSource, analyzeSource, sameTree]
  rfl

/-- The results for a file depend on what can be seen of it. -/
theorem analyze_congr (sameRoot : other.root = checker.root)
    (sameConfig : other.config = checker.config)
    (sameView : other.view otherRead path = checker.view read path) :
    other.analyze otherRead path = checker.analyze read path := by
  cases opened : read path with
  | ok content =>
      cases otherOpened : otherRead path with
      | ok otherContent =>
          rw [view_of_ok opened, view_of_ok otherOpened, Except.ok.injEq, Prod.mk.injEq] at sameView
          obtain ⟨rfl, sameTree⟩ := sameView
          rw [analyze, analyze, opened, otherOpened]
          exact analyzeSource_congr sameRoot sameConfig sameTree
      | error otherError =>
          rw [view_of_ok opened, view_of_error otherOpened] at sameView
          contradiction
  | error error =>
      cases otherOpened : otherRead path with
      | ok otherContent =>
          rw [view_of_error opened, view_of_ok otherOpened] at sameView
          contradiction
      | error otherError =>
          rw [view_of_error opened, view_of_error otherOpened, Except.error.injEq] at sameView
          rw [analyze, analyze, opened, otherOpened, sameView]
          simp only [unreadable, sameRoot]

private theorem block_congr (sameRoot : other.root = checker.root)
    (sameConfig : other.config = checker.config)
    (sameView : other.view otherRead path = checker.view read path) :
    other.block otherRead path = checker.block read path := by
  rw [block, block, analyze_congr sameRoot sameConfig sameView]

/-- A text that the parser rejects is checked as it is without a parser. -/
theorem block_withoutParser (opened : read path = .ok content)
    (rejected : checker.parse? content = none) :
    checker.block read path = checker.withoutParser.block read path := by
  refine block_congr rfl rfl ?_
  rw [view_of_ok opened, view_of_ok opened, rejected]
  rfl

end Checker

namespace Batch

open PatchLint.Path

variable {paths others visited : List Text} {path last : Text}

/-! ## The files that are visited -/

/-- The spelling of its path that comes first in a list. -/
def IsFirstSpelling (paths : List Text) (path : Text) : Prop :=
  paths.find? (same path) = some path

/-- A list holds the first spelling of each path of another list, in the order of the
paths. -/
structure Visits (paths visited : List Text) : Prop where
  ordered : visited.Pairwise Before
  mem_iff : ∀ path, path ∈ visited ↔ IsFirstSpelling paths path

/-- Two lists in strict order with the same members are the same. -/
theorem eq_of_pairwise_before (ordered : visited.Pairwise Before)
    (others_ordered : others.Pairwise Before)
    (members : ∀ path, path ∈ visited ↔ path ∈ others) : visited = others := by
  have nodup {list : List Text} (ordered : list.Pairwise Before) : list.Nodup :=
    ordered.imp fun before equal => before.parts_ne (congrArg parts equal)
  refine List.Perm.eq_of_pairwise ?_ ordered others_ordered
    ((List.perm_ext_iff_of_nodup (nodup ordered) (nodup others_ordered)).mpr members)
  intro left right _ _ before after
  exact absurd after before.asymm

private theorem Visits.unique (visits : Visits paths visited) (other : Visits paths others) :
    visited = others :=
  eq_of_pairwise_before visits.ordered other.ordered fun path =>
    (visits.mem_iff path).trans (other.mem_iff path).symm

/-- Sorting keeps the spellings of a path in their order. -/
theorem filter_mergeSort (paths : List Text) (path : Text) :
    (paths.mergeSort le).filter (same path) = paths.filter (same path) := by
  have ties : (paths.filter (same path)).Pairwise fun left right => le left right = true := by
    refine List.pairwise_iff_forall_sublist.mpr fun {left right} pair => le_of_same ?_
    have first := (List.mem_filter.mp (pair.subset List.mem_cons_self)).2
    have second := (List.mem_filter.mp (pair.subset (List.mem_cons_of_mem _ List.mem_cons_self))).2
    rw [same_iff] at first second ⊢
    exact first.symm.trans second
  have kept : (paths.filter (same path)).Sublist (paths.mergeSort le) :=
    List.sublist_mergeSort Path.le_trans Path.le_total ties List.filter_sublist
  have inside := kept.filter (same path)
  rw [List.filter_filter] at inside
  simp only [Bool.and_self] at inside
  exact (inside.eq_of_length ((List.mergeSort_perm paths le).filter _).length_eq.symm).symm

private theorem find?_mergeSort (paths : List Text) (path : Text) :
    (paths.mergeSort le).find? (same path) = paths.find? (same path) := by
  rw [← List.head?_filter, filter_mergeSort, List.head?_filter]

private theorem IsFirstSpelling.mem (first : IsFirstSpelling paths path) : path ∈ paths :=
  List.mem_of_find?_eq_some first

/-- Every listed path has a first spelling. -/
theorem exists_isFirstSpelling (listed : path ∈ paths) :
    ∃ first, same path first = true ∧ IsFirstSpelling paths first := by
  obtain ⟨first, found⟩ := Option.isSome_iff_exists.mp
    (List.find?_isSome.mpr ⟨path, listed, same_iff.mpr rfl⟩)
  have spellings : same path first = true := List.find?_some found
  have test : same first = same path := by
    funext other
    rw [same, same, same_iff.mp spellings]
  exact ⟨first, spellings, by rw [IsFirstSpelling, test, found]⟩

private theorem isFirstSpelling_cons {next : Text} {rest : List Text} :
    IsFirstSpelling (next :: rest) path ↔
      path = next ∨ (same next path = false ∧ IsFirstSpelling rest path) := by
  rw [IsFirstSpelling, List.find?_cons, same_comm next path]
  cases spellings : same path next with
  | true => simp [eq_comm]
  | false =>
      have different : path ≠ next := by
        rintro rfl
        rw [same_iff.mpr rfl] at spellings
        contradiction
      simp [different, IsFirstSpelling]

/-- Behind `last`, what is left of a sorted list are first spellings of later paths. -/
theorem mem_dropRepeats {rest : List Text}
    (sorted : (last :: rest).Pairwise fun left right => le left right = true) :
    path ∈ dropRepeats last rest ↔ same last path = false ∧ IsFirstSpelling rest path := by
  induction rest generalizing last with
  | nil => simp [dropRepeats, IsFirstSpelling]
  | cons next rest ih =>
      obtain ⟨bounds, sortedRest⟩ := List.pairwise_cons.mp sorted
      have lastNext := bounds next List.mem_cons_self
      rw [dropRepeats, isFirstSpelling_cons]
      split
      next spellings =>
        have sortedLast : (last :: rest).Pairwise fun left right => le left right = true :=
          List.pairwise_cons.mpr
            ⟨fun other member => bounds other (List.mem_cons_of_mem _ member), sortedRest.of_cons⟩
        have nextPath : same next path = same last path := by
          rw [same, same, same_iff.mp spellings]
        rw [ih sortedLast, nextPath]
        constructor
        · rintro ⟨later, first⟩
          exact ⟨later, .inr ⟨later, first⟩⟩
        · rintro ⟨later, rfl | ⟨_, first⟩⟩
          · simp [spellings] at later
          · exact ⟨later, first⟩
      next different =>
        rw [List.mem_cons, ih sortedRest]
        refine ⟨fun found => ⟨?_, found⟩, And.right⟩
        rw [Bool.not_eq_true] at different
        rcases found with rfl | ⟨_, first⟩
        · exact different
        -- A path behind `next` cannot spell `last` again: the list is sorted.
        · have nextPath := (List.pairwise_cons.mp sortedRest).1 path first.mem
          exact ((before_of_le lastNext different).trans_le nextPath).same_eq_false

private theorem pairwise_dropRepeats {rest : List Text}
    (sorted : (last :: rest).Pairwise fun left right => le left right = true) :
    (last :: dropRepeats last rest).Pairwise Before := by
  induction rest generalizing last with
  | nil => simp [dropRepeats]
  | cons next rest ih =>
      obtain ⟨bounds, sortedRest⟩ := List.pairwise_cons.mp sorted
      rw [List.pairwise_cons]
      constructor
      · intro path member
        obtain ⟨different, first⟩ := (mem_dropRepeats sorted).mp member
        exact before_of_le (bounds path first.mem) different
      · rw [dropRepeats]
        split
        next =>
          have sortedLast : (last :: rest).Pairwise fun left right => le left right = true :=
            List.pairwise_cons.mpr
              ⟨fun other member => bounds other (List.mem_cons_of_mem _ member), sortedRest.of_cons⟩
          exact (ih sortedLast).of_cons
        next => exact ih sortedRest

/-- What is checked is the first spelling of each path, in the order of the paths. -/
theorem visits_distinct (paths : List Text) : Visits paths (distinct paths) := by
  have sorted := List.pairwise_mergeSort Path.le_trans Path.le_total paths
  have spelled : ∀ path, IsFirstSpelling (paths.mergeSort le) path ↔ IsFirstSpelling paths path :=
    fun path => by rw [IsFirstSpelling, IsFirstSpelling, find?_mergeSort]
  rw [distinct]
  cases arranged : paths.mergeSort le with
  | nil =>
      refine ⟨.nil, fun path => ?_⟩
      rw [← spelled, arranged]
      simp [IsFirstSpelling]
  | cons first rest =>
      rw [arranged] at sorted
      refine ⟨pairwise_dropRepeats sorted, fun path => ?_⟩
      rw [← spelled, arranged, isFirstSpelling_cons, List.mem_cons, mem_dropRepeats sorted]

/-- Each path is visited once: there are as many files as paths, however they are
spelled. -/
theorem Visits.length_eq (visits : Visits paths visited) :
    visited.length = (paths.map parts).toFinset.card := by
  have nodup : (visited.map parts).Nodup :=
    List.pairwise_map.mpr (visits.ordered.imp Before.parts_ne)
  have members : (visited.map parts).toFinset = (paths.map parts).toFinset := by
    ext named
    simp only [List.mem_toFinset, List.mem_map]
    constructor
    · rintro ⟨path, member, rfl⟩
      exact ⟨path, ((visits.mem_iff path).mp member).mem, rfl⟩
    · rintro ⟨path, listed, rfl⟩
      obtain ⟨first, spellings, isFirst⟩ := exists_isFirstSpelling listed
      exact ⟨first, (visits.mem_iff first).mpr isFirst, (same_iff.mp spellings).symm⟩
  rw [← members, List.toFinset_card_of_nodup nodup, List.length_map]

/-- Without a second spelling of any path, the first spellings are all that is
listed. -/
theorem isFirstSpelling_iff_mem
    (single : ∀ left ∈ paths, ∀ right ∈ paths, same left right = true → left = right) :
    IsFirstSpelling paths path ↔ path ∈ paths := by
  refine ⟨IsFirstSpelling.mem, fun listed => ?_⟩
  obtain ⟨first, spellings, isFirst⟩ := exists_isFirstSpelling listed
  rwa [single path listed first isFirst.mem spellings]

/-! ## The result of a run -/

variable {checker other : Checker} {read otherRead : Text → Except FileError Text}

/-- Checking files one after the other adds the block of each file and counts the files. -/
theorem foldl_checkNext (files : List Text) (result : LintResult) :
    files.foldl (checkNext checker read) result =
      { result with
        issues := result.issues ++ files.flatMap (checker.block read)
        filesChecked := result.filesChecked + files.length } := by
  induction files generalizing result with
  | nil => simp
  | cons path files ih =>
      have issues : (checkNext checker read result path).issues =
        result.issues ++ checker.block read path := rfl
      have count : (checkNext checker read result path).filesChecked =
        result.filesChecked + 1 := rfl
      have method : (checkNext checker read result path).parsingMethod =
        result.parsingMethod := rfl
      rw [List.foldl_cons, ih, issues, count, method, List.flatMap_cons, List.append_assoc,
        List.length_cons, Nat.add_assoc, Nat.add_comm 1]

/-- The result of a run, from the files that it visits. -/
theorem run_eq (checker : Checker) (read : Text → Except FileError Text) (paths : List Text) :
    run checker read paths =
      ⟨(distinct paths).flatMap (checker.block read), (distinct paths).length,
        checker.parsingMethod⟩ := by
  rw [run, foldl_checkNext, List.nil_append, Nat.zero_add]

/-- The order and the multiplicity of the listed paths do not matter. -/
theorem run_eq_of_mem_iff (members : ∀ path, path ∈ others ↔ path ∈ paths)
    (single : ∀ left ∈ paths, ∀ right ∈ paths, same left right = true → left = right) :
    run checker read others = run checker read paths := by
  have otherSingle : ∀ left ∈ others, ∀ right ∈ others, same left right = true → left = right := by
    intro left leftMember right rightMember
    exact single left ((members left).mp leftMember) right ((members right).mp rightMember)
  have files : distinct others = distinct paths := by
    refine eq_of_pairwise_before (visits_distinct others).ordered (visits_distinct paths).ordered ?_
    intro path
    rw [(visits_distinct others).mem_iff, (visits_distinct paths).mem_iff,
      isFirstSpelling_iff_mem otherSingle, isFirstSpelling_iff_mem single, members]
  rw [run, run, files]

/-- A run depends on what can be read under the listed paths only. -/
theorem run_congr (reads : ∀ path ∈ paths, otherRead path = read path) :
    run checker otherRead paths = run checker read paths := by
  have issues : (distinct paths).flatMap (checker.block otherRead) =
      (distinct paths).flatMap (checker.block read) := by
    refine List.flatMap_congr fun path member => Checker.block_congr rfl rfl ?_
    have listed := (((visits_distinct paths).mem_iff path).mp member).mem
    rw [Checker.view, Checker.view, reads path listed]
  rw [run_eq, run_eq, issues]

/-- Nothing is checked exactly when nothing is listed. -/
theorem filesChecked_run_eq_zero_iff : (run checker read paths).filesChecked = 0 ↔ paths = [] := by
  rw [run_eq, (visits_distinct paths).length_eq, Finset.card_eq_zero, List.toFinset_eq_empty_iff, List.map_eq_nil_iff]

/-- A run without files does not fail. -/
theorem exitCode_run_nil (checker : Checker) (read : Text → Except FileError Text) :
    (run checker read []).exitCode = 0 := by
  simp [run_eq, distinct, LintResult.exitCode, LintResult.hasErrors]

/-- What can be seen of one file changes the block of this file only. -/
theorem Visits.issues_eq (visits : Visits paths visited) {changed : Text}
    (listed : changed ∈ paths) (sameRoot : other.root = checker.root)
    (sameConfig : other.config = checker.config)
    (unchanged : ∀ path ∈ paths, same changed path = false →
      other.view otherRead path = checker.view read path) :
    ∃ front first back, same changed first = true ∧ visited = front ++ first :: back ∧
      visited.flatMap (other.block otherRead) =
        front.flatMap (checker.block read) ++ other.block otherRead first ++
          back.flatMap (checker.block read) := by
  obtain ⟨first, spellings, isFirst⟩ := exists_isFirstSpelling listed
  obtain ⟨front, back, split⟩ := List.append_of_mem ((visits.mem_iff first).mpr isFirst)
  have ordered := visits.ordered
  rw [split, List.pairwise_append, List.pairwise_cons] at ordered
  obtain ⟨_, ⟨afterFirst, _⟩, beforeFirst⟩ := ordered
  have sameBlock {path : Text} (member : path ∈ visited) (different : same first path = false) :
      other.block otherRead path = checker.block read path := by
    refine Checker.block_congr sameRoot sameConfig (unchanged path ?_ ?_)
    · exact ((visits.mem_iff path).mp member).mem
    · rw [same, same_iff.mp spellings]
      exact different
  have sameFront : front.flatMap (other.block otherRead) = front.flatMap (checker.block read) := by
    refine List.flatMap_congr fun path member => sameBlock (by simp [split, member]) ?_
    rw [same_comm]
    exact (beforeFirst path member first List.mem_cons_self).same_eq_false
  have sameBack : back.flatMap (other.block otherRead) = back.flatMap (checker.block read) :=
    List.flatMap_congr fun path member =>
      sameBlock (by simp [split, member]) (afterFirst path member).same_eq_false
  refine ⟨front, first, back, spellings, split, ?_⟩
  rw [split, List.flatMap_append, List.flatMap_cons, sameFront, sameBack, List.append_assoc]

/-- A run is put together from its files. It visits the first spelling of each listed
path, once and in the order of the paths; there is one list with these members, and the
issues are those of its files, one after the other. So the order and the multiplicity
of the listed paths do not matter unless a path is spelled in two ways. What can be
seen of one file changes the block of this file only, and a text that the parser
rejects is checked as it is without a parser. -/
theorem run_decomposes (checker : Checker) (read : Text → Except FileError Text)
    (paths : List Text) :
    (∃ visited, Visits paths visited ∧ (∀ list, Visits paths list → list = visited) ∧
      (run checker read paths).issues = visited.flatMap (checker.block read) ∧
      (run checker read paths).filesChecked = (paths.map parts).toFinset.card ∧
      ∀ (other : Checker) (otherRead : Text → Except FileError Text), ∀ changed ∈ paths,
        other.root = checker.root → other.config = checker.config →
        (∀ path ∈ paths, same changed path = false →
          other.view otherRead path = checker.view read path) →
        ∃ front first back, same changed first = true ∧ visited = front ++ first :: back ∧
          (run other otherRead paths).issues =
            front.flatMap (checker.block read) ++ other.block otherRead first ++
              back.flatMap (checker.block read)) ∧
    (∀ others, (∀ path, path ∈ others ↔ path ∈ paths) →
      (∀ left ∈ paths, ∀ right ∈ paths, same left right = true → left = right) →
      run checker read others = run checker read paths) ∧
    ∀ path content, read path = .ok content → checker.parse? content = none →
      checker.block read path = checker.withoutParser.block read path := by
  have visits := visits_distinct paths
  have issues (checker : Checker) (read : Text → Except FileError Text) :
      (run checker read paths).issues = (distinct paths).flatMap (checker.block read) := by
    rw [run_eq]
  have count : (run checker read paths).filesChecked = (paths.map parts).toFinset.card := by
    rw [run_eq, visits.length_eq]
  refine ⟨⟨distinct paths, visits, fun _ other => other.unique visits, issues checker read, count,
    ?_⟩, fun others => run_eq_of_mem_iff, fun path content => Checker.block_withoutParser⟩
  intro other otherRead changed listed sameRoot sameConfig unchanged
  rw [issues]
  exact visits.issues_eq listed sameRoot sameConfig unchanged

/-- A checker whose parser rejects every text. -/
def rejecting : Checker :=
  ⟨some fun _ => none, ['.'], {}⟩

/-- Nothing can be read but a task in one file. -/
def onlyTask (path : Text) : Except FileError Text :=
  if same path "a/c.cs".toList then .ok "//todo now".toList else .error .notFound

/-- One spelling of the file with the task, between two mentions of another file. -/
def mentions : List Text :=
  ["b.cs", "a//c.cs", "b.cs"].map String.toList

/-- Two files are checked, in any order, and a change of the second one leaves the task
where it is. -/
theorem run_decomposes_onlyTask :
    run rejecting onlyTask (["a//c.cs", "b.cs"].map String.toList) =
      run rejecting onlyTask mentions ∧
    (run rejecting onlyTask mentions).filesChecked = 2 ∧
    rejecting.block onlyTask "a//c.cs".toList =
      rejecting.withoutParser.block onlyTask "a//c.cs".toList ∧
    ∃ (front : List Text) (first : Text) (back : List Text), same "b.cs".toList first = true ∧
      (run rejecting (fun _ => .ok "//todo now".toList) mentions).issues =
        front.flatMap (rejecting.block onlyTask) ++
          rejecting.block (fun _ => .ok "//todo now".toList) first ++
          back.flatMap (rejecting.block onlyTask) := by
  obtain ⟨⟨visited, _, _, _, count, changes⟩, order, rejects⟩ :=
    run_decomposes rejecting onlyTask mentions
  refine ⟨order _ ?_ (by decide +kernel), count, ?_, ?_⟩
  · intro path
    simp only [mentions, List.map_cons, List.map_nil, List.mem_cons, List.not_mem_nil]
    tauto
  · exact rejects _ "//todo now".toList (by decide +kernel) rfl
  · have unchanged : ∀ path ∈ mentions, same "b.cs".toList path = false →
        rejecting.view (fun _ => .ok "//todo now".toList) path =
          rejecting.view onlyTask path := by
      intro path member different
      have spelled : onlyTask path = .ok "//todo now".toList := by
        revert path
        decide +kernel
      rw [Checker.view, Checker.view, spelled]
    obtain ⟨front, first, back, spellings, _, issues⟩ :=
      changes rejecting _ "b.cs".toList (by decide +kernel) rfl rfl unchanged
    exact ⟨front, first, back, spellings, issues⟩

end Batch

end PatchLint

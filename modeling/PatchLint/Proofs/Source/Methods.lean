import Mathlib.Algebra.BigOperators.Intervals
import Mathlib.Order.Interval.Finset.Nat
import PatchLint.Proofs.Source.Block
import PatchLint.Proofs.Text.Lines
import PatchLint.Rule.Complexity

/-!
# Methods do not share lines

The scan for methods takes a line that declares a method together with all lines up to
the end of its block, and goes on behind them. So it takes every declaration that is
not inside of a method it has taken before, and no other one.

`mem_spansFrom_iff` says this of a scan that stands anywhere. It follows the scan line
by line: a line is jumped over, takes a method, or is passed by.
-/

namespace PatchLint

namespace MethodSpan

variable {code lines : List Text} {number resume : Nat} {span earlier : MethodSpan}

/-- The lines of a method. -/
def lineNumbers (span : MethodSpan) : Finset Nat :=
  Finset.Icc span.firstLine span.lastLine

/-- The method that is declared on the line with this number. -/
def declaredOn? (code : List Text) (number : Nat) : Option MethodSpan :=
  code[number]?.bind (declaredAt? code number)

/-- A method is declared on a line that looks like a declaration and has a block behind it,
and it ends where the block does. -/
theorem declaredOn?_eq_some_iff : declaredOn? code number = some span ↔
    ∃ line block, code[number]? = some line ∧ isDeclaration line = true ∧
      blockSpan? code number 0 = some block ∧
      span = ⟨(Declaration.methodName? line).getD "unknown".toList, number, block.closeLine⟩ := by
  simp only [declaredOn?, declaredAt?, Option.bind_eq_some_iff, Option.ite_none_right_eq_some,
    Option.map_eq_some_iff]
  constructor
  · rintro ⟨line, stands, declares, block, found, rfl⟩
    exact ⟨line, block, stands, declares, found, rfl⟩
  · rintro ⟨line, block, stands, declares, found, rfl⟩
    exact ⟨line, stands, declares, block, found, rfl⟩

private theorem exists_declaredOn?_iff : (∃ span, declaredOn? code number = some span) ↔
    (∃ line, code[number]? = some line ∧ isDeclaration line = true) ∧
      (blockSpan? code number 0).isSome = true := by
  simp only [declaredOn?_eq_some_iff, Option.isSome_iff_exists]
  constructor
  · rintro ⟨span, line, block, stands, declares, found, _⟩
    exact ⟨⟨line, stands, declares⟩, block, found⟩
  · rintro ⟨⟨line, stands, declares⟩, block, found⟩
    exact ⟨_, line, block, stands, declares, found, rfl⟩

private theorem firstLine_of_declaredOn? (declared : declaredOn? code number = some span) :
    span.firstLine = number := by
  obtain ⟨line, block, _, _, _, rfl⟩ := declaredOn?_eq_some_iff.mp declared
  rfl

private theorem bounds_of_declaredOn? (declared : declaredOn? code number = some span) :
    number ≤ span.lastLine ∧ span.lastLine < code.length := by
  obtain ⟨line, block, _, _, found, rfl⟩ := declaredOn?_eq_some_iff.mp declared
  exact closeLine_bounds_of_blockSpan? found

/-! ## The scan -/

/-- Wherever the scan stands, it takes the methods that are declared from there on and not
inside of one that it has taken before. -/
theorem mem_spansFrom_iff (left : code.drop number = lines) :
    span ∈ spansFrom code number resume lines ↔
      max number resume ≤ span.firstLine ∧ declaredOn? code span.firstLine = some span ∧
        ∀ earlier ∈ spansFrom code number resume lines,
          earlier.firstLine < span.firstLine → earlier.lastLine < span.firstLine := by
  induction lines generalizing number resume span with
  | nil =>
      refine iff_of_false (by simp [spansFrom]) ?_
      rintro ⟨reached, declared, _⟩
      have past := List.drop_eq_nil_iff.mp left
      have bounds := bounds_of_declaredOn? declared
      omega
  | cons line rest ih =>
      obtain ⟨stands, restLeft⟩ := Text.getElem?_of_drop_eq_cons left
      rcases Nat.lt_or_ge number resume with skipped | reached
      · rw [spansFrom, if_pos skipped, ih restLeft, Nat.max_eq_right (by omega),
          Nat.max_eq_right (by omega)]
      have here : declaredOn? code number = declaredAt? code number line := by
        rw [declaredOn?, stands, Option.bind_some]
      rw [spansFrom, if_neg (by omega), Nat.max_eq_left reached, ← here]
      cases declared : declaredOn? code number with
      | none =>
          -- Nothing is declared on this line, so a method starts further down.
          simp only
          rw [ih restLeft, Nat.max_eq_left (by omega)]
          refine ⟨fun ⟨further, others⟩ => ⟨by omega, others⟩, fun ⟨further, found, others⟩ => ?_⟩
          have elsewhere : span.firstLine ≠ number := by
            intro same
            simp [same, declared] at found
          exact ⟨by omega, found, others⟩
      | some taken =>
          have first := firstLine_of_declaredOn? declared
          have bounds := bounds_of_declaredOn? declared
          have behind {later : MethodSpan} := @ih _ (taken.lastLine + 1) later restLeft
          simp only [Nat.max_eq_right (Nat.succ_le_succ bounds.1)] at behind
          simp only [List.forall_mem_cons]
          rw [List.mem_cons]
          -- What starts behind this line starts behind the method that is taken here.
          constructor
          · rintro (rfl | later)
            · refine ⟨by omega, by rw [first, declared], by omega, fun other member => ?_⟩
              have further := (behind.mp member).1
              omega
            · obtain ⟨further, found, others⟩ := behind.mp later
              exact ⟨by omega, found, by omega, others⟩
          · rintro ⟨further, found, notTaken, others⟩
            by_cases same : span.firstLine = number
            · rw [same, declared, Option.some.injEq] at found
              exact .inl found.symm
            · have ends := notTaken (by omega)
              exact .inr (behind.mpr ⟨by omega, found, others⟩)

/-- A method ends before the next one starts. -/
theorem pairwise_spansFrom (left : code.drop number = lines) :
    (spansFrom code number resume lines).Pairwise fun first second =>
      first.lastLine < second.firstLine := by
  fun_induction spansFrom code number resume lines with
  | case1 => exact .nil
  | case2 number resume line rest _ ih => exact ih (Text.getElem?_of_drop_eq_cons left).2
  | case3 number resume line rest _ taken _ ih =>
      have restLeft := (Text.getElem?_of_drop_eq_cons left).2
      refine List.pairwise_cons.mpr ⟨fun later member => ?_, ih restLeft⟩
      have further := ((mem_spansFrom_iff restLeft).mp member).1
      omega
  | case4 number resume line rest _ _ ih => exact ih (Text.getElem?_of_drop_eq_cons left).2

private theorem mem_methodSpans_iff : span ∈ methodSpans code ↔
    declaredOn? code span.firstLine = some span ∧
      ∀ earlier ∈ methodSpans code,
        earlier.firstLine < span.firstLine → earlier.lastLine < span.firstLine := by
  rw [methodSpans, mem_spansFrom_iff List.drop_zero]
  simp

/-- A method ends on the line on which it starts or later, within the code. -/
theorem bounds_of_mem_methodSpans (member : span ∈ methodSpans code) :
    span.firstLine ≤ span.lastLine ∧ span.lastLine < code.length :=
  bounds_of_declaredOn? (mem_methodSpans_iff.mp member).1

/-- A method is taken from a line if one is declared there and the line is not inside of a
method that starts further up. -/
theorem exists_mem_methodSpans_iff :
    (∃ span ∈ methodSpans code, span.firstLine = number) ↔
      (∃ span, declaredOn? code number = some span) ∧
        ∀ earlier ∈ methodSpans code,
          earlier.firstLine < number → number ∉ earlier.lineNumbers := by
  simp only [lineNumbers, Finset.mem_Icc, not_and, Nat.not_le]
  constructor
  · rintro ⟨span, member, rfl⟩
    obtain ⟨declared, others⟩ := mem_methodSpans_iff.mp member
    exact ⟨⟨span, declared⟩, fun earlier taken before _ => others earlier taken before⟩
  · rintro ⟨⟨span, declared⟩, others⟩
    obtain rfl := firstLine_of_declaredOn? declared
    refine ⟨span, mem_methodSpans_iff.mpr ⟨declared, fun earlier taken before => ?_⟩, rfl⟩
    exact others earlier taken before (Nat.le_of_lt before)

/-! ## What is counted -/

private theorem card_lineNumbers (ordered : span.firstLine ≤ span.lastLine) :
    span.lineNumbers.card = span.lineCount := by
  rw [lineNumbers, Nat.card_Icc, lineCount]
  omega

private theorem lineNumbers_subset (inside : span.lastLine < code.length) :
    span.lineNumbers ⊆ Finset.range code.length := by
  intro number member
  have bounds := Finset.mem_Icc.mp member
  exact Finset.mem_range.mpr (by omega)

private theorem disjoint_lineNumbers (apart : earlier.lastLine < span.firstLine) :
    Disjoint earlier.lineNumbers span.lineNumbers := by
  refine Finset.disjoint_left.mpr fun number inEarlier inSpan => ?_
  have first := Finset.mem_Icc.mp inEarlier
  have second := Finset.mem_Icc.mp inSpan
  omega

end MethodSpan

namespace Complexity

private theorem ofLines_eq (lines : List Text) :
    ofLines lines = 1 + (lines.map decisionPoints).sum := by
  induction lines with
  | nil => rfl
  | cons line rest ih =>
      rw [ofLines, List.foldr_cons, ← ofLines, ih, List.map_cons, List.sum_cons]
      omega

/-- The sum over consecutive lines, by their numbers. -/
theorem sum_take_drop (code : List Text) (first : Nat) :
    ∀ count, first + count ≤ code.length →
      (((code.drop first).take count).map decisionPoints).sum =
        ∑ offset ∈ Finset.range count, decisionPoints (code.getD (first + offset) []) := by
  intro count inside
  induction count with
  | zero => simp
  | succ count ih =>
      have last : (code.drop first)[count]? = some (code.getD (first + count) []) := by
        rw [List.getElem?_drop, List.getD_eq_getElem?_getD, List.getElem?_eq_getElem (by omega),
          Option.getD_some]
      rw [List.take_add_one, last, List.map_append, List.sum_append, ih (by omega),
        Finset.sum_range_succ]
      simp

/-- The complexity of a method counts each of its lines once. -/
theorem ofSpan_eq {code : List Text} {span : MethodSpan} (ordered : span.firstLine ≤ span.lastLine)
    (inside : span.lastLine < code.length) :
    ofSpan code span =
      1 + ∑ number ∈ span.lineNumbers, decisionPoints (code.getD number []) := by
  have count : span.lastLine + 1 - span.firstLine = span.lineCount := by
    rw [MethodSpan.lineCount]
    omega
  have numbers : span.lineNumbers = Finset.Ico span.firstLine (span.lastLine + 1) := rfl
  rw [ofSpan, ofLines_eq, sum_take_drop code span.firstLine span.lineCount (by omega), numbers,
    Finset.sum_Ico_eq_sum_range, count]

end Complexity

/-- The methods that are found in masked lines come in order, without a line in common, and
inside of the code. A line is the first one of a method if and only if it looks like a
declaration, has a block behind it and is not inside of a method that starts further up; the
method then ends where the block does. So the length and the complexity of a method count each
of its lines once, and no line counts for two methods. -/
theorem methodSpans_greedy (code : List Text) :
    ((methodSpans code).Pairwise fun first second => first.lastLine < second.firstLine) ∧
    (∀ span ∈ methodSpans code, span.firstLine ≤ span.lastLine ∧ span.lastLine < code.length) ∧
    (∀ number, (∃ span ∈ methodSpans code, span.firstLine = number) ↔
      (∃ line, code[number]? = some line ∧ MethodSpan.isDeclaration line = true) ∧
        (blockSpan? code number 0).isSome = true ∧
        ∀ earlier ∈ methodSpans code,
          earlier.firstLine < number → number ∉ earlier.lineNumbers) ∧
    (∀ span ∈ methodSpans code,
      (blockSpan? code span.firstLine 0).map BlockSpan.closeLine = some span.lastLine) ∧
    ((methodSpans code).Pairwise fun first second =>
      Disjoint first.lineNumbers second.lineNumbers) ∧
    ∀ span ∈ methodSpans code,
      span.lineNumbers ⊆ Finset.range code.length ∧ span.lineCount = span.lineNumbers.card ∧
      Complexity.ofSpan code span =
        1 + ∑ number ∈ span.lineNumbers, Complexity.decisionPoints (code.getD number []) := by
  have ordered : (methodSpans code).Pairwise fun first second =>
      first.lastLine < second.firstLine := MethodSpan.pairwise_spansFrom List.drop_zero
  refine ⟨ordered, fun span => MethodSpan.bounds_of_mem_methodSpans, fun number => ?_,
    fun span member => ?_, ordered.imp MethodSpan.disjoint_lineNumbers, fun span member => ?_⟩
  · rw [MethodSpan.exists_mem_methodSpans_iff, MethodSpan.exists_declaredOn?_iff, and_assoc]
  · obtain ⟨declared, _⟩ := MethodSpan.mem_methodSpans_iff.mp member
    obtain ⟨line, block, _, _, found, same⟩ := MethodSpan.declaredOn?_eq_some_iff.mp declared
    rw [found, Option.map_some, same]
  · obtain ⟨starts, inside⟩ := MethodSpan.bounds_of_mem_methodSpans member
    exact ⟨MethodSpan.lineNumbers_subset inside, (MethodSpan.card_lineNumbers starts).symm,
      Complexity.ofSpan_eq starts inside⟩

end PatchLint

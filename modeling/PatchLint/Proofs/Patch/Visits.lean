import PatchLint.Proofs.Text.Lines
import PatchLint.Rule.PatchMethod

/-!
# Where the scan for patch methods stops

The scan for patch methods stops at a line that gives a role, judges the stack of
attributes that starts there, and goes on behind the signature or, if there is none,
behind the stack. `Visits` follows it from line to line. What the rule reports is
what it finds at the lines it comes to, and the signatures that it gathers do not
overlap.
-/

namespace PatchLint.PatchMethod

variable {file : SourceFile} {lines : List Text} {number place : Nat} {stack : Stack}
  {signature : Signature}

/-- The stack that starts on this line with an attribute that gives a role. -/
def stackAt? (lines : List Text) (number : Nat) : Option Stack := do
  let role ← role? (← lines[number]?)
  let below := stackFrom (number + 1) (lines.drop (number + 1))
  return { below with names := role :: below.names }

/-- The line at which the scan goes on behind a stack. -/
def Stack.resume (stack : Stack) : Nat :=
  match stack.signature? with
  | some signature => signature.lastLine + 1
  | none => stack.after

/-- The line at which the scan goes on behind a line that it has come to. -/
def onward (lines : List Text) (number : Nat) : Nat :=
  ((stackAt? lines number).map Stack.resume).getD (number + 1)

/-- From line `start` on the scan comes to line `place`. -/
inductive Visits (lines : List Text) : Nat → Nat → Prop where
  | here {start} : Visits lines start start
  | onward {start place} (later : Visits lines (onward lines start) place) :
      Visits lines start place

/-- What is found at a stack that starts on line `number`. -/
def judge (file : SourceFile) (number : Nat) (stack : Stack) : List Issue :=
  match stack.signature? with
  | some signature => checkSignature file (Mask.codeLines file.content) stack signature
  | none => [noMethod file (number + 1) stack.names]

/-! ## The scan moves down -/

private theorem le_after_stackFrom (number : Nat) (lines : List Text) :
    number ≤ (stackFrom number lines).after := by
  fun_induction stackFrom number lines with
  | case1 => exact Nat.le_refl _
  | case2 number line rest _ ih => omega
  | case3 number line rest _ name _ stack ih => exact Nat.le_of_succ_le ih
  | case4 => exact Nat.le_refl _

/-- A signature starts behind `bound` if nothing of it was gathered before, and it
does not end before it starts. -/
theorem gatherFrom_bounds {bound : Nat} {parts : List Text} {first? : Option Nat}
    (started : ∀ first ∈ first?, bound ≤ first ∧ first ≤ number) (behind : bound ≤ number)
    (gathered : gatherFrom number parts first? lines = some signature) :
    bound ≤ signature.firstLine ∧ signature.firstLine ≤ signature.lastLine := by
  induction lines generalizing number parts first? with
  | nil => simp [gatherFrom] at gathered
  | cons line rest ih =>
      have first : bound ≤ first?.getD number ∧ first?.getD number ≤ number := by
        cases first? with
        | none => exact ⟨behind, Nat.le_refl _⟩
        | some first => exact started first rfl
      rw [gatherFrom] at gathered
      split at gathered
      next =>
        refine ih (fun first member => ?_) (by omega) gathered
        have bounds := started first member
        omega
      next =>
        split at gathered
        next =>
          rw [Option.some.injEq] at gathered
          subst gathered
          exact first
        next =>
          refine ih (fun later member => ?_) (by omega) gathered
          rw [Option.mem_some_iff] at member
          omega

/-- A signature starts behind its attributes and ends where it starts or later. -/
theorem signature?_bounds (gathered : stack.signature? = some signature) :
    stack.after ≤ signature.firstLine ∧ signature.firstLine ≤ signature.lastLine :=
  gatherFrom_bounds (by simp) (Nat.le_refl _) (Option.filter_eq_some_iff.mp gathered).1

private theorem after_le_resume (stack : Stack) : stack.after ≤ stack.resume := by
  rw [Stack.resume]
  split
  next signature gathered =>
    have bounds := signature?_bounds gathered
    omega
  next => exact Nat.le_refl _

/-- A stack of attributes ends behind the line on which it starts. -/
theorem lt_after_of_stackAt? (stacked : stackAt? lines number = some stack) :
    number < stack.after := by
  simp only [stackAt?, Option.bind_eq_bind, Option.bind_eq_some_iff, Option.pure_def,
    Option.some.injEq] at stacked
  obtain ⟨line, _, role, _, rfl⟩ := stacked
  exact le_after_stackFrom _ _

/-- From a stack of attributes the scan goes on where the stack says. -/
theorem onward_of_stackAt? (stacked : stackAt? lines number = some stack) :
    onward lines number = stack.resume := by
  simp [onward, stacked]

private theorem lt_onward (lines : List Text) (number : Nat) : number < onward lines number := by
  cases stacked : stackAt? lines number with
  | none => simp [onward, stacked]
  | some stack =>
      have behind := lt_after_of_stackAt? stacked
      have resumes := after_le_resume stack
      rw [onward_of_stackAt? stacked]
      omega

namespace Visits

variable {start first second : Nat}

private theorem le (visits : Visits lines start place) : start ≤ place := by
  induction visits with
  | here => exact Nat.le_refl _
  | @onward start place _ ih =>
      have ahead := lt_onward lines start
      omega

private theorem iff_eq_or : Visits lines start place ↔
    place = start ∨ Visits lines (PatchMethod.onward lines start) place := by
  constructor
  · rintro (_ | later)
    · exact .inl rfl
    · exact .inr later
  · rintro (rfl | later)
    · exact .here
    · exact .onward later

/-- The scan does not come to a line that it jumps over. -/
theorem onward_le (visitsFirst : Visits lines start first) (visitsSecond : Visits lines start second)
    (before : first < second) : PatchMethod.onward lines first ≤ second := by
  induction visitsFirst with
  | here =>
      rcases iff_eq_or.mp visitsSecond with rfl | later
      · exact absurd before (Nat.lt_irrefl _)
      · exact later.le
  | @onward start first later ih =>
      rcases iff_eq_or.mp visitsSecond with rfl | laterSecond
      · have ahead := lt_onward lines second
        have behind := later.le
        omega
      · exact ih laterSecond before

end Visits

/-! ## What the scan reports -/

/-- The issue is found at a line to which the scan comes from line `start` on. -/
def Found (file : SourceFile) (start : Nat) (issue : Issue) : Prop :=
  ∃ place stack, Visits file.lines start place ∧ stackAt? file.lines place = some stack ∧
    issue ∈ judge file place stack

/-- An issue is found where the scan stands or further on. -/
theorem found_iff {start : Nat} {issue : Issue} : Found file start issue ↔
    (∃ stack, stackAt? file.lines start = some stack ∧ issue ∈ judge file start stack) ∨
      Found file (onward file.lines start) issue := by
  constructor
  · rintro ⟨place, stack, visits, found⟩
    rcases Visits.iff_eq_or.mp visits with rfl | later
    · exact .inl ⟨stack, found⟩
    · exact .inr ⟨place, stack, later, found⟩
  · rintro (⟨stack, found⟩ | ⟨place, stack, later, found⟩)
    · exact ⟨start, stack, .here, found⟩
    · exact ⟨place, stack, .onward later, found⟩

private theorem not_found_of_length_le {start : Nat} {issue : Issue}
    (past : file.lines.length ≤ start) :
    ¬ Found file start issue := by
  rintro ⟨place, stack, visits, stacked, _⟩
  have behind := visits.le
  have none : file.lines[place]? = none := List.getElem?_eq_none (by omega)
  simp [stackAt?, none] at stacked

/-- At a line that gives a role the scan judges the stack and goes on behind it. -/
theorem scan_of_role {role line : Text} {rest : List Text} {resume : Nat}
    (reached : resume ≤ number) (stands : file.lines[number]? = some line)
    (left : file.lines.drop (number + 1) = rest) (gives : role? line = some role) :
    ∃ stack, stackAt? file.lines number = some stack ∧
      scan file (Mask.codeLines file.content) number resume (line :: rest) =
        judge file number stack ++
          scan file (Mask.codeLines file.content) (number + 1) stack.resume rest := by
  let below := stackFrom (number + 1) rest
  refine ⟨{ below with names := role :: below.names }, by simp [stackAt?, stands, left, gives, below],
    ?_⟩
  rw [scan, if_neg (by omega)]
  simp only [gives, judge, Stack.resume]
  cases gathered : Stack.signature? { below with names := role :: below.names } <;> rfl

/-- Wherever the scan stands, it reports what is found from there on. -/
theorem mem_scan_iff {issue : Issue} {resume : Nat} {rest : List Text}
    (left : file.lines.drop number = rest) :
    issue ∈ scan file (Mask.codeLines file.content) number resume rest ↔
      Found file (max number resume) issue := by
  induction rest generalizing number resume with
  | nil =>
      have past := List.drop_eq_nil_iff.mp left
      exact iff_of_false (by simp [scan]) (not_found_of_length_le (by omega))
  | cons line rest ih =>
      obtain ⟨stands, restLeft⟩ := Text.getElem?_of_drop_eq_cons left
      rcases Nat.lt_or_ge number resume with skipped | reached
      · rw [scan, if_pos skipped, ih restLeft, Nat.max_eq_right (by omega),
          Nat.max_eq_right (by omega)]
      · rw [Nat.max_eq_left reached, found_iff]
        cases gives : role? line with
        | none =>
            have unstacked : stackAt? file.lines number = none := by simp [stackAt?, stands, gives]
            have next : onward file.lines number = number + 1 := by simp [onward, unstacked]
            rw [scan, if_neg (by omega)]
            simp only [gives]
            rw [ih restLeft, Nat.max_eq_left (by omega), next]
            simp [unstacked]
        | some role =>
            obtain ⟨stack, stacked, scanned⟩ := scan_of_role reached stands restLeft gives
            have ahead := lt_onward file.lines number
            rw [onward_of_stackAt? stacked] at ahead ⊢
            rw [scanned, List.mem_append, ih restLeft, Nat.max_eq_right ahead]
            simp [stacked]

/-- The rule reports what is found at the lines to which its scan comes. -/
theorem mem_check_iff {issue : Issue} : issue ∈ textRule.check file ↔ Found file 0 issue :=
  mem_scan_iff rfl

end PatchLint.PatchMethod

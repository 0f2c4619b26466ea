import PatchLint.Proofs.Location.Basic
import PatchLint.Proofs.Mask.Projection
import PatchLint.Proofs.Source.Methods
import PatchLint.Rule.Catalog

/-!
# Text rules point into their file

Every issue of a text rule shows a line of its file. Rules that go line by line
number the lines they are given; rules that look for what follows an attribute
or a header count on from there, and never past the last line.
-/

namespace PatchLint

/-- Masked lines are numbered like source lines, but from zero. -/
theorem SourceFile.succ_le_lineCount_of_mem_codeLines {file : SourceFile} {line : Text × Nat}
    (member : line ∈ (Mask.codeLines file.content).zipIdx) : line.2 + 1 ≤ file.lineCount := by
  obtain ⟨_, bounded, _⟩ := List.mem_zipIdx (x := line.1) (i := line.2) member
  rw [Mask.length_codeLines] at bounded
  exact Nat.succ_le_of_lt (by simpa [SourceFile.lineCount, SourceFile.lines] using bounded)

open SourceFile

variable {file : SourceFile}

/-! ## Rules that go line by line -/

/-- Whatever is registered, forbidden texts are reported on lines of the file. -/
theorem ForbiddenRegistry.located (registry : ForbiddenRegistry) (file : SourceFile) :
    Located file (registry.textRule.check file) := by
  refine .flatMap fun entry _ => .map fun line member => ?_
  exact pointsInto_issue (le_lineCount_of_mem_numberedLines (List.mem_of_mem_filter member)) _ _ _

private theorem Todo.located (file : SourceFile) : Located file (Todo.textRule.check file) := by
  refine .filterMap fun line member issue reported => ?_
  simp only [Todo.checkLine, Option.bind_eq_bind, Option.bind_eq_some_iff] at reported
  obtain ⟨comment, _, reported⟩ := reported
  exact .of_ite reported (pointsInto_issue (le_lineCount_of_mem_numberedLines member) _ _ _)

private theorem NullGuard.located (file : SourceFile) :
    Located file (NullGuard.textRule.check file) := by
  refine .filterMap fun line member issue reported => ?_
  rw [NullGuard.checkLine] at reported
  exact .of_ite reported (pointsInto_issue (le_lineCount_of_mem_numberedLines member) _ _ _)

private theorem Concatenation.located_lineRule (file : SourceFile) :
    Located file (Concatenation.lineRule.check file) := by
  refine .filterMap fun line member issue reported => ?_
  rw [Concatenation.checkLine] at reported
  exact .of_ite reported (pointsInto_issue (le_lineCount_of_mem_numberedLines member) _ _ _)

private theorem Disposable.located (file : SourceFile) :
    Located file (Disposable.textRule.check file) := by
  refine .flatMap fun line member => ?_
  rw [Disposable.checkLine]
  split
  next => exact .nil
  next =>
    exact .map fun _ _ => pointsInto_issue (le_lineCount_of_mem_numberedLines member) _ _ _

private theorem Linq.located (file : SourceFile) : Located file (Linq.textRule.check file) := by
  refine .flatMap fun line member => ?_
  have bounded := le_lineCount_of_mem_numberedLines member
  rw [Linq.checkLine]
  split
  next => exact .nil
  next =>
    refine .append ?_ ?_
    · split
      next => exact .singleton (pointsInto_issue bounded _ _ _)
      next => exact .nil
    · split
      next => exact .singleton (pointsInto_issue bounded _ _ _)
      next => exact .nil

private theorem MagicNumber.located_textRule (file : SourceFile) :
    Located file (MagicNumber.textRule.check file) := by
  refine .flatMap fun line member => ?_
  rw [MagicNumber.checkLine]
  split
  next => exact .nil
  next =>
    refine .filterMap fun number _ issue reported => ?_
    simp only [MagicNumber.checkNumber, Option.bind_eq_bind, Option.bind_eq_some_iff] at reported
    obtain ⟨shown, _, reported⟩ := reported
    split at reported
    next => simp at reported
    next =>
      injection reported with reported
      subst reported
      exact pointsInto_issue (le_lineCount_of_mem_numberedLines member) _ _ _

/-! ## Rules that read masked lines -/

private theorem EmptyCatch.located_textRule (file : SourceFile) :
    Located file (EmptyCatch.textRule.check file) := by
  refine .flatMap fun line member => .map fun _ _ => ?_
  exact pointsInto_issue (succ_le_lineCount_of_mem_codeLines member) _ _ _

private theorem Nesting.located_textRule (limit : Nat) (file : SourceFile) :
    Located file ((Nesting.textRule limit).check file) := by
  refine .filterMap fun line member issue reported => ?_
  obtain ⟨⟨source, masked⟩, number⟩ := line
  have bounded : number ≤ file.lineCount := by
    obtain ⟨_, bounded, _⟩ := List.mem_zipIdx member
    rw [List.length_zip] at bounded
    have kept := Nat.min_le_left file.lines.length (Mask.codeLines file.content).length
    rw [SourceFile.lineCount]
    omega
  simp only [Nesting.checkLine] at reported
  split at reported
  next => simp at reported
  next => exact .of_ite reported (pointsInto_issue bounded _ _ _)

/-- A method of a file is declared on one of its lines. -/
theorem SourceFile.firstLine_lt_lineCount {span : MethodSpan}
    (member : span ∈ methodSpans (Mask.codeLines file.content)) :
    span.firstLine + 1 ≤ file.lineCount := by
  obtain ⟨ordered, inside⟩ := MethodSpan.bounds_of_mem_methodSpans member
  rw [Mask.length_codeLines] at inside
  exact Nat.lt_of_le_of_lt ordered inside

private theorem Complexity.located_textRule (limit : Nat) (file : SourceFile) :
    Located file ((Complexity.textRule limit).check file) := by
  refine .filterMap fun span member issue reported => ?_
  exact .of_ite reported (pointsInto_issue (firstLine_lt_lineCount member) _ _ _)

private theorem LongMethod.located_textRule (limit : Nat) (file : SourceFile) :
    Located file ((LongMethod.textRule limit).check file) := by
  refine .map fun span member => ?_
  exact pointsInto_issue (firstLine_lt_lineCount (List.mem_of_mem_filter member)) _ _ _

/-- The line that is found is not blank and not behind the end. -/
theorem Concatenation.lt_of_firstFilled? {number found : Nat} {lines : List Text}
    (filled : firstFilled? number lines = some found) : found < number + lines.length := by
  induction lines generalizing number with
  | nil => simp [firstFilled?] at filled
  | cons line rest ih =>
      rw [firstFilled?] at filled
      rw [List.length_cons]
      split at filled
      next =>
        have bounded := ih filled
        omega
      next =>
        injection filled with filled
        omega

/-- The lines of a loop body are lines of the code. -/
theorem Concatenation.lt_length_of_mem_bodyLines {code : List Text} {number bodyLine : Nat}
    {head : LoopHead} (headLine : number < code.length)
    (member : bodyLine ∈ bodyLines code number head) : bodyLine < code.length := by
  rw [bodyLines] at member
  split at member
  next span found =>
    have closes := (closeLine_bounds_of_blockSpan? found).2
    rw [List.mem_range'_1] at member
    omega
  next =>
    split at member
    next =>
      rw [Option.mem_toList] at member
      have bounded := lt_of_firstFilled? member
      rw [List.length_drop] at bounded
      omega
    next =>
      rw [List.mem_singleton] at member
      omega

private theorem Concatenation.located_loopRule (file : SourceFile) :
    Located file (Concatenation.loopRule.check file) := by
  refine .map fun number member => ?_
  have inRange := List.mem_range.mp (List.mem_of_mem_filter member)
  rw [Mask.length_codeLines] at inRange
  exact pointsInto_issue inRange _ _ _

/-! ## Rules about what follows an attribute -/

/-- The class behind an attribute is declared on one of the lines that follow. -/
theorem PatchClass.findTarget_lt {number target : Nat} {lines : List Text} {declaration : Text}
    (found : findTarget number lines = .classAt target declaration) :
    target < number + lines.length := by
  fun_induction findTarget number lines with
  | case1 => simp at found
  | case2 number line rest _ ih =>
      have bounded := ih found
      rw [List.length_cons]
      omega
  | case3 number line rest _ _ =>
      injection found with sameLine
      subst sameLine
      simp
  | case4 => simp at found
  | case5 number line rest _ _ _ ih =>
      have bounded := ih found
      rw [List.length_cons]
      omega

private theorem PatchClass.located_checkDeclaration {line : Nat} (bounded : line < file.lineCount)
    (declaration : Text) : Located file (checkDeclaration file line declaration) := by
  rw [checkDeclaration]
  split
  next => exact .nil
  next => exact .singleton (pointsInto_issue bounded _ _ _)

private theorem PatchClass.located_scan {number resume : Nat} {lines : List Text}
    (bounded : number + lines.length ≤ file.lineCount) :
    Located file (scan file number resume lines) := by
  induction lines generalizing number resume with
  | nil => exact .nil
  | cons line rest ih =>
      rw [List.length_cons] at bounded
      have later : ∀ resume, Located file (scan file (number + 1) resume rest) :=
        fun resume => ih (by omega)
      rw [scan]
      split
      next => exact later resume
      next =>
        split
        next target declaration found =>
          have reached := findTarget_lt found
          exact .append (located_checkDeclaration (by omega) declaration) (later _)
        next => exact later _
        next => exact .singleton (pointsInto_issue (by omega) _ _ _)

private theorem PatchClass.located_textRule (file : SourceFile) :
    Located file (PatchClass.textRule.check file) :=
  located_scan (by simp [SourceFile.lineCount])

/-- A stack of attributes takes lines from the front. -/
theorem PatchMethod.after_stackFrom (number : Nat) (lines : List Text) :
    (stackFrom number lines).after + (stackFrom number lines).rest.length =
      number + lines.length := by
  fun_induction stackFrom number lines with
  | case1 => rfl
  | case2 number line rest _ ih =>
      rw [ih, List.length_cons]
      omega
  | case3 number line rest _ name _ stack ih =>
      have below : stack.after + stack.rest.length = number + 1 + rest.length := ih
      rw [List.length_cons]
      show stack.after + stack.rest.length = number + (rest.length + 1)
      omega
  | case4 => rfl

/-- A signature starts on one of the lines it is gathered from, or where it was
said to start. -/
theorem PatchMethod.gatherFrom_firstLine_lt {number bound : Nat} {parts lines : List Text}
    {first? : Option Nat} {signature : Signature} (started : ∀ first ∈ first?, first < bound)
    (bounded : number + lines.length ≤ bound)
    (gathered : gatherFrom number parts first? lines = some signature) :
    signature.firstLine < bound := by
  induction lines generalizing number parts first? with
  | nil => simp [gatherFrom] at gathered
  | cons line rest ih =>
      rw [List.length_cons] at bounded
      have firstBound : first?.getD number < bound := by
        cases first? with
        | none =>
            show number < bound
            omega
        | some first => exact started first rfl
      rw [gatherFrom] at gathered
      split at gathered
      next => exact ih started (by omega) gathered
      next =>
        split at gathered
        next =>
          injection gathered with gathered
          subst gathered
          exact firstBound
        next =>
          refine ih ?_ (by omega) gathered
          intro first same
          injection same with same
          exact same ▸ firstBound

/-- The calls of a transpiler are found on masked lines of the file. -/
theorem PatchMethod.located_transpilerCalls (signatureEnd : Nat) (transpiler : Text) :
    Located file (transpilerCalls file (Mask.codeLines file.content) signatureEnd transpiler) := by
  refine .flatMap fun line member => .map fun call _ => ?_
  have inFile := List.mem_of_mem_take (List.mem_of_mem_drop member)
  exact pointsInto_issue (succ_le_lineCount_of_mem_codeLines inFile) _ _ _

private theorem PatchMethod.located_checkSignature {signature : Signature}
    (bounded : signature.firstLine < file.lineCount) (stack : Stack) :
    Located file (checkSignature file (Mask.codeLines file.content) stack signature) := by
  rw [checkSignature]
  split
  next => exact .singleton (pointsInto_issue bounded _ _ _)
  next =>
    split
    next => exact located_transpilerCalls _ _
    next => exact .nil

private theorem PatchMethod.located_scan {number resume : Nat} {lines : List Text}
    (bounded : number + lines.length ≤ file.lineCount) :
    Located file (scan file (Mask.codeLines file.content) number resume lines) := by
  induction lines generalizing number resume with
  | nil => exact .nil
  | cons line rest ih =>
      rw [List.length_cons] at bounded
      have later : ∀ resume,
          Located file (scan file (Mask.codeLines file.content) (number + 1) resume rest) :=
        fun resume => ih (by omega)
      rw [scan]
      split
      next => exact later resume
      next =>
        split
        next => exact later resume
        next role _ =>
          dsimp only
          split
          next => exact .append (.singleton (pointsInto_issue (by omega) _ _ _)) (later _)
          next signature gathered =>
            have behindStack : (stackFrom (number + 1) rest).after +
                (stackFrom (number + 1) rest).rest.length ≤ file.lineCount := by
              rw [after_stackFrom]
              omega
            have starts := gatherFrom_firstLine_lt (by simp) behindStack
              (Option.filter_eq_some_iff.mp gathered).1
            exact .append (located_checkSignature starts _) (later _)

private theorem PatchMethod.located_textRule (file : SourceFile) :
    Located file (PatchMethod.textRule.check file) :=
  located_scan (by simp [SourceFile.lineCount])

/-! ## All text rules -/

/-- The rules that stand in for the structural ones point into the file. -/
theorem Catalog.located_heuristicRules (thresholds : Thresholds) (file : SourceFile) :
    ∀ rule ∈ heuristicRules thresholds, Located file (rule.check file) := by
  simp only [heuristicRules, List.forall_mem_cons, List.not_mem_nil, false_implies, implies_true,
    and_true]
  exact ⟨PatchClass.located_textRule file, PatchMethod.located_textRule file,
    EmptyCatch.located_textRule file, MagicNumber.located_textRule file,
    Complexity.located_textRule _ file, Nesting.located_textRule _ file,
    LongMethod.located_textRule _ file⟩

/-- The rules that always run point into the file. -/
theorem Catalog.located_overlayRules (file : SourceFile) :
    ∀ rule ∈ overlayRules, Located file (rule.check file) := by
  simp only [overlayRules, List.forall_mem_cons, List.not_mem_nil, false_implies, implies_true,
    and_true]
  exact ⟨Todo.located file, NullGuard.located file, Disposable.located file,
    Concatenation.located_lineRule file, Concatenation.located_loopRule file,
    Linq.located file⟩

end PatchLint

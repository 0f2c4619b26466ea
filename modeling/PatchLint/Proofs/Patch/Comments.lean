import Mathlib.Order.Lattice.Nat
import PatchLint.Proofs.Patch.Targets
import PatchLint.Proofs.Patch.Visits

/-!
# Patches inside of comments

The rules about patches skip a line that starts as a comment does, but such a line
never holds an attribute: an attribute line starts with its bracket. A comment that
runs over several lines is not seen at all. So an attribute counts whether it is
commented out or not, and the rules stay silent exactly when everything that follows
an attribute is as it has to be.
-/

namespace PatchLint

/-! ## The test for comments -/

/-- A line with an attribute does not start as a comment does. -/
theorem isComment_of_attributeName? {line name : Text}
    (named : Line.attributeName? line = some name) : Line.isComment line = false := by
  obtain ⟨rest, bracket⟩ := PatchClass.trim_eq_cons_of_attributeName? named
  rw [Line.isComment, bracket]
  rfl

/-- The test for comments excludes no attribute of a patch class. -/
theorem PatchClass.isAttributeLine_iff {line : Text} :
    isAttributeLine line = true ↔ Line.attributeName? line = some attributeName := by
  rw [isAttributeLine, Bool.and_eq_true, beq_iff_eq, and_iff_right_iff_imp]
  intro named
  rw [isComment_of_attributeName? named]
  rfl

/-! ## Silence -/

/-- Nothing is to be said about an attribute with this target. -/
def PatchClass.Target.Fits : Target → Prop
  | .classAt _ declaration => lacking declaration = []
  | .otherAt _ => True
  | .missing => False

/-- Nothing is to be said about a method under this stack: it is private, and if it is
a transpiler, all that it calls may be called. -/
def PatchMethod.Stack.Fits (file : SourceFile) (stack : Stack) : Prop :=
  ∃ signature, stack.signature? = some signature ∧
    signature.text.hasWord "private".toList = true ∧
    (stack.isTranspiler = true → transpilerCalls file (Mask.codeLines file.content)
      signature.lastLine ((Declaration.methodName? signature.text).getD "unknown".toList) = [])

/-- Where each attribute is judged on its own, nothing is found if nothing is to be said
about any of them. -/
theorem PatchClass.Covers.findings_eq_nil_iff {file : SourceFile} {classes : List Nat}
    {orphan? : Option Nat} (covers : Covers file.lines 0 classes orphan?) :
    findings file classes orphan? = [] ↔
      ∀ number, IsAttribute file.lines number → (targetOf file.lines number).Fits := by
  have nothing : findings file classes orphan? = [] ↔ classes = [] ∧ orphan? = none := by
    cases orphan? <;> simp [findings]
  rw [nothing]
  constructor
  · rintro ⟨rfl, rfl⟩ number marked
    cases target : targetOf file.lines number with
    | classAt line declaration =>
        by_contra unfit
        have member := (covers.mem_classes line).mpr
          ⟨number, declaration, Nat.zero_le _, marked, target, unfit⟩
        simp at member
    | otherAt line => trivial
    | missing =>
        -- One of the attributes without a target would be the first of them.
        have orphans : ({number | 0 ≤ number ∧ IsAttribute file.lines number ∧
            targetOf file.lines number = .missing} : Set Nat).Nonempty :=
          ⟨number, Nat.zero_le _, marked, target⟩
        have first := (covers.orphan _).mpr ⟨Nat.sInf_mem orphans, fun _ => Nat.sInf_le⟩
        simp at first
  · intro fits
    constructor
    · refine List.eq_nil_iff_forall_not_mem.mpr fun line member => ?_
      obtain ⟨number, declaration, _, marked, target, unfit⟩ := (covers.mem_classes line).mp member
      have fit := fits number marked
      rw [target] at fit
      exact unfit fit
    · refine Option.eq_none_iff_forall_ne_some.mpr fun number first => ?_
      obtain ⟨_, marked, target⟩ := ((covers.orphan number).mp first).1
      have fit := fits number marked
      rw [target] at fit
      exact fit

private theorem PatchMethod.judge_eq_nil_iff (file : SourceFile) (number : Nat) (stack : Stack) :
    judge file number stack = [] ↔ stack.Fits file := by
  rw [judge, Stack.Fits]
  cases stack.signature? with
  | none => simp
  | some signature =>
      simp only [checkSignature, Option.some.injEq, exists_eq_left']
      cases signature.text.hasWord "private".toList <;> cases stack.isTranspiler <;> simp

/-- The rule about patch methods is silent if nothing is to be said about any stack to
which its scan comes. -/
theorem PatchMethod.check_eq_nil_iff (file : SourceFile) :
    textRule.check file = [] ↔ ∀ number stack, Visits file.lines 0 number →
      stackAt? file.lines number = some stack → stack.Fits file := by
  rw [List.eq_nil_iff_forall_not_mem]
  constructor
  · intro silent number stack visits stacked
    rw [← judge_eq_nil_iff file number, List.eq_nil_iff_forall_not_mem]
    intro issue found
    exact silent issue (mem_check_iff.mpr ⟨number, stack, visits, stacked, found⟩)
  · intro fits issue reported
    obtain ⟨number, stack, visits, stacked, found⟩ := mem_check_iff.mp reported
    rw [(judge_eq_nil_iff file number stack).mpr (fits number stack visits stacked)] at found
    simp at found

/-- An attribute counts in the rules about patches whatever comment it stands in. No
line with an attribute passes for a comment, the rule about classes is silent if and
only if each attribute of a patch class, commented out or not, stands in front of
something that fits, and the rule about methods is silent if and only if so does each
stack of attributes to which its scan comes. -/
theorem patchRules_silent_iff (file : SourceFile) :
    (∀ line name, Line.attributeName? line = some name → Line.isComment line = false) ∧
    (PatchClass.textRule.check file = [] ↔
      ∀ number line, file.lines[number]? = some line →
        Line.attributeName? line = some PatchClass.attributeName →
        (PatchClass.targetOf file.lines number).Fits) ∧
    (PatchMethod.textRule.check file = [] ↔
      ∀ number stack, PatchMethod.Visits file.lines 0 number →
        PatchMethod.stackAt? file.lines number = some stack → stack.Fits file) := by
  refine ⟨fun line name => isComment_of_attributeName?, ?_, PatchMethod.check_eq_nil_iff file⟩
  obtain ⟨classes, orphan?, covers, same⟩ := PatchClass.exists_covers_scan file 0 0 file.lines rfl
  have reported : PatchClass.textRule.check file = PatchClass.findings file classes orphan? := same
  rw [reported, covers.findings_eq_nil_iff]
  constructor
  · intro fits number line stands named
    exact fits number ⟨line, stands, PatchClass.isAttributeLine_iff.mpr named⟩
  · rintro fits number ⟨line, stands, marked⟩
    exact fits number line stands (PatchClass.isAttributeLine_iff.mp marked)

/-- Each line that holds the attribute of a patch class or one that gives a role is blank
when comments are masked. -/
def PatchesCommentedOut (file : SourceFile) : Prop :=
  ∀ line ∈ file.lines.zip (Mask.codeLines file.content),
    (Line.attributeName? line.1).any
      (PatchMethod.isOneOf ("HarmonyPatch" :: PatchMethod.roleAttributes)) = true →
    line.2.isBlankText = true

instance (file : SourceFile) : Decidable (PatchesCommentedOut file) :=
  inferInstanceAs (Decidable (∀ line ∈ file.lines.zip (Mask.codeLines file.content), _ → _))

/-- A file that is one comment over several lines, with two attributes in it. -/
def commentedPatch : SourceFile :=
  .ofText "A.cs".toList "/*\n[HarmonyPatch]\n[HarmonyPrefix]\n*/".toList

/-- Both rules report the attributes of this file, although they are commented out. -/
theorem patchRules_report_commentedPatch :
    PatchesCommentedOut commentedPatch ∧
      PatchClass.textRule.check commentedPatch = [PatchClass.noDeclaration commentedPatch 1] ∧
      PatchMethod.textRule.check commentedPatch =
        [PatchMethod.noMethod commentedPatch 3 ["HarmonyPrefix".toList]] := by
  decide

end PatchLint

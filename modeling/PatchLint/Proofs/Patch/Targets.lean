import Mathlib.Order.Bounds.Basic
import Mathlib.Tactic.SplitIfs
import PatchLint.Proofs.Text.Lines
import PatchLint.Rule.PatchClass

/-!
# Every patch attribute is judged by its own target

The scan for patch classes jumps: behind an attribute it goes on past the target,
and an attribute without a target ends it. `Covers` says what the scan should find
without jumping, from the targets of all attributes one by one. The two agree,
because a declaration is the target of every attribute between it and the
declaration before it: nothing that is jumped over has a target of its own.
-/

namespace PatchLint.PatchClass

/-! ## Targets -/

/-- The line is recognised as the declaration behind an attribute. -/
def isDeclaration (line : Text) : Bool :=
  !Line.isSkippable line && (line.hasWord "class".toList || declaresOther line)

/-- The target that a recognised line is. -/
def declared (number : Nat) (line : Text) : Target :=
  if line.hasWord "class".toList then .classAt number line else .otherAt number

/-- The line of a target. -/
def Target.line? : Target → Option Nat
  | .classAt line _ => some line
  | .otherAt line => some line
  | .missing => none

/-- The target of an attribute on this line. -/
def targetOf (lines : List Text) (number : Nat) : Target :=
  findTarget (number + 1) (lines.drop (number + 1))

private theorem line?_declared (number : Nat) (line : Text) :
    (declared number line).line? = some number := by
  rw [declared]
  split <;> rfl

/-- The search stops at the first line that is recognised. -/
theorem findTarget_cons (number : Nat) (line : Text) (rest : List Text) :
    findTarget number (line :: rest) =
      if isDeclaration line then declared number line else findTarget (number + 1) rest := by
  rw [findTarget, isDeclaration, declared]
  cases Line.isSkippable line <;> cases line.hasWord "class".toList <;>
    cases declaresOther line <;> rfl

/-- One line further on the target is the same, unless that line is the target. -/
theorem targetOf_of_getElem? {lines : List Text} {number : Nat} {line : Text}
    (next : lines[number + 1]? = some line) :
    targetOf lines number =
      if isDeclaration line then declared (number + 1) line else targetOf lines (number + 1) := by
  obtain ⟨inside, rfl⟩ := List.getElem?_eq_some_iff.mp next
  rw [targetOf, List.drop_eq_getElem_cons inside, findTarget_cons, targetOf]

private theorem targetOf_of_length_le {lines : List Text} {number : Nat}
    (last : lines.length ≤ number + 1) : targetOf lines number = .missing := by
  rw [targetOf, List.drop_eq_nil_of_le last, findTarget]

/-- What is found is a recognised line. -/
theorem findTarget_spec {number target : Nat} {lines : List Text}
    (found : (findTarget number lines).line? = some target) :
    ∃ line, number ≤ target ∧ lines[target - number]? = some line ∧ isDeclaration line = true ∧
      findTarget number lines = declared target line := by
  induction lines generalizing number with
  | nil => simp [findTarget, Target.line?] at found
  | cons line rest ih =>
      rw [findTarget_cons] at found ⊢
      split at found
      next recognised =>
        rw [line?_declared, Option.some.injEq] at found
        subst found
        exact ⟨line, Nat.le_refl _, by simp, recognised, by rw [if_pos recognised]⟩
      next other =>
        obtain ⟨declaration, behind, stands, recognised, same⟩ := ih found
        have index : target - number = target - (number + 1) + 1 := by omega
        refine ⟨declaration, by omega, ?_, recognised, by rw [if_neg other, same]⟩
        rw [index, List.getElem?_cons_succ, stands]

/-- The target of an attribute is a recognised line behind it. -/
theorem targetOf_spec {lines : List Text} {number target : Nat}
    (found : (targetOf lines number).line? = some target) :
    number < target ∧ ∃ line, lines[target]? = some line ∧ isDeclaration line = true ∧
      targetOf lines number = declared target line := by
  obtain ⟨line, behind, stands, recognised, same⟩ := findTarget_spec found
  rw [List.getElem?_drop, Nat.add_sub_of_le behind] at stands
  exact ⟨behind, line, stands, recognised, same⟩

private theorem getElem?_of_targetOf_eq_classAt {lines : List Text} {number target : Nat}
    {declaration : Text} (isClass : targetOf lines number = .classAt target declaration) :
    lines[target]? = some declaration := by
  have found : (targetOf lines number).line? = some target := by rw [isClass]; rfl
  obtain ⟨_, line, stands, _, same⟩ := targetOf_spec found
  rw [isClass, declared] at same
  split at same
  next => rw [stands, (Target.classAt.inj same).2]
  next => simp at same

/-- Up to the target of an attribute every line has this target. -/
theorem targetOf_eq_of_le_of_lt {lines : List Text} {number later target : Nat}
    (found : (targetOf lines number).line? = some target) (behind : number ≤ later)
    (ahead : later < target) : targetOf lines later = targetOf lines number := by
  induction later, behind using Nat.le_induction with
  | base => rfl
  | succ later _ ih =>
      have same := ih (by omega)
      rw [← same] at found ⊢
      obtain ⟨_, declaration, stands, _⟩ := targetOf_spec found
      obtain ⟨inside, _⟩ := List.getElem?_eq_some_iff.mp stands
      have next : lines[later + 1]? = some lines[later + 1] := List.getElem?_eq_getElem (by omega)
      rw [targetOf_of_getElem? next] at found ⊢
      split at found
      next =>
        -- The line would be the target itself.
        rw [line?_declared, Option.some.injEq] at found
        omega
      next other => rw [if_neg other]

/-- Behind an attribute without a target no line has one. -/
theorem targetOf_eq_missing_of_le {lines : List Text} {number later : Nat}
    (missing : targetOf lines number = .missing) (behind : number ≤ later) :
    targetOf lines later = .missing := by
  induction later, behind using Nat.le_induction with
  | base => exact missing
  | succ later _ ih =>
      rcases Nat.lt_or_ge (later + 1) lines.length with inside | outside
      · have next : lines[later + 1]? = some lines[later + 1] := List.getElem?_eq_getElem inside
        rw [targetOf_of_getElem? next] at ih
        split at ih
        next =>
          have line := line?_declared (later + 1) lines[later + 1]
          rw [ih] at line
          simp [Target.line?] at line
        next => exact ih
      · exact targetOf_of_length_le (by omega)

/-! ## Attributes -/

/-- A patch attribute stands on this line. -/
def IsAttribute (lines : List Text) (number : Nat) : Prop :=
  ∃ line, lines[number]? = some line ∧ isAttributeLine line = true

private theorem isAttribute_iff {lines : List Text} {number : Nat} {line : Text}
    (stands : lines[number]? = some line) :
    IsAttribute lines number ↔ isAttributeLine line = true := by
  simp [IsAttribute, stands]

/-- A line with an attribute starts with its bracket. -/
theorem trim_eq_cons_of_attributeName? {line name : Text}
    (named : Line.attributeName? line = some name) : ∃ rest, line.trim = '[' :: rest := by
  rw [Line.attributeName?] at named
  split at named
  next rest bracket => exact ⟨rest, bracket⟩
  next => simp at named

/-- An attribute is no declaration: the search for a target skips it. -/
theorem isDeclaration_of_isAttributeLine {line : Text} (marked : isAttributeLine line = true) :
    isDeclaration line = false := by
  rw [isAttributeLine, Bool.and_eq_true, beq_iff_eq] at marked
  obtain ⟨rest, bracket⟩ := trim_eq_cons_of_attributeName? marked.2
  simp [isDeclaration, Line.isSkippable, bracket, Text.startsWith]

private theorem not_isAttribute_of_line?_targetOf {lines : List Text} {number target : Nat}
    (found : (targetOf lines number).line? = some target) : ¬ IsAttribute lines target := by
  obtain ⟨_, line, stands, recognised, _⟩ := targetOf_spec found
  rw [isAttribute_iff stands]
  intro marked
  rw [isDeclaration_of_isAttributeLine marked] at recognised
  simp at recognised

/-- An attribute behind another one has the same target or stands behind that target. -/
theorem targetOf_eq_or_lt {lines : List Text} {number later target : Nat}
    (found : (targetOf lines number).line? = some target) (behind : number ≤ later)
    (marked : IsAttribute lines later) :
    targetOf lines later = targetOf lines number ∨ target < later := by
  rcases Nat.lt_trichotomy later target with ahead | rfl | past
  · exact .inl (targetOf_eq_of_le_of_lt found behind ahead)
  · exact absurd marked (not_isAttribute_of_line?_targetOf found)
  · exact .inr past

/-! ## What the attributes ask for -/

/-- The modifiers that a class declaration lacks, type arguments apart. -/
def lacking (declaration : Text) : List String :=
  ["internal", "static"].filter fun modifier =>
    !(Declaration.stripGenerics declaration.trim).hasWord modifier.toList

/-- The finding about the class on a line counted from zero. -/
def unfitClass (file : SourceFile) (line : Nat) : Issue :=
  let declaration := file.lines[line]?.getD []
  missingModifiers file (line + 1)
    ((Declaration.className? (Declaration.stripGenerics declaration.trim)).getD "unknown".toList)
    (" ".intercalate (lacking declaration))

/-- What the attributes from line `start` on ask for, each on its own: `classes` are
the lines of the classes that one of them stands in front of and that lack a
modifier, from top to bottom, and `orphan?` is the first of them without a target. -/
structure Covers (lines : List Text) (start : Nat) (classes : List Nat) (orphan? : Option Nat) :
    Prop where
  ordered : classes.Pairwise (· < ·)
  mem_classes : ∀ line, line ∈ classes ↔ ∃ number declaration, start ≤ number ∧
    IsAttribute lines number ∧ targetOf lines number = .classAt line declaration ∧
    lacking declaration ≠ []
  orphan : ∀ number, orphan? = some number ↔
    IsLeast {number | start ≤ number ∧ IsAttribute lines number ∧
      targetOf lines number = .missing} number

/-- The findings about these classes and this attribute without a target. -/
def findings (file : SourceFile) (classes : List Nat) (orphan? : Option Nat) : List Issue :=
  classes.map (unfitClass file) ++ orphan?.toList.map (noDeclaration file)

/-- The line of a target that is a class and lacks a modifier. -/
def Target.unfit : Target → List Nat
  | .classAt line declaration => if lacking declaration = [] then [] else [line]
  | _ => []

private theorem mem_unfit {target : Target} {line : Nat} :
    line ∈ target.unfit ↔
      ∃ declaration, target = .classAt line declaration ∧ lacking declaration ≠ [] := by
  cases target with
  | classAt number declaration =>
      rw [Target.unfit]
      split
      next fit => simp [fit]
      next unfit =>
        rw [List.mem_singleton]
        constructor
        · rintro rfl
          exact ⟨declaration, rfl, unfit⟩
        · rintro ⟨_, same, _⟩
          exact (Target.classAt.inj same).1.symm
  | otherAt number => simp [Target.unfit]
  | missing => simp [Target.unfit]

private theorem line?_eq_of_mem_unfit {target : Target} {line : Nat}
    (member : line ∈ target.unfit) :
    target.line? = some line := by
  obtain ⟨_, rfl, _⟩ := mem_unfit.mp member
  rfl

private theorem pairwise_unfit (target : Target) : target.unfit.Pairwise (· < ·) := by
  cases target with
  | classAt line declaration =>
      rw [Target.unfit]
      split <;> simp
  | otherAt line => exact .nil
  | missing => exact .nil

/-- The scan names the modifiers that a declaration lacks. -/
theorem missingFrom?_eq (declaration : Text) :
    missingFrom? (Declaration.stripGenerics declaration.trim) =
      if lacking declaration = [] then none else some (" ".intercalate (lacking declaration)) := by
  simp only [missingFrom?, lacking, List.filter_cons, List.filter_nil]
  cases (Declaration.stripGenerics declaration.trim).hasWord "internal".toList <;>
    cases (Declaration.stripGenerics declaration.trim).hasWord "static".toList <;> decide

private theorem checkDeclaration_eq_map_unfit {file : SourceFile} {line : Nat} {declaration : Text}
    (stands : file.lines[line]? = some declaration) :
    checkDeclaration file line declaration =
      (Target.classAt line declaration).unfit.map (unfitClass file) := by
  rw [checkDeclaration, missingFrom?_eq, Target.unfit]
  split_ifs with fit
  · rfl
  · simp [unfitClass, stands]

namespace Covers

variable {lines : List Text} {start number target : Nat} {classes : List Nat} {orphan? : Option Nat}

/-- Behind the last line there are no attributes. -/
theorem nil (behind : lines.length ≤ start) : Covers lines start [] none := by
  have none_left : ∀ number, start ≤ number → ¬ IsAttribute lines number := by
    rintro number after ⟨line, stands, _⟩
    obtain ⟨inside, _⟩ := List.getElem?_eq_some_iff.mp stands
    omega
  refine ⟨.nil, fun line => ?_, fun number => ?_⟩
  · refine iff_of_false (by simp) ?_
    rintro ⟨number, _, after, marked, _⟩
    exact none_left number after marked
  · refine iff_of_false (by simp) ?_
    rintro ⟨⟨after, marked, _⟩, _⟩
    exact none_left number after marked

/-- A line without an attribute asks for nothing. -/
theorem unmarked (covers : Covers lines (start + 1) classes orphan?)
    (other : ¬ IsAttribute lines start) : Covers lines start classes orphan? := by
  have later : ∀ number, start ≤ number ∧ IsAttribute lines number ↔
      start + 1 ≤ number ∧ IsAttribute lines number := by
    intro number
    constructor
    · rintro ⟨behind, marked⟩
      refine ⟨Nat.lt_of_le_of_ne behind ?_, marked⟩
      rintro rfl
      exact other marked
    · rintro ⟨behind, marked⟩
      exact ⟨by omega, marked⟩
  refine ⟨covers.ordered, fun line => ?_, fun number => ?_⟩
  · rw [covers.mem_classes]
    simp only [← and_assoc, later]
  · rw [covers.orphan]
    simp only [← and_assoc, later]

/-- The attributes in front of a target ask for one thing, and what is left is asked
for behind the target. -/
theorem found (covers : Covers lines (target + 1) classes orphan?)
    (marked : IsAttribute lines start)
    (target_eq : (targetOf lines start).line? = some target) :
    Covers lines start ((targetOf lines start).unfit ++ classes) orphan? := by
  have ahead := (targetOf_spec target_eq).1
  have same_or_past := fun number behind => @targetOf_eq_or_lt lines start number target
    target_eq behind
  refine ⟨?_, fun line => ?_, fun number => ?_⟩
  · refine List.pairwise_append.mpr ⟨pairwise_unfit _, covers.ordered, ?_⟩
    intro line unfit later laterUnfit
    have here := line?_eq_of_mem_unfit unfit
    rw [target_eq, Option.some.injEq] at here
    obtain ⟨number, declaration, past, _, isClass, _⟩ := (covers.mem_classes later).mp laterUnfit
    have found : (targetOf lines number).line? = some later := by rw [isClass]; rfl
    have behind := (targetOf_spec found).1
    omega
  · rw [List.mem_append, covers.mem_classes, mem_unfit]
    constructor
    · rintro (⟨declaration, isClass, unfit⟩ | ⟨number, declaration, past, rest⟩)
      · exact ⟨start, declaration, Nat.le_refl _, marked, isClass, unfit⟩
      · exact ⟨number, declaration, by omega, rest⟩
    · rintro ⟨number, declaration, behind, numberMarked, isClass, unfit⟩
      rcases same_or_past number behind numberMarked with same | past
      · exact .inl ⟨declaration, same ▸ isClass, unfit⟩
      · exact .inr ⟨number, declaration, past, numberMarked, isClass, unfit⟩
  · have orphans : {number | start ≤ number ∧ IsAttribute lines number ∧
        targetOf lines number = .missing} = {number | target + 1 ≤ number ∧
        IsAttribute lines number ∧ targetOf lines number = .missing} := by
      ext number
      constructor
      · rintro ⟨behind, numberMarked, missing⟩
        rcases same_or_past number behind numberMarked with same | past
        · rw [← same, missing] at target_eq
          simp [Target.line?] at target_eq
        · exact ⟨past, numberMarked, missing⟩
      · rintro ⟨past, rest⟩
        exact ⟨by omega, rest⟩
    rw [covers.orphan, orphans]

/-- The first attribute without a target is the last that asks for anything. -/
theorem missing (marked : IsAttribute lines start) (missing : targetOf lines start = .missing) :
    Covers lines start [] (some start) := by
  refine ⟨.nil, fun line => ?_, fun number => ?_⟩
  · refine iff_of_false (by simp) ?_
    rintro ⟨number, declaration, behind, _, isClass, _⟩
    rw [targetOf_eq_missing_of_le missing behind] at isClass
    simp at isClass
  · have least : IsLeast {number | start ≤ number ∧ IsAttribute lines number ∧
        targetOf lines number = .missing} start :=
      ⟨⟨Nat.le_refl _, marked, missing⟩, fun number member => member.1⟩
    rw [Option.some.injEq]
    constructor
    · rintro rfl
      exact least
    · intro otherLeast
      exact least.unique otherLeast

end Covers

/-! ## The scan -/

/-- Wherever the scan stands, it finds what the attributes from there on ask for. -/
theorem exists_covers_scan (file : SourceFile) (number resume : Nat) (rest : List Text)
    (left : file.lines.drop number = rest) :
    ∃ classes orphan?, Covers file.lines (max number resume) classes orphan? ∧
      scan file number resume rest = findings file classes orphan? := by
  induction rest generalizing number resume with
  | nil =>
      have behind := List.drop_eq_nil_iff.mp left
      exact ⟨[], none, .nil (by omega), rfl⟩
  | cons line rest ih =>
      obtain ⟨stands, restLeft⟩ := Text.getElem?_of_drop_eq_cons left
      have target : targetOf file.lines number = findTarget (number + 1) rest := by
        rw [targetOf, restLeft]
      rw [scan]
      split
      next passed =>
        rw [Bool.or_eq_true, decide_eq_true_eq, Bool.not_eq_true', ← Bool.not_eq_true] at passed
        obtain ⟨classes, orphan?, covers, same⟩ := ih (number + 1) resume restLeft
        refine ⟨classes, orphan?, ?_, same⟩
        rcases Nat.lt_or_ge number resume with skipped | reached
        · rwa [Nat.max_eq_right (by omega)] at covers ⊢
        · rw [Nat.max_eq_left (by omega)] at covers ⊢
          have other := passed.resolve_left (by omega)
          rw [← isAttribute_iff stands] at other
          exact covers.unmarked other
      next seen =>
        simp only [Bool.or_eq_true, decide_eq_true_eq, Bool.not_eq_true', not_or, Nat.not_lt,
          Bool.not_eq_false] at seen
        have marked := (isAttribute_iff stands).mpr seen.2
        rw [Nat.max_eq_left seen.1]
        -- Behind a target the scan finds what is asked for there.
        have onward : ∀ line, (targetOf file.lines number).line? = some line →
            ∃ classes orphan?,
              Covers file.lines number ((targetOf file.lines number).unfit ++ classes) orphan? ∧
              scan file (number + 1) (line + 1) rest = findings file classes orphan? := by
          intro line line?_eq
          obtain ⟨classes, orphan?, covers, same⟩ := ih (number + 1) (line + 1) restLeft
          have ahead := (targetOf_spec line?_eq).1
          rw [Nat.max_eq_right (by omega)] at covers
          exact ⟨classes, orphan?, covers.found marked line?_eq, same⟩
        rw [← target]
        split
        next line declaration isClass =>
          obtain ⟨classes, orphan?, covers, same⟩ := onward line (by rw [isClass]; rfl)
          refine ⟨_, orphan?, covers, ?_⟩
          rw [checkDeclaration_eq_map_unfit (getElem?_of_targetOf_eq_classAt isClass), same,
            isClass, findings, findings, List.map_append, List.append_assoc]
        next line isOther =>
          obtain ⟨classes, orphan?, covers, same⟩ := onward line (by rw [isOther]; rfl)
          refine ⟨_, orphan?, covers, ?_⟩
          rw [same, isOther]
          rfl
        next isMissing => exact ⟨[], some number, .missing marked isMissing, rfl⟩

/-- The rule about patch classes finds what its attributes ask for, each on its own.
Of the classes that an attribute stands in front of it reports each one that lacks
`internal` or `static`, once and from top to bottom. Then, if an attribute stands in
front of nothing that can be recognised, it reports the first of these, and nothing
else. -/
theorem textRule_covers (file : SourceFile) :
    ∃ classes orphan?, Covers file.lines 0 classes orphan? ∧
      textRule.check file = findings file classes orphan? :=
  exists_covers_scan file 0 0 file.lines rfl

/-- A modifier among the type arguments of a class is none of the class. -/
example :
    textRule.check
        (.ofText "A.cs".toList "[HarmonyPatch]\nstatic class Box<Set<internal>>".toList) =
      [⟨"A.cs", 2, .error, "BCS050", "Class 'Box' with [HarmonyPatch] attribute must be " ++
        "declared as 'internal static' (currently missing: internal)"⟩] := by
  decide +kernel

end PatchLint.PatchClass

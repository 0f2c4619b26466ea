import Mathlib.Algebra.Group.Nat.Defs
import Mathlib.Data.List.Basic
import PatchLint.Rule.MagicNumber

/-!
# Spellings of an integer

A number has many spellings as an integer literal: in three bases, with letters in either case,
with separators between the digits and with a type behind them. `Spells` lists them by their
shape, without reading anything. Reading undoes all of it in sequence, and the value comes
through if it fits: first the digits of a numeral, then the type behind it, then the mark of
the base in front.
-/

namespace PatchLint

namespace Literal

variable {base value digit : Nat} {c : Char} {text digits type literal : Text}

/-! ## Spellings -/

/-- The character is the digit of this value, in lower case or in upper case. -/
structure IsDigit (base : Nat) (c : Char) (value : Nat) : Prop where
  below : value < base
  spelled : c = Nat.digitChar value ∨ c = (Nat.digitChar value).toUpper

/-- Digits of a base with any number of separators between them. -/
inductive Numeral (base : Nat) : Nat → Text → Prop where
  | single {c : Char} {digit : Nat} (isDigit : IsDigit base c digit) : Numeral base digit [c]
  | more {value digit : Nat} {text : Text} {c : Char} (front : Numeral base value text)
      (separators : Nat) (isDigit : IsDigit base c digit) :
      Numeral base (value * base + digit) (text ++ (List.replicate separators '_' ++ [c]))

/-- The letters of a type behind a number. -/
def IsType (type : Text) : Prop :=
  ∀ c ∈ type, c ∈ ['u', 'U', 'l', 'L']

instance (type : Text) : Decidable (IsType type) :=
  decidable_of_iff (type.Forall (· ∈ ['u', 'U', 'l', 'L'])) List.forall_iff_forall_mem

/-- The literal is a spelling of the value. -/
inductive Spells : Text → Nat → Prop where
  | decimal {value : Nat} {digits type : Text} (numeral : Numeral 10 value digits)
      (isType : IsType type) : Spells (digits ++ type) value
  | hexadecimal {value : Nat} {digits type : Text} {mark : Char} (isMark : mark ∈ ['x', 'X'])
      (separators : Nat) (numeral : Numeral 16 value digits) (isType : IsType type) :
      Spells ('0' :: mark :: (List.replicate separators '_' ++ (digits ++ type))) value
  | binary {value : Nat} {digits type : Text} {mark : Char} (isMark : mark ∈ ['b', 'B'])
      (separators : Nat) (numeral : Numeral 2 value digits) (isType : IsType type) :
      Spells ('0' :: mark :: (List.replicate separators '_' ++ (digits ++ type))) value

/-! ## Reading digits -/

private theorem normalize_append (front back : Text) :
    normalize (front ++ back) = normalize front ++ normalize back := by
  rw [normalize, List.filter_append, List.map_append, normalize, normalize]

private theorem normalize_cons (c : Char) (rest : Text) :
    normalize (c :: rest) = normalize [c] ++ normalize rest :=
  normalize_append [c] rest

private theorem normalize_replicate (separators : Nat) :
    normalize (List.replicate separators '_') = [] := by
  induction separators with
  | zero => rfl
  | succ separators ih => rw [List.replicate_succ, normalize_cons, ih]; rfl

/-- Digits as reading sees them: in lower case and without separators. -/
structure Reads (base value : Nat) (digits : Text) : Prop where
  notEmpty : digits ≠ []
  lower : ∀ c ∈ digits, ∃ digit < base, c = Nat.digitChar digit
  read : readDigits? base 0 digits = some value

private theorem digitValue?_digitChar : ∀ base ≤ 16, ∀ digit < base,
    digitValue? base (Nat.digitChar digit) = some digit := by
  decide

private theorem normalize_digitChar : ∀ digit < 16,
    normalize [Nat.digitChar digit] = [Nat.digitChar digit] ∧
      normalize [(Nat.digitChar digit).toUpper] = [Nat.digitChar digit] := by
  decide

private theorem IsDigit.normalize_eq (isDigit : IsDigit base c digit) (small : base ≤ 16) :
    normalize [c] = [Nat.digitChar digit] := by
  obtain ⟨lower, upper⟩ := normalize_digitChar digit (Nat.lt_of_lt_of_le isDigit.below small)
  rcases isDigit.spelled with rfl | rfl
  · exact lower
  · exact upper

/-- What is left of a numeral is read as its value. -/
theorem Numeral.reads (numeral : Numeral base value text) (small : base ≤ 16) :
    Reads base value (normalize text) := by
  induction numeral with
  | @single c digit isDigit =>
      rw [isDigit.normalize_eq small]
      refine ⟨by simp, by simpa using ⟨digit, isDigit.below, rfl⟩, ?_⟩
      simp [readDigits?, digitValue?_digitChar base small digit isDigit.below]
  | @more value digit text c front separators isDigit ih =>
      rw [normalize_append, normalize_append, normalize_replicate, List.nil_append,
        isDigit.normalize_eq small]
      refine ⟨by simp, ?_, ?_⟩
      · rw [List.forall_mem_append, List.forall_mem_singleton]
        exact ⟨ih.lower, digit, isDigit.below, rfl⟩
      · rw [readDigits?_append, ih.read, Option.bind_some]
        simp [readDigits?, digitValue?_digitChar base small digit isDigit.below]

/-! ## Reading around the digits -/

/-- The letters that end a literal. -/
def endsLiteral (c : Char) : Bool :=
  c == 'u' || c == 'l'

private theorem IsType.endsLiteral_normalize (isType : IsType type) :
    ∀ c ∈ normalize type, endsLiteral c = true := by
  have lower : ∀ c ∈ ['u', 'U', 'l', 'L'], endsLiteral c.toLower = true :=
    List.forall_iff_forall_mem.mp (by decide)
  intro c member
  obtain ⟨d, kept, rfl⟩ := List.mem_map.mp member
  exact lower d (isType d (List.mem_of_mem_filter kept))

private theorem dropSuffix_append {isSuffix : Char → Bool} {front back : Text} {last : Char}
    (ends : ∀ c ∈ back, isSuffix c = true) (stays : isSuffix last = false) :
    dropSuffix isSuffix (front ++ last :: back) = front ++ [last] := by
  have reversed : (front ++ last :: back).reverse = back.reverse ++ last :: front.reverse := by
    simp
  rw [dropSuffix, reversed, List.dropWhile_append_of_pos fun c member =>
      ends c (List.mem_reverse.mp member),
    List.dropWhile_cons_of_neg (by simp [stays])]
  simp

private theorem digitChar_not_mem : ∀ digit < 16,
    endsLiteral (Nat.digitChar digit) = false ∧ Nat.digitChar digit ∉ ['+', '-'] := by
  decide

/-- The type behind the digits goes, and all digits stay. -/
theorem Reads.dropSuffix_eq (reads : Reads base value digits) (small : base ≤ 16)
    (isType : IsType type) (front : Text) :
    dropSuffix endsLiteral (front ++ (digits ++ normalize type)) = front ++ digits := by
  obtain ⟨init, last, rfl⟩ := (List.eq_nil_or_concat' digits).resolve_left reads.notEmpty
  obtain ⟨digit, below, rfl⟩ := reads.lower last (by simp)
  have stays := (digitChar_not_mem digit (Nat.lt_of_lt_of_le below small)).1
  have dropped : dropSuffix endsLiteral ((front ++ init) ++ Nat.digitChar digit :: normalize type) =
      (front ++ init) ++ [Nat.digitChar digit] :=
    dropSuffix_append isType.endsLiteral_normalize stays
  simpa using dropped

private theorem readInt?_of_unsigned (unsigned : c ∉ ['+', '-']) (rest : Text)
    (read : readNat? base (c :: rest) = some value) :
    readInt? base (c :: rest) = some (value : Int) := by
  unfold readInt?
  split
  next minus => simp_all
  next plus => simp_all
  next => rw [read]; rfl

/-- A number is between the bounds of a signed integer if it is below the upper one. -/
theorem fits_iff (bits : Nat) :
    -Int.pow 2 bits ≤ (value : Int) ∧ (value : Int) < Int.pow 2 bits ↔ value < 2 ^ bits := by
  have power : Int.pow 2 bits = ((2 ^ bits : Nat) : Int) := (Int.natCast_pow 2 bits).symm
  rw [power]
  omega

/-- Digits are read as their value if it fits 128 bits. -/
theorem Reads.readSigned?_eq (reads : Reads base value digits) (small : base ≤ 16) :
    readSigned? base digits = if value < 2 ^ 127 then some (value : Int) else none := by
  obtain ⟨c, rest, rfl⟩ := List.exists_cons_of_ne_nil reads.notEmpty
  obtain ⟨digit, below, rfl⟩ := reads.lower c List.mem_cons_self
  have unsigned := (digitChar_not_mem digit (Nat.lt_of_lt_of_le below small)).2
  rw [readSigned?, readInt?_of_unsigned unsigned rest reads.read, Option.bind_eq_bind,
    Option.bind_some]
  exact if_congr (fits_iff 127) rfl rfl

private theorem readInteger?_eq (literal : Text) :
    readInteger? literal =
      match dropSuffix endsLiteral (normalize literal) with
      | '0' :: 'x' :: digits => readSigned? 16 digits
      | '0' :: 'b' :: digits => readSigned? 2 digits
      | digits => readSigned? 10 digits := rfl

/-- Of a literal with the mark of a base the mark and the digits are left. -/
theorem Numeral.dropSuffix_marked (numeral : Numeral base value digits) (small : base ≤ 16)
    (isType : IsType type) {mark lower : Char} (isMark : mark.toLower = lower)
    (noSeparator : mark ≠ '_') (separators : Nat) :
    dropSuffix endsLiteral
        (normalize ('0' :: mark :: (List.replicate separators '_' ++ (digits ++ type)))) =
      '0' :: lower :: normalize digits := by
  have marked : normalize ['0', mark] = ['0', lower] := by
    simp [normalize, noSeparator, isMark]
  have split : normalize (['0', mark] ++ (List.replicate separators '_' ++ (digits ++ type))) =
      ['0', lower] ++ (normalize digits ++ normalize type) := by
    rw [normalize_append ['0', mark], normalize_append, normalize_replicate, List.nil_append,
      normalize_append digits, marked]
  exact (congrArg (dropSuffix endsLiteral) split).trans
    ((numeral.reads small).dropSuffix_eq small isType ['0', lower])

/-- Every spelling of a value is read as the value, if it fits. -/
theorem Spells.readInteger?_eq (spells : Spells literal value) :
    readInteger? literal = if value < 2 ^ 127 then some (value : Int) else none := by
  rw [Literal.readInteger?_eq]
  cases spells with
  | @decimal _ digits type numeral isType =>
      have reads := numeral.reads (by decide)
      have dropped := reads.dropSuffix_eq (by decide) isType []
      have unmarked : ∀ digit < 10, Nat.digitChar digit ∉ ['x', 'b'] := by decide
      rw [List.nil_append, List.nil_append, ← normalize_append] at dropped
      rw [dropped, ← reads.readSigned?_eq (by decide)]
      -- A digit is never taken for the mark of a base.
      split
      next rest marked =>
        obtain ⟨digit, below, same⟩ := reads.lower 'x' (by simp [marked])
        exact absurd (same ▸ by simp) (unmarked digit below)
      next rest marked =>
        obtain ⟨digit, below, same⟩ := reads.lower 'b' (by simp [marked])
        exact absurd (same ▸ by simp) (unmarked digit below)
      next => rfl
  | @hexadecimal _ digits type mark isMark separators numeral isType =>
      have isLower : ∀ mark ∈ ['x', 'X'], mark.toLower = 'x' ∧ mark ≠ '_' :=
        List.forall_iff_forall_mem.mp (by decide)
      obtain ⟨lower, noSeparator⟩ := isLower mark isMark
      rw [numeral.dropSuffix_marked (by decide) isType lower noSeparator]
      exact (numeral.reads (by decide)).readSigned?_eq (by decide)
  | @binary _ digits type mark isMark separators numeral isType =>
      have isLower : ∀ mark ∈ ['b', 'B'], mark.toLower = 'b' ∧ mark ≠ '_' :=
        List.forall_iff_forall_mem.mp (by decide)
      obtain ⟨lower, noSeparator⟩ := isLower mark isMark
      rw [numeral.dropSuffix_marked (by decide) isType lower noSeparator]
      exact (numeral.reads (by decide)).readSigned?_eq (by decide)

end Literal

namespace MagicNumber

open Literal

variable {literal : Text} {value : Nat} {file : SourceFile} {focus : Focus}

/-! ## What is reported -/

/-- The integers that get a finding: the great ones that fit 128 bits and are not common. -/
def IsReported (value : Nat) : Prop :=
  100 ≤ value ∧ value < 2 ^ 127 ∧ value ∉ [100, 1000, 1024]

instance (value : Nat) : Decidable (IsReported value) :=
  inferInstanceAs (Decidable (_ ∧ _ ∧ _))

private theorem isMagicInteger_iff (value : Nat) :
    isMagicInteger (value : Int) = true ↔ 100 ≤ value ∧ value ∉ [100, 1000, 1024] := by
  simp only [isMagicInteger, acceptableIntegers, Int.natAbs_natCast, List.contains_eq_mem,
    List.mem_cons, List.not_mem_nil, or_false, Bool.and_eq_true, Bool.not_eq_true',
    decide_eq_true_eq, decide_eq_false_iff_not]
  omega

/-- A literal is shown in decimal however it is spelled. -/
theorem shownLiteral?_of_spells (spells : Spells literal value) :
    shownLiteral? "integer_literal" literal =
      if IsReported value then some (toString value) else none := by
  rw [shownLiteral?, if_pos (by decide), spells.readInteger?_eq]
  by_cases fits : value < 2 ^ 127
  · rw [if_pos fits]
    refine if_congr ?_ rfl rfl
    rw [isMagicInteger_iff, IsReported]
    tauto
  · rw [if_neg fits, if_neg fun reported => fits reported.2.1]
    rfl

/-- The literal belongs to the declaration of a constant or stands near an identifier. -/
def isExempt (file : SourceFile) (focus : Focus) : Bool :=
  let line := (file.line? (focus.node.line file.content)).getD []
  let range := columns file.content line focus.node
  focus.inConstDeclaration file.content || inGuidContext line range.1 range.2

/-- A literal that nothing exempts is judged by what is shown of it. -/
theorem checkLiteral_of_not_isExempt (written : focus.node.text? file.content = some literal)
    (judged : isExempt file focus = false) :
    checkLiteral file focus =
      (shownLiteral? focus.node.kind literal).map
        (finding file (focus.node.line file.content)) := by
  rw [checkLiteral, written, Option.bind_eq_bind, Option.bind_some]
  cases shownLiteral? focus.node.kind literal with
  | none => rfl
  | some shown => exact if_neg (Bool.eq_false_iff.mp judged)

/-- The findings about the literals of a part of a tree. -/
def findings (file : SourceFile) (focuses : List Focus) : List Issue :=
  (focuses.filter fun focus => isLiteral focus.node).filterMap (checkLiteral file)

private theorem findings_append (file : SourceFile) (front back : List Focus) :
    findings file (front ++ back) = findings file front ++ findings file back := by
  rw [findings, List.filter_append, List.filterMap_append, findings, findings]

private theorem findings_singleton (isInteger : focus.node.kind = "integer_literal")
    (written : focus.node.text? file.content = some literal)
    (judged : isExempt file focus = false) (spells : Spells literal value) :
    findings file [focus] =
      if IsReported value then [finding file (focus.node.line file.content) (toString value)]
      else [] := by
  have kept : isLiteral focus.node = true := by rw [isLiteral, isInteger]; decide
  have alone : findings file [focus] = (checkLiteral file focus).toList := by
    rw [findings, List.filter_singleton, kept, cond_true, List.filterMap_cons, List.filterMap_nil]
    cases checkLiteral file focus <;> rfl
  rw [alone, checkLiteral_of_not_isExempt written judged, isInteger,
    shownLiteral?_of_spells spells]
  split <;> rfl

/-- An integer literal is judged by its value. Every spelling of a value is read as the value,
if it fits; and of a literal that nothing exempts the rule adds one finding that shows the value
in decimal, or none, to its findings about the rest of the tree. -/
theorem integer_judged_by_value (spells : Spells literal value) :
    readInteger? literal = (if value < 2 ^ 127 then some (value : Int) else none) ∧
    ∀ file tree front focus back, (Focus.root tree).descendants = front ++ focus :: back →
      focus.node.kind = "integer_literal" → focus.node.text? file.content = some literal →
      isExempt file focus = false →
      treeRule.check file tree =
        findings file front ++
          (if IsReported value then [finding file (focus.node.line file.content) (toString value)]
           else []) ++
          findings file back := by
  refine ⟨spells.readInteger?_eq, ?_⟩
  intro file tree front focus back visited isInteger written judged
  have checked : treeRule.check file tree = findings file (Focus.root tree).descendants := rfl
  rw [checked, visited, ← List.singleton_append, ← List.append_assoc, findings_append,
    findings_append, findings_singleton isInteger written judged spells]

/-- The literal in `masked`. -/
def mask : Node :=
  ⟨"integer_literal", true, 4, 12, some "right", []⟩

/-- The tree of `masked`. -/
def masking : Node :=
  ⟨"assignment_expression", true, 0, 12, none,
    [⟨"identifier", true, 0, 1, some "left", []⟩, ⟨"=", false, 2, 3, none, []⟩, mask]⟩

/-- A line with a hexadecimal number that has a separator and a type. -/
def masked : SourceFile :=
  .ofText "Mask.cs".toList "x = 0xF_FFuL;".toList

/-- A hexadecimal number with a separator and a type is reported in decimal. -/
theorem integer_judged_by_value_hexadecimal :
    Spells "0xF_FFuL".toList 4095 ∧
      treeRule.check masked masking = [⟨"Mask.cs", 1, .warning, "BCW012",
        "Magic number '4095' - consider using a named constant"⟩] := by
  have isF : IsDigit 16 'F' 15 := ⟨by decide, .inr (by decide)⟩
  have numeral : Numeral 16 4095 "F_FF".toList := .more (.more (.single isF) 1 isF) 0 isF
  have isType : IsType "uL".toList := by decide
  have spells : Spells "0xF_FFuL".toList 4095 := .hexadecimal List.mem_cons_self 0 numeral isType
  have visited : (Focus.root masking).descendants =
      [.root masking, ⟨⟨"identifier", true, 0, 1, some "left", []⟩, [masking]⟩,
        ⟨⟨"=", false, 2, 3, none, []⟩, [masking]⟩] ++ ⟨mask, [masking]⟩ :: [] := by
    simp [Focus.descendants, Focus.visit, Focus.children, Focus.root, masking, mask]
  have checked := (integer_judged_by_value spells).2 masked masking _ _ _ visited rfl
    (by decide) (by decide)
  rw [if_pos (by decide)] at checked
  exact ⟨spells, checked⟩

end MagicNumber
end PatchLint

import Mathlib.Data.List.Forall2
import PatchLint.Proofs.Mask.Rules
import PatchLint.Proofs.Text.Lines
import PatchLint.Rule.Complexity
import PatchLint.Rule.EmptyCatch
import PatchLint.Rule.LongMethod

/-!
# Masking is a projection

Masking keeps every line and every position, and each character is kept or
becomes a space. Masking what is already masked changes nothing, although the
second run goes through other modes than the first: where the first run reads a
comment, the second one reads spaces in code. The rules that count braces see
masked lines only, so they cannot tell a text from its masked form.
-/

namespace PatchLint.Mask

/-- Each character of `masked` is the one of `source` at its place, or a space. -/
def Blanked (source masked : Text) : Prop :=
  List.Forall₂ (fun original shown => shown = original ∨ shown = ' ') source masked

/-- A source text with its comments and the contents of its literals blanked. -/
def maskedText (content : Text) : Text :=
  Text.joinLines (codeLines content)

namespace Blanked

/-- A text stays blanked behind a character that is kept. -/
theorem cons_same {source masked : Text} (c : Char) (rest : Blanked source masked) :
    Blanked (c :: source) (c :: masked) :=
  .cons (.inl rfl) rest

private theorem cons_space {source masked : Text} (c : Char) (rest : Blanked source masked) :
    Blanked (c :: source) (' ' :: masked) :=
  .cons (.inr rfl) rest

private theorem replicate (source : Text) : Blanked source (List.replicate source.length ' ') := by
  induction source with
  | nil => exact .nil
  | cons c rest ih => exact ih.cons_space c

/-- What a masked text starts with, it already started with, spaces apart. -/
theorem head?_ne {source masked : Text} {c : Char} (blanked : Blanked source masked)
    (notSpace : c ≠ ' ') (differs : source.head? ≠ some c) : masked.head? ≠ some c := by
  cases blanked with
  | nil => exact differs
  | cons kept _ =>
      rcases kept with rfl | rfl
      · exact differs
      · simpa using Ne.symm notSpace

/-- Masking brings no character into a text but spaces. -/
theorem not_mem {source masked : Text} {c : Char} (blanked : Blanked source masked)
    (notSpace : c ≠ ' ') (absent : c ∉ source) : c ∉ masked := by
  induction blanked with
  | nil => simp
  | cons kept _ ih =>
      rw [List.mem_cons, not_or] at absent ⊢
      refine ⟨?_, ih absent.2⟩
      rcases kept with rfl | rfl
      · exact absent.1
      · exact notSpace

/-- The same of several lines. -/
theorem not_mem_lines {sources maskeds : List Text} {c : Char}
    (blanked : List.Forall₂ Blanked sources maskeds) (notSpace : c ≠ ' ')
    (absent : ∀ source ∈ sources, c ∉ source) : ∀ masked ∈ maskeds, c ∉ masked := by
  induction blanked with
  | nil => simp
  | cons first _ ih =>
      rw [List.forall_mem_cons] at absent ⊢
      exact ⟨first.not_mem notSpace absent.1, ih absent.2⟩

end Blanked

/-- Every rule keeps a character or blanks it. -/
theorem Masked.blanked {mode last : Mode} {before line out : Text}
    (masked : Masked mode before line out last) : Blanked line out := by
  induction masked with
  | done => exact .nil
  | lineComment rest => exact .replicate ('/' :: '/' :: rest)
  | openComment _ ih => exact (ih.cons_space _).cons_space _
  | openQuote _ ih => exact ih.cons_same _
  | openCharacter _ ih => exact ih.cons_same _
  | code c _ _ ih => exact ih.cons_same c
  | closeComment _ ih => exact (ih.cons_space _).cons_space _
  | comment c _ _ ih => exact ih.cons_space c
  | doubledQuote _ ih => exact (ih.cons_space _).cons_space _
  | closeVerbatim _ _ ih => exact ih.cons_same _
  | verbatim c _ _ ih => exact ih.cons_space c
  | escape _ c _ ih => exact (ih.cons_space _).cons_space _
  | closeLiteral _ _ ih => exact ih.cons_same _
  | literal _ c _ _ _ ih => exact ih.cons_space c

private theorem blanked_maskLine (mode : Mode) (line : Text) :
    Blanked line (maskLine mode line).1 :=
  (masked_maskFrom mode [] line).blanked

/-- Masked lines are the source lines, one by one. -/
theorem blanked_maskLines (mode : Mode) (lines : List Text) :
    List.Forall₂ Blanked lines (maskLines mode lines) := by
  induction lines generalizing mode with
  | nil => exact .nil
  | cons line rest ih => exact .cons (blanked_maskLine mode line) (ih _)

/-- Each line of code is the line of the text with some characters blanked. -/
theorem blanked_codeLines (content : Text) :
    List.Forall₂ Blanked content.lines (codeLines content) :=
  blanked_maskLines .code content.lines

/-- Masking neither adds nor drops a line. -/
theorem length_codeLines (content : Text) : (codeLines content).length = content.lines.length :=
  (blanked_codeLines content).length_eq.symm

/-! ## The second run -/

/-- The mode of the second run where the first one is in `mode`: nothing is left
of a comment, so its place is code. -/
def Mode.unmasked : Mode → Mode
  | .blockComment => .code
  | mode => mode

@[simp] private theorem Mode.unmasked_nextLine (mode : Mode) :
    mode.unmasked.nextLine = mode.nextLine.unmasked := by
  cases mode <;> rfl

private theorem Mode.Escapes.unmasked_eq {mode : Mode} (escapes : mode.Escapes) :
    mode.unmasked = mode := by
  rcases escapes with rfl | rfl <;> rfl

/-- Two runs in code will open the same kinds of strings: an at sign comes last
in both or in neither, and so does an at sign with a dollar sign. -/
structure SameOpening (first second : Text) : Prop where
  opens : opensVerbatim first = opensVerbatim second
  atSign : first.head? = some '@' ↔ second.head? = some '@'

/-- Behind the same character the two runs stay alike. -/
theorem SameOpening.cons {first second : Text} (same : SameOpening first second) (c : Char) :
    SameOpening (c :: first) (c :: second) := by
  have atSign : (first.head? == some '@') = (second.head? == some '@') := by
    rw [Bool.eq_iff_iff, beq_iff_eq, beq_iff_eq]
    exact same.atSign
  exact ⟨by rw [opensVerbatim_cons, opensVerbatim_cons, atSign], by simp⟩

/-- Behind the end of a comment no verbatim string opens. -/
theorem SameOpening.comment (first second : Text) :
    SameOpening ('/' :: first) (' ' :: second) :=
  ⟨by simp [opensVerbatim_cons], by simp⟩

/-- Behind the end of a literal no verbatim string opens. -/
theorem SameOpening.literal {c : Char} (quote : c = '"' ∨ c = '\'') (first second : Text) :
    SameOpening (c :: first) (c :: second) := by
  rcases quote with rfl | rfl <;> exact ⟨by simp [opensVerbatim_cons], by simp⟩

/-- Spaces are code that stands for itself. -/
theorem Masked.space {before line out : Text} {last : Mode}
    (later : Masked .code (' ' :: before) line out last) :
    Masked .code before (' ' :: line) (' ' :: out) last :=
  .code ' ' ⟨by decide, by decide, fun slash => absurd slash (by decide)⟩ later

private theorem Masked.spaces (before : Text) (count : Nat) :
    Masked .code before (List.replicate count ' ') (List.replicate count ' ') .code := by
  induction count generalizing before with
  | zero => exact .done
  | succ count ih => exact (ih _).space

/-- Spaces in a literal stay spaces. -/
theorem Masked.literalSpace {mode last : Mode} {before line out : Text} (escapes : mode.Escapes)
    (later : Masked mode (' ' :: before) line out last) :
    Masked mode before (' ' :: line) (' ' :: out) last := by
  refine .literal escapes ' ' ?_ (fun backslash => absurd backslash (by decide)) later
  rcases escapes with rfl | rfl <;> decide

/-- The second run over a line does what the first one left for it. In code it
has to know that it will open the same strings. -/
theorem Masked.again {mode last : Mode} {before line out : Text}
    (masked : Masked mode before line out last) (second : Text)
    (same : mode = .code → SameOpening before second) :
    Masked mode.unmasked second out out last.unmasked := by
  induction masked generalizing second with
  | done => exact .done
  | lineComment rest => exact .spaces second _
  | openComment _ ih =>
      have later := ih (' ' :: ' ' :: second) (by simp)
      exact later.space.space
  | @openQuote before _ _ _ _ ih =>
      have opens := (same rfl).opens
      refine .openQuote ?_
      rw [← opens]
      have later := ih ('"' :: second) fun _ => (same rfl).cons '"'
      cases verbatim : opensVerbatim before <;> rw [verbatim] at later <;> exact later
  | openCharacter _ ih => exact .openCharacter (ih _ fun _ => (same rfl).cons _)
  | code c plain later ih =>
      refine .code c ⟨plain.notQuote, plain.notApostrophe, fun slash => ⟨?_, ?_⟩⟩
        (ih _ fun _ => (same rfl).cons c)
      · exact later.blanked.head?_ne (by decide) (plain.opensNothing slash).1
      · exact later.blanked.head?_ne (by decide) (plain.opensNothing slash).2
  | closeComment _ ih =>
      have later := ih (' ' :: ' ' :: second) fun _ => .comment _ _
      exact later.space.space
  | comment c _ _ ih =>
      have later := ih (' ' :: second) (by simp)
      exact later.space
  | doubledQuote _ ih =>
      have later := ih (' ' :: ' ' :: second) (by simp)
      exact (later.verbatim ' ' (by decide)).verbatim ' ' (by decide)
  | closeVerbatim single later ih =>
      refine .closeVerbatim (later.blanked.head?_ne (by decide) single) (ih _ fun _ => ?_)
      exact .literal (.inl rfl) _ _
  | verbatim c _ _ ih =>
      have later := ih (' ' :: second) (by simp)
      exact later.verbatim ' ' (by decide)
  | escape escapes c _ ih =>
      have later := ih (' ' :: ' ' :: second) fun code => (escapes.ne_code code).elim
      rw [escapes.unmasked_eq] at later ⊢
      exact .literalSpace escapes (.literalSpace escapes later)
  | closeLiteral escapes _ ih =>
      rw [escapes.unmasked_eq]
      exact .closeLiteral escapes (ih _ fun _ => .literal (Mode.Escapes.delimiter_eq escapes) _ _)
  | literal escapes c _ _ _ ih =>
      have later := ih (' ' :: second) fun code => (escapes.ne_code code).elim
      rw [escapes.unmasked_eq] at later ⊢
      exact .literalSpace escapes later

private theorem maskLines_again (mode : Mode) (lines : List Text) :
    maskLines mode.unmasked (maskLines mode lines) = maskLines mode lines := by
  induction lines generalizing mode with
  | nil => rfl
  | cons line rest ih =>
      -- Both runs start the line with nothing before them.
      have again := ((masked_maskFrom mode [] line).again [] fun _ => ⟨rfl, .rfl⟩).eq
      simp only [maskLines, maskLine, again, Mode.unmasked_nextLine, ih]

private theorem codeLines_ne_nil (content : Text) : codeLines content ≠ [] := by
  intro empty
  have lengths := length_codeLines content
  rw [empty, Text.length_lines] at lengths
  simp at lengths

/-- The masked lines are the lines of the masked text. -/
theorem lines_maskedText (content : Text) : (maskedText content).lines = codeLines content := by
  have clean := Blanked.not_mem_lines (blanked_codeLines content) (by decide)
    fun source => Text.newline_not_mem_of_mem_lines
  exact Text.lines_joinLines (codeLines_ne_nil content) clean

/-- Masking a masked text changes nothing. -/
theorem codeLines_maskedText (content : Text) :
    codeLines (maskedText content) = codeLines content := by
  rw [codeLines, lines_maskedText]
  exact maskLines_again .code content.lines

/-- Masking keeps the number of lines and, in each line, every position, where it
keeps the character or puts a space. A second masking changes nothing. So the
rules about catch blocks, complexity and length report the same of a text and of
its masked form, whatever their limits. -/
theorem codeLines_projection (content : Text) :
    (codeLines content).length = content.lines.length ∧
      List.Forall₂ Blanked content.lines (codeLines content) ∧
      codeLines (maskedText content) = codeLines content ∧
      ∀ (path : Text) (limit : Nat),
        EmptyCatch.textRule.check ⟨path, maskedText content⟩ =
          EmptyCatch.textRule.check ⟨path, content⟩ ∧
        (Complexity.textRule limit).check ⟨path, maskedText content⟩ =
          (Complexity.textRule limit).check ⟨path, content⟩ ∧
        (LongMethod.textRule limit).check ⟨path, maskedText content⟩ =
          (LongMethod.textRule limit).check ⟨path, content⟩ := by
  have again := codeLines_maskedText content
  refine ⟨length_codeLines content, blanked_codeLines content, again,
    fun path limit => ⟨?_, ?_, ?_⟩⟩
  · simp only [EmptyCatch.textRule, again]
    rfl
  · simp only [Complexity.textRule, again]
    rfl
  · simp only [LongMethod.textRule, again]
    rfl

end PatchLint.Mask

import PatchLint.Proofs.Mask.Projection
import PatchLint.Proofs.Mask.Segments

/-!
# Where the masker is in code

A text can be masked piece by piece where the masker is in code between the pieces.
Whether it is can be seen from outside: it keeps a letter that is put there, and it
keeps letters nowhere else. `InCode` says just that, and `InCode.maskedText_append`
draws from it that what follows is masked as code. Two kinds of text can follow
without a change: plain text stays, and of void text nothing but blanks stay.
-/

namespace PatchLint.Mask

/-- The masker is in code behind the text: it keeps a letter that is put there. In a
literal and in a comment, one up to the end of its line included, the letter would
become a space. -/
def InCode (text : Text) : Prop :=
  ['x'] <:+ maskedText (text ++ ['x'])

instance (text : Text) : Decidable (InCode text) :=
  inferInstanceAs (Decidable (['x'] <:+ maskedText (text ++ ['x'])))

/-- The text does not start with a character that could belong to what stands before
it, as the second half of a comment sign or of a doubled quote. -/
structure Detached (rest : Text) : Prop where
  notSlash : rest.head? ≠ some '/'
  notStar : rest.head? ≠ some '*'
  notQuote : rest.head? ≠ some '"'

/-! ## One line -/

/-- One character in front of a text that ends in a letter is the letter or stands
before it. -/
private theorem eq_nil_or_cons {c shownChar : Char} {rest out taken shown : Text}
    (lengths : rest.length = out.length) (line : c :: rest = taken ++ ['x'])
    (shownLine : shownChar :: out = shown ++ ['x']) :
    (taken = [] ∧ shown = [] ∧ shownChar = 'x') ∨
      ∃ takenRest shownRest, taken = c :: takenRest ∧ shown = shownChar :: shownRest ∧
        rest = takenRest ++ ['x'] ∧ out = shownRest ++ ['x'] := by
  rcases List.cons_eq_append_iff.mp line with ⟨rfl, single⟩ | ⟨takenRest, rfl, rfl⟩
  · obtain ⟨rfl, rfl⟩ := List.cons.inj single
    obtain rfl := List.length_eq_zero_iff.mp lengths.symm
    rcases List.cons_eq_append_iff.mp shownLine with ⟨rfl, same⟩ | ⟨_, _, empty⟩
    · exact .inl ⟨rfl, rfl, (List.cons.inj same).1.symm⟩
    · simp at empty
  · rcases List.cons_eq_append_iff.mp shownLine with ⟨rfl, same⟩ | ⟨shownRest, rfl, rfl⟩
    · obtain ⟨_, rfl⟩ := List.cons.inj same
      simp at lengths
    · exact .inr ⟨takenRest, shownRest, rfl, rfl, rfl, rfl⟩

/-- A character that is not shown as a letter stands before the letter. -/
private theorem exists_cons {c shownChar : Char} {rest out taken shown : Text}
    (hidden : shownChar ≠ 'x') (lengths : rest.length = out.length)
    (line : c :: rest = taken ++ ['x']) (shownLine : shownChar :: out = shown ++ ['x']) :
    ∃ takenRest shownRest, taken = c :: takenRest ∧ shown = shownChar :: shownRest ∧
      rest = takenRest ++ ['x'] ∧ out = shownRest ++ ['x'] :=
  (eq_nil_or_cons lengths line shownLine).resolve_left fun here => hidden here.2.2

/-- Two characters that become spaces stand before the letter. -/
private theorem exists_cons_cons {c d : Char} {rest out taken shown : Text}
    (lengths : rest.length = out.length) (line : c :: d :: rest = taken ++ ['x'])
    (shownLine : ' ' :: ' ' :: out = shown ++ ['x']) :
    ∃ takenRest shownRest, taken = c :: d :: takenRest ∧ shown = ' ' :: ' ' :: shownRest ∧
      rest = takenRest ++ ['x'] ∧ out = shownRest ++ ['x'] := by
  obtain ⟨_, _, rfl, rfl, secondLine, secondShown⟩ :=
    exists_cons (by decide) (by simp [lengths]) line shownLine
  obtain ⟨takenRest, shownRest, rfl, rfl, rfl, rfl⟩ :=
    exists_cons (by decide) lengths secondLine secondShown
  exact ⟨takenRest, shownRest, rfl, rfl, rfl, rfl⟩

private theorem head?_append_ne {c : Char} {taken rest : Text}
    (differs : (taken ++ ['x']).head? ≠ some c) (restDiffers : rest.head? ≠ some c) :
    (taken ++ rest).head? ≠ some c := by
  cases taken with
  | nil => exact restDiffers
  | cons d taken => exact differs

/-- Where a line is masked up to a letter that is kept, anything that is masked as code
can stand in place of the letter. -/
theorem Masked.resume {mode last next : Mode} {before line shownLine taken shown rest out : Text}
    (probe : Masked mode before line shownLine last) (lineEq : line = taken ++ ['x'])
    (shownEq : shownLine = shown ++ ['x']) (detached : Detached rest)
    (later : Masked .code (taken.reverse ++ before) rest out next) :
    Masked mode before (taken ++ rest) (shown ++ out) next := by
  induction probe generalizing taken shown with
  | done => simp at lineEq
  | lineComment text =>
      -- The line is blank to its end.
      have letter : 'x' ∈ List.replicate (text.length + 2) ' ' := by simp [shownEq]
      simp [List.mem_replicate] at letter
  | openComment masked ih =>
      obtain ⟨taken, shown, rfl, rfl, line, shownLine⟩ :=
        exists_cons_cons masked.blanked.length_eq lineEq shownEq
      exact .openComment (ih line shownLine (by simpa using later))
  | openQuote masked ih =>
      obtain ⟨taken, shown, rfl, rfl, line, shownLine⟩ :=
        exists_cons (by decide) masked.blanked.length_eq lineEq shownEq
      exact .openQuote (ih line shownLine (by simpa using later))
  | openCharacter masked ih =>
      obtain ⟨taken, shown, rfl, rfl, line, shownLine⟩ :=
        exists_cons (by decide) masked.blanked.length_eq lineEq shownEq
      exact .openCharacter (ih line shownLine (by simpa using later))
  | code c plain masked ih =>
      rcases eq_nil_or_cons masked.blanked.length_eq lineEq shownEq with
        ⟨rfl, rfl, _⟩ | ⟨taken, shown, rfl, rfl, line, shownLine⟩
      · exact later
      · subst line
        refine .code c ⟨plain.notQuote, plain.notApostrophe, fun slash => ⟨?_, ?_⟩⟩
          (ih rfl shownLine (by simpa using later))
        · exact head?_append_ne (plain.opensNothing slash).1 detached.notSlash
        · exact head?_append_ne (plain.opensNothing slash).2 detached.notStar
  | closeComment masked ih =>
      obtain ⟨taken, shown, rfl, rfl, line, shownLine⟩ :=
        exists_cons_cons masked.blanked.length_eq lineEq shownEq
      exact .closeComment (ih line shownLine (by simpa using later))
  | comment c stays masked ih =>
      obtain ⟨taken, shown, rfl, rfl, line, shownLine⟩ :=
        exists_cons (by decide) masked.blanked.length_eq lineEq shownEq
      subst line
      refine .comment c (fun star => ?_) (ih rfl shownLine (by simpa using later))
      exact head?_append_ne (stays star) detached.notSlash
  | doubledQuote masked ih =>
      obtain ⟨taken, shown, rfl, rfl, line, shownLine⟩ :=
        exists_cons_cons masked.blanked.length_eq lineEq shownEq
      exact .doubledQuote (ih line shownLine (by simpa using later))
  | closeVerbatim single masked ih =>
      obtain ⟨taken, shown, rfl, rfl, line, shownLine⟩ :=
        exists_cons (by decide) masked.blanked.length_eq lineEq shownEq
      subst line
      refine .closeVerbatim ?_ (ih rfl shownLine (by simpa using later))
      exact head?_append_ne single detached.notQuote
  | verbatim c notQuote masked ih =>
      obtain ⟨taken, shown, rfl, rfl, line, shownLine⟩ :=
        exists_cons (by decide) masked.blanked.length_eq lineEq shownEq
      exact .verbatim c notQuote (ih line shownLine (by simpa using later))
  | escape escapes c masked ih =>
      obtain ⟨taken, shown, rfl, rfl, line, shownLine⟩ :=
        exists_cons_cons masked.blanked.length_eq lineEq shownEq
      exact .escape escapes c (ih line shownLine (by simpa using later))
  | closeLiteral escapes masked ih =>
      have hidden := escapes.delimiter_eq
      obtain ⟨taken, shown, rfl, rfl, line, shownLine⟩ :=
        exists_cons (by grind) masked.blanked.length_eq lineEq shownEq
      exact .closeLiteral escapes (ih line shownLine (by simpa using later))
  | literal escapes c stays single masked ih =>
      obtain ⟨taken, shown, rfl, rfl, line, shownLine⟩ :=
        exists_cons (by decide) masked.blanked.length_eq lineEq shownEq
      refine .literal escapes c stays (fun backslash => ?_) (ih line shownLine (by simpa using later))
      simp [single backslash] at line

/-! ## Line after line -/

/-- The mode in which the line behind these lines starts. -/
def modeBehind (mode : Mode) (lines : List Text) : Mode :=
  lines.foldl (fun mode line => (maskLine mode line).2.nextLine) mode

private theorem maskLines_append (mode : Mode) (lines more : List Text) :
    maskLines mode (lines ++ more) = maskLines mode lines ++ maskLines (modeBehind mode lines) more := by
  induction lines generalizing mode with
  | nil => rfl
  | cons line lines ih => simp [maskLines, modeBehind, ih]

private theorem lineSoFar_reverse (text : Text) :
    lineSoFar text.reverse = text.lastLine.reverse := by
  rw [Text.lastLine, List.reverse_reverse, lineSoFar]

/-- Whatever stands before a text, there is something as which it is masked. -/
theorem exists_masksTo (mode : Mode) (before text : Text) : ∃ out, MasksTo mode before text out := by
  obtain ⟨line, more, split⟩ := text.exists_lines_eq_cons
  have clean : ∀ source ∈ line :: more, '\n' ∉ source := by
    rw [← split]
    exact fun source => Text.newline_not_mem_of_mem_lines
  have masked := masked_maskFrom mode (lineSoFar before) line
  set shown := maskFrom mode (lineSoFar before) line
  refine ⟨Text.joinLines (shown.1 :: maskLines shown.2.nextLine more), ?_⟩
  intro first others splitToo
  rw [split, List.cons.injEq] at splitToo
  obtain ⟨rfl, rfl⟩ := splitToo
  refine ⟨shown.1, shown.2, masked, Text.lines_joinLines (by simp) ?_⟩
  exact Blanked.not_mem_lines (.cons masked.blanked (blanked_maskLines _ more)) (by decide) clean

private theorem suffix_joinLines (init : List Text) (last : Text) :
    last <:+ Text.joinLines (init ++ [last]) := by
  induction init with
  | nil => simp [Text.joinLines]
  | cons line init ih =>
      obtain ⟨next, more, split⟩ : ∃ next more, init ++ [last] = next :: more :=
        List.exists_cons_of_ne_nil (by simp)
      rw [split] at ih
      rw [List.cons_append, split, Text.joinLines, List.intercalate_cons_cons]
      exact ih.trans (List.suffix_append _ _)

/-- Where a text is in code, a letter behind its last line is kept when that line is
masked. -/
theorem InCode.exists_masked_lastLine {text : Text} (inCode : InCode text) {init : List Text}
    (split : text.lines = init ++ [text.lastLine]) :
    ∃ shown last, Masked (modeBehind .code init) [] (text.lastLine ++ ['x']) (shown ++ ['x']) last := by
  have lines : (text ++ ['x']).lines = init ++ [text.lastLine ++ ['x']] :=
    Text.lines_append split (Text.lines_cons_of_eq (by decide) Text.lines_nil)
  have masked := masked_maskFrom (modeBehind .code init) [] (text.lastLine ++ ['x'])
  set line := maskFrom (modeBehind .code init) [] (text.lastLine ++ ['x']) with lineEq
  have code : codeLines (text ++ ['x']) = maskLines .code init ++ [line.1] := by
    rw [codeLines, lines, maskLines_append]
    rfl
  have lineEnds : line.1 <:+ maskedText (text ++ ['x']) := by
    rw [maskedText, code]
    exact suffix_joinLines _ _
  have length : line.1.length = text.lastLine.length + 1 := by
    rw [← masked.blanked.length_eq, List.length_append, List.length_singleton]
  obtain ⟨shown, same⟩ := List.suffix_of_suffix_length_le inCode lineEnds (by simp [length])
  rw [← same] at masked
  exact ⟨shown, line.2, masked⟩

/-- The first line of a detached text is detached. -/
theorem Detached.of_lines_eq {rest line : Text} {more : List Text} (detached : Detached rest)
    (split : rest.lines = line :: more) : Detached line where
  notSlash starts := detached.notSlash (Text.head?_of_lines_eq split starts)
  notStar starts := detached.notStar (Text.head?_of_lines_eq split starts)
  notQuote starts := detached.notQuote (Text.head?_of_lines_eq split starts)

/-- Behind a text in code, what follows is masked on its own. -/
theorem InCode.maskedText_append {text rest out : Text} (inCode : InCode text)
    (detached : Detached rest) (masks : MasksTo .code text.reverse rest out) :
    maskedText (text ++ rest) = maskedText text ++ out := by
  obtain ⟨init, split, _⟩ := text.exists_lines_eq_append_lastLine
  obtain ⟨shown, last, probe⟩ := inCode.exists_masked_lastLine split
  have clean : ∀ line ∈ maskLines .code init ++ [shown], '\n' ∉ line := by
    have sources : ∀ line ∈ init ++ [text.lastLine], '\n' ∉ line := by
      rw [← split]
      exact fun line => Text.newline_not_mem_of_mem_lines
    rw [List.forall_mem_append, List.forall_mem_singleton] at sources ⊢
    refine ⟨Blanked.not_mem_lines (blanked_maskLines _ _) (by decide) sources.1, ?_⟩
    have shownClean := probe.blanked.not_mem (c := '\n') (by decide) (by simp [sources.2])
    exact fun member => shownClean (List.mem_append_left _ member)
  -- What the text leaves is the same whatever follows it, nothing at all included.
  have known : ∀ {rest out : Text}, Detached rest → MasksTo .code text.reverse rest out →
      maskedText (text ++ rest) = Text.joinLines (maskLines .code init ++ [shown]) ++ out := by
    intro rest out detached masks
    obtain ⟨line, more, restLines⟩ := rest.exists_lines_eq_cons
    obtain ⟨maskedLine, next, masked, outLines⟩ := masks line more restLines
    rw [lineSoFar_reverse] at masked
    have whole := probe.resume rfl rfl (detached.of_lines_eq restLines) (by simpa using masked)
    have joined : Text.lines (Text.joinLines (maskLines .code init ++ [shown]) ++ out) =
        codeLines (text ++ rest) := by
      rw [codeLines, Text.lines_append split restLines, maskLines_append, maskLines, maskLine,
        whole.eq]
      exact Text.lines_append (Text.lines_joinLines (by simp) clean) outLines
    rw [maskedText, ← joined, Text.joinLines_lines]
  have alone := known ⟨by simp, by simp, by simp⟩ (MasksTo.nil : MasksTo .code text.reverse [] [])
  rw [List.append_nil, List.append_nil] at alone
  rw [known detached masks, alone]

/-! ## Plain and void text -/

namespace MasksTo

variable {before rest out : Text}

/-- A character that has no part in comments and literals stays. -/
theorem plainChar {c : Char} (notQuote : c ≠ '"') (notApostrophe : c ≠ '\'') (notSlash : c ≠ '/')
    (later : MasksTo .code (c :: before) rest out) : MasksTo .code before (c :: rest) (c :: out) := by
  by_cases feed : c = '\n'
  · subst feed
    exact .newline later
  · have plain : ∀ line, IsPlain c line := fun line =>
      ⟨notQuote, notApostrophe, fun slash => absurd slash notSlash⟩
    exact .step feed feed (fun _ masked => .code c (plain _) masked) later

/-- Text without quotes and slashes stays. -/
theorem plain {text : Text} (noQuote : '"' ∉ text) (noApostrophe : '\'' ∉ text)
    (noSlash : '/' ∉ text) (later : MasksTo .code (text.reverse ++ before) rest out) :
    MasksTo .code before (text ++ rest) (text ++ out) := by
  induction text generalizing before with
  | nil => exact later
  | cons c text ih =>
      rw [List.mem_cons, not_or] at noQuote noApostrophe noSlash
      have tail := @ih (c :: before) noQuote.2 noApostrophe.2 noSlash.2 (by simpa using later)
      exact .plainChar (Ne.symm noQuote.1) (Ne.symm noApostrophe.1) (Ne.symm noSlash.1) tail

end MasksTo

/-- Text that holds nothing but blanks and comments that end in it: comments up to the
end of their line, with the line feed, and comments between their delimiters. -/
inductive IsVoid : Text → Prop where
  | nil : IsVoid []
  | blank {rest} (c : Char) (isBlank : isBlank c = true) (later : IsVoid rest) :
      IsVoid (c :: rest)
  | lineComment {rest} (text : Text) (oneLine : '\n' ∉ text) (later : IsVoid rest) :
      IsVoid ('/' :: '/' :: (text ++ '\n' :: rest))
  | blockComment {rest} (text : Text) (unclosed : ¬ ['*', '/'] <:+: text) (later : IsVoid rest) :
      IsVoid ('/' :: '*' :: (text ++ '*' :: '/' :: rest))

private theorem isBlank_of_mem_blankOut {text : Text} {c : Char} (member : c ∈ blankOut text) :
    isBlank c = true := by
  obtain ⟨d, _, rfl⟩ := List.mem_map.mp member
  split <;> decide

/-- Of void text blanks stay, whatever its comments hold. -/
theorem IsVoid.exists_masksTo {text : Text} (void : IsVoid text) :
    ∃ shown : Text, (∀ c ∈ shown, isBlank c = true) ∧ ∀ {before rest out : Text},
      MasksTo .code (text.reverse ++ before) rest out →
        MasksTo .code before (text ++ rest) (shown ++ out) := by
  induction void with
  | nil => exact ⟨[], by simp, fun later => later⟩
  | blank c isBlank _ ih =>
      obtain ⟨shown, blanks, masks⟩ := ih
      refine ⟨c :: shown, List.forall_mem_cons.mpr ⟨isBlank, blanks⟩, fun later => ?_⟩
      refine .plainChar ?_ ?_ ?_ (masks (by simpa using later))
      all_goals
        rintro rfl
        exact absurd isBlank (by decide)
  | lineComment text oneLine _ ih =>
      obtain ⟨shown, blanks, masks⟩ := ih
      refine ⟨' ' :: ' ' :: (List.replicate text.length ' ' ++ '\n' :: shown), ?_, fun later => ?_⟩
      · intro c member
        simp only [List.mem_cons, List.mem_append, List.mem_replicate] at member
        rcases member with rfl | rfl | ⟨_, rfl⟩ | rfl | member
        iterate 4 decide
        exact blanks c member
      · have behind := masks (by simpa using later)
        simpa using MasksTo.lineComment oneLine (.inr rfl) (.newline behind)
  | blockComment text unclosed _ ih =>
      obtain ⟨shown, blanks, masks⟩ := ih
      refine ⟨' ' :: ' ' :: (blankOut text ++ ' ' :: ' ' :: shown), ?_, fun later => ?_⟩
      · intro c member
        simp only [List.mem_cons, List.mem_append] at member
        rcases member with rfl | rfl | member | rfl | rfl | member
        · decide
        · decide
        · exact isBlank_of_mem_blankOut member
        · decide
        · decide
        · exact blanks c member
      · have behind := masks (by simpa using later)
        have body := MasksTo.commentText unclosed behind
        simpa using MasksTo.stepTwo (by decide) (by decide) .openComment body

/-! ## The masked text as a whole -/

private theorem Blanked.joinLines {sources maskeds : List Text}
    (blanked : List.Forall₂ Blanked sources maskeds) :
    Blanked (Text.joinLines sources) (Text.joinLines maskeds) := by
  induction blanked with
  | nil => exact .nil
  | cons first rest ih =>
      cases rest with
      | nil => simpa [Text.joinLines] using first
      | cons second rest =>
          rw [Text.joinLines, Text.joinLines, List.intercalate_cons_cons,
            List.intercalate_cons_cons, List.append_assoc, List.append_assoc]
          exact List.rel_append first (ih.cons_same '\n')

/-- A masked text is its text with some characters blanked. -/
theorem blanked_maskedText (content : Text) : Blanked content (maskedText content) := by
  have joined := Blanked.joinLines (blanked_codeLines content)
  rwa [Text.joinLines_lines] at joined

/-- A masked text is as long as its text. -/
theorem length_maskedText (content : Text) : (maskedText content).length = content.length :=
  (blanked_maskedText content).length_eq.symm

/-- A masked text has as many line feeds as its text. -/
theorem count_newline_maskedText (content : Text) :
    (maskedText content).count '\n' = content.count '\n' := by
  have lengths := length_codeLines content
  rw [← lines_maskedText, Text.length_lines, Text.length_lines] at lengths
  omega

/-- Masking puts nothing at the start of a text but spaces. -/
theorem Blanked.head?_any {source masked : Text} (blanked : Blanked source masked)
    {test : Char → Bool} (notSpace : test ' ' = false)
    (notFirst : source.head?.any test = false) : masked.head?.any test = false := by
  cases blanked with
  | nil => exact notFirst
  | cons kept _ =>
      rcases kept with rfl | rfl
      · exact notFirst
      · exact notSpace

/-- Nor at its end. -/
theorem Blanked.getLast?_any {source masked : Text} (blanked : Blanked source masked)
    {test : Char → Bool} (notSpace : test ' ' = false)
    (notLast : source.getLast?.any test = false) : masked.getLast?.any test = false := by
  rw [← List.head?_reverse] at notLast ⊢
  exact Blanked.head?_any (List.forall₂_reverse_iff.mpr blanked) notSpace notLast

end PatchLint.Mask

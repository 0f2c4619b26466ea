import PatchLint.Proofs.LineEnding.Padding
import PatchLint.Proofs.Mask.Rules
import PatchLint.Proofs.Text.Lines

/-!
# Carriage returns in front of line feeds

`Text.crlf` writes every line end of a text as a carriage return and a line
feed. Lines are cut at line feeds alone, so all lines but the last one get the
return as their last character. The masker reads it in whatever mode the line
ends and leaves it in the same mode; the return is kept in code and becomes a
space everywhere else.
-/

namespace PatchLint

namespace Text

/-- The text with a carriage return in front of every line feed. -/
def crlf (text : Text) : Text :=
  text.flatMap fun c => if c = '\n' then ['\r', '\n'] else [c]

private theorem crlf_newline (rest : Text) : crlf ('\n' :: rest) = '\r' :: '\n' :: crlf rest :=
  rfl

private theorem crlf_cons {c : Char} (other : c ≠ '\n') (rest : Text) :
    crlf (c :: rest) = c :: crlf rest := by
  simp [crlf, other]

/-- The lines with a carriage return at the end of all but the last. -/
def withReturns : List Text → List Text
  | [] => []
  | [last] => [last]
  | line :: next :: rest => (line ++ ['\r']) :: withReturns (next :: rest)

private theorem withReturns_cons {lines : List Text} (more : lines ≠ []) (line : Text) :
    withReturns (line :: lines) = (line ++ ['\r']) :: withReturns lines := by
  cases lines with
  | nil => exact absurd rfl more
  | cons => rfl

/-- What is put in front of the first line stays in front of it. -/
theorem withReturns_modifyHead (c : Char) (lines : List Text) :
    withReturns (lines.modifyHead (List.cons c)) =
      (withReturns lines).modifyHead (List.cons c) := by
  match lines with
  | [] => rfl
  | [_] => rfl
  | _ :: _ :: _ => rfl

/-- All lines but the last get the carriage return that their line feed gets. -/
theorem lines_crlf (text : Text) : text.crlf.lines = withReturns text.lines := by
  induction text with
  | nil => rfl
  | cons c rest ih =>
      by_cases feed : c = '\n'
      · subst feed
        rw [crlf_newline, lines_cons_of_eq (by decide) (lines_newline (crlf rest)), ih,
          lines_newline, withReturns_cons (lines_ne_nil rest)]
        rfl
      · rw [crlf_cons feed, lines_cons feed, ih, lines_cons feed, withReturns_modifyHead]

/-- A line keeps its text or gets a carriage return. -/
theorem forall₂_withReturns (lines : List Text) :
    List.Forall₂ (fun line longer => longer = line ∨ longer = line ++ ['\r']) lines
      (withReturns lines) := by
  fun_induction withReturns lines with
  | case1 => exact .nil
  | case2 last => exact .cons (.inl rfl) .nil
  | case3 line next rest ih => exact .cons (.inr rfl) ih

/-- The second lines are the first ones with padding at the end of all but the
last. -/
inductive PaddedBreaks : List Text → List Text → Prop where
  | last (line : Text) : PaddedBreaks [line] [line]
  | cons {rest longer : List Text} (line : Text) {pad : Char} (isPad : IsPad pad)
      (later : PaddedBreaks rest longer) : PaddedBreaks (line :: rest) ((line ++ [pad]) :: longer)

/-- Lines with padded breaks are padded lines. -/
theorem PaddedBreaks.forall₂ {lines longer : List Text} (breaks : PaddedBreaks lines longer) :
    List.Forall₂ Padded lines longer := by
  induction breaks with
  | last line => exact .cons (.same line) .nil
  | cons line isPad _ ih => exact .cons (.longer line isPad) ih

/-- Carriage returns pad the breaks of all lines but the last. -/
theorem paddedBreaks_withReturns {lines : List Text} (some : lines ≠ []) :
    PaddedBreaks lines (withReturns lines) := by
  fun_induction withReturns lines with
  | case1 => exact absurd rfl some
  | case2 last => exact .last last
  | case3 line next rest ih => exact .cons line (.inr rfl) (ih (by simp))

end Text

namespace Mask

private theorem head?_append_return_ne {rest : Text} {c : Char} (other : c ≠ '\r')
    (differs : rest.head? ≠ some c) : (rest ++ ['\r']).head? ≠ some c := by
  cases rest with
  | nil => simpa using Ne.symm other
  | cons => exact differs

private theorem IsPlain.append_return {c : Char} {rest : Text} (plain : IsPlain c rest) :
    IsPlain c (rest ++ ['\r']) where
  notQuote := plain.notQuote
  notApostrophe := plain.notApostrophe
  opensNothing slash :=
    ⟨head?_append_return_ne (by decide) (plain.opensNothing slash).1,
      head?_append_return_ne (by decide) (plain.opensNothing slash).2⟩

/-- In each mode the masker keeps a lone carriage return or makes it a space. -/
theorem masked_return (mode : Mode) (before : Text) :
    ∃ pad, Text.IsPad pad ∧ Masked mode before ['\r'] [pad] mode := by
  cases mode with
  | code => exact ⟨'\r', .inr rfl, .code '\r' ⟨by decide, by decide, by decide⟩ .done⟩
  | blockComment => exact ⟨' ', .inl rfl, .comment '\r' (by decide) .done⟩
  | verbatim => exact ⟨' ', .inl rfl, .verbatim '\r' (by decide) .done⟩
  | string => exact ⟨' ', .inl rfl, .literal (.inl rfl) '\r' (by decide) (by decide) .done⟩
  | character => exact ⟨' ', .inl rfl, .literal (.inr rfl) '\r' (by decide) (by decide) .done⟩

/-- A carriage return at the end of a line is one more character of the masked
line, and the mode at the end stays. -/
theorem Masked.append_return {mode last : Mode} {before line out : Text}
    (masked : Masked mode before line out last) :
    ∃ pad, Text.IsPad pad ∧ Masked mode before (line ++ ['\r']) (out ++ [pad]) last := by
  induction masked with
  | @done mode before => exact masked_return mode before
  | @lineComment before rest =>
      have spaces : List.replicate (rest.length + 2) ' ' ++ [' '] =
          List.replicate ((rest ++ ['\r']).length + 2) ' ' := by
        rw [← List.replicate_succ', List.length_append]
        rfl
      refine ⟨' ', .inl rfl, ?_⟩
      rw [spaces]
      exact .lineComment (rest ++ ['\r'])
  | openComment later ih =>
      obtain ⟨pad, isPad, longer⟩ := ih
      exact ⟨pad, isPad, .openComment longer⟩
  | openQuote later ih =>
      obtain ⟨pad, isPad, longer⟩ := ih
      exact ⟨pad, isPad, .openQuote longer⟩
  | openCharacter later ih =>
      obtain ⟨pad, isPad, longer⟩ := ih
      exact ⟨pad, isPad, .openCharacter longer⟩
  | code c plain later ih =>
      obtain ⟨pad, isPad, longer⟩ := ih
      exact ⟨pad, isPad, .code c plain.append_return longer⟩
  | closeComment later ih =>
      obtain ⟨pad, isPad, longer⟩ := ih
      exact ⟨pad, isPad, .closeComment longer⟩
  | comment c stays later ih =>
      obtain ⟨pad, isPad, longer⟩ := ih
      exact ⟨pad, isPad, .comment c
        (fun star => head?_append_return_ne (by decide) (stays star)) longer⟩
  | doubledQuote later ih =>
      obtain ⟨pad, isPad, longer⟩ := ih
      exact ⟨pad, isPad, .doubledQuote longer⟩
  | closeVerbatim single later ih =>
      obtain ⟨pad, isPad, longer⟩ := ih
      exact ⟨pad, isPad, .closeVerbatim (head?_append_return_ne (by decide) single) longer⟩
  | verbatim c notQuote later ih =>
      obtain ⟨pad, isPad, longer⟩ := ih
      exact ⟨pad, isPad, .verbatim c notQuote longer⟩
  | escape escapes c later ih =>
      obtain ⟨pad, isPad, longer⟩ := ih
      exact ⟨pad, isPad, .escape escapes c longer⟩
  | closeLiteral escapes later ih =>
      obtain ⟨pad, isPad, longer⟩ := ih
      exact ⟨pad, isPad, .closeLiteral escapes longer⟩
  | literal escapes c stays single later ih =>
      by_cases backslash : c = '\\'
      -- A backslash that was the last character of the line now escapes the return.
      · obtain rfl := single backslash
        subst backslash
        cases later with
        | done => exact ⟨' ', .inl rfl, .escape escapes '\r' .done⟩
      · obtain ⟨pad, isPad, longer⟩ := ih
        exact ⟨pad, isPad, .literal escapes c stays (fun same => absurd same backslash) longer⟩

private theorem maskLine_append_return (mode : Mode) (line : Text) :
    ∃ pad, Text.IsPad pad ∧
      maskLine mode (line ++ ['\r']) =
        ((maskLine mode line).1 ++ [pad], (maskLine mode line).2) := by
  obtain ⟨pad, isPad, longer⟩ := (masked_maskFrom mode [] line).append_return
  exact ⟨pad, isPad, longer.eq⟩

private theorem maskLines_withReturns {lines : List Text} (some : lines ≠ []) (mode : Mode) :
    Text.PaddedBreaks (maskLines mode lines) (maskLines mode (Text.withReturns lines)) := by
  fun_induction Text.withReturns lines generalizing mode with
  | case1 => exact absurd rfl some
  | case2 last => exact .last (maskLine mode last).1
  | case3 line next rest ih =>
      obtain ⟨pad, isPad, masked⟩ := maskLine_append_return mode line
      rw [maskLines.eq_2, maskLines.eq_2 mode (line ++ _), masked]
      exact .cons _ isPad (ih (by simp) _)

/-- The masked lines of a text with carriage returns are those of the text,
padded at the line ends. -/
theorem codeLines_crlf (content : Text) :
    Text.PaddedBreaks (codeLines content) (codeLines content.crlf) := by
  rw [codeLines, codeLines, Text.lines_crlf]
  exact maskLines_withReturns content.lines_ne_nil .code

/-! ## The comment of a padded line -/

private theorem append_ne_cons {rest : Text} {pad c : Char} (isPad : Text.IsPad pad)
    (notPad : ¬ Text.IsPad c) (differs : ∀ more, rest = c :: more → False) (more : Text) :
    rest ++ [pad] ≠ c :: more := by
  rintro same
  cases rest with
  | nil =>
      injection same with same
      exact notPad (same ▸ isPad)
  | cons d tail =>
      injection same with same
      exact differs tail (by rw [same])

private theorem blockCommentText_append {pad : Char} (isPad : Text.IsPad pad) (text : Text) :
    Text.Padded (blockCommentText text) (blockCommentText (text ++ [pad])) := by
  fun_induction blockCommentText text with
  | case1 => exact .same []
  | case2 c rest stays ih =>
      have staysOpen (tail : Text) (star : c = '*') : rest ++ [pad] ≠ '/' :: tail :=
        append_ne_cons isPad (by decide) (fun more => stays more star) tail
      rw [List.cons_append, blockCommentText.eq_2 c (rest ++ [pad]) staysOpen]
      exact ih.cons c
  | case3 =>
      rcases isPad with rfl | rfl
      · exact .longer [] (.inl rfl)
      · exact .longer [] (.inr rfl)

/-- The comment of a padded line is padded. -/
theorem commentFrom_append {pad : Char} (isPad : Text.IsPad pad) (quote : Option Char)
    (line : Text) :
    Option.Rel Text.Padded (commentFrom quote line) (commentFrom quote (line ++ [pad])) := by
  fun_induction commentFrom quote line with
  | case1 quote =>
      have nothing : commentFrom quote [pad] = none := by
        rcases isPad with rfl | rfl <;> cases quote <;> simp [commentFrom]
      rw [List.nil_append, nothing]
      exact .none
  | case2 delimiter c rest ih => exact ih
  | case3 delimiter c rest single ih =>
      by_cases backslash : c = '\\'
      -- A backslash that was the last character now escapes the padding.
      · subst backslash
        cases rest with
        | nil => simp [commentFrom]
        | cons d more => exact (single d more rfl rfl).elim
      · rw [List.cons_append, commentFrom.eq_3 _ _ _ fun _ _ same => absurd same backslash]
        exact ih
  | case4 rest => exact .some (.longer rest isPad)
  | case5 rest => exact .some (blockCommentText_append isPad rest)
  | case6 c rest noLine noBlock ih =>
      rw [List.cons_append, commentFrom.eq_6]
      · exact ih
      · intro more slash
        exact append_ne_cons isPad (by decide) (fun tail => noLine tail slash) more
      · intro more slash
        exact append_ne_cons isPad (by decide) (fun tail => noBlock tail slash) more

/-- A comment goes on as its line does. -/
theorem comment?_padded {line longer : Text} (padded : Text.Padded line longer) :
    Option.Rel Text.Padded (comment? line) (comment? longer) := by
  cases padded with
  | same => exact Text.Padded.rel_same _
  | longer isPad => exact commentFrom_append isPad none line

end Mask

end PatchLint

import PatchLint.Source.Mask

/-!
# Masking by rules

`Masked` says what the masker may do at each place of a line: one rule for each
kind of piece, with the characters that have to follow or must not. The rules
describe `maskFrom` exactly, so facts about masking are inductions over them
and later runs of the masker are put together from them.
-/

namespace PatchLint.Mask

/-- The modes in which a backslash escapes. -/
def Mode.Escapes (mode : Mode) : Prop :=
  mode = .string ∨ mode = .character

/-- A verbatim string opens behind an at sign, also with a dollar sign between. -/
theorem opensVerbatim_cons (c : Char) (before : Text) :
    opensVerbatim (c :: before) = (c == '@' || (c == '$' && before.head? == some '@')) := by
  by_cases atSign : c = '@'
  · subst atSign
    rfl
  · by_cases dollar : c = '$'
    · subst dollar
      cases before with
      | nil => rfl
      | cons d more =>
          by_cases second : d = '@'
          · subst second
            rfl
          · simp [opensVerbatim, second]
    · simp [opensVerbatim, atSign, dollar]

/-- The character stands for itself in code, in front of `rest`. -/
structure IsPlain (c : Char) (rest : Text) : Prop where
  notQuote : c ≠ '"'
  notApostrophe : c ≠ '\''
  opensNothing : c = '/' → rest.head? ≠ some '/' ∧ rest.head? ≠ some '*'

/-- `Masked mode before line out last`: the rest `line` of a line, read in `mode`
behind `before`, is masked as `out` and leaves the masker in `last`. -/
inductive Masked : Mode → Text → Text → Text → Mode → Prop where
  | done {mode before} : Masked mode before [] [] mode
  | lineComment {before} (rest : Text) :
      Masked .code before ('/' :: '/' :: rest) (List.replicate (rest.length + 2) ' ') .code
  | openComment {before rest out last}
      (later : Masked .blockComment ('*' :: '/' :: before) rest out last) :
      Masked .code before ('/' :: '*' :: rest) (' ' :: ' ' :: out) last
  | openQuote {before rest out last}
      (later : Masked (if opensVerbatim before then .verbatim else .string) ('"' :: before)
        rest out last) :
      Masked .code before ('"' :: rest) ('"' :: out) last
  | openCharacter {before rest out last}
      (later : Masked .character ('\'' :: before) rest out last) :
      Masked .code before ('\'' :: rest) ('\'' :: out) last
  | code {before rest out last} (c : Char) (plain : IsPlain c rest)
      (later : Masked .code (c :: before) rest out last) :
      Masked .code before (c :: rest) (c :: out) last
  | closeComment {before rest out last}
      (later : Masked .code ('/' :: '*' :: before) rest out last) :
      Masked .blockComment before ('*' :: '/' :: rest) (' ' :: ' ' :: out) last
  | comment {before rest out last} (c : Char) (stays : c = '*' → rest.head? ≠ some '/')
      (later : Masked .blockComment (c :: before) rest out last) :
      Masked .blockComment before (c :: rest) (' ' :: out) last
  | doubledQuote {before rest out last}
      (later : Masked .verbatim ('"' :: '"' :: before) rest out last) :
      Masked .verbatim before ('"' :: '"' :: rest) (' ' :: ' ' :: out) last
  | closeVerbatim {before rest out last} (single : rest.head? ≠ some '"')
      (later : Masked .code ('"' :: before) rest out last) :
      Masked .verbatim before ('"' :: rest) ('"' :: out) last
  | verbatim {before rest out last} (c : Char) (notQuote : c ≠ '"')
      (later : Masked .verbatim (c :: before) rest out last) :
      Masked .verbatim before (c :: rest) (' ' :: out) last
  | escape {mode before rest out last} (escapes : mode.Escapes) (c : Char)
      (later : Masked mode (c :: '\\' :: before) rest out last) :
      Masked mode before ('\\' :: c :: rest) (' ' :: ' ' :: out) last
  | closeLiteral {mode before rest out last} (escapes : mode.Escapes)
      (later : Masked .code (mode.delimiter :: before) rest out last) :
      Masked mode before (mode.delimiter :: rest) (mode.delimiter :: out) last
  | literal {mode before rest out last} (escapes : mode.Escapes) (c : Char)
      (stays : c ≠ mode.delimiter) (single : c = '\\' → rest = [])
      (later : Masked mode (c :: before) rest out last) :
      Masked mode before (c :: rest) (' ' :: out) last

namespace Mode.Escapes

variable {mode : Mode}

/-- Where a backslash escapes there is no code. -/
theorem ne_code (escapes : mode.Escapes) : mode ≠ .code := by
  rintro rfl
  simp [Mode.Escapes] at escapes

private theorem ne_blockComment (escapes : mode.Escapes) : mode ≠ .blockComment := by
  rintro rfl
  simp [Mode.Escapes] at escapes

/-- Where a backslash escapes there is no verbatim string. -/
theorem ne_verbatim (escapes : mode.Escapes) : mode ≠ .verbatim := by
  rintro rfl
  simp [Mode.Escapes] at escapes

/-- A backslash escapes between double quotes and between apostrophes only. -/
theorem delimiter_eq (escapes : mode.Escapes) : mode.delimiter = '"' ∨ mode.delimiter = '\'' := by
  rcases escapes with rfl | rfl <;> decide

/-- No literal ends with a backslash. -/
theorem delimiter_ne_backslash (escapes : mode.Escapes) : mode.delimiter ≠ '\\' := by
  rcases escapes with rfl | rfl <;> decide

/-- The three other modes are those in which nothing escapes. -/
theorem of_ne (code : mode ≠ .code) (comment : mode ≠ .blockComment)
    (verbatim : mode ≠ .verbatim) : mode.Escapes := by
  cases mode <;> simp_all [Mode.Escapes]

end Mode.Escapes

private theorem head?_ne_of_not_cons {rest : Text} {c : Char}
    (differs : ∀ more, rest = c :: more → False) : rest.head? ≠ some c := by
  cases rest with
  | nil => simp
  | cons d more =>
      rw [List.head?_cons]
      rintro same
      injection same with same
      exact differs more (by rw [same])

private theorem ne_cons_of_head?_ne {rest more : Text} {c : Char}
    (differs : rest.head? ≠ some c) : rest ≠ c :: more := by
  rintro rfl
  exact differs rfl

/-- The masker follows the rules. -/
theorem masked_maskFrom (mode : Mode) (before line : Text) :
    Masked mode before line (maskFrom mode before line).1 (maskFrom mode before line).2 := by
  fun_induction maskFrom mode before line with
  | case1 before mode => exact .done
  | case2 before rest => exact .lineComment rest
  | case3 before rest ih => exact .openComment ih
  | case4 before rest ih => exact .openQuote ih
  | case5 before rest ih => exact .openCharacter ih
  | case6 before c rest notLine notBlock notQuote notApostrophe ih =>
      refine .code c ⟨notQuote, notApostrophe, fun slash => ⟨?_, ?_⟩⟩ ih
      · exact head?_ne_of_not_cons fun more => notLine more slash
      · exact head?_ne_of_not_cons fun more => notBlock more slash
  | case7 before rest ih => exact .closeComment ih
  | case8 before c rest stays ih =>
      exact .comment c (fun star => head?_ne_of_not_cons fun more => stays more star) ih
  | case9 before rest ih => exact .doubledQuote ih
  | case10 before rest single ih => exact .closeVerbatim (head?_ne_of_not_cons single) ih
  | case11 before c rest _ notQuote ih => exact .verbatim c notQuote ih
  | case12 before mode c rest code comment verbatim ih =>
      exact .escape (.of_ne code comment verbatim) c ih
  | case13 before mode rest code comment verbatim _ _ _ _ _ _ _ _ ih =>
      exact .closeLiteral (.of_ne code comment verbatim) ih
  | case14 before mode c rest _ _ _ _ code _ comment _ _ verbatim single stays ih =>
      refine .literal (.of_ne code comment verbatim) c stays (fun backslash => ?_) ih
      cases rest with
      | nil => rfl
      | cons d more => exact (single d more backslash rfl).elim

/-- The rules leave no choice: what they derive is what the masker answers. -/
theorem Masked.eq {mode last : Mode} {before line out : Text}
    (masked : Masked mode before line out last) : maskFrom mode before line = (out, last) := by
  induction masked with
  | done => rw [maskFrom.eq_1]
  | lineComment rest => rw [maskFrom.eq_2]
  | openComment later ih => rw [maskFrom.eq_3, ih]; rfl
  | openQuote later ih => rw [maskFrom.eq_4, ih]; rfl
  | openCharacter later ih => rw [maskFrom.eq_5, ih]; rfl
  | code c plain later ih =>
      rw [maskFrom.eq_6 _ _ _ ?_ ?_ plain.notQuote plain.notApostrophe, ih]
      · rfl
      · intro more slash
        exact ne_cons_of_head?_ne (plain.opensNothing slash).1
      · intro more slash
        exact ne_cons_of_head?_ne (plain.opensNothing slash).2
  | closeComment later ih => rw [maskFrom.eq_7, ih]; rfl
  | comment c stays later ih =>
      rw [maskFrom.eq_8 _ _ _ fun more star => ne_cons_of_head?_ne (stays star), ih]
      rfl
  | doubledQuote later ih => rw [maskFrom.eq_9, ih]; rfl
  | closeVerbatim single later ih =>
      rw [maskFrom.eq_10 _ _ fun more => ne_cons_of_head?_ne single, ih]
      rfl
  | verbatim c notQuote later ih =>
      rw [maskFrom.eq_11 _ _ _ (fun _ quote => (notQuote quote).elim) notQuote, ih]
      rfl
  | escape escapes c later ih =>
      rw [maskFrom.eq_12 _ _ _ _ escapes.ne_code escapes.ne_blockComment escapes.ne_verbatim, ih]
      rfl
  | closeLiteral escapes later ih =>
      rw [maskFrom.eq_13]
      · rw [if_pos rfl, ih]
        rfl
      all_goals grind [escapes.ne_code, escapes.ne_blockComment, escapes.ne_verbatim,
        escapes.delimiter_ne_backslash]
  | literal escapes c stays single later ih =>
      rw [maskFrom.eq_13]
      · rw [if_neg stays, ih]
        rfl
      all_goals grind [escapes.ne_code, escapes.ne_blockComment, escapes.ne_verbatim]

end PatchLint.Mask

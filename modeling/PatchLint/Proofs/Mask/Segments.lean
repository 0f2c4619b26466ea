import PatchLint.Proofs.Mask.Rules
import PatchLint.Proofs.Text.Lines

/-!
# Masking against a grammar of segments

A source text is a row of segments: characters of code, comments, and string and
character literals. Each segment says how it is spelled and how it looks when it
is masked, and `Lexed` says which segments may stand next to each other. The
masker knows nothing of segments; it goes line by line and character by
character. `codeLines_source` says that it finds the segments all the same.
-/

namespace PatchLint.Mask

/-! ## Segments -/

/-- A piece of a literal between two `quote`s, in which a backslash escapes. -/
inductive LiteralItem (quote : Char) where
  | plain (c : Char) (notQuote : c ≠ quote) (notBackslash : c ≠ '\\') (notNewline : c ≠ '\n')
  | escaped (c : Char) (notNewline : c ≠ '\n')

/-- A piece of a verbatim string. -/
inductive VerbatimItem where
  | plain (c : Char) (notQuote : c ≠ '"')
  | doubledQuote

/-- A part of a source text. -/
inductive Segment where
  /-- A character of code. -/
  | code (c : Char) (notQuote : c ≠ '"') (notApostrophe : c ≠ '\'')
  /-- A comment up to the end of its line. -/
  | lineComment (text : Text) (oneLine : '\n' ∉ text)
  /-- A comment between its delimiters, which ends at the first chance. -/
  | blockComment (text : Text) (unclosed : ¬ ['*', '/'] <:+: text)
  /-- A string in which a backslash escapes. -/
  | string (items : List (LiteralItem '"'))
  /-- A character literal. -/
  | character (items : List (LiteralItem '\''))
  /-- A string in which a quote is written twice. -/
  | verbatim (items : List VerbatimItem)

namespace LiteralItem

variable {quote : Char}

/-- The spelling of a piece. -/
def source : LiteralItem quote → Text
  | .plain c _ _ _ => [c]
  | .escaped c _ => ['\\', c]

/-- What is left of a piece. -/
def masked (item : LiteralItem quote) : Text :=
  List.replicate item.source.length ' '

end LiteralItem

/-- Text of which only the line feeds are left. -/
def blankOut (text : Text) : Text :=
  text.map fun c => if c = '\n' then '\n' else ' '

namespace VerbatimItem

/-- The spelling of a piece. -/
def source : VerbatimItem → Text
  | .plain c _ => [c]
  | .doubledQuote => ['"', '"']

/-- What is left of a piece. -/
def masked (item : VerbatimItem) : Text :=
  blankOut item.source

end VerbatimItem

/-- The text ends with what makes the next quote open a verbatim string. -/
def IntroducesVerbatim (prior : Text) : Prop :=
  ['@'] <:+ prior ∨ ['@', '$'] <:+ prior

namespace Segment

/-- The spelling of a segment. -/
def source : Segment → Text
  | .code c _ _ => [c]
  | .lineComment text _ => '/' :: '/' :: text
  | .blockComment text _ => '/' :: '*' :: (text ++ ['*', '/'])
  | .string items => '"' :: (items.flatMap LiteralItem.source ++ ['"'])
  | .character items => '\'' :: (items.flatMap LiteralItem.source ++ ['\''])
  | .verbatim items => '"' :: (items.flatMap VerbatimItem.source ++ ['"'])

/-- A masked segment: code as it stands, comments blank, and literals blank
between their delimiters. -/
def masked : Segment → Text
  | .code c _ _ => [c]
  | .lineComment text _ => ' ' :: ' ' :: List.replicate text.length ' '
  | .blockComment text _ => ' ' :: ' ' :: (blankOut text ++ [' ', ' '])
  | .string items => '"' :: (items.flatMap LiteralItem.masked ++ ['"'])
  | .character items => '\'' :: (items.flatMap LiteralItem.masked ++ ['\''])
  | .verbatim items => '"' :: (items.flatMap VerbatimItem.masked ++ ['"'])

/-- The segment may stand between `prior` and `rest`. -/
def Fits (prior rest : Text) : Segment → Prop
  | .code c _ _ => c = '/' → rest.head? ≠ some '/' ∧ rest.head? ≠ some '*'
  | .lineComment _ _ => rest = [] ∨ rest.head? = some '\n'
  | .blockComment _ _ => True
  | .string _ => ¬ IntroducesVerbatim prior
  | .character _ => True
  | .verbatim _ => IntroducesVerbatim prior ∧ rest.head? ≠ some '"'

end Segment

/-- The text that segments spell. -/
def sourceOf (segments : List Segment) : Text :=
  segments.flatMap Segment.source

/-- What masking should leave of segments. -/
def maskedOf (segments : List Segment) : Text :=
  segments.flatMap Segment.masked

/-- Segments that may follow each other behind `prior`. -/
inductive Lexed : Text → List Segment → Prop where
  | nil {prior} : Lexed prior []
  | cons {prior segment segments} (fits : segment.Fits prior (sourceOf segments))
      (later : Lexed (prior ++ segment.source) segments) : Lexed prior (segment :: segments)

/-! ## Masking across lines -/

/-- The part of what was read that belongs to the current line, the nearest
character first. -/
def lineSoFar (before : Text) : Text :=
  before.takeWhile (· != '\n')

/-- `MasksTo mode before text out`: the masker, in `mode` and behind `before`,
turns a text of several lines into `out`. -/
def MasksTo (mode : Mode) (before text out : Text) : Prop :=
  ∀ line more, text.lines = line :: more → ∃ maskedLine last,
    Masked mode (lineSoFar before) line maskedLine last ∧
      out.lines = maskedLine :: maskLines last.nextLine more

private theorem lineSoFar_newline (before : Text) : lineSoFar ('\n' :: before) = [] := by
  simp [lineSoFar]

private theorem lineSoFar_cons {c : Char} (other : c ≠ '\n') (before : Text) :
    lineSoFar (c :: before) = c :: lineSoFar before := by
  simp [lineSoFar, other]

namespace MasksTo

variable {mode next : Mode} {before rest out : Text}

/-- An empty piece masks to an empty one. -/
theorem nil : MasksTo mode before [] [] := by
  intro line more split
  rw [Text.lines_nil] at split
  injection split with lineEq moreEq
  subst lineEq moreEq
  exact ⟨[], mode, .done, by simp [maskLines]⟩

/-- At the start of a line, masking across lines is masking line after line. -/
theorem lines_eq {text : Text} (masks : MasksTo mode before text out)
    (fresh : lineSoFar before = []) : out.lines = maskLines mode text.lines := by
  obtain ⟨line, more, split⟩ := text.exists_lines_eq_cons
  obtain ⟨maskedLine, last, masked, outLines⟩ := masks line more split
  rw [fresh] at masked
  simp only [outLines, split, maskLines, maskLine, masked.eq]

/-- A line feed stays, and the next line starts afresh. -/
theorem newline (later : MasksTo mode.nextLine ('\n' :: before) rest out) :
    MasksTo mode before ('\n' :: rest) ('\n' :: out) := by
  intro line more split
  rw [Text.lines_newline] at split
  injection split with lineEq moreEq
  subst lineEq moreEq
  exact ⟨[], mode, .done, by rw [Text.lines_newline, later.lines_eq (lineSoFar_newline before)]⟩

/-- One character that is masked as one. Of the line behind it only its start is
known: it is the start of the rest. -/
theorem step {c shown : Char} (other : c ≠ '\n') (shownOther : shown ≠ '\n')
    (rule : ∀ {line maskedLine last}, (∀ d, line.head? = some d → rest.head? = some d) →
      Masked next (c :: lineSoFar before) line maskedLine last →
      Masked mode (lineSoFar before) (c :: line) (shown :: maskedLine) last)
    (later : MasksTo next (c :: before) rest out) :
    MasksTo mode before (c :: rest) (shown :: out) := by
  intro line more split
  obtain ⟨restLine, restMore, restSplit⟩ := rest.exists_lines_eq_cons
  rw [Text.lines_cons_of_eq other restSplit] at split
  injection split with lineEq moreEq
  subst lineEq moreEq
  obtain ⟨maskedLine, last, masked, outLines⟩ := later restLine restMore restSplit
  rw [lineSoFar_cons other] at masked
  refine ⟨shown :: maskedLine, last, rule ?_ masked, Text.lines_cons_of_eq shownOther outLines⟩
  exact fun d starts => Text.head?_of_lines_eq restSplit starts

/-- Two characters that are masked as two spaces. -/
theorem stepTwo {c d : Char} (cOther : c ≠ '\n') (dOther : d ≠ '\n')
    (rule : ∀ {line maskedLine last},
      Masked next (d :: c :: lineSoFar before) line maskedLine last →
      Masked mode (lineSoFar before) (c :: d :: line) (' ' :: ' ' :: maskedLine) last)
    (later : MasksTo next (d :: c :: before) rest out) :
    MasksTo mode before (c :: d :: rest) (' ' :: ' ' :: out) := by
  intro line more split
  obtain ⟨restLine, restMore, restSplit⟩ := rest.exists_lines_eq_cons
  rw [Text.lines_cons_of_eq cOther (Text.lines_cons_of_eq dOther restSplit)] at split
  injection split with lineEq moreEq
  subst lineEq moreEq
  obtain ⟨maskedLine, last, masked, outLines⟩ := later restLine restMore restSplit
  rw [lineSoFar_cons dOther, lineSoFar_cons cOther] at masked
  exact ⟨' ' :: ' ' :: maskedLine, last, rule masked,
    Text.lines_cons_of_eq (by decide) (Text.lines_cons_of_eq (by decide) outLines)⟩

/-! ### Comments -/

/-- Behind a line comment the line ends, and it is blank from the comment on. -/
theorem lineComment {text : Text} (oneLine : '\n' ∉ text)
    (ends : rest = [] ∨ rest.head? = some '\n')
    (later : MasksTo .code (text.reverse ++ '/' :: '/' :: before) rest out) :
    MasksTo .code before ('/' :: '/' :: (text ++ rest))
      (' ' :: ' ' :: (List.replicate text.length ' ' ++ out)) := by
  obtain ⟨more, restSplit⟩ : ∃ more, rest.lines = [] :: more := by
    rcases ends with rfl | feed
    · exact ⟨[], Text.lines_nil⟩
    · obtain ⟨tail, rfl⟩ := List.head?_eq_some_iff.mp feed
      exact ⟨Text.lines tail, Text.lines_newline tail⟩
  obtain ⟨maskedLine, last, masked, outLines⟩ := later [] more restSplit
  cases masked
  intro line others split
  have spelled : Text.lines ('/' :: '/' :: (text ++ rest)) = ('/' :: '/' :: text) :: more := by
    have oneLineToo : '\n' ∉ '/' :: '/' :: text := by simp [oneLine]
    simpa using Text.lines_append_of_eq oneLineToo restSplit
  rw [spelled] at split
  injection split with lineEq moreEq
  subst lineEq moreEq
  refine ⟨_, .code, .lineComment text, ?_⟩
  have blanks : '\n' ∉ List.replicate (text.length + 2) ' ' := by
    simp [List.mem_replicate]
  have shown := Text.lines_append_of_eq blanks outLines
  rw [List.append_nil] at shown
  exact shown

/-- A block comment is blank up to its end, its line feeds apart. -/
theorem commentText {text : Text} (unclosed : ¬ ['*', '/'] <:+: text)
    (later : MasksTo .code ('/' :: '*' :: (text.reverse ++ before)) rest out) :
    MasksTo .blockComment before (text ++ '*' :: '/' :: rest)
      (blankOut text ++ ' ' :: ' ' :: out) := by
  induction text generalizing before with
  | nil => exact stepTwo (by decide) (by decide) .closeComment later
  | cons c text ih =>
      have tailUnclosed : ¬ ['*', '/'] <:+: text := fun closed =>
        unclosed (closed.trans (List.suffix_cons c text).isInfix)
      have tail := @ih (c :: before) tailUnclosed (by simpa using later)
      by_cases feed : c = '\n'
      · subst feed
        exact newline tail
      · rw [blankOut, List.map_cons, if_neg feed]
        refine step feed (by decide) (fun starts masked => .comment c (fun star slash => ?_) masked)
          tail
        -- The comment would have ended here.
        subst star
        have next := starts '/' slash
        cases text with
        | nil => simp at next
        | cons d text =>
            injection next with next
            subst next
            exact unclosed ⟨[], text, rfl⟩

/-! ### Literals -/

/-- A literal in which a backslash escapes is blank up to its delimiter. -/
theorem literalItems (escapes : mode.Escapes) (items : List (LiteralItem mode.delimiter))
    (later : MasksTo .code
      (mode.delimiter :: ((items.flatMap LiteralItem.source).reverse ++ before)) rest out) :
    MasksTo mode before (items.flatMap LiteralItem.source ++ mode.delimiter :: rest)
      (items.flatMap LiteralItem.masked ++ mode.delimiter :: out) := by
  induction items generalizing before with
  | nil =>
      have other : mode.delimiter ≠ '\n' := by
        rcases escapes with rfl | rfl <;> decide
      exact step other other (fun _ masked => .closeLiteral escapes masked) later
  | cons item items ih =>
      cases item with
      | plain c notQuote notBackslash notNewline =>
          have tail := @ih (c :: before) (by simpa [LiteralItem.source] using later)
          refine step notNewline (by decide) (fun _ masked => ?_) tail
          exact .literal escapes c notQuote (fun backslash => absurd backslash notBackslash) masked
      | escaped c notNewline =>
          have tail := @ih (c :: '\\' :: before)
            (by simpa [LiteralItem.source] using later)
          exact stepTwo (by decide) notNewline (.escape escapes c) tail

/-- A verbatim string is blank up to the quote that stands alone, its line feeds
apart. -/
theorem verbatimItems (single : rest.head? ≠ some '"') (items : List VerbatimItem)
    (later : MasksTo .code
      ('"' :: ((items.flatMap VerbatimItem.source).reverse ++ before)) rest out) :
    MasksTo .verbatim before (items.flatMap VerbatimItem.source ++ '"' :: rest)
      (items.flatMap VerbatimItem.masked ++ '"' :: out) := by
  induction items generalizing before with
  | nil =>
      refine step (by decide) (by decide) (fun starts masked => ?_) later
      exact .closeVerbatim (fun quote => single (starts _ quote)) masked
  | cons item items ih =>
      cases item with
      | plain c notQuote =>
          have tail := @ih (c :: before) (by simpa [VerbatimItem.source] using later)
          by_cases feed : c = '\n'
          · subst feed
            exact newline tail
          · have blank : (VerbatimItem.plain c notQuote :: items).flatMap VerbatimItem.masked =
                ' ' :: items.flatMap VerbatimItem.masked := by
              simp [VerbatimItem.masked, VerbatimItem.source, blankOut, feed]
            rw [blank]
            exact step feed (by decide) (fun _ masked => .verbatim c notQuote masked) tail
      | doubledQuote =>
          have tail := @ih ('"' :: '"' :: before)
            (by simpa [VerbatimItem.source] using later)
          exact stepTwo (by decide) (by decide) .doubledQuote tail

end MasksTo

/-! ## Segment by segment -/

/-- The masker looks at the same characters as the grammar to tell verbatim
strings. -/
theorem opensVerbatim_lineSoFar (prior : Text) :
    opensVerbatim (lineSoFar prior.reverse) = true ↔ IntroducesVerbatim prior := by
  rw [IntroducesVerbatim, ← List.reverse_prefix, ← List.reverse_prefix]
  generalize prior.reverse = before
  cases before with
  | nil => simp [lineSoFar, opensVerbatim]
  | cons c before =>
      by_cases feed : c = '\n'
      · subst feed
        simp [lineSoFar_newline, opensVerbatim]
      · rw [lineSoFar_cons feed, opensVerbatim_cons]
        cases before with
        | nil => simp [lineSoFar, eq_comm (a := '@')]
        | cons d before =>
            by_cases secondFeed : d = '\n'
            · subst secondFeed
              simp [lineSoFar_newline, eq_comm (a := '@')]
            · simp [lineSoFar_cons secondFeed, eq_comm (a := '@'), eq_comm (a := '$')]

/-- Each segment is masked as the grammar says, whatever comes behind it. -/
theorem Segment.masksTo {segment : Segment} {prior rest out : Text}
    (fits : segment.Fits prior rest)
    (later : MasksTo .code (segment.source.reverse ++ prior.reverse) rest out) :
    MasksTo .code prior.reverse (segment.source ++ rest) (segment.masked ++ out) := by
  cases segment with
  | code c notQuote notApostrophe =>
      by_cases feed : c = '\n'
      · subst feed
        exact .newline later
      · refine .step feed feed (fun starts masked => .code c ⟨notQuote, notApostrophe, ?_⟩ masked)
          later
        intro slash
        exact ⟨fun next => (fits slash).1 (starts _ next),
          fun next => (fits slash).2 (starts _ next)⟩
  | lineComment text oneLine => exact .lineComment oneLine fits (by simpa [source] using later)
  | blockComment text unclosed =>
      have body : MasksTo .blockComment ('*' :: '/' :: prior.reverse) (text ++ '*' :: '/' :: rest)
          (blankOut text ++ ' ' :: ' ' :: out) :=
        .commentText unclosed (by simpa [source] using later)
      simpa [source, masked] using
        MasksTo.stepTwo (by decide) (by decide) .openComment body
  | string items =>
      have opens : opensVerbatim (lineSoFar prior.reverse) = false :=
        Bool.eq_false_iff.mpr fun opens => fits ((opensVerbatim_lineSoFar prior).mp opens)
      have body : MasksTo .string ('"' :: prior.reverse)
          (items.flatMap LiteralItem.source ++ '"' :: rest)
          (items.flatMap LiteralItem.masked ++ '"' :: out) :=
        .literalItems (.inl rfl) items (by simpa [source, Mode.delimiter] using later)
      have opened : MasksTo .code prior.reverse
          ('"' :: (items.flatMap LiteralItem.source ++ '"' :: rest))
          ('"' :: (items.flatMap LiteralItem.masked ++ '"' :: out)) :=
        .step (by decide) (by decide)
          (fun _ masked => .openQuote (by simpa [opens] using masked)) body
      simpa [source, masked] using opened
  | character items =>
      have body : MasksTo .character ('\'' :: prior.reverse)
          (items.flatMap LiteralItem.source ++ '\'' :: rest)
          (items.flatMap LiteralItem.masked ++ '\'' :: out) :=
        .literalItems (.inr rfl) items (by simpa [source, Mode.delimiter] using later)
      have opened : MasksTo .code prior.reverse
          ('\'' :: (items.flatMap LiteralItem.source ++ '\'' :: rest))
          ('\'' :: (items.flatMap LiteralItem.masked ++ '\'' :: out)) :=
        .step (by decide) (by decide) (fun _ masked => .openCharacter masked) body
      simpa [source, masked] using opened
  | verbatim items =>
      obtain ⟨introduced, single⟩ := fits
      have opens := (opensVerbatim_lineSoFar prior).mpr introduced
      have body : MasksTo .verbatim ('"' :: prior.reverse)
          (items.flatMap VerbatimItem.source ++ '"' :: rest)
          (items.flatMap VerbatimItem.masked ++ '"' :: out) :=
        .verbatimItems single items (by simpa [source] using later)
      have opened : MasksTo .code prior.reverse
          ('"' :: (items.flatMap VerbatimItem.source ++ '"' :: rest))
          ('"' :: (items.flatMap VerbatimItem.masked ++ '"' :: out)) :=
        .step (by decide) (by decide)
          (fun _ masked => .openQuote (by simpa [opens] using masked)) body
      simpa [source, masked] using opened

private theorem Lexed.masksTo {prior : Text} {segments : List Segment}
    (lexed : Lexed prior segments) :
    MasksTo .code prior.reverse (sourceOf segments) (maskedOf segments) := by
  induction lexed with
  | nil => exact .nil
  | cons fits _ ih =>
      rw [List.reverse_append] at ih
      exact Segment.masksTo fits ih

/-- Whatever segments a text is made of, as long as they may stand next to each
other, its masked lines are the lines of the masked segments. -/
theorem codeLines_source {segments : List Segment} (lexed : Lexed [] segments) :
    codeLines (sourceOf segments) = (maskedOf segments).lines := by
  have masks := lexed.masksTo
  exact (masks.lines_eq rfl).symm

/-- A verbatim string of two lines, a comment, two literals and a comment, with
nothing between them. -/
def mixedSegments : List Segment :=
  [.code '@' (by decide) (by decide),
    .verbatim [.plain '{' (by decide), .doubledQuote, .plain '\n' (by decide)],
    .blockComment ['*', '}'] (by decide),
    .string [.escaped '"' (by decide), .plain '/' (by decide) (by decide) (by decide)],
    .character [.plain '{' (by decide) (by decide) (by decide)],
    .lineComment ['"'] (by decide)]

private theorem lexed_mixedSegments : Lexed [] mixedSegments := by
  refine .cons ?_ (.cons ?_ (.cons trivial (.cons ?_ (.cons trivial (.cons ?_ .nil)))))
  · exact fun slash => absurd slash (by decide)
  · exact ⟨.inl (by decide), by decide⟩
  · exact not_or_intro (by decide) (by decide)
  · exact .inl rfl

/-- The segments spell one text, whose lines are masked segment by segment. -/
theorem codeLines_mixedSegments :
    sourceOf mixedSegments =
        r#"@"{"""#.toList ++ '\n' :: r#""/**}*/"\"/"'{'//""#.toList ∧
      codeLines (sourceOf mixedSegments) =
        ["@\"   ".toList, "\"      \"   \"' '   ".toList] :=
  ⟨by decide, (codeLines_source lexed_mixedSegments).trans (by decide)⟩

end PatchLint.Mask

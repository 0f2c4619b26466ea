import Mathlib.Data.List.Infix
import PatchLint.Proofs.Mask.Rules

/-!
# Two readings of a comment

The search for the comment of a line and the masker both follow literals. They keep in
step as long as a literal means the same to both. It does not in a verbatim string: to
the masker a backslash there is itself, to the search it escapes. So a quote behind an
odd number of backslashes ends the string for one of them only.

`Meets` says where the masker comes upon its first comment, in terms of what it makes of
the text before it. The two readings are compared turn by turn of the masker. They agree
on a line if and only if they agree from its first misread quote on, and so on every line
without one.
-/

namespace PatchLint.Mask

variable {mode next : Mode} {before line text front behind piece rest : Text}

/-! ## Comments -/

/-- A comment sign starts the text. -/
def StartsComment (text : Text) : Prop :=
  ['/', '/'] <+: text ∨ ['/', '*'] <+: text

instance (text : Text) : Decidable (StartsComment text) :=
  inferInstanceAs (Decidable (_ ∨ _))

/-- Behind its opening sign a block comment says `text`: everything before the first sign that
closes it, or all if there is none. -/
def BlockText (rest text : Text) : Prop :=
  (∃ more, rest = text ++ '*' :: '/' :: more ∧ ¬ ['*', '/'] <:+: text ++ ['*']) ∨
    (rest = text ∧ ¬ ['*', '/'] <:+: text)

/-- A comment starts the first text and says the second one. -/
inductive CommentText : Text → Text → Prop where
  | line (text : Text) : CommentText ('/' :: '/' :: text) text
  | block {rest text : Text} (blockText : BlockText rest text) :
      CommentText ('/' :: '*' :: rest) text

private theorem commentText_line_iff : CommentText ('/' :: '/' :: rest) text ↔ rest = text := by
  constructor
  · rintro ⟨⟩
    rfl
  · rintro rfl
    exact .line rest

private theorem blockText_nil_iff : BlockText [] text ↔ [] = text := by
  constructor
  · rintro (⟨more, split, _⟩ | ⟨rfl, _⟩)
    · simp at split
    · rfl
  · rintro rfl
    exact .inr ⟨rfl, by decide⟩

private theorem blockText_close_iff {more : Text} :
    BlockText ('*' :: '/' :: more) text ↔ [] = text := by
  constructor
  · rintro (⟨tail, split, first⟩ | ⟨rfl, endless⟩)
    · -- A longer text would hold the sign.
      rcases text with _ | ⟨c, _ | ⟨d, text⟩⟩
      · rfl
      · simp at split
      · obtain ⟨rfl, rfl, _⟩ : '*' = c ∧ '/' = d ∧ more = text ++ '*' :: '/' :: tail := by
          simpa using split
        exact absurd ⟨[], text ++ ['*'], rfl⟩ first
    · exact absurd ⟨[], more, rfl⟩ endless
  · rintro rfl
    exact .inl ⟨more, rfl, by decide⟩

/-- A character with which the closing sign does not start belongs to the text. -/
theorem blockText_cons_iff {c : Char} (stays : c = '*' → rest.head? ≠ some '/') :
    BlockText (c :: rest) text ↔ ∃ more, text = c :: more ∧ BlockText rest more := by
  have unclosed : ∀ {more : Text}, (more.head? = some '/' → rest.head? = some '/') →
      ¬ ['*', '/'] <:+: more → ¬ ['*', '/'] <:+: c :: more := by
    intro more goesOn endless closes
    rcases List.infix_cons_iff.mp closes with ⟨tail, starts⟩ | later
    · obtain ⟨rfl, rfl⟩ := List.cons.inj starts
      exact stays rfl (goesOn rfl)
    · exact endless later
  have shorter : ∀ {more : Text}, ¬ ['*', '/'] <:+: c :: more → ¬ ['*', '/'] <:+: more :=
    fun endless later => endless (List.infix_cons later)
  constructor
  · rintro (⟨tail, split, first⟩ | ⟨rfl, endless⟩)
    · cases text with
      | nil =>
          obtain ⟨rfl, rfl⟩ := List.cons.inj split
          exact absurd rfl (stays rfl)
      | cons d more =>
          obtain ⟨rfl, rfl⟩ := List.cons.inj split
          exact ⟨more, rfl, .inl ⟨tail, rfl, shorter first⟩⟩
    · exact ⟨rest, rfl, .inr ⟨rfl, shorter endless⟩⟩
  · rintro ⟨more, rfl, ⟨tail, rfl, first⟩ | ⟨rfl, endless⟩⟩
    · refine .inl ⟨tail, rfl, unclosed ?_ first⟩
      cases more <;> simp
    · exact .inr ⟨rfl, unclosed id endless⟩

private theorem blockText_iff : BlockText rest text ↔ blockCommentText rest = text := by
  induction rest generalizing text with
  | nil => exact blockText_nil_iff
  | cons c rest ih =>
      by_cases closes : c = '*' ∧ rest.head? = some '/'
      · obtain ⟨rfl, starts⟩ := closes
        obtain ⟨more, rfl⟩ := List.head?_eq_some_iff.mp starts
        exact blockText_close_iff
      · have stays : c = '*' → rest.head? ≠ some '/' := fun star starts => closes ⟨star, starts⟩
        rw [blockText_cons_iff stays, blockCommentText.eq_2]
        · simp only [ih]
          constructor
          · rintro ⟨_, rfl, rfl⟩
            rfl
          · rintro rfl
            exact ⟨_, rfl, rfl⟩
        · rintro more rfl rfl
          exact stays rfl rfl

private theorem commentText_block_iff :
    CommentText ('/' :: '*' :: rest) text ↔ blockCommentText rest = text := by
  rw [← blockText_iff]
  constructor
  · rintro (_ | blockText)
    exact blockText
  · exact .block

/-! ## Places -/

/-- The masker has read `front` behind `before`, is in code, and a comment starts. -/
def OpensAt (mode : Mode) (before front behind : Text) : Prop :=
  (maskFrom mode before front).2 = .code ∧ StartsComment behind

instance (mode : Mode) (before front behind : Text) :
    Decidable (OpensAt mode before front behind) :=
  inferInstanceAs (Decidable (_ ∧ _))

/-- There is an odd number of backslashes before a place, the nearest character first. -/
def isEscaped : Text → Bool
  | '\\' :: before => !isEscaped before
  | _ => false

/-- The masker has read `front` behind `before` and is in a verbatim string, and a quote
follows that looks escaped. -/
def MisreadAt (mode : Mode) (before front behind : Text) : Prop :=
  (maskFrom mode before front).2 = .verbatim ∧ isEscaped (front.reverse ++ before) = true ∧
    behind.head? = some '"'

/-- Something happens between two parts of a text, and it does not happen before. -/
structure FirstAt (event : Text → Text → Prop) (front behind : Text) : Prop where
  here : event front behind
  first : ∀ earlier between, front = earlier ++ between → between ≠ [] →
    ¬ event earlier (between ++ behind)

private theorem FirstAt.nil {event : Text → Text → Prop} (happens : event [] behind) :
    FirstAt event [] behind where
  here := happens
  first _ _ split some := absurd (List.append_eq_nil_iff.mp split.symm).2 some

private theorem FirstAt.eq_nil {event : Text → Text → Prop} (first : FirstAt event front behind)
    (happens : event [] (front ++ behind)) : front = [] := by
  by_contra some
  exact first.first [] front rfl some happens

/-- A place in a text lies behind a piece at its start or inside of the piece. -/
theorem append_split (split : piece ++ rest = front ++ behind) :
    (∃ further, front = piece ++ further ∧ rest = further ++ behind) ∨
      ∃ between, between ≠ [] ∧ piece = front ++ between ∧ behind = between ++ rest := by
  rcases List.append_eq_append_iff.mp split with ⟨further, frontEq, restEq⟩ |
    ⟨between, pieceEq, behindEq⟩
  · exact .inl ⟨further, frontEq, restEq⟩
  · cases between with
    | nil => exact .inl ⟨[], by simpa using pieceEq.symm, by simpa using behindEq.symm⟩
    | cons c between => exact .inr ⟨c :: between, by simp, pieceEq, behindEq⟩

/-- What happens first behind a piece in which nothing happens. -/
theorem firstAt_append {event later : Text → Text → Prop}
    (shift : ∀ front behind, rest = front ++ behind →
      (event (piece ++ front) behind ↔ later front behind))
    (quiet : ∀ front between, piece = front ++ between → between ≠ [] →
      ¬ event front (between ++ rest))
    (split : piece ++ rest = front ++ behind) :
    FirstAt event front behind ↔
      ∃ further, front = piece ++ further ∧ rest = further ++ behind ∧
        FirstAt later further behind := by
  constructor
  · rintro ⟨here, first⟩
    rcases append_split split with ⟨further, rfl, restEq⟩ | ⟨between, some, pieceEq, rfl⟩
    · refine ⟨further, rfl, restEq, (shift _ _ restEq).mp here, ?_⟩
      rintro earlier between rfl some happens
      refine first (piece ++ earlier) between (by simp) some ?_
      exact (shift _ _ (by simpa using restEq)).mpr happens
    · exact absurd here (quiet front between pieceEq some)
  · rintro ⟨further, rfl, restEq, here, first⟩
    refine ⟨(shift _ _ restEq).mpr here, fun earlier between splitEarlier some happens => ?_⟩
    rcases append_split splitEarlier with ⟨more, rfl, rfl⟩ | ⟨more, someMore, pieceEq, rfl⟩
    · refine first more between rfl some ((shift _ _ ?_).mp happens)
      simpa using restEq
    · refine quiet earlier more pieceEq someMore ?_
      rwa [List.append_assoc, ← restEq] at happens

/-- The masker, in `mode` behind `before`, meets a first comment in the line, with this text. -/
def Meets (mode : Mode) (before line text : Text) : Prop :=
  ∃ front behind, line = front ++ behind ∧ FirstAt (OpensAt mode before) front behind ∧
    CommentText behind text

/-- The quote behind `front` is the first one in the line that is misread, and no comment is met
before it. -/
def Departs (mode : Mode) (before front rest : Text) : Prop :=
  FirstAt (fun front behind => OpensAt mode before front behind ∨
      MisreadAt mode before front behind) front ('"' :: rest) ∧
    MisreadAt mode before front ('"' :: rest)

private theorem mode_maskFrom_nil (mode : Mode) (before : Text) :
    (maskFrom mode before []).2 = mode := by
  rw [maskFrom.eq_1]

/-! ## Turns of the masker -/

/-- The masker reads a piece in one turn and goes on in the mode `next`, also if the line ends
earlier. No comment starts in the piece. -/
structure Turn (mode : Mode) (before piece rest : Text) (next : Mode) : Prop where
  run : ∃ shown, ∀ front, front <+: rest → maskFrom mode before (piece ++ front) =
    (shown ++ (maskFrom next (piece.reverse ++ before) front).1,
      (maskFrom next (piece.reverse ++ before) front).2)
  unopened : ∀ front between, piece = front ++ between → between ≠ [] →
    ¬ OpensAt mode before front (between ++ rest)

namespace Turn

private theorem mode_eq (turn : Turn mode before piece rest next) (split : rest = front ++ behind) :
    (maskFrom mode before (piece ++ front)).2 =
      (maskFrom next (piece.reverse ++ before) front).2 := by
  obtain ⟨shown, run⟩ := turn.run
  rw [run front ⟨behind, split.symm⟩]

private theorem opensAt_iff (turn : Turn mode before piece rest next)
    (split : rest = front ++ behind) :
    OpensAt mode before (piece ++ front) behind ↔
      OpensAt next (piece.reverse ++ before) front behind := by
  rw [OpensAt, OpensAt, turn.mode_eq split]

private theorem misreadAt_iff (turn : Turn mode before piece rest next)
    (split : rest = front ++ behind) :
    MisreadAt mode before (piece ++ front) behind ↔
      MisreadAt next (piece.reverse ++ before) front behind := by
  rw [MisreadAt, MisreadAt, turn.mode_eq split, List.reverse_append, List.append_assoc]

private theorem firstAt_iff (turn : Turn mode before piece rest next)
    (split : piece ++ rest = front ++ behind) :
    FirstAt (OpensAt mode before) front behind ↔ ∃ further, front = piece ++ further ∧
      rest = further ++ behind ∧ FirstAt (OpensAt next (piece.reverse ++ before)) further behind :=
  firstAt_append (fun _ _ => turn.opensAt_iff) turn.unopened split

private theorem meets_iff (turn : Turn mode before piece rest next) :
    Meets mode before (piece ++ rest) text ↔ Meets next (piece.reverse ++ before) rest text := by
  constructor
  · rintro ⟨front, behind, split, opens, comment⟩
    obtain ⟨further, _, restEq, later⟩ := (turn.firstAt_iff split).mp opens
    exact ⟨further, behind, restEq, later, comment⟩
  · rintro ⟨further, behind, rfl, later, comment⟩
    refine ⟨piece ++ further, behind, by simp, ?_, comment⟩
    exact (turn.firstAt_iff (by simp)).mpr ⟨further, rfl, rfl, later⟩

/-- A turn in which one character is read. -/
theorem single {c shown : Char}
    (rule : ∀ {front out last}, front <+: rest → Masked next (c :: before) front out last →
      Masked mode before (c :: front) (shown :: out) last)
    (unopened : mode = .code → ¬ StartsComment (c :: rest)) :
    Turn mode before [c] rest next where
  run := ⟨[shown], fun front leads => (rule leads (masked_maskFrom next (c :: before) front)).eq⟩
  unopened front between pieceEq some opens := by
    obtain ⟨rfl, rfl⟩ := (List.singleton_eq_append_iff.mp pieceEq).resolve_right
      fun none => some none.2
    rw [OpensAt, mode_maskFrom_nil] at opens
    exact unopened opens.1 opens.2

/-- A turn in which two characters are read. -/
theorem double {c d : Char}
    (rule : ∀ {front out last}, Masked next (d :: c :: before) front out last →
      Masked mode before (c :: d :: front) (' ' :: ' ' :: out) last)
    (notCode : mode ≠ .code) (between : ¬ OpensAt mode before [c] (d :: rest)) :
    Turn mode before [c, d] rest next where
  run := ⟨[' ', ' '], fun front _ => (rule (masked_maskFrom next (d :: c :: before) front)).eq⟩
  unopened front behind pieceEq some opens := by
    rcases List.cons_eq_append_iff.mp pieceEq with ⟨rfl, rfl⟩ | ⟨front, rfl, splitRest⟩
    · rw [OpensAt, mode_maskFrom_nil] at opens
      exact notCode opens.1
    · obtain ⟨rfl, rfl⟩ :=
        (List.singleton_eq_append_iff.mp splitRest).resolve_right fun none => some none.2
      exact between opens

end Turn

/-! ## The search in step with the masker -/

/-- What the search finds that is in step with the masker. In a verbatim string it may have read
a backslash, and then it leaves out a character. -/
def commentIn (mode : Mode) (before line : Text) : Option Text :=
  match mode with
  | .code => commentFrom none line
  | .blockComment => none
  | .string => commentFrom (some '"') line
  | .character => commentFrom (some '\'') line
  | .verbatim => commentFrom (some '"') (if isEscaped before then line.drop 1 else line)

private theorem commentIn_of_escapes (escapes : mode.Escapes) :
    commentIn mode before line = commentFrom (some mode.delimiter) line := by
  rcases escapes with rfl | rfl <;> rfl

private theorem isEscaped_cons {c : Char} :
    isEscaped (c :: before) = (c == '\\' && !isEscaped before) := by
  by_cases backslash : c = '\\'
  · subst backslash
    rfl
  · rw [isEscaped]
    · simp [backslash]
    · simpa using backslash

private theorem commentFrom_none_cons {c : Char} (plain : IsPlain c rest) :
    commentFrom none (c :: rest) = commentFrom none rest := by
  rw [commentFrom.eq_6, if_neg (not_or_intro plain.notQuote plain.notApostrophe)]
  · rintro more rfl rfl
    exact (plain.opensNothing rfl).1 rfl
  · rintro more rfl rfl
    exact (plain.opensNothing rfl).2 rfl

private theorem commentFrom_none_quote {c : Char} (quote : c = '"' ∨ c = '\'') :
    commentFrom none (c :: rest) = commentFrom (some c) rest := by
  rw [commentFrom.eq_6, if_pos quote] <;> grind

private theorem commentFrom_backslash (delimiter : Char) (rest : Text) :
    commentFrom (some delimiter) ('\\' :: rest) = commentFrom (some delimiter) (rest.drop 1) := by
  cases rest with
  | nil => rw [commentFrom.eq_3 _ _ _ (by simp), List.drop_nil, commentFrom.eq_1, commentFrom.eq_1]
  | cons c rest => rw [commentFrom.eq_2, List.drop_one, List.tail_cons]

private theorem commentFrom_delimiter {delimiter : Char} (other : delimiter ≠ '\\') :
    commentFrom (some delimiter) (delimiter :: rest) = commentFrom none rest := by
  rw [commentFrom.eq_3 _ _ _ fun _ _ backslash => (other backslash).elim, if_pos rfl]

private theorem commentFrom_some_cons {delimiter c : Char} (stays : c ≠ delimiter)
    (single : c = '\\' → rest = []) :
    commentFrom (some delimiter) (c :: rest) = commentFrom (some delimiter) rest := by
  rw [commentFrom.eq_3, if_neg stays]
  rintro d more backslash rfl
  simpa using single backslash

private theorem commentIn_openQuote : commentIn .code before ('"' :: rest) =
    commentIn (if opensVerbatim before then .verbatim else .string) ('"' :: before) rest := by
  rw [commentIn, commentFrom_none_quote (.inl rfl)]
  split
  · rw [commentIn, isEscaped_cons, if_neg (by simp)]
  · rfl

private theorem commentIn_doubledQuote (unescaped : isEscaped before = false) :
    commentIn .verbatim before ('"' :: '"' :: rest) =
      commentIn .verbatim ('"' :: '"' :: before) rest := by
  rw [commentIn, commentIn, unescaped, isEscaped_cons, if_neg (by simp), if_neg (by simp),
    commentFrom_delimiter (by decide), commentFrom_none_quote (.inl rfl)]

private theorem commentIn_closeVerbatim (unescaped : isEscaped before = false) :
    commentIn .verbatim before ('"' :: rest) = commentIn .code ('"' :: before) rest := by
  rw [commentIn, commentIn, unescaped, if_neg (by simp), commentFrom_delimiter (by decide)]

private theorem commentIn_verbatim {c : Char} (notQuote : c ≠ '"') :
    commentIn .verbatim before (c :: rest) = commentIn .verbatim (c :: before) rest := by
  rw [commentIn, commentIn, isEscaped_cons]
  cases isEscaped before with
  | true => simp
  | false =>
      by_cases backslash : c = '\\'
      · subst backslash
        simpa using commentFrom_backslash _ _
      · simpa [backslash] using
          commentFrom_some_cons notQuote fun escapes => absurd escapes backslash

/-! ## Fronts of a line -/

private theorem head?_ne_of_leads {c : Char} (leads : front <+: rest)
    (differs : rest.head? ≠ some c) :
    front.head? ≠ some c := by
  obtain ⟨more, rfl⟩ := leads
  cases front with
  | nil => simp
  | cons d front => exact differs

private theorem IsPlain.of_leads {c : Char} (plain : IsPlain c rest) (leads : front <+: rest) :
    IsPlain c front where
  notQuote := plain.notQuote
  notApostrophe := plain.notApostrophe
  opensNothing slash :=
    ⟨head?_ne_of_leads leads (plain.opensNothing slash).1,
      head?_ne_of_leads leads (plain.opensNothing slash).2⟩

private theorem IsPlain.not_startsComment {c : Char} (plain : IsPlain c rest) :
    ¬ StartsComment (c :: rest) := by
  rintro (⟨more, starts⟩ | ⟨more, starts⟩)
  · obtain ⟨rfl, rfl⟩ := List.cons.inj starts
    exact (plain.opensNothing rfl).1 rfl
  · obtain ⟨rfl, rfl⟩ := List.cons.inj starts
    exact (plain.opensNothing rfl).2 rfl

private theorem not_startsComment_cons {c : Char} (other : c ≠ '/') :
    ¬ StartsComment (c :: rest) := by
  rintro (⟨more, starts⟩ | ⟨more, starts⟩)
  · exact other (List.cons.inj starts).1.symm
  · exact other (List.cons.inj starts).1.symm

/-! ## Search and masker in step -/

/-- The search makes the turn as well: no quote in the piece is misread, and the search finds the
same behind the piece. -/
structure InStep (mode : Mode) (before piece rest : Text) (next : Mode) : Prop where
  unmistaken : ∀ front between, piece = front ++ between → between ≠ [] →
    ¬ MisreadAt mode before front (between ++ rest)
  same : commentIn mode before (piece ++ rest) = commentIn next (piece.reverse ++ before) rest

namespace InStep

private theorem single {c : Char}
    (unmistaken : mode = .verbatim → isEscaped before = true → c ≠ '"')
    (same : commentIn mode before (c :: rest) = commentIn next (c :: before) rest) :
    InStep mode before [c] rest next where
  unmistaken front between pieceEq some misread := by
    obtain ⟨rfl, rfl⟩ := (List.singleton_eq_append_iff.mp pieceEq).resolve_right
      fun none => some none.2
    rw [MisreadAt, mode_maskFrom_nil] at misread
    exact unmistaken misread.1 misread.2.1 (Option.some.inj misread.2.2)
  same := same

private theorem double {c d : Char} (unmistaken : mode = .verbatim → isEscaped before = false)
    (between : (maskFrom mode before [c]).2 ≠ .verbatim)
    (same : commentIn mode before (c :: d :: rest) = commentIn next (d :: c :: before) rest) :
    InStep mode before [c, d] rest next where
  unmistaken front behind pieceEq some misread := by
    rcases List.cons_eq_append_iff.mp pieceEq with ⟨rfl, rfl⟩ | ⟨front, rfl, splitRest⟩
    · rw [MisreadAt, mode_maskFrom_nil, List.reverse_nil, List.nil_append] at misread
      rw [unmistaken misread.1] at misread
      exact absurd misread.2.1 (by decide)
    · obtain ⟨rfl, rfl⟩ :=
        (List.singleton_eq_append_iff.mp splitRest).resolve_right fun none => some none.2
      exact between misread.1
  same := same

end InStep

private theorem Turn.departs_iff (turn : Turn mode before piece rest next)
    (inStep : InStep mode before piece rest next) {tail : Text}
    (split : piece ++ rest = front ++ '"' :: tail) :
    Departs mode before front tail ↔
      ∃ further, front = piece ++ further ∧ rest = further ++ '"' :: tail ∧
        Departs next (piece.reverse ++ before) further tail := by
  rw [Departs, firstAt_append
    (fun _ _ splitRest => or_congr (turn.opensAt_iff splitRest) (turn.misreadAt_iff splitRest))
    (fun front between pieceEq some => not_or_intro (turn.unopened front between pieceEq some)
      (inStep.unmistaken front between pieceEq some)) split]
  constructor
  · rintro ⟨⟨further, rfl, restEq, later⟩, misread⟩
    exact ⟨further, rfl, restEq, later, (turn.misreadAt_iff restEq).mp misread⟩
  · rintro ⟨further, rfl, restEq, later, misread⟩
    exact ⟨⟨further, rfl, restEq, later⟩, (turn.misreadAt_iff restEq).mpr misread⟩

/-- What can happen at a place outside of a comment: the line ends, a comment starts, or the
masker makes a turn, in step with the search unless a quote is misread. -/
inductive Happens (mode : Mode) (before : Text) : Text → Prop where
  | ends : Happens mode before []
  | comment {line : Text} (code : mode = .code) (starts : StartsComment line) :
      Happens mode before line
  | turn (piece : Text) {rest : Text} {next : Mode} (some : piece ≠ [])
      (outside : next ≠ .blockComment) (turn : Turn mode before piece rest next)
      (inStep : MisreadAt mode before [] (piece ++ rest) ∨ InStep mode before piece rest next) :
      Happens mode before (piece ++ rest)

private theorem misreadAt_nil (escaped : isEscaped before = true) :
    MisreadAt .verbatim before [] ('"' :: rest) :=
  ⟨mode_maskFrom_nil _ _, escaped, rfl⟩

private theorem Masked.happens {out : Text} {last : Mode}
    (masked : Masked mode before line out last)
    (outside : mode ≠ .blockComment) : Happens mode before line := by
  cases masked with
  | done => exact .ends
  | lineComment rest => exact .comment rfl (.inl (by simp))
  | openComment later => exact .comment rfl (.inr (by simp))
  | openQuote later =>
      refine .turn ['"'] (by simp) (by split <;> decide)
        (.single (fun _ => .openQuote) fun _ => not_startsComment_cons (by decide)) (.inr ?_)
      exact .single (by simp) commentIn_openQuote
  | openCharacter later =>
      refine .turn ['\''] (by simp) (by decide)
        (.single (fun _ => .openCharacter) fun _ => not_startsComment_cons (by decide)) (.inr ?_)
      exact .single (by simp) (commentFrom_none_quote (.inr rfl))
  | code c plain later =>
      refine .turn [c] (by simp) (by decide)
        (.single (fun leads => .code c (plain.of_leads leads)) fun _ => plain.not_startsComment)
        (.inr ?_)
      exact .single (by simp) (commentFrom_none_cons plain)
  -- Only a comment leads into a comment.
  | closeComment later => exact absurd rfl outside
  | comment c stays later => exact absurd rfl outside
  | doubledQuote later =>
      refine .turn ['"', '"'] (by simp) (by decide)
        (.double .doubledQuote (by decide)
          fun opens => not_startsComment_cons (by decide) opens.2) ?_
      cases escaped : isEscaped before with
      | true => exact .inl (misreadAt_nil escaped)
      | false =>
          -- A line that ended between the quotes would leave the masker in code.
          refine .inr (.double (fun _ => escaped) ?_ (commentIn_doubledQuote escaped))
          rw [(Masked.closeVerbatim (by simp) .done).eq]
          decide
  | closeVerbatim single later =>
      refine .turn ['"'] (by simp) (by decide)
        (.single (fun leads => .closeVerbatim (head?_ne_of_leads leads single)) (by simp)) ?_
      cases escaped : isEscaped before with
      | true => exact .inl (misreadAt_nil escaped)
      | false => exact .inr (.single (by simp [escaped]) (commentIn_closeVerbatim escaped))
  | verbatim c notQuote later =>
      refine .turn [c] (by simp) (by decide) (.single (fun _ => .verbatim c notQuote) (by simp))
        (.inr ?_)
      exact .single (fun _ _ => notQuote) (commentIn_verbatim notQuote)
  | escape escapes c later =>
      have stays : (maskFrom mode before ['\\']).2 = mode := by
        rw [(Masked.literal escapes '\\' escapes.delimiter_ne_backslash.symm (fun _ => rfl)
          .done).eq]
      refine .turn ['\\', c] (by simp) outside
        (.double (.escape escapes c) escapes.ne_code
          fun opens => escapes.ne_code (stays.symm.trans opens.1)) (.inr ?_)
      refine .double (fun verbatim => absurd verbatim escapes.ne_verbatim) ?_ ?_
      · rw [stays]
        exact escapes.ne_verbatim
      · rw [commentIn_of_escapes escapes, commentIn_of_escapes escapes]
        exact commentFrom_backslash _ _
  | closeLiteral escapes later =>
      refine .turn [mode.delimiter] (by simp) (by decide)
        (.single (fun _ => .closeLiteral escapes) fun code => absurd code escapes.ne_code) (.inr ?_)
      refine .single (fun verbatim => absurd verbatim escapes.ne_verbatim) ?_
      rw [commentIn_of_escapes escapes]
      exact commentFrom_delimiter escapes.delimiter_ne_backslash
  | @literal _ _ rest _ _ escapes c stays single later =>
      have ends : ∀ {front}, front <+: rest → c = '\\' → front = [] :=
        fun leads backslash => List.prefix_nil.mp (single backslash ▸ leads)
      refine .turn [c] (by simp) outside
        (.single (fun leads => .literal escapes c stays (ends leads))
          fun code => absurd code escapes.ne_code) (.inr ?_)
      refine .single (fun verbatim => absurd verbatim escapes.ne_verbatim) ?_
      rw [commentIn_of_escapes escapes, commentIn_of_escapes escapes]
      exact commentFrom_some_cons stays single

/-! ## Agreement -/

/-- Search and masker find the same comment. -/
def Agrees (mode : Mode) (before line : Text) : Prop :=
  ∀ text, commentIn mode before line = some text ↔ Meets mode before line text

/-- From the first misread quote on, behind which the search is still in a string, both find the
same comment. -/
def Recovers (mode : Mode) (before line : Text) : Prop :=
  ∀ front rest, line = front ++ '"' :: rest → Departs mode before front rest →
    ∀ text, commentFrom (some '"') rest = some text ↔
      Meets .verbatim (front.reverse ++ before) ('"' :: rest) text

private theorem meets_of_startsComment (starts : StartsComment behind) :
    Meets .code before behind text ↔ CommentText behind text := by
  have opens : OpensAt .code before [] behind := ⟨mode_maskFrom_nil _ _, starts⟩
  constructor
  · rintro ⟨front, rest, rfl, first, comment⟩
    obtain rfl := first.eq_nil opens
    exact comment
  · exact fun comment => ⟨[], behind, rfl, .nil opens, comment⟩

/-- What the search finds at a comment sign. -/
theorem commentFrom_eq_some_iff (starts : StartsComment line) :
    commentFrom none line = some text ↔ CommentText line text := by
  rcases starts with ⟨rest, rfl⟩ | ⟨rest, rfl⟩
  · change commentFrom none ('/' :: '/' :: rest) = some text ↔ CommentText ('/' :: '/' :: rest) text
    rw [commentFrom.eq_4, Option.some.injEq, commentText_line_iff]
  · change commentFrom none ('/' :: '*' :: rest) = some text ↔ CommentText ('/' :: '*' :: rest) text
    rw [commentFrom.eq_5, Option.some.injEq, commentText_block_iff]

/-- A comment ends the comparison. -/
theorem agrees_iff_recovers_of_startsComment (starts : StartsComment line) :
    Agrees .code before line ↔ Recovers .code before line := by
  refine iff_of_true (fun text => ?_) ?_
  · rw [commentIn, commentFrom_eq_some_iff starts, meets_of_startsComment starts]
  · rintro front rest rfl ⟨first, misread⟩
    obtain rfl := first.eq_nil (.inl ⟨mode_maskFrom_nil _ _, starts⟩)
    exact absurd ((mode_maskFrom_nil _ _).symm.trans misread.1) (by decide)

/-- So does a misread quote. -/
theorem agrees_iff_recovers_of_misread (misread : MisreadAt mode before [] line) :
    Agrees mode before line ↔ Recovers mode before line := by
  obtain ⟨verbatim, escaped, quote⟩ := id misread
  obtain rfl : mode = .verbatim := (mode_maskFrom_nil mode before).symm.trans verbatim
  rw [List.reverse_nil, List.nil_append] at escaped
  obtain ⟨rest, rfl⟩ := List.head?_eq_some_iff.mp quote
  have found : commentIn .verbatim before ('"' :: rest) = commentFrom (some '"') rest := by
    rw [commentIn, if_pos escaped, List.drop_one, List.tail_cons]
  constructor
  · intro agrees front tail split departs
    obtain rfl := departs.1.eq_nil (.inr (split ▸ misread))
    obtain rfl := (List.cons.inj split).2
    rw [← found]
    exact agrees
  · intro recovers text
    rw [found]
    exact recovers [] rest rfl ⟨.nil (.inr misread), misread⟩ text

private theorem Turn.recovers_iff (turn : Turn mode before piece rest next)
    (inStep : InStep mode before piece rest next) :
    Recovers mode before (piece ++ rest) ↔ Recovers next (piece.reverse ++ before) rest := by
  constructor
  · rintro recovers further tail rfl departs text
    have split : piece ++ (further ++ '"' :: tail) = piece ++ further ++ '"' :: tail := by simp
    rw [recovers (piece ++ further) tail split
      ((turn.departs_iff inStep split).mpr ⟨further, rfl, rfl, departs⟩)]
    simp
  · intro recovers front tail split departs text
    obtain ⟨further, rfl, restEq, later⟩ := (turn.departs_iff inStep split).mp departs
    rw [recovers further tail restEq later]
    simp

/-- A turn that the search makes too does not matter. -/
theorem Turn.agrees_iff (turn : Turn mode before piece rest next)
    (inStep : InStep mode before piece rest next) :
    Agrees mode before (piece ++ rest) ↔ Agrees next (piece.reverse ++ before) rest := by
  simp only [Agrees, inStep.same, turn.meets_iff]

private theorem agrees_iff_recovers_nil : Agrees mode before [] ↔ Recovers mode before [] := by
  refine iff_of_true (fun text => ?_) fun front rest split => by simp at split
  refine iff_of_false ?_ ?_
  · cases mode <;> simp [commentIn, commentFrom.eq_1]
  · rintro ⟨front, behind, split, _, comment⟩
    obtain ⟨rfl, rfl⟩ := List.append_eq_nil_iff.mp split.symm
    cases comment

/-- Outside of a comment, search and masker agree on what is left of a line if and only if they
agree from the first misread quote on. -/
theorem agrees_iff_recovers (outside : mode ≠ .blockComment) :
    Agrees mode before line ↔ Recovers mode before line := by
  -- On the length, because a turn may read two characters.
  induction size : line.length using Nat.strong_induction_on generalizing mode before line with
  | _ _ ih =>
      cases (masked_maskFrom mode before line).happens outside with
      | ends => exact agrees_iff_recovers_nil
      | comment code starts =>
          subst code
          exact agrees_iff_recovers_of_startsComment starts
      | @turn piece rest next some nextOutside turn inStep =>
          rcases inStep with misread | inStep
          · exact agrees_iff_recovers_of_misread misread
          · rw [turn.agrees_iff inStep, turn.recovers_iff inStep]
            refine ih _ ?_ nextOutside rfl
            have pieceSize := List.length_pos_iff.mpr some
            rw [← size, List.length_append]
            omega

/-- Where a first comment is met, the masker has come to in code: it makes of the line what it
makes of the text before the comment, followed by what it makes of the rest in code. -/
theorem maskFrom_of_firstAt (outside : mode ≠ .blockComment)
    (first : FirstAt (OpensAt mode before) front behind) :
    maskFrom mode before (front ++ behind) =
      ((maskFrom mode before front).1 ++ (maskFrom .code (front.reverse ++ before) behind).1,
        (maskFrom .code (front.reverse ++ before) behind).2) := by
  induction size : (front ++ behind).length using Nat.strong_induction_on
    generalizing mode before front with
  | _ _ ih =>
      generalize lineEq : front ++ behind = line at size
      cases (masked_maskFrom mode before line).happens outside with
      | ends =>
          obtain ⟨_, rfl⟩ := List.append_eq_nil_iff.mp lineEq
          rcases first.here.2 with starts | starts <;> simp at starts
      | comment code starts =>
          subst code lineEq
          obtain rfl := first.eq_nil ⟨mode_maskFrom_nil _ _, starts⟩
          rw [maskFrom.eq_1]
          rfl
      | @turn piece rest next some nextOutside turn inStep =>
          obtain ⟨further, rfl, rfl, later⟩ := (turn.firstAt_iff lineEq.symm).mp first
          obtain ⟨shown, run⟩ := turn.run
          have shorter : (further ++ behind).length < (piece ++ (further ++ behind)).length := by
            have pieceSize := List.length_pos_iff.mpr some
            simp only [List.length_append]
            omega
          rw [run _ (List.prefix_refl _), run further (List.prefix_append _ _),
            ih _ (size ▸ shorter) nextOutside later rfl]
          simp

/-! ## Lines -/

/-- No comment is met before the first slash. -/
theorem FirstAt.of_not_mem (noSlash : '/' ∉ front) (opens : OpensAt mode before front behind) :
    FirstAt (OpensAt mode before) front behind where
  here := opens
  first earlier between split some opensBefore := by
    obtain ⟨c, more, rfl⟩ := List.exists_cons_of_ne_nil some
    subst split
    have other : c ≠ '/' := by
      rintro rfl
      simp at noSlash
    exact not_startsComment_cons other opensBefore.2

private theorem recovers_of_apart (apart : ¬ ['\\', '"'] <:+: line) : Recovers .code [] line := by
  rintro front rest rfl ⟨_, misread⟩
  have escaped := misread.2.1
  rw [List.append_nil] at escaped
  cases reversed : front.reverse with
  | nil => simp [reversed, isEscaped] at escaped
  | cons c more =>
      rw [reversed, isEscaped_cons, Bool.and_eq_true, beq_iff_eq] at escaped
      obtain rfl := escaped.1
      rw [List.reverse_eq_cons_iff.mp reversed] at apart
      exact absurd ⟨more.reverse, rest, by simp⟩ apart

/-- The comment that the search finds in a line is the first one that the masker comes to in code,
if and only if both agree from the first misread quote on. So they agree on a line in which no
quote stands behind a backslash. -/
theorem comment?_agrees_iff (line : Text) :
    (∀ front behind, line = front ++ behind → FirstAt (OpensAt .code []) front behind →
      maskLine .code line = ((maskLine .code front).1 ++ (maskFrom .code front.reverse behind).1,
        (maskFrom .code front.reverse behind).2)) ∧
    ((∀ text, comment? line = some text ↔ Meets .code [] line text) ↔ Recovers .code [] line) ∧
    (¬ ['\\', '"'] <:+: line → ∀ text, comment? line = some text ↔ Meets .code [] line text) := by
  have agrees : Agrees .code [] line ↔ Recovers .code [] line := agrees_iff_recovers (by decide)
  refine ⟨?_, agrees, fun apart => agrees.mpr (recovers_of_apart apart)⟩
  rintro front behind rfl first
  have whole := maskFrom_of_firstAt (by decide) first
  rwa [List.append_nil] at whole

/-- A comment behind a path in a verbatim string. -/
def commentedPath : Text :=
  "var p = @\"C:\\\"; // todo".toList

/-- A verbatim string with a comment sign in it. -/
def slashedString : Text :=
  "var p = @\"\\\"\" // x\";".toList

/-- The comment of the first line is missed, and the sign in the string of the second one is taken
for a comment. -/
theorem comment?_disagrees :
    (Meets .code [] commentedPath " todo".toList ∧ comment? commentedPath = none) ∧
      (∀ text, ¬ Meets .code [] slashedString text) ∧
      comment? slashedString = some " x\";".toList := by
  refine ⟨⟨?_, by decide⟩, ?_, by decide⟩
  · refine ⟨"var p = @\"C:\\\"; ".toList, "// todo".toList, by decide, ?_, .line _⟩
    exact .of_not_mem (by decide) ⟨by decide, .inl (by decide)⟩
  · rintro text ⟨front, behind, split, first, _⟩
    have nowhere : ∀ index ≤ slashedString.length,
        ¬ OpensAt .code [] (slashedString.take index) (slashedString.drop index) := by
      decide
    refine nowhere front.length (by simp [split]) ?_
    rw [split, List.take_left, List.drop_left]
    exact first.here

end PatchLint.Mask

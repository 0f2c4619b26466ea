import Mathlib.Data.List.Forall2
import PatchLint.Text.Words

/-!
# Padded lines

A line that ends in a carriage return is the line without it and one more
character, and masking may turn that character into a space. `Padded` relates a
line to itself and to the line with such a character at its end. Whoever trims,
reads words or looks for solid text gets the same answer from both; whoever cuts
a piece off gets two pieces that are padded again.
-/

namespace PatchLint.Text

/-- The characters that a line may have gained at its end. -/
def IsPad (c : Char) : Prop :=
  c = ' ' ∨ c = '\r'

instance (c : Char) : Decidable (IsPad c) :=
  inferInstanceAs (Decidable (_ ∨ _))

/-- `Padded line longer`: the second text is the first one, or has one more
character at its end. -/
inductive Padded : Text → Text → Prop where
  | same (line : Text) : Padded line line
  | longer (line : Text) {pad : Char} (isPad : IsPad pad) : Padded line (line ++ [pad])

/-- A text that says something and holds no padding. -/
def Solid (text : Text) : Prop :=
  text ≠ [] ∧ ∀ c ∈ text, ¬ IsPad c

-- Spelled out as a test of the characters of the text, not of all characters.
instance (text : Text) : Decidable (Solid text) :=
  decidable_of_iff ((!text.isEmpty && text.all fun c => !decide (IsPad c)) = true) (by simp [Solid])

/-- A class of characters that padding does not belong to. -/
def ExcludesPad (p : Char → Bool) : Prop :=
  p ' ' = false ∧ p '\r' = false

instance (p : Char → Bool) : Decidable (ExcludesPad p) :=
  inferInstanceAs (Decidable (_ ∧ _))

/-- The letters are a class that padding does not belong to. -/
theorem excludesPad_isLetter : ExcludesPad isLetter := by
  decide

private theorem ExcludesPad.eq_false {p : Char → Bool} (excludes : ExcludesPad p) {pad : Char}
    (isPad : IsPad pad) : p pad = false := by
  rcases isPad with rfl | rfl
  · exact excludes.1
  · exact excludes.2

namespace IsPad

variable {pad : Char}

/-- Padding is blank. -/
theorem isBlank (isPad : IsPad pad) : isBlank pad = true := by
  rcases isPad with rfl | rfl <;> decide

private theorem isWordChar (isPad : IsPad pad) : isWordChar pad = false := by
  rcases isPad with rfl | rfl <;> decide

/-- No padding is a letter. -/
theorem isLetter (isPad : IsPad pad) : isLetter pad = false := by
  rcases isPad with rfl | rfl <;> decide

/-- Padding is one byte wide. -/
theorem utf8Size (isPad : IsPad pad) : pad.utf8Size = 1 := by
  rcases isPad with rfl | rfl <;> decide

private theorem lowerChar (isPad : IsPad pad) : lowerChar pad = [pad] := by
  rcases isPad with rfl | rfl <;> decide

end IsPad

/-! ## Related answers -/

section Related

variable {first second third fourth : Type} {related : first → second → Prop}
  {answer : Option first} {other : Option second}

/-- What related answers go on to is related if every step is. -/
theorem rel_bind {relatedNext : third → fourth → Prop} {next : first → Option third}
    {otherNext : second → Option fourth} (answers : Option.Rel related answer other)
    (continues : ∀ a b, related a b → Option.Rel relatedNext (next a) (otherNext b)) :
    Option.Rel relatedNext (answer.bind next) (other.bind otherNext) := by
  cases answers with
  | none => exact .none
  | some agree => exact continues _ _ agree

/-- Related answers are kept or dropped together if the tests agree. -/
theorem rel_filter {test : first → Bool} {otherTest : second → Bool}
    (answers : Option.Rel related answer other)
    (tests : ∀ a b, related a b → otherTest b = test a) :
    Option.Rel related (answer.filter test) (other.filter otherTest) := by
  cases answers with
  | none => exact .none
  | @some a b agree =>
      rw [Option.filter_some, Option.filter_some, tests a b agree]
      split
      · exact .some agree
      · exact .none

/-- Related answers pass or fail together if the tests agree. -/
theorem any_eq_of_rel {test : first → Bool} {otherTest : second → Bool}
    (answers : Option.Rel related answer other)
    (tests : ∀ a b, related a b → otherTest b = test a) :
    other.any otherTest = answer.any test := by
  cases answers with
  | none => rfl
  | some agree => exact tests _ _ agree

/-- Related answers are given or missing together. -/
theorem isSome_eq_of_rel (answers : Option.Rel related answer other) :
    other.isSome = answer.isSome := by
  cases answers with
  | none => rfl
  | some agree => rfl

/-- Answers that have to be equal where they are given are equal. -/
theorem rel_eq_iff {answer other : Option first} :
    Option.Rel Eq answer other ↔ other = answer := by
  constructor
  · rintro (agree | _)
    · rw [agree]
    · rfl
  · rintro rfl
    cases other with
    | none => exact .none
    | some given => exact .some rfl

/-- The first answer to a list of questions is related if each one is. -/
theorem rel_findSome? {question : Type} {questions : List question}
    {ask : question → Option first} {askOther : question → Option second}
    (each : ∀ q ∈ questions, Option.Rel related (ask q) (askOther q)) :
    Option.Rel related (questions.findSome? ask) (questions.findSome? askOther) := by
  induction questions with
  | nil => exact .none
  | cons q questions ih =>
      rw [List.forall_mem_cons] at each
      rw [List.findSome?_cons, List.findSome?_cons]
      match ask q, askOther q, each.1 with
      | _, _, .none => exact ih each.2
      | _, _, .some agree => exact .some agree

/-- Related lists answer alike if their members do. -/
theorem filterMap_eq_of_forall₂ {related : first → second → Prop} {members : List first}
    {others : List second} {ask : first → Option third} {askOther : second → Option third}
    (pointwise : List.Forall₂ related members others)
    (each : ∀ a b, related a b → askOther b = ask a) :
    others.filterMap askOther = members.filterMap ask := by
  induction pointwise with
  | nil => rfl
  | cons agree _ ih => rw [List.filterMap_cons, List.filterMap_cons, each _ _ agree, ih]

/-- Related lists are mapped to one list of parts if their members are. -/
theorem flatMap_eq_of_forall₂ {related : first → second → Prop} {members : List first}
    {others : List second} {ask : first → List third} {askOther : second → List third}
    (pointwise : List.Forall₂ related members others)
    (each : ∀ a b, related a b → askOther b = ask a) :
    others.flatMap askOther = members.flatMap ask := by
  induction pointwise with
  | nil => rfl
  | cons agree _ ih => rw [List.flatMap_cons, List.flatMap_cons, each _ _ agree, ih]

/-- Related lists are filtered and mapped to one list if tests and members agree. -/
theorem map_filter_eq_of_forall₂ {related : first → second → Prop} {members : List first}
    {others : List second} {test : first → Bool} {otherTest : second → Bool} {ask : first → third}
    {askOther : second → third} (pointwise : List.Forall₂ related members others)
    (tests : ∀ a b, related a b → otherTest b = test a)
    (each : ∀ a b, related a b → askOther b = ask a) :
    (others.filter otherTest).map askOther = (members.filter test).map ask := by
  induction pointwise with
  | nil => rfl
  | cons agree _ ih =>
      rw [List.filter_cons, List.filter_cons, tests _ _ agree]
      split
      · rw [List.map_cons, List.map_cons, each _ _ agree, ih]
      · exact ih

end Related

/-! ## Looking for a text -/

/-- A start that does not hold the last character is a start without it. -/
theorem isPrefixOf_append_singleton {start : Text} {last : Char} (absent : last ∉ start)
    (line : Text) : start.isPrefixOf (line ++ [last]) = start.isPrefixOf line := by
  induction line generalizing start with
  | nil =>
      cases start with
      | nil => rfl
      | cons c start =>
          have differs : c ≠ last := fun same => absent (by simp [same])
          simp [List.isPrefixOf, differs]
  | cons d line ih =>
      cases start with
      | nil => rfl
      | cons c start =>
          simp only [List.cons_append, List.isPrefixOf_cons_cons]
          rw [ih fun member => absent (List.mem_cons_of_mem c member)]

/-- A text that does not hold the last character occurs in front of it or not at
all. -/
theorem occursIn_append_singleton {pattern : Text} {last : Char} (absent : last ∉ pattern)
    (line : Text) : occursIn pattern (line ++ [last]) = occursIn pattern line := by
  induction line with
  | nil =>
      cases pattern with
      | nil => rfl
      | cons c pattern =>
          have differs : c ≠ last := fun same => absent (by simp [same])
          simp [occursIn, List.isPrefixOf, differs]
  | cons d line ih =>
      have first := isPrefixOf_append_singleton absent (d :: line)
      rw [List.cons_append] at first
      rw [List.cons_append, occursIn, occursIn, ih, first]

/-- The same of the number of its occurrences. -/
theorem countFrom_append_singleton {pattern : Text} {last : Char} (some : pattern ≠ [])
    (absent : last ∉ pattern) (skip : Nat) (line : Text) :
    countFrom pattern skip (line ++ [last]) = countFrom pattern skip line := by
  induction line generalizing skip with
  | nil =>
      cases skip with
      | zero =>
          have unread := isPrefixOf_append_singleton absent []
          rw [List.nil_append] at unread
          have fails : pattern.isPrefixOf [] = false := by
            cases pattern with
            | nil => exact absurd rfl some
            | cons => rfl
          simp [countFrom, unread, fails]
      | succ skip => simp [countFrom]
  | cons d line ih =>
      cases skip with
      | zero =>
          have first := isPrefixOf_append_singleton absent (d :: line)
          rw [List.cons_append] at first
          rw [List.cons_append, countFrom, countFrom, ih, ih, first]
      | succ skip => rw [List.cons_append, countFrom, countFrom, ih]

private theorem Solid.not_mem {text : Text} (solid : Solid text) {pad : Char} (isPad : IsPad pad) :
    pad ∉ text :=
  fun member => solid.2 pad member isPad

/-- Nothing solid follows in an empty text. -/
theorem Solid.after?_nil {start : Text} (solid : Solid start) : after? start [] = none := by
  cases start with
  | nil => exact absurd rfl solid.1
  | cons c start => rfl

/-- What follows a solid start keeps the padding. -/
theorem Solid.after?_append {start : Text} (solid : Solid start) {pad : Char} (isPad : IsPad pad)
    (line : Text) : after? start (line ++ [pad]) = (after? start line).map (· ++ [pad]) := by
  rw [after?, after?, isPrefixOf_append_singleton (solid.not_mem isPad)]
  split
  next starts =>
    have fits : start.length ≤ line.length := (List.isPrefixOf_iff_prefix.mp starts).length_le
    rw [Option.map_some, List.drop_append_of_le_length fits]
  next => rfl

/-- Padding stays behind a text unless there are only blanks in front of it. -/
theorem trimStart_append {pad : Char} (isPad : IsPad pad) (line : Text) :
    trimStart (line ++ [pad]) = if line.trimStart.isEmpty then [] else line.trimStart ++ [pad] := by
  rw [trimStart, List.dropWhile_append, List.dropWhile_cons_of_pos isPad.isBlank]
  rfl

/-- Padding stays behind what follows a run of letters. -/
theorem dropWhile_isLetter_append {pad : Char} (isPad : IsPad pad) (line : Text) :
    (line ++ [pad]).dropWhile isLetter = line.dropWhile isLetter ++ [pad] := by
  rw [List.dropWhile_append, List.dropWhile_cons_of_neg (by simp [isPad.isLetter])]
  split
  next letters => rw [List.isEmpty_iff.mp letters, List.nil_append]
  next => rfl

namespace Padded

variable {line longer : Text}

/-! ## Pieces of a padded line -/

/-- A padded line stays padded behind a further character. -/
theorem cons (padded : Padded line longer) (c : Char) : Padded (c :: line) (c :: longer) := by
  cases padded with
  | same => exact .same _
  | longer isPad => exact .longer (c :: line) isPad

/-- Dropping a run of characters from a padded line leaves it padded. -/
theorem dropWhile (padded : Padded line longer) (p : Char → Bool) :
    Padded (line.dropWhile p) (longer.dropWhile p) := by
  cases padded with
  | same => exact .same _
  | @longer pad isPad =>
      rw [List.dropWhile_append]
      split
      next empty =>
        rw [List.isEmpty_iff.mp empty]
        cases dropped : p pad with
        | true => simpa [dropped] using Padded.same []
        | false => simpa [dropped] using Padded.longer [] isPad
      next => exact .longer _ isPad

/-- Dropping characters from a padded line leaves it padded. -/
theorem drop (padded : Padded line longer) (count : Nat) :
    Padded (line.drop count) (longer.drop count) := by
  cases padded with
  | same => exact .same _
  | longer isPad =>
      by_cases inside : count ≤ line.length
      · rw [List.drop_append_of_le_length inside]
        exact .longer _ isPad
      · rw [List.drop_eq_nil_of_le (by omega), List.drop_eq_nil_of_le (by simp; omega)]
        exact .same []

private theorem takeWhile (padded : Padded line longer) (p : Char → Bool) :
    Padded (line.takeWhile p) (longer.takeWhile p) := by
  cases padded with
  | same => exact .same _
  | @longer pad isPad =>
      rw [List.takeWhile_append]
      split
      next whole =>
        have all : line.takeWhile p = line := (List.takeWhile_prefix p).eq_of_length whole
        rw [all]
        cases taken : p pad with
        | true => simpa [taken] using Padded.longer line isPad
        | false => simpa [taken] using Padded.same line
      next => exact .same _

/-- A run of characters that are no padding ends in front of the padding. -/
theorem takeWhile_eq (padded : Padded line longer) {p : Char → Bool} (excludes : ExcludesPad p) :
    longer.takeWhile p = line.takeWhile p := by
  cases padded with
  | same => rfl
  | longer isPad =>
      rw [List.takeWhile_append, List.takeWhile_cons_of_neg (by simp [excludes.eq_false isPad])]
      split
      next whole => rw [List.append_nil, (List.takeWhile_prefix p).eq_of_length whole]
      next => rfl

/-- Dropping blanks in front of a padded line leaves it padded. -/
theorem trimStart (padded : Padded line longer) : Padded line.trimStart longer.trimStart :=
  padded.dropWhile isBlank

/-- What stands before a mark in a padded line is padded. -/
theorem before (padded : Padded line longer) (mark : Char) :
    Padded (line.before mark) (longer.before mark) :=
  padded.takeWhile (· != mark)

/-- A padded line is padded in lower case. -/
theorem lower (padded : Padded line longer) : Padded line.lower longer.lower := by
  cases padded with
  | same => exact .same _
  | longer isPad =>
      rw [Text.lower, Text.lower, List.flatMap_append, List.flatMap_singleton, isPad.lowerChar]
      exact .longer _ isPad

/-- A piece that stays as it is counts as padded. -/
theorem rel_same (piece : Option Text) : Option.Rel Padded piece piece := by
  cases piece with
  | none => exact .none
  | some rest => exact .some (.same rest)

/-- A piece that gains the padding is padded. -/
theorem rel_longer (piece : Option Text) {pad : Char} (isPad : IsPad pad) :
    Option.Rel Padded piece (piece.map (· ++ [pad])) := by
  cases piece with
  | none => exact .none
  | some rest => exact .some (.longer rest isPad)

/-- What follows a solid text is padded. -/
theorem after? (padded : Padded line longer) {start : Text} (solid : Solid start) :
    Option.Rel Padded (Text.after? start line) (Text.after? start longer) := by
  cases padded with
  | same => exact rel_same _
  | longer isPad =>
      rw [solid.after?_append isPad]
      exact rel_longer _ isPad

/-! ## What padding does not change -/

private theorem trimEnd_eq (padded : Padded line longer) : longer.trimEnd = line.trimEnd := by
  cases padded with
  | same => rfl
  | longer isPad => simp [trimEnd, isPad.isBlank]

/-- Padding is trimmed away. -/
theorem trim_eq (padded : Padded line longer) : longer.trim = line.trim :=
  padded.trimStart.trimEnd_eq

/-- Padding makes no blank line solid and no solid line blank. -/
theorem isBlankText_eq (padded : Padded line longer) : longer.isBlankText = line.isBlankText := by
  cases padded with
  | same => rfl
  | longer isPad => simp [isBlankText, isPad.isBlank]

/-- A line does not gain another character than the padding. -/
theorem contains_eq (padded : Padded line longer) {c : Char} (notPad : ¬ IsPad c) :
    longer.contains c = line.contains c := by
  cases padded with
  | same => rfl
  | longer isPad =>
      have differs : c ≠ _ := fun same => notPad (same ▸ isPad)
      simp [differs]

/-- A line starts in the same way, as far as padding is not asked for. -/
theorem any_head?_eq (padded : Padded line longer) {p : Char → Bool}
    (excludes : ExcludesPad p) : longer.head?.any p = line.head?.any p := by
  cases padded with
  | same => rfl
  | longer isPad =>
      cases line with
      | nil => simp [excludes.eq_false isPad]
      | cons => rfl

/-- A padded line starts with the same character, if it is no padding. -/
theorem head?_beq_eq (padded : Padded line longer) {c : Char} (notPad : ¬ IsPad c) :
    (longer.head? == some c) = (line.head? == some c) := by
  cases padded with
  | same => rfl
  | longer isPad =>
      cases line with
      | nil =>
          have differs : _ ≠ c := fun same => notPad (same ▸ isPad)
          simp [differs]
      | cons => rfl

/-- Padding can be the blank that a line starts with, but then nothing follows. -/
theorem isBlank_head?_and_eq (padded : Padded line longer) {follows : Bool}
    (needsMore : line.trimStart = [] → follows = false) :
    (longer.head?.any isBlank && follows) = (line.head?.any isBlank && follows) := by
  cases padded with
  | same => rfl
  | longer isPad =>
      cases line with
      | nil => simp [needsMore rfl]
      | cons => rfl

/-- Both lines start with a character that is no padding, or neither does. -/
theorem cons_or_not (padded : Padded line longer) {c : Char} (notPad : ¬ IsPad c) :
    (∃ rest other, line = c :: rest ∧ longer = c :: other ∧ Padded rest other) ∨
      (∀ rest, line ≠ c :: rest) ∧ ∀ rest, longer ≠ c :: rest := by
  cases padded with
  | same =>
      cases line with
      | nil => exact .inr ⟨by simp, by simp⟩
      | cons d rest =>
          by_cases starts : d = c
          · exact .inl ⟨rest, rest, by rw [starts], by rw [starts], .same rest⟩
          · exact .inr ⟨by simp [starts], by simp [starts]⟩
  | @longer pad isPad =>
      have differs : pad ≠ c := fun same => notPad (same ▸ isPad)
      cases line with
      | nil => exact .inr ⟨by simp, by simp [differs]⟩
      | cons d rest =>
          by_cases starts : d = c
          · exact .inl ⟨rest, rest ++ [pad], by rw [starts], by simp [starts], .longer rest isPad⟩
          · exact .inr ⟨by simp [starts], by simp [starts]⟩

/-- A word ends in front of a padded text if it ends in front of the text. -/
theorem endsWord_eq (padded : Padded line longer) : endsWord longer = endsWord line := by
  rw [endsWord, endsWord, padded.any_head?_eq (by decide)]

/-- A run ends in front of a padded text if it ends in front of the text. -/
theorem endsRun_eq (padded : Padded line longer) : endsRun longer = endsRun line := by
  rw [endsRun, endsRun, padded.any_head?_eq excludesPad_isLetter]

/-- A padded line has the same words. -/
theorem words_eq (padded : Padded line longer) : longer.words = line.words := by
  cases padded with
  | same => rfl
  | longer isPad =>
      rw [words, List.splitOnP_append_cons _ _ (by simp [isPad.isWordChar]), List.filter_append,
        List.splitOnP_nil]
      simp [words]

/-- A padded line has a word if the line does. -/
theorem hasWord_eq (padded : Padded line longer) (word : Text) :
    longer.hasWord word = line.hasWord word := by
  rw [hasWord, hasWord, padded.words_eq]

/-- A padded line has one of some words if the line does. -/
theorem hasAnyWord_eq (padded : Padded line longer) (candidates : List String) :
    longer.hasAnyWord candidates = line.hasAnyWord candidates := by
  simp only [hasAnyWord, padded.hasWord_eq]

/-- A padded line mentions a solid text if the line does. -/
theorem mentions_eq (padded : Padded line longer) {pattern : String}
    (solid : Solid pattern.toList) : longer.mentions pattern = line.mentions pattern := by
  cases padded with
  | same => rfl
  | longer isPad => exact occursIn_append_singleton (solid.not_mem isPad) line

/-- A padded line mentions a solid text as often as the line does. -/
theorem occurrences_eq (padded : Padded line longer) {pattern : String}
    (solid : Solid pattern.toList) :
    longer.occurrences pattern = line.occurrences pattern := by
  cases padded with
  | same => rfl
  | longer isPad => exact countFrom_append_singleton solid.1 (solid.not_mem isPad) 0 line

end Padded

/-! ## Cuts of a padded line -/

/-- Two cuts at the same place of a line and of the padded line. -/
def Cut.Padded (cut longer : Cut) : Prop :=
  longer.before = cut.before ∧ Text.Padded cut.after longer.after

namespace Cut.Padded

variable {cut longer : Cut}

/-- A word starts at a padded cut if it does at the cut. -/
theorem startsWord_eq (padded : cut.Padded longer) : longer.startsWord = cut.startsWord := by
  rw [startsWord, startsWord, padded.1]

/-- A run starts at a padded cut if it does at the cut. -/
theorem startsRun_eq (padded : cut.Padded longer) : longer.startsRun = cut.startsRun := by
  rw [startsRun, startsRun, padded.1]

/-- Padding does not move a cut. -/
theorem offset_eq (padded : cut.Padded longer) : longer.offset = cut.offset := by
  rw [offset, offset, padded.1]

end Cut.Padded

/-- A padded line has the cuts of the line, padded, and perhaps its own end. -/
theorem cutsFrom_append_singleton {pad : Char} (isPad : IsPad pad) (read line : Text) :
    ∃ cuts, cutsFrom read (line ++ [pad]) = cuts ++ [⟨pad :: (line.reverse ++ read), []⟩] ∧
      List.Forall₂ Cut.Padded (cutsFrom read line) cuts := by
  induction line generalizing read with
  | nil => exact ⟨[⟨read, [pad]⟩], rfl, .cons ⟨rfl, .longer [] isPad⟩ .nil⟩
  | cons c line ih =>
      obtain ⟨cuts, split, related⟩ := ih (c :: read)
      have first : Cut.Padded ⟨read, c :: line⟩ ⟨read, c :: line ++ [pad]⟩ :=
        ⟨rfl, .longer (c :: line) isPad⟩
      refine ⟨⟨read, c :: line ++ [pad]⟩ :: cuts, ?_, .cons first related⟩
      rw [List.cons_append, cutsFrom, split]
      simp

/-- What is found at the cuts of a line is found in the padded line too, and
nothing else is, when nothing is found at the end of a line. -/
theorem Padded.filterMap_cuts {line longer : Text} (padded : Padded line longer) {found : Type}
    {related : found → found → Prop} {find : Cut → Option found}
    (atEnd : ∀ read, find ⟨read, []⟩ = none)
    (agrees : ∀ cut other, cut.Padded other → Option.Rel related (find cut) (find other)) :
    List.Forall₂ related (line.cuts.filterMap find) (longer.cuts.filterMap find) := by
  cases padded with
  | same =>
      have same : List.Forall₂ Cut.Padded line.cuts line.cuts :=
        List.forall₂_same.mpr fun cut _ => ⟨rfl, .same cut.after⟩
      exact List.rel_filterMap (fun _ _ padded => agrees _ _ padded) same
  | longer isPad =>
      obtain ⟨cuts, split, pointwise⟩ := cutsFrom_append_singleton isPad [] line
      rw [Text.cuts, Text.cuts, split, List.filterMap_append]
      simp only [List.filterMap_cons, atEnd, List.filterMap_nil, List.append_nil]
      exact List.rel_filterMap (fun _ _ padded => agrees _ _ padded) pointwise

/-- What is found at the cuts of a padded line is found at those of the line. -/
theorem Padded.filterMap_cuts_eq {line longer : Text} (padded : Padded line longer)
    {found : Type} {find : Cut → Option found} (atEnd : ∀ read, find ⟨read, []⟩ = none)
    (agrees : ∀ cut other, cut.Padded other → find other = find cut) :
    longer.cuts.filterMap find = line.cuts.filterMap find := by
  have finds : List.Forall₂ Eq (line.cuts.filterMap find) (longer.cuts.filterMap find) :=
    padded.filterMap_cuts atEnd fun cut other related => rel_eq_iff.mpr (agrees cut other related)
  exact (List.forall₂_eq_eq_eq ▸ finds).symm

/-- Lists that are related place by place start with related members. -/
theorem head?_of_forall₂ {member : Type} {related : member → member → Prop}
    {members others : List member} (pointwise : List.Forall₂ related members others) :
    Option.Rel related members.head? others.head? := by
  cases pointwise with
  | nil => exact .none
  | cons first _ => exact .some first

/-- The first find is then the same too. -/
theorem Padded.findSome?_cuts {line longer : Text} (padded : Padded line longer) {found : Type}
    {related : found → found → Prop} {find : Cut → Option found}
    (atEnd : ∀ read, find ⟨read, []⟩ = none)
    (agrees : ∀ cut other, cut.Padded other → Option.Rel related (find cut) (find other)) :
    Option.Rel related (line.cuts.findSome? find) (longer.cuts.findSome? find) := by
  rw [← List.head?_filterMap, ← List.head?_filterMap]
  exact head?_of_forall₂ (padded.filterMap_cuts atEnd agrees)

/-- The cuts that a test lets pass are those of the line, padded. -/
theorem Padded.filter_cuts {line longer : Text} (padded : Padded line longer) {test : Cut → Bool}
    (atEnd : ∀ read, test ⟨read, []⟩ = false)
    (agrees : ∀ cut other, cut.Padded other → test other = test cut) :
    List.Forall₂ Cut.Padded (line.cuts.filter test) (longer.cuts.filter test) := by
  rw [← List.filterMap_eq_filter]
  refine padded.filterMap_cuts (fun read => by simp [atEnd read]) fun cut other related => ?_
  rw [Option.guard, Option.guard, agrees cut other related]
  split
  · exact .some related
  · exact .none

/-- A padded line has a cut that passes if the line does. -/
theorem Padded.any_cuts_eq {line longer : Text} (padded : Padded line longer) {test : Cut → Bool}
    (atEnd : ∀ read, test ⟨read, []⟩ = false)
    (agrees : ∀ cut other, cut.Padded other → test other = test cut) :
    longer.cuts.any test = line.cuts.any test := by
  have passing := padded.filter_cuts atEnd agrees
  have counts (text : Text) :
      text.cuts.any test = decide (0 < (text.cuts.filter test).length) := by
    rw [Bool.eq_iff_iff, decide_eq_true_iff, List.length_filter_pos_iff, List.any_eq_true]
  rw [counts, counts, passing.length_eq]

end PatchLint.Text

import Mathlib.Data.List.Basic
import Mathlib.Data.List.TakeWhile
import PatchLint.Proofs.Text.Bytes
import PatchLint.Rule.Todo

/-!
# Descriptions of open tasks

A comment is made up of its signs, blanks, a marker if there is one, the task and blanks
again. `IsTaskOf` says so without a reader, and the task is what the reader finds. A
description is its opening with a task that fits, or with the start of one and an ellipsis.
Read as a comment, it has the opening for its marker and the rest for its task, so it is its
own description.
-/

namespace PatchLint

namespace Text

variable {text lead core trail : Text}

/-! ## Texts without blanks at their ends -/

/-- No blank stands at either end. -/
structure IsTrimmed (text : Text) : Prop where
  start : text.head?.any isBlank = false
  stop : text.getLast?.any isBlank = false

private theorem trimStart_append_of_stop (blank : ∀ c ∈ lead, isBlank c = true)
    (start : text.head?.any isBlank = false) : trimStart (lead ++ text) = text :=
  dropWhile_append_of_stop blank start

private theorem trimEnd_append_of_stop (blank : ∀ c ∈ trail, isBlank c = true)
    (stop : text.getLast?.any isBlank = false) : trimEnd (text ++ trail) = text := by
  rw [← List.head?_reverse] at stop
  rw [trimEnd, List.reverse_append, dropWhile_append_of_stop (by simpa using blank) stop,
    List.reverse_reverse]

/-- A text is what is left when the blanks around it are dropped. -/
theorem IsTrimmed.trim_append (trimmed : IsTrimmed core)
    (leadBlank : ∀ c ∈ lead, isBlank c = true) (trailBlank : ∀ c ∈ trail, isBlank c = true) :
    trim (lead ++ (core ++ trail)) = core := by
  cases core with
  | nil =>
      have blank : ∀ c ∈ lead ++ trail, isBlank c = true :=
        List.forall_mem_append.mpr ⟨leadBlank, trailBlank⟩
      have dropped : trimStart (lead ++ trail ++ []) = [] := trimStart_append_of_stop blank rfl
      rw [List.append_nil] at dropped
      rw [trim, List.nil_append, dropped]
      rfl
  | cons c rest =>
      have start : (c :: rest ++ trail).head?.any isBlank = false := trimmed.start
      rw [trim, trimStart_append_of_stop leadBlank start,
        trimEnd_append_of_stop trailBlank trimmed.stop]

/-- What a text without blanks at its ends ends with has none at its end either. -/
theorem IsTrimmed.of_append {front : Text} (trimmed : IsTrimmed (front ++ text))
    (start : text.head?.any isBlank = false) : IsTrimmed text := by
  refine ⟨start, ?_⟩
  cases last : text.getLast? with
  | none => rfl
  | some c =>
      have stop := trimmed.stop
      rwa [List.getLast?_append, last] at stop

/-- A text is a run that passes a test, and a rest that starts with no such character. -/
theorem exists_split (test : Char → Bool) (text : Text) :
    ∃ front rest, text = front ++ rest ∧ (∀ c ∈ front, test c = true) ∧
      rest.head?.any test = false :=
  ⟨text.takeWhile test, text.dropWhile test, List.takeWhile_append_dropWhile.symm,
    fun _ member => List.mem_takeWhile_imp member, head?_dropWhile_any test text⟩

private theorem exists_isTrimmed (text : Text) : ∃ lead core trail, text = lead ++ (core ++ trail) ∧
    (∀ c ∈ lead, isBlank c = true) ∧ (∀ c ∈ trail, isBlank c = true) ∧ IsTrimmed core := by
  obtain ⟨lead, rest, rfl, leadBlank, start⟩ := exists_split isBlank text
  obtain ⟨back, front, split, trailBlank, stop⟩ := exists_split isBlank rest.reverse
  obtain rfl : rest = front.reverse ++ back.reverse := by
    rw [← List.reverse_append, ← split, List.reverse_reverse]
  refine ⟨lead, front.reverse, back.reverse, rfl, leadBlank, by simpa using trailBlank, ?_, ?_⟩
  · cases core : front.reverse with
    | nil => rfl
    | cons c more =>
        rw [core] at start
        exact start
  · rwa [List.getLast?_reverse]

end Text

namespace Todo

variable {comment core text word : Text}

/-! ## The parts of a comment -/

/-- A text and the task that it describes: what follows a leading `todo` in any letter case,
with the blanks behind it and at most one colon. -/
inductive Describes : Text → Text → Prop where
  | withColon {word gap blanks text : Text} (spelled : word.map Char.toLower = "todo".toList)
      (gapBlank : ∀ c ∈ gap, isBlank c = true) (blank : ∀ c ∈ blanks, isBlank c = true)
      (start : text.head?.any isBlank = false) :
      Describes (word ++ (gap ++ ':' :: (blanks ++ text))) text
  | withoutColon {word gap text : Text} (spelled : word.map Char.toLower = "todo".toList)
      (gapBlank : ∀ c ∈ gap, isBlank c = true) (start : text.head?.any isBlank = false)
      (noColon : text.head? ≠ some ':') : Describes (word ++ (gap ++ text)) text
  | unmarked {text : Text} (unmarked : (text.take 4).map Char.toLower ≠ "todo".toList) :
      Describes text text

/-- The signs with which comments start and go on. -/
def isSign (c : Char) : Bool :=
  c == '/' || c == '*'

/-- The task of a comment: what its text describes, without the signs in front and the blanks
around it. -/
inductive IsTaskOf : Text → Text → Prop where
  | intro {signs lead core trail text : Text} (signsOnly : ∀ c ∈ signs, isSign c = true)
      (stop : (lead ++ (core ++ trail)).head?.any isSign = false)
      (leadBlank : ∀ c ∈ lead, isBlank c = true) (trailBlank : ∀ c ∈ trail, isBlank c = true)
      (trimmed : core.IsTrimmed) (describes : Describes core text) :
      IsTaskOf (signs ++ (lead ++ (core ++ trail))) text

private theorem exists_describes (core : Text) : ∃ text, Describes core text := by
  by_cases marked : (core.take 4).map Char.toLower = "todo".toList
  · obtain ⟨gap, rest, split, gapBlank, start⟩ := Text.exists_split isBlank (core.drop 4)
    rw [← List.take_append_drop 4 core, split]
    by_cases colon : rest.head? = some ':'
    · obtain ⟨behind, rfl⟩ := List.head?_eq_some_iff.mp colon
      obtain ⟨blanks, text, rfl, blank, start⟩ := Text.exists_split isBlank behind
      exact ⟨text, .withColon marked gapBlank blank start⟩
    · exact ⟨rest, .withoutColon marked gapBlank start colon⟩
  · exact ⟨core, .unmarked marked⟩

private theorem exists_isTaskOf (comment : Text) : ∃ text, IsTaskOf comment text := by
  obtain ⟨signs, rest, rfl, signsOnly, stop⟩ := Text.exists_split isSign comment
  obtain ⟨lead, core, trail, rfl, leadBlank, trailBlank, trimmed⟩ := Text.exists_isTrimmed rest
  obtain ⟨text, describes⟩ := exists_describes core
  exact ⟨text, .intro signsOnly stop leadBlank trailBlank trimmed describes⟩

/-- Behind the marker, what follows it is read up to the colon or up to the task. -/
theorem dropMarker_append (spelled : word.map Char.toLower = "todo".toList) (rest : Text) :
    dropMarker (word ++ rest) =
      match Text.trimStart rest with
      | ':' :: behind => Text.trimStart behind
      | behind => behind := by
  have length : word.length = 4 := by
    simpa using congrArg List.length spelled
  rw [dropMarker, List.take_left' length, List.drop_left' length]
  exact if_pos spelled

private theorem Describes.dropMarker_eq (describes : Describes core text) :
    dropMarker core = text := by
  cases describes with
  | withColon spelled gapBlank blank start =>
      rw [dropMarker_append spelled, Text.trimStart_append_of_stop gapBlank rfl]
      exact Text.trimStart_append_of_stop blank start
  | withoutColon spelled gapBlank start noColon =>
      rw [dropMarker_append spelled, Text.trimStart_append_of_stop gapBlank start]
      split
      next => simp at noColon
      next => rfl
  | unmarked unmarked => rw [dropMarker, if_neg unmarked]

private theorem IsTaskOf.task_eq (isTask : IsTaskOf comment text) : task comment = text := by
  cases isTask with
  | intro signsOnly stop leadBlank trailBlank trimmed describes =>
      have dropped := Text.dropWhile_append_of_stop signsOnly stop
      have read := describes.dropMarker_eq
      rwa [← trimmed.trim_append leadBlank trailBlank, ← dropped] at read

/-- A comment has one task, the one that is read from it. -/
theorem isTaskOf_iff : IsTaskOf comment text ↔ text = task comment := by
  constructor
  · intro isTask
    exact isTask.task_eq.symm
  · rintro rfl
    obtain ⟨text, isTask⟩ := exists_isTaskOf comment
    rwa [isTask.task_eq]

private theorem Describes.isTrimmed (describes : Describes core text) (trimmed : core.IsTrimmed) :
    text.IsTrimmed := by
  cases describes with
  | @withColon word gap blanks _ _ _ _ start =>
      have split : word ++ (gap ++ ':' :: (blanks ++ text)) =
          (word ++ (gap ++ ':' :: blanks)) ++ text := by simp
      exact (split ▸ trimmed).of_append start
  | @withoutColon word gap _ _ _ start _ =>
      exact (List.append_assoc word gap text ▸ trimmed).of_append start
  | unmarked => exact trimmed

private theorem IsTaskOf.isTrimmed (isTask : IsTaskOf comment text) : text.IsTrimmed := by
  cases isTask with
  | intro _ _ _ _ trimmed describes => exact describes.isTrimmed trimmed

/-! ## Descriptions -/

/-- What a description has behind its opening. -/
def shown (text : Text) : Text :=
  if 94 < text.length then text.take 91 ++ "...".toList else text

private theorem describe_eq_append_shown (comment : Text) :
    describe comment = "TODO: ".toList ++ shown (task comment) := by
  have budget : maxLength - opening.length = 94 := by decide
  have kept : 94 - ellipsis.length = 91 := by decide
  simp only [describe, shown, budget, kept]
  split
  next => exact List.append_assoc _ _ _
  next => rfl

private theorem shown_of_long (long : 94 < text.length) :
    shown text = text.take 91 ++ "...".toList :=
  if_pos long

private theorem shown_of_short (short : text.length ≤ 94) : shown text = text :=
  if_neg (Nat.not_lt.mpr short)

private theorem length_shown_of_long (long : 94 < text.length) : (shown text).length = 94 := by
  have dots : "...".toList.length = 3 := by decide
  rw [shown_of_long long, List.length_append, List.length_take, dots]
  omega

private theorem length_shown_le (text : Text) : (shown text).length ≤ 94 := by
  rcases Nat.lt_or_ge 94 text.length with long | short
  · exact (length_shown_of_long long).le
  · rwa [shown_of_short short]

private theorem isTrimmed_shown (trimmed : text.IsTrimmed) : (shown text).IsTrimmed := by
  rcases Nat.lt_or_ge 94 text.length with long | short
  · rw [shown_of_long long]
    constructor
    · cases text with
      | nil => simp at long
      | cons c rest => exact trimmed.start
    · rw [List.getLast?_append]
      rfl
  · rwa [shown_of_short short]

/-- The opening of a description is the marker of what stands behind it. -/
theorem isTaskOf_opening_append (trimmed : text.IsTrimmed) :
    IsTaskOf ("TODO: ".toList ++ text) text := by
  have spelled : "TODO".toList.map Char.toLower = "todo".toList := by decide
  have blank : ∀ c ∈ [' '], isBlank c = true := List.all_eq_true.mp (by decide)
  cases text with
  | nil =>
      -- The blank at the end of the opening belongs to the blanks around the text.
      have describes : Describes ("TODO".toList ++ ([] ++ ':' :: ([] ++ []))) [] :=
        .withColon spelled (by simp) (by simp) rfl
      have isTask : IsTaskOf ([] ++ ([] ++ ("TODO:".toList ++ [' ']))) [] :=
        .intro (by simp) (by decide) (by simp) blank ⟨by decide, by decide⟩ describes
      exact isTask
  | cons c rest =>
      have describes : Describes ("TODO".toList ++ ([] ++ ':' :: ([' '] ++ c :: rest)))
          (c :: rest) :=
        .withColon spelled (by simp) blank trimmed.start
      have whole : Text.IsTrimmed ("TODO: ".toList ++ c :: rest) := by
        refine ⟨rfl, ?_⟩
        rw [List.getLast?_append_of_ne_nil _ (List.cons_ne_nil c rest)]
        exact trimmed.stop
      have isTask : IsTaskOf ([] ++ ([] ++ (("TODO: ".toList ++ c :: rest) ++ []))) (c :: rest) :=
        .intro (by simp) rfl (by simp) (by simp) whole describes
      rwa [List.append_nil] at isTask

/-- A description is its own description. -/
theorem describe_opening_append (trimmed : text.IsTrimmed) (short : text.length ≤ 94) :
    describe ("TODO: ".toList ++ text) = "TODO: ".toList ++ text := by
  rw [describe_eq_append_shown, (isTaskOf_opening_append trimmed).task_eq, shown_of_short short]

/-- The task of a comment is what its text describes. The description starts with a fixed
opening and never has more than a hundred characters. A task that does not fit is cut so that
the description has just as many, and a description is its own description. -/
theorem describe_normalised (comment : Text) :
    (∀ text, IsTaskOf comment text ↔ text = task comment) ∧
    "TODO: ".toList <+: describe comment ∧
    (describe comment).length ≤ 100 ∧
    ((task comment).length ≤ 94 → describe comment = "TODO: ".toList ++ task comment) ∧
    (94 < (task comment).length → (describe comment).length = 100 ∧
      describe comment = "TODO: ".toList ++ ((task comment).take 91 ++ "...".toList)) ∧
    describe (describe comment) = describe comment := by
  have trimmed : (task comment).IsTrimmed := (isTaskOf_iff.mpr rfl).isTrimmed
  have length : (describe comment).length = 6 + (shown (task comment)).length := by
    rw [describe_eq_append_shown, List.length_append]
    rfl
  refine ⟨fun _ => isTaskOf_iff, ?_, ?_, ?_, ?_, ?_⟩
  · rw [describe_eq_append_shown]
    exact List.prefix_append _ _
  · have bound := length_shown_le (task comment)
    omega
  · intro short
    rw [describe_eq_append_shown, shown_of_short short]
  · intro long
    have full := length_shown_of_long long
    rw [← shown_of_long long, ← describe_eq_append_shown]
    exact ⟨by omega, rfl⟩
  · rw [describe_eq_append_shown comment]
    exact describe_opening_append (isTrimmed_shown trimmed) (length_shown_le _)

/-- A comment whose task has a marker of its own, a colon too many and one character too
many. -/
def crowdedComment : Text :=
  "/*/  tODo :: Todo // ".toList ++ List.replicate 85 'é' ++ " ".toList

/-- The task is cut in its last characters, and the description is stable. -/
theorem describe_normalised_crowded :
    94 < (task crowdedComment).length ∧ (describe crowdedComment).length = 100 ∧
      describe (describe crowdedComment) = describe crowdedComment := by
  have long : 94 < (task crowdedComment).length := by decide
  obtain ⟨_, _, _, _, cut, stable⟩ := describe_normalised crowdedComment
  exact ⟨long, (cut long).1, stable⟩

end Todo

end PatchLint

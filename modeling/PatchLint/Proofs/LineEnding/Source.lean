import PatchLint.Proofs.LineEnding.Padding
import PatchLint.Proofs.Text.Bytes
import PatchLint.Source.GuidContext
import PatchLint.Source.Line
import PatchLint.Source.Method

/-!
# Padded source lines

What is read off single lines and off blocks in braces is the same for padded
lines. A search for a block reads characters across lines, so the padding of the
lines comes up in the middle of what it reads: `Sprinkled` says that one search
text is the other with padding in between, and both halves of the search pass
over it.
-/

namespace PatchLint

/-! ## Kinds of lines -/

namespace Line

variable {line longer : Text}

/-- A padded line holds the same attribute. -/
theorem attributeName?_eq (padded : Text.Padded line longer) :
    attributeName? longer = attributeName? line := by
  rw [attributeName?, attributeName?, padded.trim_eq]

/-- A padded line is a comment if the line is. -/
theorem isComment_eq (padded : Text.Padded line longer) : isComment longer = isComment line := by
  rw [isComment, isComment, padded.trim_eq]

/-- A padded line is skipped if the line is. -/
theorem isSkippable_eq (padded : Text.Padded line longer) :
    isSkippable longer = isSkippable line := by
  rw [isSkippable, isSkippable, padded.trim_eq]

end Line

/-! ## Blocks -/

namespace BlockSpan

/-- The second text is the first one with padding put in between. -/
inductive Sprinkled : List (Char × Nat) → List (Char × Nat) → Prop where
  | nil : Sprinkled [] []
  | keep {places others : List (Char × Nat)} (place : Char × Nat)
      (later : Sprinkled places others) : Sprinkled (place :: places) (place :: others)
  | pad {places others : List (Char × Nat)} {pad : Char} (isPad : Text.IsPad pad) (number : Nat)
      (later : Sprinkled places others) : Sprinkled places ((pad, number) :: others)

namespace Sprinkled

variable {places others : List (Char × Nat)}

private theorem append_left (front : List (Char × Nat)) (sprinkled : Sprinkled places others) :
    Sprinkled (front ++ places) (front ++ others) := by
  induction front with
  | nil => exact sprinkled
  | cons place front ih => exact .keep place ih

/-- The lines of padded code are the lines of the code with padding between them. -/
theorem located {code longer : List Text} (padded : List.Forall₂ Text.Padded code longer)
    (number : Nat) : Sprinkled (located number code) (located number longer) := by
  induction padded generalizing number with
  | nil => exact .nil
  | cons first _ ih =>
      rw [BlockSpan.located, BlockSpan.located]
      cases first with
      | same => exact (ih (number + 1)).append_left _
      | longer isPad =>
          rw [List.map_append, List.append_assoc]
          exact (Sprinkled.pad isPad number (ih (number + 1))).append_left _

/-- A header is read up to the same brace, and what follows is sprinkled again. -/
theorem findOpen (sprinkled : Sprinkled places others) (parens : Nat) :
    Option.Rel (fun opened found => found.1 = opened.1 ∧ Sprinkled opened.2 found.2)
      (findOpen parens places) (findOpen parens others) := by
  induction sprinkled generalizing parens with
  | nil => exact .none
  | keep place later ih =>
      rw [BlockSpan.findOpen, BlockSpan.findOpen]
      split_ifs
      · exact .some ⟨rfl, later⟩
      · exact .none
      · exact ih (parens + 1)
      · exact ih (parens - 1)
      · exact ih parens
  | @pad _ others pad isPad number _ ih =>
      have passes : BlockSpan.findOpen parens ((pad, number) :: others) =
          BlockSpan.findOpen parens others := by
        rcases isPad with rfl | rfl <;> simp [BlockSpan.findOpen]
      rw [passes]
      exact ih parens

/-- A body is read up to the same brace, and padding leaves it empty. -/
theorem findClose_eq (sprinkled : Sprinkled places others) (inner : Nat) (empty : Bool) :
    findClose inner empty others = findClose inner empty places := by
  induction sprinkled generalizing inner empty with
  | nil => rfl
  | keep place later ih =>
      rw [BlockSpan.findClose.eq_def, BlockSpan.findClose.eq_def inner empty (place :: _)]
      simp only [ih]
  | @pad _ others pad isPad number _ ih =>
      have passes : findClose inner empty ((pad, number) :: others) =
          findClose inner empty others := by
        rcases isPad with rfl | rfl <;> simp [findClose, isBlank]
      rw [passes, ih]

end Sprinkled

end BlockSpan

namespace BlockSpan

/-- What a line holds from a column on is padded, also where the column is that
of the padding. -/
theorem fromColumn_padded {line longer : Text} (padded : Text.Padded line longer) (column : Nat) :
    Text.Padded (fromColumn column line) (fromColumn column longer) := by
  cases padded with
  | same => exact .same _
  | @longer pad isPad =>
      have size : Text.byteSize (line ++ [pad]) = line.byteSize + 1 := by
        simp [isPad.utf8Size]
      rw [fromColumn, fromColumn]
      by_cases inside : column ≤ line.byteSize
      · rw [Nat.min_eq_left inside, Nat.min_eq_left (by omega), Text.dropBytes?_append inside]
        cases Text.dropBytes? column line with
        | none => exact .same []
        | some rest => exact .longer rest isPad
      -- A column behind the line is cut to the end of either line.
      · rw [Nat.min_eq_right (by omega), Nat.min_eq_right (by omega), Text.dropBytes?_byteSize,
          Text.dropBytes?_byteSize]
        exact .same []

private theorem searchText_sprinkled {code longer : List Text}
    (padded : List.Forall₂ Text.Padded code longer) (line column : Nat) :
    Sprinkled (searchText code line column) (searchText longer line column) := by
  rw [searchText, searchText]
  match code.drop line, longer.drop line, List.forall₂_drop line padded with
  | _, _, .nil => exact .nil
  | _, _, .cons first later =>
      exact .located (.cons (fromColumn_padded first column) later) line

end BlockSpan

/-- Padded code has its blocks on the same lines. -/
theorem blockSpan?_eq {code longer : List Text} (padded : List.Forall₂ Text.Padded code longer)
    (line column : Nat) : blockSpan? longer line column = blockSpan? code line column := by
  apply Text.rel_eq_iff.mp
  have searched := BlockSpan.searchText_sprinkled padded line column
  refine Text.rel_bind (searched.findOpen 0) ?_
  rintro ⟨openLine, body⟩ ⟨otherLine, otherBody⟩ ⟨sameLine, sprinkled⟩
  dsimp only at sameLine sprinkled ⊢
  rw [sameLine, sprinkled.findClose_eq]
  exact Text.rel_eq_iff.mpr rfl

/-! ## Declarations -/

namespace Declaration

variable {line longer : Text}

private theorem solid_of_mem_memberModifiers :
    ∀ {modifier : String}, modifier ∈ memberModifiers → Text.Solid modifier.toList := by
  decide

/-- A padded text is the head of an initializer if the text is. -/
theorem isInitializerHead_eq (padded : Text.Padded line longer) :
    isInitializerHead longer = isInitializerHead line := by
  rw [isInitializerHead, isInitializerHead, padded.contains_eq (by decide), padded.hasWord_eq]

private theorem filter_opensParen_cuts (padded : Text.Padded line longer) :
    List.Forall₂ Text.Cut.Padded (line.cuts.filter opensParen) (longer.cuts.filter opensParen) :=
  padded.filter_cuts (fun _ => rfl) fun _ _ related => related.2.head?_beq_eq (by decide)

private theorem identifierBefore?_eq {cut other : Text.Cut} (padded : cut.Padded other) :
    identifierBefore? other = identifierBefore? cut := by
  rw [identifierBefore?, identifierBefore?, padded.1]

/-- A padded declaration has the same method name. -/
theorem methodName?_eq (padded : Text.Padded line longer) :
    methodName? longer = methodName? line := by
  apply Text.rel_eq_iff.mp
  rw [methodName?, methodName?, ← List.head?_filter, ← List.head?_filter]
  refine Text.rel_bind (Text.head?_of_forall₂ (filter_opensParen_cuts padded)) ?_
  exact fun cut other related => Text.rel_eq_iff.mpr (identifierBefore?_eq related)

/-- Calls stand at the same bytes of a padded line. -/
theorem callNames_eq (padded : Text.Padded line longer) : callNames longer = callNames line := by
  refine Text.filterMap_eq_of_forall₂ (filter_opensParen_cuts padded) fun cut other related => ?_
  rw [identifierBefore?_eq related, related.offset_eq]

end Declaration

/-! ## Methods -/

namespace MethodSpan

variable {line longer : Text}

private theorem afterModifier?_padded {cut other : Text.Cut} (padded : cut.Padded other) :
    Option.Rel Text.Padded (afterModifier? cut) (afterModifier? other) := by
  rw [afterModifier?, afterModifier?, padded.startsRun_eq]
  split
  · refine Text.rel_findSome? fun modifier member => ?_
    have solid := Declaration.solid_of_mem_memberModifiers member
    exact Text.rel_filter (padded.2.after? solid) fun _ _ rest => rest.endsRun_eq
  · exact .none

private theorem startsParameters_eq (padded : Text.Padded line longer) :
    startsParameters longer = startsParameters line := by
  have name := padded.trimStart
  have behind := (name.dropWhile isLetter).trimStart
  simp only [startsParameters]
  rw [name.any_head?_eq Text.excludesPad_isLetter, ← Bool.and_assoc, ← Bool.and_assoc,
    padded.isBlank_head?_and_eq fun blank => by rw [blank]; rfl]
  congr 1
  rcases behind.cons_or_not (c := '(') (by decide) with
    ⟨parameters, others, line_eq, longer_eq, rest⟩ | ⟨line_ne, longer_ne⟩
  · rw [line_eq, longer_eq]
    exact rest.contains_eq (by decide)
  · split
    next parameters found => exact absurd found (longer_ne parameters)
    next => rfl

private theorem hasMethodShape_eq (padded : Text.Padded line longer) :
    hasMethodShape longer = hasMethodShape line := by
  refine Text.any_eq_of_rel (padded.findSome?_cuts ?_ fun _ _ => afterModifier?_padded) ?_
  · intro read
    rw [afterModifier?, List.findSome?_eq_none_iff.mpr, ite_self]
    intro modifier member
    rw [(Declaration.solid_of_mem_memberModifiers member).after?_nil, Option.filter_none]
  · intro rest other related
    exact related.any_cuts_eq (fun _ => rfl) fun _ _ cuts => startsParameters_eq cuts.2

private theorem isDeclaration_eq (padded : Text.Padded line longer) :
    isDeclaration longer = isDeclaration line := by
  rw [isDeclaration, isDeclaration, hasMethodShape_eq padded,
    Declaration.isInitializerHead_eq (padded.before '(')]

variable {code longers : List Text}

private theorem declaredAt?_eq (code_padded : List.Forall₂ Text.Padded code longers)
    (padded : Text.Padded line longer) (number : Nat) :
    declaredAt? longers number longer = declaredAt? code number line := by
  rw [declaredAt?, declaredAt?, isDeclaration_eq padded, blockSpan?_eq code_padded,
    Declaration.methodName?_eq padded]

private theorem spansFrom_eq (code_padded : List.Forall₂ Text.Padded code longers)
    {lines others : List Text} (padded : List.Forall₂ Text.Padded lines others)
    (number resume : Nat) :
    spansFrom longers number resume others = spansFrom code number resume lines := by
  induction padded generalizing number resume with
  | nil => rfl
  | cons first _ ih =>
      rw [spansFrom, spansFrom, declaredAt?_eq code_padded first]
      simp only [ih]

end MethodSpan

/-- Padded code has the same methods. -/
theorem methodSpans_eq {code longer : List Text} (padded : List.Forall₂ Text.Padded code longer) :
    methodSpans longer = methodSpans code :=
  MethodSpan.spansFrom_eq padded padded 0 0

/-! ## Identifiers near a number -/

namespace GuidContext

variable {line longer : Text}

private theorem takesDigits_eq (padded : Text.Padded line longer) (size : Nat) :
    (decide (size ≤ longer.length) && (longer.take size).all isHexDigit) =
      (decide (size ≤ line.length) && (line.take size).all isHexDigit) := by
  cases padded with
  | same => rfl
  | @longer pad isPad =>
      have notHex : isHexDigit pad = false := by rcases isPad with rfl | rfl <;> decide
      by_cases inside : size ≤ line.length
      · rw [List.take_append_of_le_length inside]
        simp [inside, Nat.le_succ_of_le inside]
      · rw [List.take_of_length_le (by simp; omega)]
        simp [inside, notHex]

private theorem startsWithGroups_eq (sizes : List Nat) (padded : Text.Padded line longer) :
    startsWithGroups sizes longer = startsWithGroups sizes line := by
  fun_induction startsWithGroups sizes line generalizing longer with
  | case1 => rfl
  | case2 size line => exact takesDigits_eq padded size
  | case3 size more line following ih =>
      rw [startsWithGroups.eq_3 _ _ _ following, takesDigits_eq padded]
      congr 1
      rcases (padded.drop size).cons_or_not (c := '-') (by decide) with
        ⟨rest, other, line_eq, longer_eq, padded_rest⟩ | ⟨line_ne, longer_ne⟩
      · rw [line_eq, longer_eq]
        exact ih rest padded_rest
      · split
        next rest found => exact absurd found (longer_ne rest)
        next => rfl

private theorem startsWithDelimited_eq (opening : Char) {closing : Char}
    (closes : ¬ Text.IsPad closing)
    (padded : Text.Padded line longer) :
    startsWithDelimited opening closing longer = startsWithDelimited opening closing line := by
  cases padded with
  | same => rfl
  | longer isPad =>
      cases line with
      | nil => simp [startsWithDelimited]
      | cons c rest =>
          have padded_rest := Text.Padded.longer rest isPad
          rw [List.cons_append, startsWithDelimited, startsWithDelimited,
            padded_rest.takeWhile_eq (by decide),
            (padded_rest.dropWhile isHexOrDash).head?_beq_eq closes]

private theorem startsLikeGuid_eq (padded : Text.Padded line longer) :
    startsLikeGuid longer = startsLikeGuid line := by
  rw [startsLikeGuid, startsLikeGuid, startsWithGroups_eq groupLengths padded,
    startsWithDelimited_eq '"' (by decide) padded, startsWithDelimited_eq '{' (by decide) padded]

private theorem hasGuidShape_eq (padded : Text.Padded line longer) :
    hasGuidShape longer = hasGuidShape line :=
  padded.any_cuts_eq (fun _ => rfl) fun _ _ cuts => startsLikeGuid_eq cuts.2

private theorem solid_of_mem_keywords :
    ∀ {keyword : String}, keyword ∈ keywords → Text.Solid keyword.toList := by
  decide

private theorem mentionsKeyword_eq (padded : Text.Padded line longer) :
    mentionsKeyword longer = mentionsKeyword line := by
  rw [mentionsKeyword, mentionsKeyword, Bool.eq_iff_iff, List.any_eq_true, List.any_eq_true]
  refine exists_congr fun keyword => and_congr_right fun member => ?_
  rw [padded.lower.mentions_eq (solid_of_mem_keywords member)]

/-- What stands near a number of the line is padded. -/
theorem nearby?_padded (padded : Text.Padded line longer) {start : Nat}
    (inside : start ≤ line.byteSize) (stop : Nat) :
    Option.Rel Text.Padded (nearby? line start stop) (nearby? longer start stop) := by
  cases padded with
  | same => exact Text.Padded.rel_same _
  | @longer pad isPad =>
      have starts : Text.charsWithin (start - window) (line ++ [pad]) =
          Text.charsWithin (start - window) line := Text.charsWithin_append (by omega) [pad]
      have first_le := Text.charsWithin_le_length (start - window) line
      have last_le := Text.charsBefore_le_length (stop + window) line
      rw [nearby?, nearby?, starts, Text.charsBefore_append_singleton]
      -- Only a window that reaches past the line takes the padding in.
      by_cases behind : line.byteSize < stop + window
      · rw [if_pos behind, Text.charsBefore_eq_length behind, if_pos first_le,
          if_pos (by omega), List.take_length, List.take_of_length_le (by simp),
          List.drop_append_of_le_length first_le]
        exact .some (.longer _ isPad)
      · rw [if_neg behind, Nat.add_zero, List.take_append_of_le_length last_le]
        split
        · exact .some (.same _)
        · exact .none

end GuidContext

/-- A number that starts in the line is judged without the padding. -/
theorem inGuidContext_eq {line longer : Text} (padded : Text.Padded line longer) {start : Nat}
    (inside : start ≤ line.byteSize) (stop : Nat) :
    inGuidContext longer start stop = inGuidContext line start stop := by
  rw [inGuidContext, inGuidContext, GuidContext.mentionsKeyword_eq padded,
    Text.any_eq_of_rel (GuidContext.nearby?_padded padded inside stop)
      fun _ _ near => GuidContext.hasGuidShape_eq near]

end PatchLint

import PatchLint.Proofs.LineEnding.CarriageReturn
import PatchLint.Proofs.LineEnding.Source
import PatchLint.Rule.Concatenation
import PatchLint.Rule.Disposable
import PatchLint.Rule.Forbidden
import PatchLint.Rule.Linq
import PatchLint.Rule.MagicNumber
import PatchLint.Rule.Nesting
import PatchLint.Rule.NullGuard
import PatchLint.Rule.Todo

/-!
# Rules that judge line by line

The rules that look at one line at a time report the same issues for a file
whose lines end in a carriage return and a line feed. Each of them reads a
padded line as it reads the line.
-/

namespace PatchLint

/-! ## Files with carriage returns -/

namespace SourceFile

/-- The same file with a carriage return in front of every line feed. -/
def crlf (file : SourceFile) : SourceFile :=
  ⟨file.shownPath, file.content.crlf⟩

private theorem lines_crlf (file : SourceFile) : file.crlf.lines = Text.withReturns file.lines :=
  Text.lines_crlf file.content

/-- With carriage returns in front of its line feeds a file has padded lines. -/
theorem forall₂_lines_crlf (file : SourceFile) :
    List.Forall₂ Text.Padded file.lines file.crlf.lines := by
  rw [lines_crlf]
  exact (Text.paddedBreaks_withReturns file.content.lines_ne_nil).forall₂

end SourceFile

/-- The rule reports the same whichever way the lines of a file end. -/
def TextRule.IgnoresReturns (rule : TextRule) : Prop :=
  ∀ file : SourceFile, rule.check file.crlf = rule.check file

/-- Numbering keeps related lists related and gives them the same numbers. -/
theorem forall₂_zipIdx {member : Type} {related : member → member → Prop}
    {members others : List member} (pointwise : List.Forall₂ related members others)
    (number : Nat) :
    List.Forall₂ (fun left right => related left.1 right.1 ∧ right.2 = left.2)
      (members.zipIdx number) (others.zipIdx number) := by
  induction pointwise generalizing number with
  | nil => exact .nil
  | cons first _ ih =>
      rw [List.zipIdx_cons, List.zipIdx_cons]
      exact .cons ⟨first, rfl⟩ (ih (number + 1))

/-- Pairing keeps related lists related. -/
theorem forall₂_zip {first second : Type} {related : first → first → Prop}
    {relatedToo : second → second → Prop} {firsts otherFirsts : List first}
    {seconds otherSeconds : List second} (pointwise : List.Forall₂ related firsts otherFirsts)
    (pointwiseToo : List.Forall₂ relatedToo seconds otherSeconds) :
    List.Forall₂ (fun left right => related left.1 right.1 ∧ relatedToo left.2 right.2)
      (firsts.zip seconds) (otherFirsts.zip otherSeconds) := by
  induction pointwise generalizing seconds otherSeconds with
  | nil => exact .nil
  | cons agree _ ih =>
      cases pointwiseToo with
      | nil => exact .nil
      | cons agreeToo later => exact .cons ⟨agree, agreeToo⟩ (ih later)

namespace TextRule

variable {rule : TextRule}

/-- A rule that reports at most one issue for each line ignores carriage returns
if it judges padded lines as it judges lines. -/
theorem ignoresReturns_of_filterMap {judge : SourceFile → Text × Nat → Option Issue}
    (check_eq : ∀ file, rule.check file = file.numberedLines.filterMap (judge file))
    (judges : ∀ file line longer number, Text.Padded line longer →
      judge file.crlf (longer, number) = judge file (line, number)) : rule.IgnoresReturns := by
  intro file
  rw [check_eq, check_eq]
  refine Text.filterMap_eq_of_forall₂ (forall₂_zipIdx file.forall₂_lines_crlf 1) ?_
  rintro ⟨line, _⟩ ⟨longer, number⟩ ⟨padded, rfl⟩
  exact judges file line longer number padded

/-- The same of a rule that reports any number of issues for each line. -/
theorem ignoresReturns_of_flatMap {judge : SourceFile → Text × Nat → List Issue}
    (check_eq : ∀ file, rule.check file = file.numberedLines.flatMap (judge file))
    (judges : ∀ file line longer number, Text.Padded line longer →
      judge file.crlf (longer, number) = judge file (line, number)) : rule.IgnoresReturns := by
  intro file
  rw [check_eq, check_eq]
  refine Text.flatMap_eq_of_forall₂ (forall₂_zipIdx file.forall₂_lines_crlf 1) ?_
  rintro ⟨line, _⟩ ⟨longer, number⟩ ⟨padded, rfl⟩
  exact judges file line longer number padded

end TextRule

/-! ## Forbidden text -/

/-- Text without a carriage return is found in the same lines. -/
theorem ForbiddenRegistry.ignoresReturns {registry : ForbiddenRegistry}
    (clean : ∀ entry ∈ registry.entries, '\r' ∉ entry.pattern.toList) :
    registry.textRule.IgnoresReturns := by
  intro file
  have lines := Text.forall₂_withReturns file.lines
  rw [← file.lines_crlf] at lines
  refine List.flatMap_congr fun entry member => ?_
  refine Text.map_filter_eq_of_forall₂ (forall₂_zipIdx lines 1) ?_ ?_
  · rintro ⟨line, _⟩ ⟨_, _⟩ ⟨rfl | rfl, _⟩
    · rfl
    · exact Text.occursIn_append_singleton (clean entry member) line
  · rintro ⟨line, _⟩ ⟨longer, number⟩ ⟨_, rfl⟩
    rfl

/-! ## Open tasks -/

namespace Todo

private theorem describe_eq {comment other : Text} (padded : Text.Padded comment other) :
    describe other = describe comment := by
  rw [describe, describe, task, task, (padded.dropWhile _).trim_eq]

/-- The rule about tasks gives the same for both line endings. -/
theorem ignoresReturns : textRule.IgnoresReturns := by
  refine TextRule.ignoresReturns_of_filterMap (fun _ => rfl) ?_
  intro file line longer number padded
  apply Text.rel_eq_iff.mp
  refine Text.rel_bind (Mask.comment?_padded padded) fun comment other related => ?_
  dsimp only
  rw [related.lower.mentions_eq (by decide), describe_eq related]
  split
  · exact .some rfl
  · exact .none

end Todo

/-! ## Disposable objects -/

namespace Disposable

private theorem createsAt_eq {type : String} (solid : Text.Solid type.toList) {cut other : Text.Cut}
    (padded : cut.Padded other) : createsAt type other = createsAt type cut := by
  rw [createsAt, createsAt, padded.startsRun_eq]
  congr 1
  match Text.after? "new".toList cut.after, Text.after? "new".toList other.after,
    padded.2.after? (show Text.Solid "new".toList by decide) with
  | _, _, .none => rfl
  | _, _, .some rest =>
      dsimp only
      rw [Text.any_eq_of_rel (rest.trimStart.after? solid) fun _ _ behind => behind.endsRun_eq]
      refine rest.isBlank_head?_and_eq fun blank => ?_
      rw [blank, solid.after?_nil, Option.any_none]

private theorem creates_eq {line longer : Text} (padded : Text.Padded line longer) {type : String}
    (solid : Text.Solid type.toList) : creates longer type = creates line type := by
  refine padded.any_cuts_eq (fun read => ?_) fun _ _ cuts => createsAt_eq solid cuts
  rw [createsAt, Text.Solid.after?_nil (by decide), Bool.and_false]

private theorem solid_of_mem_types : ∀ {type : String}, type ∈ types → Text.Solid type.toList := by
  decide

/-- The rule about disposal gives the same for both line endings. -/
theorem ignoresReturns : textRule.IgnoresReturns := by
  refine TextRule.ignoresReturns_of_flatMap (fun _ => rfl) ?_
  intro file line longer number padded
  have created : types.filter (creates longer) = types.filter (creates line) :=
    List.filter_congr fun type member => creates_eq padded (solid_of_mem_types member)
  rw [checkLine, checkLine, Line.isComment_eq padded, padded.hasWord_eq, created]
  rfl

end Disposable

/-! ## Queries -/

namespace Linq

private theorem countsAt_eq {cut other : Text.Cut} (padded : cut.Padded other) :
    countsAt other = countsAt cut := by
  refine Text.any_eq_of_rel ?_ fun _ _ => Text.Padded.endsRun_eq
  refine Text.rel_bind (padded.2.after? (by decide)) fun _ _ afterCount => ?_
  refine Text.rel_bind (afterCount.trimStart.after? (by decide)) fun _ _ afterGreater => ?_
  exact afterGreater.trimStart.after? (by decide)

private theorem countsToTest_eq {line longer : Text} (padded : Text.Padded line longer) :
    countsToTest longer = countsToTest line :=
  padded.any_cuts_eq (fun _ => rfl) fun _ _ cuts => countsAt_eq cuts

/-- The rule about queries gives the same for both line endings. -/
theorem ignoresReturns : textRule.IgnoresReturns := by
  refine TextRule.ignoresReturns_of_flatMap (fun _ => rfl) ?_
  intro file line longer number padded
  rw [checkLine, checkLine, Line.isComment_eq padded, countsToTest_eq padded,
    padded.occurrences_eq (by decide)]
  rfl

end Linq

/-! ## Null guards -/

namespace NullGuard

variable {pad : Char}

/-- What follows blanks and a solid text keeps the padding. -/
theorem after?_trimStart_append {start : Text} (solid : Text.Solid start)
    (isPad : Text.IsPad pad) (line : Text) :
    Text.after? start (Text.trimStart (line ++ [pad])) =
      (Text.after? start line.trimStart).map (· ++ [pad]) := by
  rw [Text.trimStart_append isPad]
  split
  next blank => rw [List.isEmpty_iff.mp blank, solid.after?_nil, Option.map_none]
  next => exact solid.after?_append isPad _

/-- The last part of a guard is read in the same way: the name and its member. -/
theorem operand_append (isPad : Text.IsPad pad) (line : Text) :
    Text.after? ".".toList ((Text.trimStart (line ++ [pad])).dropWhile isLetter) =
      (Text.after? ".".toList (line.trimStart.dropWhile isLetter)).map (· ++ [pad]) := by
  rw [Text.trimStart_append isPad]
  split
  next blank => rw [List.isEmpty_iff.mp blank]; rfl
  next =>
    rw [Text.dropWhile_isLetter_append isPad]
    exact Text.Solid.after?_append (by decide) isPad _

/-- A guard is read in the same way, with the padding behind it. -/
theorem guard?_append (isPad : Text.IsPad pad) (tested line : Text) :
    guard? tested (line ++ [pad]) =
      (guard? tested line).map fun guard => { guard with rest := guard.rest ++ [pad] } := by
  simp only [guard?, Option.bind_eq_bind]
  rw [after?_trimStart_append (by decide) isPad]
  cases Text.after? "!=".toList line.trimStart with
  | none => rfl
  | some afterUnequal =>
      simp only [Option.map_some, Option.bind_some]
      rw [after?_trimStart_append (by decide) isPad]
      cases Text.after? "null".toList (Text.trimStart afterUnequal) with
      | none => rfl
      | some afterNull =>
          simp only [Option.map_some, Option.bind_some]
          rw [after?_trimStart_append (by decide) isPad]
          cases Text.after? "&&".toList (Text.trimStart afterNull) with
          | none => rfl
          | some afterAnd =>
              have operand := (Text.Padded.longer afterAnd isPad).trimStart
              simp only [Option.map_some, Option.bind_some]
              rw [operand_append isPad, operand.takeWhile_eq Text.excludesPad_isLetter]
              cases Text.after? ".".toList ((Text.trimStart afterAnd).dropWhile isLetter) with
              | none => rfl
              | some member =>
                  have padded := Text.Padded.longer member isPad
                  simp only [Option.map_some, Option.bind_some]
                  rw [padded.any_head?_eq Text.excludesPad_isLetter,
                    Text.dropWhile_isLetter_append isPad]
                  split <;> rfl

/-- Guards are searched in the same way, and none is found in the padding. -/
theorem search_append (isPad : Text.IsPad pad) (skip : Nat) (line : Text) :
    search skip (line ++ [pad]) = search skip line := by
  induction line generalizing skip with
  | nil => simp [search, isPad.isLetter]
  | cons c rest ih =>
      have name := (Text.Padded.longer rest isPad).takeWhile_eq Text.excludesPad_isLetter
      rw [List.cons_append, search, search]
      simp only [name, Text.dropWhile_isLetter_append isPad, guard?_append isPad, ih]
      cases guard? (c :: rest.takeWhile isLetter) (rest.dropWhile isLetter) with
      | none => rfl
      | some guard =>
          -- The padding is behind both, so the same number of characters is dealt with.
          have skipped : (rest ++ [pad]).length - (guard.rest ++ [pad]).length =
              rest.length - guard.rest.length := by
            simp
          simp only [Option.map_some, skipped]

private theorem hasGuard_eq {line longer : Text} (padded : Text.Padded line longer) :
    hasGuard longer = hasGuard line := by
  cases padded with
  | same => rfl
  | longer isPad => exact search_append isPad 0 line

/-- The rule about null guards gives the same for both line endings. -/
theorem ignoresReturns : textRule.IgnoresReturns := by
  refine TextRule.ignoresReturns_of_filterMap (fun _ => rfl) ?_
  intro file line longer number padded
  rw [checkLine, checkLine, Line.isComment_eq padded, hasGuard_eq padded]
  rfl

end NullGuard

/-! ## Magic numbers -/

namespace MagicNumber

private theorem numberAt?_eq {cut other : Text.Cut} (padded : cut.Padded other) :
    numberAt? other = numberAt? cut := by
  rw [numberAt?, numberAt?, padded.startsRun_eq, padded.offset_eq,
    padded.2.takeWhile_eq Text.excludesPad_isLetter]

private theorem numbers_eq {line longer : Text} (padded : Text.Padded line longer) :
    numbers longer = numbers line := by
  refine padded.filterMap_cuts_eq (fun read => ?_) fun _ _ cuts => numberAt?_eq cuts
  simp [numberAt?]

/-- A number starts in its line. -/
theorem start_le_of_mem_numbers {line : Text} {number : Occurrence}
    (member : number ∈ numbers line) : number.start ≤ line.byteSize := by
  rw [numbers, List.mem_filterMap] at member
  obtain ⟨cut, found, numbered⟩ := member
  simp only [numberAt?, Option.ite_none_right_eq_some, Option.some.injEq] at numbered
  rw [← numbered.2]
  exact Text.offset_le_of_mem_cuts found

/-- The rule about magic numbers gives the same for both line endings. -/
theorem ignoresReturns : textRule.IgnoresReturns := by
  refine TextRule.ignoresReturns_of_flatMap (fun _ => rfl) ?_
  intro file line longer number padded
  rw [checkLine, checkLine, Line.isComment_eq padded, padded.hasWord_eq, numbers_eq padded]
  congr 1
  refine List.filterMap_congr fun occurrence member => ?_
  simp only [checkNumber, inGuidContext_eq padded (start_le_of_mem_numbers member)]
  rfl

end MagicNumber

/-! ## Nesting -/

namespace Nesting

/-- The indentation of a line that is not blank ends in front of the padding. -/
theorem level_eq {line longer : Text} (padded : Text.Padded line longer)
    (filled : line.trim.isEmpty = false) : level longer = level line := by
  have indent : longer.takeWhile isBlank = line.takeWhile isBlank := by
    cases padded with
    | same => rfl
    | longer isPad =>
        rw [List.takeWhile_append, if_neg]
        intro whole
        have blank : line.takeWhile isBlank = line :=
          (List.takeWhile_prefix isBlank).eq_of_length whole
        have parts : line.takeWhile isBlank ++ line.trimStart = line :=
          List.takeWhile_append_dropWhile
        have nothing : line.trimStart = [] := by
          rw [blank] at parts
          exact List.append_right_eq_self.mp parts
        rw [Text.trim, nothing] at filled
        exact absurd filled (by decide)
  rw [level, level, indentColumns, indentColumns, indent]

/-- The rule about nesting gives the same for both line endings. -/
theorem ignoresReturns (limit : Nat) : (textRule limit).IgnoresReturns := by
  intro file
  have lines : List.Forall₂
      (fun left right => Text.Padded left.1 right.1 ∧ Text.Padded left.2 right.2)
      (file.lines.zip (Mask.codeLines file.content))
      (file.crlf.lines.zip (Mask.codeLines file.crlf.content)) :=
    forall₂_zip file.forall₂_lines_crlf (Mask.codeLines_crlf file.content).forall₂
  refine Text.filterMap_eq_of_forall₂ (forall₂_zipIdx lines 1) ?_
  rintro ⟨⟨source, masked⟩, _⟩ ⟨⟨longer, longerMasked⟩, number⟩ ⟨⟨sources, maskeds⟩, rfl⟩
  simp only [checkLine, sources.trim_eq, Line.isComment_eq sources,
    maskeds.contains_eq (show ¬ Text.IsPad '{' by decide)]
  split
  next => rfl
  next judged =>
    simp only [Bool.or_eq_true, not_or, Bool.not_eq_true] at judged
    rw [level_eq sources judged.1.1]
    rfl

end Nesting

/-! ## Concatenation on a line -/

namespace Concatenation

variable {line longer : Text}

/-- What follows a plus sign goes on as the line does. -/
theorem afterPlus?_padded (padded : Text.Padded line longer) :
    Option.Rel Text.Padded (afterPlus? line) (afterPlus? longer) :=
  padded.trimStart.after? (by decide)

/-- What follows an operand goes on as the line does. -/
theorem afterOperand?_padded (padded : Text.Padded line longer) :
    Option.Rel Text.Padded (afterOperand? line) (afterOperand? longer) := by
  have operand := padded.trimStart
  simp only [afterOperand?, operand.any_head?_eq Text.excludesPad_isLetter]
  split
  · exact .some (operand.dropWhile isLetter).trimStart
  · exact .none

/-- A padded text starts with a quote if the text does. -/
theorem startsQuote_eq (padded : Text.Padded line longer) :
    startsQuote longer = startsQuote line :=
  padded.trimStart.head?_beq_eq (by decide)

private theorem joinsString_eq (padded : Text.Padded line longer) :
    joinsString longer = joinsString line := by
  refine Text.any_eq_of_rel ?_ fun _ _ => startsQuote_eq
  have operand := Text.rel_bind (afterPlus?_padded padded) fun _ _ => afterOperand?_padded
  exact Text.rel_bind operand fun _ _ => afterPlus?_padded

private theorem joinsWord_eq (padded : Text.Padded line longer) :
    joinsWord longer = joinsWord line := by
  rw [joinsWord, joinsWord]
  rcases (padded.dropWhile isLetter).cons_or_not (c := '"') (by decide) with
    ⟨rest, other, line_eq, longer_eq, padded_rest⟩ | ⟨line_ne, longer_ne⟩
  · rw [line_eq, longer_eq]
    exact Text.isSome_eq_of_rel
      (Text.rel_bind (afterPlus?_padded padded_rest) fun _ _ => afterOperand?_padded)
  · split
    next rest found => exact absurd found (longer_ne rest)
    next => rfl

private theorem concatenatesAt_eq {cut other : Text.Cut} (padded : cut.Padded other) :
    concatenatesAt other = concatenatesAt cut := by
  rw [concatenatesAt, concatenatesAt]
  rcases padded.2.cons_or_not (c := '"') (by decide) with
    ⟨rest, otherRest, cut_eq, other_eq, padded_rest⟩ | ⟨cut_ne, other_ne⟩
  · simp only [cut_eq, other_eq, joinsString_eq padded_rest, joinsWord_eq padded_rest]
  · split
    next rest found => exact absurd found (other_ne rest)
    next => rfl

/-- The rule about concatenation on lines gives the same for both line endings. -/
theorem lineRule_ignoresReturns : lineRule.IgnoresReturns := by
  refine TextRule.ignoresReturns_of_filterMap (fun _ => rfl) ?_
  intro file line longer number padded
  have concatenates : longer.cuts.any concatenatesAt = line.cuts.any concatenatesAt :=
    padded.any_cuts_eq (fun _ => rfl) fun _ _ cuts => concatenatesAt_eq cuts
  rw [checkLine, checkLine, Line.isComment_eq padded, concatenates]
  rfl

end Concatenation

end PatchLint

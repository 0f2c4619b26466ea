import PatchLint.Proofs.EmptyCatch.Detection
import PatchLint.Proofs.Text.Words

/-!
# The keywords of a line are its words

The rule on catch blocks looks for the characters of its keyword and then at what stands on
both sides of them, while other checks split a line into words and compare. Both find the
same runs of identifier characters.
-/

namespace PatchLint.EmptyCatch

variable {line : Text} {stop : Nat}

private theorem isWordChar_of_mem_keyword : ∀ c ∈ keyword, isWordChar c = true :=
  List.all_eq_true.mp (by decide)

/-- A keyword ends behind a cut exactly if it is the word that starts there. -/
theorem keywordEnd?_eq_ite (cut : Text.Cut) :
    keywordEnd? cut =
      if cut.word? = some keyword then some (cut.offset + keyword.byteSize) else none := by
  ext column
  rw [Option.ite_none_right_eq_some, keywordEnd?_eq_some_iff, Text.Cut.word?_eq_some_iff,
    Option.some.injEq, Text.Cut.startsWord, ← List.getLast?_reverse]
  constructor
  · rintro ⟨rest, after, startsWord, endsWord, rfl⟩
    refine ⟨⟨rest, after, by decide, isWordChar_of_mem_keyword, ?_, ?_⟩, rfl⟩
    · simpa using startsWord
    · simpa [Text.endsWord] using endsWord
  · rintro ⟨⟨rest, after, run⟩, rfl⟩
    refine ⟨rest, after, ?_, ?_, rfl⟩
    · rw [run.startsWord, Bool.not_false]
    · rw [Text.endsWord, run.endsWord, Bool.not_false]

private theorem mem_keywordEnds_iff : stop ∈ keywordEnds line ↔
    ∃ before after, line = before ++ (keyword ++ after) ∧ Text.IsRun before keyword after ∧
      stop = Text.byteSize (before ++ keyword) := by
  rw [keywordEnds, List.mem_filterMap, ← Text.exists_mem_cuts_iff]
  refine exists_congr fun cut => and_congr_right fun _ => ?_
  rw [keywordEnd?_eq_ite, Option.ite_none_right_eq_some, Option.some.injEq,
    Text.byteSize_append, Text.byteSize_reverse, Text.Cut.offset, @eq_comm _ stop]

/-- There are as many keywords as there are words that are spelled like them. -/
theorem length_keywordEnds (line : Text) :
    (keywordEnds line).length = line.words.count keyword := by
  rw [keywordEnds, List.length_filterMap_eq_countP, Text.words_eq_filterMap, List.count,
    List.countP_filterMap]
  refine List.countP_congr fun cut _ => ?_
  rw [keywordEnd?_eq_ite]
  cases cut.word? <;> simp

private theorem keywordEnds_eq_filterMap_finds (line : Text) :
    keywordEnds line = (Text.finds keyword line).filterMap keywordEnd? := by
  symm
  apply Text.filterMap_finds (by decide) isWordChar_of_mem_keyword
  intro cut other
  rw [keywordEnd?_eq_ite, if_neg other]

/-- A line has a word exactly if the word stands in it as a whole run of identifier
characters. The keywords are found at the ends of just those runs that are spelled like them,
from left to right and one for each such word of the line, also by a search that reads on
behind each find of the characters. -/
theorem words_and_keywords_are_runs (line : Text) :
    (∀ word, line.hasWord word = true ↔
      ∃ before after, line = before ++ (word ++ after) ∧ Text.IsRun before word after) ∧
    (∀ stop, stop ∈ keywordEnds line ↔
      ∃ before after, line = before ++ (keyword ++ after) ∧ Text.IsRun before keyword after ∧
        stop = Text.byteSize (before ++ keyword)) ∧
    (keywordEnds line).Pairwise (· < ·) ∧
    (keywordEnds line).length = line.words.count keyword ∧
    keywordEnds line = (Text.finds keyword line).filterMap keywordEnd? :=
  ⟨fun _ => Text.hasWord_iff, fun _ => mem_keywordEnds_iff, pairwise_keywordEnds line,
    length_keywordEnds line, keywordEnds_eq_filterMap_finds line⟩

end PatchLint.EmptyCatch

import PatchLint.Proofs.LineEnding.BlockRules
import PatchLint.Rule.Catalog

/-!
# What line ends change

All text rules but one report the same issues for a file whichever way its lines
end. The exception is cyclomatic complexity: it takes a question mark for a
branch only between two blanks, and the carriage return is a blank. A line that
ends in a question mark is one branch more with the return than without it, so
the rule agrees with itself just where such lines do not decide.
-/

namespace PatchLint

namespace Complexity

/-- The line ends in a blank and a question mark. -/
def endsInQuestion (line : Text) : Bool :=
  line.getLast? == some '?' && line.dropLast.getLast?.any isBlank

/-- The lines of a method that end in a question mark, without the last line of
the file. -/
def openQuestions (code : List Text) (span : MethodSpan) : Nat :=
  ((code.dropLast.drop span.firstLine).take span.lineCount).countP endsInQuestion

/-- Padding puts a blank behind the last character of a line. -/
theorem ternaries_append {pad : Char} (isPad : Text.IsPad pad) (line : Text) :
    ternaries (line ++ [pad]) = ternaries line + if endsInQuestion line then 1 else 0 := by
  match line with
  | [] => rfl
  | [_] => simp [ternaries, endsInQuestion]
  | [left, mark] => simp [ternaries, endsInQuestion, isPad.isBlank]
  | left :: mark :: right :: rest =>
      have later := ternaries_append isPad (mark :: right :: rest)
      have sameEnd : endsInQuestion (left :: mark :: right :: rest) =
          endsInQuestion (mark :: right :: rest) := by
        simp [endsInQuestion, List.getLast?_cons_cons]
      rw [List.cons_append, List.cons_append, List.cons_append, ternaries, ternaries, sameEnd,
        Nat.add_assoc, ← later]
      rfl

private theorem decisionPoints_append {pad : Char} (isPad : Text.IsPad pad) (line : Text) :
    decisionPoints (line ++ [pad]) =
      decisionPoints line + if endsInQuestion line then 1 else 0 := by
  have padded := Text.Padded.longer line isPad
  rw [decisionPoints, decisionPoints, padded.words_eq, padded.occurrences_eq (by decide),
    padded.occurrences_eq (by decide), ternaries_append isPad, ← Nat.add_assoc]

/-- Padded line ends add one branch for each line that ends in a question mark. -/
theorem ofLines_padded {code longer : List Text} (breaks : Text.PaddedBreaks code longer)
    (first count : Nat) :
    ofLines ((longer.drop first).take count) =
      ofLines ((code.drop first).take count) +
        ((code.dropLast.drop first).take count).countP endsInQuestion := by
  induction breaks generalizing first count with
  | last line => simp
  | @cons rest longer line pad isPad later ih =>
      have more : rest ≠ [] := by
        rintro rfl
        cases later
      rw [List.dropLast_cons_of_ne_nil more]
      cases first with
      | zero =>
          cases count with
          | zero => simp
          | succ count =>
              have following := ih 0 count
              simp only [List.drop_zero, List.take_succ_cons, ofLines, List.foldr_cons,
                List.countP_cons, decisionPoints_append isPad] at following ⊢
              omega
      | succ first => exact ih first count

private theorem ofSpan_crlf (content : Text) (span : MethodSpan) :
    ofSpan (Mask.codeLines content.crlf) span =
      ofSpan (Mask.codeLines content) span + openQuestions (Mask.codeLines content) span := by
  rw [ofSpan, ofSpan, ofLines_padded (Mask.codeLines_crlf content)]
  rfl

/-- Findings about one method show its complexity. -/
theorem finding_injective {file : SourceFile} {line : Nat} {name : Text} {left right : Nat}
    (same : finding file line name left = finding file line name right) : left = right := by
  have descriptions := congrArg Issue.description same
  simp only [finding, SourceFile.issue, Issue.atLine, String.append_left_inj,
    String.append_right_inj, Nat.toString_eq_repr] at descriptions
  have digits := congrArg String.toList descriptions
  rw [Nat.toList_repr, Nat.toList_repr] at digits
  rw [← Nat.ofDigitChars_ten_toDigits (n := left), digits, Nat.ofDigitChars_ten_toDigits]

/-- If two searches through a list give the same answers, and the second answers
wherever the first one does, then they answer alike everywhere. -/
theorem eq_of_filterMap_eq {question answer : Type} {questions : List question}
    {ask askMore : question → Option answer}
    (more : ∀ q ∈ questions, (ask q).isSome → (askMore q).isSome)
    (same : questions.filterMap askMore = questions.filterMap ask) :
    ∀ q ∈ questions, askMore q = ask q := by
  induction questions with
  | nil => simp
  | cons first rest ih =>
      rw [List.forall_mem_cons] at more ⊢
      rw [List.filterMap_cons, List.filterMap_cons] at same
      cases asked : ask first with
      | none =>
          cases askedMore : askMore first with
          | none =>
              simp only [asked, askedMore] at same
              exact ⟨rfl, ih more.2 same⟩
          | some answer =>
              -- One answer more at the front cannot be made up for behind it.
              have fewer : (rest.filterMap ask).length ≤ (rest.filterMap askMore).length := by
                rw [List.length_filterMap_eq_countP, List.length_filterMap_eq_countP]
                exact List.countP_mono_left more.2
              simp only [asked, askedMore] at same
              have lengths := congrArg List.length same
              rw [List.length_cons] at lengths
              omega
      | some answer =>
          obtain ⟨other, askedMore⟩ := Option.isSome_iff_exists.mp (more.1 (by simp [asked]))
          simp only [asked, askedMore, List.cons.injEq] at same
          exact ⟨by rw [askedMore, same.1], ih more.2 same.2⟩

/-- With carriage returns the rule counts the lines that end in a question mark. -/
theorem check_crlf_eq (limit : Nat) (file : SourceFile) :
    (textRule limit).check file.crlf =
      (methodSpans (Mask.codeLines file.content)).filterMap fun span =>
        let complexity := ofSpan (Mask.codeLines file.content) span +
          openQuestions (Mask.codeLines file.content) span
        if limit < complexity then
          some (finding file (span.firstLine + 1) span.name complexity)
        else none := by
  simp only [textRule, methodSpans_eq file.forall₂_codeLines_crlf]
  refine List.filterMap_congr fun span _ => ?_
  rw [SourceFile.crlf, ofSpan_crlf]
  rfl

/-- Complexity is judged alike with carriage returns just where the lines that
end in a question mark do not decide: there are none, or the method is not too
complex even with them. -/
theorem check_crlf_eq_iff (limit : Nat) (file : SourceFile) :
    (textRule limit).check file.crlf = (textRule limit).check file ↔
      ∀ span ∈ methodSpans (Mask.codeLines file.content),
        openQuestions (Mask.codeLines file.content) span = 0 ∨
          ofSpan (Mask.codeLines file.content) span +
            openQuestions (Mask.codeLines file.content) span ≤ limit := by
  rw [check_crlf_eq]
  constructor
  · intro same span member
    -- Returns never take a finding away, so equal lists agree method by method.
    have alike := eq_of_filterMap_eq (fun span _ reported => ?_) same span member
    · by_cases few : ofSpan (Mask.codeLines file.content) span +
          openQuestions (Mask.codeLines file.content) span ≤ limit
      · exact .inr few
      · left
        rw [if_pos (by omega)] at alike
        obtain ⟨_, sameFinding⟩ := Option.ite_none_right_eq_some.mp alike.symm
        have complexities := finding_injective (Option.some.inj sameFinding)
        omega
    · have complex : limit < ofSpan (Mask.codeLines file.content) span := by
        by_contra few
        rw [if_neg few] at reported
        exact absurd reported (by decide)
      rw [if_pos (by omega)]
      rfl
  · intro harmless
    refine List.filterMap_congr fun span member => ?_
    rcases harmless span member with none | few
    · rw [none, Nat.add_zero]
    · rw [if_neg (by omega), if_neg (by omega)]

end Complexity

namespace Catalog

variable {registry : ForbiddenRegistry} {thresholds : Thresholds} {rule : TextRule}

/-- Every rule but cyclomatic complexity ignores carriage returns. -/
theorem ignoresReturns_of_mem
    (clean : ∀ entry ∈ registry.entries, '\r' ∉ entry.pattern.toList)
    (member : rule ∈ registry.textRule :: heuristicRules thresholds ++ overlayRules)
    (other : rule ≠ Complexity.textRule thresholds.maxComplexity) : rule.IgnoresReturns := by
  simp only [heuristicRules, overlayRules, List.cons_append, List.nil_append, List.mem_cons,
    List.not_mem_nil, or_false] at member
  rcases member with rfl | rfl | rfl | rfl | rfl | rfl | rfl | rfl | rfl | rfl | rfl | rfl | rfl |
    rfl
  · exact ForbiddenRegistry.ignoresReturns clean
  · exact PatchClass.ignoresReturns
  · exact PatchMethod.ignoresReturns
  · exact EmptyCatch.ignoresReturns
  · exact MagicNumber.ignoresReturns
  · exact absurd rfl other
  · exact Nesting.ignoresReturns thresholds.maxIndentNesting
  · exact LongMethod.ignoresReturns thresholds.maxMethodLines
  · exact Todo.ignoresReturns
  · exact NullGuard.ignoresReturns
  · exact Disposable.ignoresReturns
  · exact Concatenation.lineRule_ignoresReturns
  · exact Concatenation.loopRule_ignoresReturns
  · exact Linq.ignoresReturns

/-- Carriage returns in front of the line feeds change no finding of a text rule,
whatever its limits, with one exception: cyclomatic complexity reports the same
just if, for every method, no line of it ends in a blank and a question mark, or
the method is not too complex even with one branch more for each such line. -/
theorem textRules_crlf (clean : ∀ entry ∈ registry.entries, '\r' ∉ entry.pattern.toList)
    (file : SourceFile)
    (member : rule ∈ registry.textRule :: heuristicRules thresholds ++ overlayRules) :
    rule.check file.crlf = rule.check file ↔
      (rule = Complexity.textRule thresholds.maxComplexity →
        ∀ span ∈ methodSpans (Mask.codeLines file.content),
          Complexity.openQuestions (Mask.codeLines file.content) span = 0 ∨
            Complexity.ofSpan (Mask.codeLines file.content) span +
              Complexity.openQuestions (Mask.codeLines file.content) span ≤
                thresholds.maxComplexity) := by
  by_cases complexity : rule = Complexity.textRule thresholds.maxComplexity
  · rw [forall_prop_of_true complexity, complexity, Complexity.check_crlf_eq_iff]
  · have same := ignoresReturns_of_mem clean member complexity file
    exact ⟨fun _ found => absurd found complexity, fun _ => same⟩

/-- A method with one conditional expression on a line. -/
def ternaryFile : SourceFile :=
  ⟨"A.cs".toList,
    Text.joinLines (["static int F(bool a)", r"{", "return a ? 1 : 2;", r"}"].map String.toList)⟩

/-- The rule about complexity finds the method with either line ending, and the same about it. -/
theorem textRules_crlf_ternary :
    (∀ entry ∈ ForbiddenRegistry.defaults.entries, '\r' ∉ entry.pattern.toList) ∧
      (Complexity.textRule 1).check ternaryFile ≠ [] ∧
      (Complexity.textRule 1).check ternaryFile.crlf =
        (Complexity.textRule 1).check ternaryFile := by
  have clean : ∀ entry ∈ ForbiddenRegistry.defaults.entries, '\r' ∉ entry.pattern.toList := by
    decide +kernel
  have member : Complexity.textRule 1 ∈ ForbiddenRegistry.defaults.textRule ::
      heuristicRules { maxComplexity := 1 } ++ overlayRules := by
    simp [heuristicRules]
  refine ⟨clean, by decide +kernel, (textRules_crlf clean ternaryFile member).mpr fun _ => ?_⟩
  decide +kernel

/-- A method whose conditional expression is broken behind its question mark. -/
def brokenTernaryFile : SourceFile :=
  ⟨"A.cs".toList,
    Text.joinLines (["static int F()", r"{", "return a ?", "1 : 2;", r"}"].map String.toList)⟩

/-- A question mark at the end of a line is a branch only with a carriage return
behind it. -/
theorem complexity_crlf_brokenTernary :
    '\r' ∉ brokenTernaryFile.content ∧
      (Complexity.textRule 1).check brokenTernaryFile = [] ∧
      (Complexity.textRule 1).check brokenTernaryFile.crlf =
        [Complexity.finding brokenTernaryFile 1 "F".toList 2] := by
  decide +kernel

end Catalog

end PatchLint

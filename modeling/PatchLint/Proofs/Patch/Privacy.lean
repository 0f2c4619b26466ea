import Mathlib.Tactic.Tauto
import PatchLint.Proofs.Patch.Visits
import PatchLint.Proofs.Text.Words

/-!
# Which patch methods are reported as not private

A patch method is reported when the word `private` stands nowhere in the signature
that was gathered. The signature runs to the end of the line that opens the body, so
the word may also stand in a parameter, in a body on one line or in a comment. There
it hides a method that is not declared private.
-/

namespace PatchLint

/-! ## Words on both sides of a character -/

namespace Text

private theorem hasWord_append_cons {c : Char} (other : isWordChar c = false)
    (front back word : Text) :
    (front ++ c :: back).hasWord word = (front.hasWord word || back.hasWord word) := by
  rw [hasWord, hasWord, hasWord, words_append_cons other, List.contains_append]

/-- The text from the first mark on. -/
def behind (mark : Char) (text : Text) : Text :=
  text.dropWhile (· != mark)

/-- A word of a text stands before the first mark or behind it. -/
theorem hasWord_eq_before_or_behind {mark : Char} (other : isWordChar mark = false)
    (text word : Text) :
    text.hasWord word = ((text.before mark).hasWord word || (text.behind mark).hasWord word) := by
  have split : text.before mark ++ text.behind mark = text := List.takeWhile_append_dropWhile
  cases rest : text.behind mark with
  | nil =>
      rw [rest, List.append_nil] at split
      simp [split, hasWord, words]
  | cons c back =>
      have first : c = mark := by
        have fails := List.head?_dropWhile_not (· != mark) text
        rw [show text.dropWhile (· != mark) = c :: back from rest] at fails
        simpa using fails
      subst first
      have parted := hasWord_append_cons other (text.before c) back word
      have alone := hasWord_append_cons other [] back word
      have nothing : hasWord [] word = false := by simp [hasWord, words]
      rw [rest] at split
      rw [split] at parted
      rw [parted, ← List.nil_append (c :: back), alone, nothing, Bool.false_or]

end Text

namespace PatchMethod

variable {file : SourceFile} {number place : Nat} {stack : Stack} {signature : Signature}

/-! ## Findings by their code -/

private theorem code_of_mem_transpilerCalls {code : List Text} {signatureEnd : Nat}
    {transpiler : Text}
    {issue : Issue} (member : issue ∈ transpilerCalls file code signatureEnd transpiler) :
    issue.code = "BCS053" := by
  obtain ⟨line, _, onLine⟩ := List.mem_flatMap.mp member
  obtain ⟨call, _, rfl⟩ := List.mem_map.mp onLine
  rfl

/-- Of what is found at a stack, only the finding about a method that is not private
has its code. -/
theorem exists_signature_of_mem_judge {issue : Issue} (member : issue ∈ judge file place stack)
    (code : issue.code = "BCS052") :
    ∃ signature, stack.signature? = some signature ∧
      signature.text.hasWord "private".toList = false ∧ issue.line = signature.firstLine + 1 := by
  rw [judge] at member
  split at member
  next signature gathered =>
    refine ⟨signature, gathered, ?_⟩
    rw [checkSignature] at member
    split at member
    next lacks =>
      rw [List.mem_singleton] at member
      subst member
      rw [Bool.not_eq_true'] at lacks
      exact ⟨lacks, Nat.max_eq_left (by omega)⟩
    next =>
      split at member
      next =>
        rw [code_of_mem_transpilerCalls member] at code
        exact absurd code (by decide)
      next => simp at member
  next =>
    rw [List.mem_singleton] at member
    subst member
    simp [noMethod, SourceFile.issue, Issue.atLine] at code

private theorem exists_mem_judge_of_not_hasWord (file : SourceFile) (place : Nat)
    (gathered : stack.signature? = some signature)
    (lacks : ¬ signature.text.hasWord "private".toList = true) :
    ∃ issue ∈ judge file place stack,
      issue.code = "BCS052" ∧ issue.line = signature.firstLine + 1 := by
  refine ⟨notPrivate file (signature.firstLine + 1)
    ((Declaration.methodName? signature.text).getD "unknown".toList) stack.names, ?_, rfl, ?_⟩
  · rw [judge, gathered]
    dsimp only
    rw [checkSignature, if_pos (by rw [Bool.not_eq_true] at lacks; rw [lacks]; rfl)]
    exact List.mem_singleton.mpr rfl
  · exact Nat.max_eq_left (by omega)

/-- The scan gathers each signature once: it does not come to a line inside of one. -/
theorem place_eq_of_firstLine_eq {otherStack : Stack} {other : Signature}
    (visits : Visits file.lines 0 number) (stacked : stackAt? file.lines number = some stack)
    (gathered : stack.signature? = some signature) (otherVisits : Visits file.lines 0 place)
    (otherStacked : stackAt? file.lines place = some otherStack)
    (otherGathered : otherStack.signature? = some other)
    (sameLine : other.firstLine = signature.firstLine) : place = number := by
  -- Between two stops lies the signature of the first one, and the second one is in front of its
  -- own.
  have apart : ∀ {first second : Nat} {firstStack secondStack : Stack}
      {firstSignature secondSignature : Signature}, Visits file.lines 0 first →
      stackAt? file.lines first = some firstStack →
      firstStack.signature? = some firstSignature → Visits file.lines 0 second →
      stackAt? file.lines second = some secondStack →
      secondStack.signature? = some secondSignature → first < second →
      firstSignature.firstLine < secondSignature.firstLine := by
    intro first second firstStack secondStack firstSignature secondSignature firstVisits
      firstStacked firstGathered secondVisits secondStacked secondGathered before
    have jumped := firstVisits.onward_le secondVisits before
    rw [onward_of_stackAt? firstStacked, Stack.resume, firstGathered] at jumped
    have firstBounds := signature?_bounds firstGathered
    have secondBounds := signature?_bounds secondGathered
    have secondStack := lt_after_of_stackAt? secondStacked
    simp only at jumped
    omega
  rcases Nat.lt_trichotomy place number with before | same | behind
  · have less := apart otherVisits otherStacked otherGathered visits stacked gathered before
    omega
  · exact same
  · have less := apart visits stacked gathered otherVisits otherStacked otherGathered behind
    omega

/-- At each stop of the scan at which a signature is gathered, its first line is
reported if and only if the word `private` stands nowhere in the signature. As a verdict
about the modifiers, which stand before the first parenthesis, this is right if and only
if the word does not stand behind the parenthesis alone. -/
theorem notPrivate_reported_iff (visits : Visits file.lines 0 number)
    (stacked : stackAt? file.lines number = some stack)
    (gathered : stack.signature? = some signature) :
    let reported := ∃ issue ∈ textRule.check file,
      issue.code = "BCS052" ∧ issue.line = signature.firstLine + 1
    let declared (text : Text) := text.hasWord "private".toList = true
    (reported ↔ ¬ declared signature.text) ∧
      ((reported ↔ ¬ declared (signature.text.before '(')) ↔
        (declared (signature.text.behind '(') → declared (signature.text.before '('))) := by
  intro reported declared
  have decided : reported ↔ ¬ declared signature.text := by
    constructor
    · rintro ⟨issue, member, code, line⟩
      obtain ⟨place, otherStack, otherVisits, otherStacked, found⟩ := mem_check_iff.mp member
      obtain ⟨other, otherGathered, lacks, otherLine⟩ := exists_signature_of_mem_judge found code
      have samePlace := place_eq_of_firstLine_eq visits stacked gathered otherVisits otherStacked
        otherGathered (by omega)
      subst samePlace
      rw [stacked, Option.some.injEq] at otherStacked
      subst otherStacked
      rw [gathered, Option.some.injEq] at otherGathered
      subst otherGathered
      exact Bool.not_eq_true _ ▸ lacks
    · intro lacks
      obtain ⟨issue, found, code, line⟩ :=
        exists_mem_judge_of_not_hasWord file number gathered lacks
      exact ⟨issue, mem_check_iff.mpr ⟨number, stack, visits, stacked, found⟩, code, line⟩
  refine ⟨decided, ?_⟩
  have paren : isWordChar '(' = false := by decide
  have split : declared signature.text ↔
      declared (signature.text.before '(') ∨ declared (signature.text.behind '(') := by
    simp only [declared]
    rw [Text.hasWord_eq_before_or_behind paren, Bool.or_eq_true]
  rw [decided, split]
  tauto

/-- A file with a public method under two attributes, declared on several lines. -/
def publicPostfix : SourceFile :=
  .ofText "A.cs".toList
    (Text.joinLines (["[HarmonyPostfix]", "[HarmonyDebug]", "public static void After(",
      "    int value)", r"{", r"}"].map String.toList))

/-- What follows the attributes of this file. -/
def publicPostfixStack : Stack where
  names := ["HarmonyPostfix".toList, "HarmonyDebug".toList]
  after := 2
  rest := publicPostfix.lines.drop 2

def publicPostfixSignature : Signature where
  text := r"public static void After( int value) {".toList
  firstLine := 2
  lastLine := 4

/-- The public method is reported on its own line. -/
theorem notPrivate_reported_iff_publicPostfix :
    stackAt? publicPostfix.lines 0 = some publicPostfixStack ∧
      publicPostfixStack.signature? = some publicPostfixSignature ∧
      ∃ issue ∈ textRule.check publicPostfix, issue.code = "BCS052" ∧ issue.line = 3 := by
  have stacked : stackAt? publicPostfix.lines 0 = some publicPostfixStack := by decide
  have gathered : publicPostfixStack.signature? = some publicPostfixSignature := by decide
  refine ⟨stacked, gathered, ?_⟩
  exact (notPrivate_reported_iff .here stacked gathered).1.mpr (by decide)

/-- A file with a public method. A comment behind its body holds the word `private`. -/
def hiddenPrefix : SourceFile :=
  .ofText "A.cs".toList
    "[HarmonyPrefix]\npublic static void Prefix() { } // not private".toList

/-- The modifiers of this method lack the word, and still nothing is reported. -/
theorem notPrivate_missed_hiddenPrefix :
    ∃ stack signature, Visits hiddenPrefix.lines 0 0 ∧
      stackAt? hiddenPrefix.lines 0 = some stack ∧ stack.signature? = some signature ∧
      (signature.text.before '(').hasWord "private".toList = false ∧
      ¬ ∃ issue ∈ textRule.check hiddenPrefix,
        issue.code = "BCS052" ∧ issue.line = signature.firstLine + 1 := by
  refine ⟨⟨["HarmonyPrefix".toList], 1, hiddenPrefix.lines.drop 1⟩,
    ⟨"public static void Prefix() { } // not private".toList, 1, 1⟩, .here, by decide,
    by decide, by decide, ?_⟩
  have silent : textRule.check hiddenPrefix = [] := by decide
  simp [silent]

end PatchMethod

end PatchLint

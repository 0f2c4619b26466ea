import Mathlib.Data.Prod.Lex
import Mathlib.Tactic.Tauto
import PatchLint.Proofs.Patch.Visits
import PatchLint.Proofs.Source.Passage

/-!
# Which calls of a transpiler are reported

The calls of a transpiler are looked for on whole lines, from the last line of its
signature to the line on which its body ends. The body may start and end in the middle
of a line. What stands before the opening brace or behind the closing brace on these
lines is read as well, and a declaration looks like a call.

Places are compared by line and byte. A name that a parenthesis follows stands before
the body, in it or behind it, because a parenthesis is no brace.
-/

namespace PatchLint

namespace BlockSpan

/-! ## The lines of located characters -/

/-- What stands on one line. -/
def onLine (line : Nat) (places : List (Char × Nat)) : Text :=
  (places.filter fun place => place.2 == line).map Prod.fst

@[simp] private theorem onLine_append (line : Nat) (front back : List (Char × Nat)) :
    onLine line (front ++ back) = onLine line front ++ onLine line back := by
  simp [onLine]

private theorem onLine_cons_self (line : Nat) (c : Char) (places : List (Char × Nat)) :
    onLine line ((c, line) :: places) = c :: onLine line places := by
  simp [onLine]

private theorem onLine_map_self (line : Nat) (text : Text) :
    onLine line (text.map fun c => (c, line)) = text := by
  simp [onLine, List.filter_map, Function.comp_def]

private theorem onLine_eq_nil {line : Nat} {places : List (Char × Nat)}
    (elsewhere : ∀ place ∈ places, place.2 ≠ line) : onLine line places = [] := by
  rw [onLine, List.filter_eq_nil_iff.mpr (by simpa using elsewhere), List.map_nil]

/-- Characters come with the line on which they stand. -/
theorem onLine_located (start : Nat) {line : Nat} {lines : List Text} {text : Text}
    (stands : lines[line]? = some text) : onLine (start + line) (located start lines) = text := by
  induction lines generalizing start line with
  | nil => simp at stands
  | cons first rest ih =>
      rw [located, onLine_append]
      cases line with
      | zero =>
          obtain rfl := Option.some.inj stands
          have later : onLine start (located (start + 1) rest) = [] := by
            refine onLine_eq_nil fun place member => ?_
            have bounds := mem_located member
            omega
          rw [Nat.add_zero, onLine_map_self, later, List.append_nil]
      | succ line =>
          have earlier : onLine (start + (line + 1)) (first.map fun c => (c, start)) = [] := by
            refine onLine_eq_nil fun place member => ?_
            obtain ⟨c, _, rfl⟩ := List.mem_map.mp member
            simp
          rw [earlier, List.nil_append, ← ih (start + 1) stands]
          congr 1
          omega

/-- A character starts at byte `column` of line `line`. -/
def Shows (code : List Text) (c : Char) (line column : Nat) : Prop :=
  ∃ text back, code[line]? = some text ∧ text.dropBytes? column = some (c :: back)

private theorem Shows.unique {code : List Text} {c d : Char} {line column : Nat}
    (shows : Shows code c line column) (showsToo : Shows code d line column) : c = d := by
  obtain ⟨text, back, stands, starts⟩ := shows
  obtain ⟨_, _, standsToo, startsToo⟩ := showsToo
  obtain rfl := Option.some.inj (stands.symm.trans standsToo)
  exact (List.cons.inj (Option.some.inj (starts.symm.trans startsToo))).1

/-- A located character starts behind what stands before it on its line. -/
theorem shows_of_located_eq {code : List Text} {start line : Nat} {c : Char}
    {front back : List (Char × Nat)}
    (split : located start (code.drop start) = front ++ (c, line) :: back) :
    Shows code c line (onLine line front).byteSize := by
  have member : (c, line) ∈ located start (code.drop start) := by simp [split]
  obtain ⟨above, below⟩ := mem_located member
  obtain ⟨index, rfl⟩ : ∃ index, line = start + index := Nat.exists_eq_add_of_le above
  have inside : start + index < code.length := by
    rw [List.length_drop] at below
    simp only at below
    omega
  have stands : (code.drop start)[index]? = some code[start + index] := by
    rw [List.getElem?_drop, List.getElem?_eq_getElem inside]
  have text := onLine_located start stands
  rw [split, onLine_append, onLine_cons_self] at text
  exact ⟨_, onLine (start + index) back, List.getElem?_eq_getElem inside,
    Text.dropBytes?_eq_some_iff.mpr ⟨_, text.symm, rfl⟩⟩

private theorem searchText_zero (code : List Text) (line : Nat) :
    searchText code line 0 = located line (code.drop line) := by
  rw [searchText]
  split
  next nothing => rw [nothing, located]
  next first rest split => rw [split, fromColumn, Nat.zero_min, Text.dropBytes?, Option.getD_some]

end BlockSpan

namespace Bracketed

open BlockSpan

variable {start : Nat} {code : List Text}

/-- The place of the opening brace: its line and the byte at which it stands. -/
def opening {places : List (Char × Nat)} (cut : Bracketed places) : Nat ×ₗ Nat :=
  toLex (cut.openLine, (onLine cut.openLine cut.header).byteSize)

/-- The place of the closing brace. -/
def closing {places : List (Char × Nat)} (cut : Bracketed places) : Nat ×ₗ Nat :=
  toLex (cut.closeLine,
    (onLine cut.closeLine (cut.header ++ ('{', cut.openLine) :: cut.body)).byteSize)

private theorem shows_opening (cut : Bracketed (located start (code.drop start))) :
    Shows code '{' (ofLex cut.opening).1 (ofLex cut.opening).2 :=
  shows_of_located_eq cut.split

private theorem shows_closing (cut : Bracketed (located start (code.drop start))) :
    Shows code '}' (ofLex cut.closing).1 (ofLex cut.closing).2 := by
  have split := cut.split
  rw [← List.cons_append, ← List.append_assoc] at split
  exact shows_of_located_eq split

/-- The two braces part the other characters of the lines up to the closing one. -/
theorem place_iff (cut : Bracketed (located start (code.drop start))) {c : Char}
    {line column : Nat} (shows : Shows code c line column) (notOpening : c ≠ '{')
    (notClosing : c ≠ '}') :
    (start ≤ line ∧ line ≤ cut.closeLine) ↔
      (start ≤ line ∧ toLex (line, column) < cut.opening) ∨
        (cut.opening < toLex (line, column) ∧ toLex (line, column) < cut.closing) ∨
          (cut.closing < toLex (line, column) ∧ line = cut.closeLine) := by
  have ordered := cut.openLine_le_closeLine
  have bounds := cut.bounds
  constructor
  · rintro ⟨above, below⟩
    rcases lt_trichotomy (toLex (line, column)) cut.opening with less | same | more
    · exact .inl ⟨above, less⟩
    · have brace := cut.shows_opening
      rw [← same] at brace
      exact absurd (shows.unique brace) notOpening
    rcases lt_trichotomy (toLex (line, column)) cut.closing with less | same | behind
    · exact .inr (.inl ⟨more, less⟩)
    · have brace := cut.shows_closing
      rw [← same] at brace
      exact absurd (shows.unique brace) notClosing
    · refine .inr (.inr ⟨behind, ?_⟩)
      rw [closing, Prod.Lex.toLex_lt_toLex] at behind
      omega
  · rintro (⟨above, before⟩ | ⟨opened, closed⟩ | ⟨_, rfl⟩)
    · rw [opening, Prod.Lex.toLex_lt_toLex] at before
      exact ⟨above, by omega⟩
    · rw [opening, Prod.Lex.toLex_lt_toLex] at opened
      rw [closing, Prod.Lex.toLex_lt_toLex] at closed
      exact ⟨by omega, by omega⟩
    · exact ⟨by omega, Nat.le_refl _⟩

end Bracketed

namespace PatchMethod

open BlockSpan

variable {file : SourceFile} {code : List Text} {number : Nat} {stack : Stack}
  {signature : Signature} {callee : Text} {line column : Nat}

/-! ## Calls -/

/-- The name stands on the line, and a parenthesis follows it at the byte `column`. -/
def CallAt (code : List Text) (callee : Text) (line column : Nat) : Prop :=
  ∃ text, code[line]? = some text ∧ (callee, column) ∈ Declaration.callNames text

private theorem CallAt.shows (call : CallAt code callee line column) :
    Shows code '(' line column := by
  obtain ⟨text, stands, listed⟩ := call
  simp only [Declaration.callNames, List.mem_filterMap, List.mem_filter, Option.map_eq_some_iff,
    Prod.mk.injEq] at listed
  obtain ⟨cut, ⟨member, opens⟩, name, _, _, rfl⟩ := listed
  rw [Declaration.opensParen, beq_iff_eq] at opens
  obtain ⟨rest, after⟩ := List.head?_eq_some_iff.mp opens
  refine ⟨text, rest, stands, Text.dropBytes?_eq_some_iff.mpr ⟨cut.before.reverse, ?_, ?_⟩⟩
  · rw [← after, Text.append_of_mem_cuts member]
  · rw [Text.byteSize_reverse, Text.Cut.offset]

/-- A method of this name is declared that is neither private nor both public and static. -/
def Forbidden (code : List Text) (callee : Text) : Prop :=
  ∃ declared ∈ declaredMethods code, declared.name = callee ∧
    declared.access ≠ .privateAccess ∧
      ¬ (declared.access = .publicAccess ∧ declared.isStatic = true)

private theorem isForbidden_declaredMethods :
    isForbidden (declaredMethods code) callee = true ↔ Forbidden code callee := by
  simp [isForbidden, Forbidden, Declared.allowsTranspiler, imp_iff_not_or]

private theorem forbiddenCall_inj {transpiler other : Text} {otherLine : Nat}
    (same : forbiddenCall file (otherLine + 1) transpiler other =
      forbiddenCall file (line + 1) transpiler callee) : otherLine = line ∧ other = callee := by
  simp only [forbiddenCall, SourceFile.issue, Issue.atLine, Issue.mk.injEq] at same
  obtain ⟨_, lines, _, _, texts⟩ := same
  refine ⟨by omega, ?_⟩
  have characters := congrArg String.toList texts
  simpa only [String.toList_append, String.toList_ofList, List.append_assoc,
    List.append_cancel_left_eq, List.append_cancel_right_eq] using characters

/-- Calls are looked for on whole lines, from the signature on. -/
theorem mem_transpilerCalls_iff {first : Nat} {transpiler : Text} :
    forbiddenCall file (line + 1) transpiler callee ∈ transpilerCalls file code first transpiler ↔
      Forbidden code callee ∧ ∃ column, CallAt code callee line column ∧ first ≤ line ∧
        line ≤ ((blockSpan? code first 0).map BlockSpan.closeLine).getD first := by
  rw [transpilerCalls, List.mem_flatMap]
  set last := ((blockSpan? code first 0).map BlockSpan.closeLine).getD first
  have onLines : ∀ {text : Text} {line : Nat},
      (text, line) ∈ (code.zipIdx.take (last + 1)).drop first ↔
        code[line]? = some text ∧ first ≤ line ∧ line ≤ last := by
    intro text line
    rw [List.mem_iff_getElem?]
    simp only [List.getElem?_drop, List.getElem?_take, List.getElem?_zipIdx,
      Option.ite_none_right_eq_some, Option.map_eq_some_iff, Prod.mk.injEq, Nat.zero_add]
    constructor
    · rintro ⟨index, before, _, stands, rfl, rfl⟩
      exact ⟨stands, by omega, by omega⟩
    · rintro ⟨stands, above, below⟩
      refine ⟨line - first, by omega, text, ?_, rfl, by omega⟩
      rwa [Nat.add_sub_of_le above]
  constructor
  · rintro ⟨⟨text, otherLine⟩, read, reported⟩
    obtain ⟨call, found, same⟩ := List.mem_map.mp reported
    obtain ⟨listed, forbidden⟩ := List.mem_filter.mp found
    obtain ⟨rfl, rfl⟩ := forbiddenCall_inj same
    obtain ⟨stands, bounds⟩ := onLines.mp read
    exact ⟨isForbidden_declaredMethods.mp forbidden, call.2, ⟨text, stands, listed⟩, bounds⟩
  · rintro ⟨forbidden, column, ⟨text, stands, listed⟩, bounds⟩
    refine ⟨(text, line), onLines.mpr ⟨stands, bounds⟩, ?_⟩
    refine List.mem_map.mpr ⟨(callee, column), List.mem_filter.mpr ⟨listed, ?_⟩, rfl⟩
    exact isForbidden_declaredMethods.mpr forbidden

/-- The block behind a signature ends where its braces do. -/
theorem closeLine_blockSpan? {first : Nat} (cut : Bracketed (located first (code.drop first))) :
    ((blockSpan? code first 0).map BlockSpan.closeLine).getD first = cut.closeLine := by
  have found : blockSpan? code first 0 =
      some ⟨cut.openLine, cut.closeLine, cut.body.all fun place => isBlank place.1⟩ := by
    rw [blockSpan?, searchText_zero, search_eq_some_iff]
    exact ⟨cut, rfl, rfl, rfl⟩
  rw [found, Option.map_some, Option.getD_some]

/-- The name under which a signature is reported. -/
def Signature.name (signature : Signature) : Text :=
  (Declaration.methodName? signature.text).getD "unknown".toList

private theorem judge_of_private_transpiler (gathered : stack.signature? = some signature)
    (isPrivate : signature.text.hasWord "private".toList = true)
    (isTranspiler : stack.isTranspiler = true) :
    judge file number stack =
      transpilerCalls file (Mask.codeLines file.content) signature.lastLine signature.name := by
  simp only [judge, gathered, checkSignature, isPrivate, isTranspiler, Bool.not_true,
    Bool.false_eq_true, if_false, if_true, Signature.name]

/-- What is reported for a private transpiler with a body in braces. A call of a forbidden
method is reported on its line if it stands in the body, but also if it stands before the body
or behind it on a line that is read. As a verdict about the body this is right if and only if
what is called there outside of the body is called in it on the same line too. -/
theorem forbiddenCall_reported_iff (visits : Visits file.lines 0 number)
    (stacked : stackAt? file.lines number = some stack)
    (gathered : stack.signature? = some signature)
    (isPrivate : signature.text.hasWord "private".toList = true)
    (isTranspiler : stack.isTranspiler = true)
    (cut : Bracketed (located signature.lastLine
      ((Mask.codeLines file.content).drop signature.lastLine))) (callee : Text) (line : Nat) :
    let code := Mask.codeLines file.content
    let issue := forbiddenCall file (line + 1) signature.name callee
    let reported := issue ∈ judge file number stack
    let beforeBody := ∃ column, CallAt code callee line column ∧ signature.lastLine ≤ line ∧
      toLex (line, column) < cut.opening
    let inBody := ∃ column, CallAt code callee line column ∧
      cut.opening < toLex (line, column) ∧ toLex (line, column) < cut.closing
    let behindBody := ∃ column, CallAt code callee line column ∧
      cut.closing < toLex (line, column) ∧ line = cut.closeLine
    (reported → issue ∈ textRule.check file) ∧
      (reported ↔ Forbidden code callee ∧ (beforeBody ∨ inBody ∨ behindBody)) ∧
      ((reported ↔ Forbidden code callee ∧ inBody) ↔
        (Forbidden code callee → beforeBody ∨ behindBody → inBody)) := by
  intro code issue reported beforeBody inBody behindBody
  have decided : reported ↔ Forbidden code callee ∧ (beforeBody ∨ inBody ∨ behindBody) := by
    have calls : reported ↔ Forbidden code callee ∧ ∃ column, CallAt code callee line column ∧
        signature.lastLine ≤ line ∧ line ≤ cut.closeLine := by
      simp only [reported, judge_of_private_transpiler gathered isPrivate isTranspiler, issue]
      rw [mem_transpilerCalls_iff, closeLine_blockSpan? cut]
    rw [calls]
    refine and_congr_right fun _ => ?_
    -- A parenthesis is no brace, so a call stands on one side of each.
    have place {column : Nat} (call : CallAt code callee line column) :=
      cut.place_iff call.shows (by decide) (by decide)
    constructor
    · rintro ⟨column, call, read⟩
      rcases (place call).mp read with before | inside | behind
      · exact .inl ⟨column, call, before⟩
      · exact .inr (.inl ⟨column, call, inside⟩)
      · exact .inr (.inr ⟨column, call, behind⟩)
    · rintro (⟨column, call, before⟩ | ⟨column, call, inside⟩ | ⟨column, call, behind⟩)
      · exact ⟨column, call, (place call).mpr (.inl before)⟩
      · exact ⟨column, call, (place call).mpr (.inr (.inl inside))⟩
      · exact ⟨column, call, (place call).mpr (.inr (.inr behind))⟩
  refine ⟨fun found => mem_check_iff.mpr ⟨number, stack, visits, stacked, found⟩, decided, ?_⟩
  rw [decided]
  clear_value code issue reported beforeBody inBody behindBody
  tauto

/-- A file with a transpiler on its second line and another method on the third. -/
def transpilerFile (second third : String) : SourceFile :=
  .ofText "T.cs".toList ("[HarmonyTranspiler]\n" ++ second ++ "\n" ++ third).toList

def transpilerStack (second third : String) : Stack where
  names := ["HarmonyTranspiler".toList]
  after := 1
  rest := [second.toList, third.toList]

/-- A transpiler that calls a method which is not private. -/
def callingTranspiler : SourceFile :=
  transpilerFile "private static int T() { return H(); }" "internal static int H() => 0;"

def callingTranspilerCut :
    Bracketed (located 1 ((Mask.codeLines callingTranspiler.content).drop 1)) where
  header := "private static int T() ".toList.map (·, 1)
  openLine := 1
  body := " return H(); ".toList.map (·, 1)
  closeLine := 1
  rest := "internal static int H() => 0;".toList.map (·, 2)
  split := by decide
  isHeader := by decide
  balanced := by decide

/-- The call in the body of this transpiler is reported. -/
theorem forbiddenCall_reported_iff_callingTranspiler :
    forbiddenCall callingTranspiler 2 "T".toList "H".toList ∈ textRule.check callingTranspiler := by
  have stacked : stackAt? callingTranspiler.lines 0 = some (transpilerStack
      "private static int T() { return H(); }" "internal static int H() => 0;") := by
    decide
  have gathered : (transpilerStack "private static int T() { return H(); }"
      "internal static int H() => 0;").signature? =
        some ⟨"private static int T() { return H(); }".toList, 1, 1⟩ := by
    decide
  obtain ⟨leads, decided, _⟩ := forbiddenCall_reported_iff .here stacked gathered (by decide)
    (by decide) callingTranspilerCut "H".toList 1
  refine leads (decided.mpr ⟨⟨⟨"H".toList, .internalAccess, true⟩, by decide⟩, .inr (.inl ?_)⟩)
  exact ⟨33, ⟨_, rfl, by decide⟩, Prod.Lex.toLex_lt_toLex.mpr (by decide),
    Prod.Lex.toLex_lt_toLex.mpr (by decide)⟩

/-- A transpiler with the name of another method, which it does not call. -/
def overloadedTranspiler : SourceFile :=
  transpilerFile "private static int T(int a) { return a; }" "internal static int T() => 0;"

def overloadedTranspilerCut :
    Bracketed (located 1 ((Mask.codeLines overloadedTranspiler.content).drop 1)) where
  header := "private static int T(int a) ".toList.map (·, 1)
  openLine := 1
  body := " return a; ".toList.map (·, 1)
  closeLine := 1
  rest := "internal static int T() => 0;".toList.map (·, 2)
  split := by decide
  isHeader := by decide
  balanced := by decide

/-- The declaration of this transpiler is reported as a call, although nothing is called in its
body. -/
theorem forbiddenCall_reported_overloadedTranspiler :
    ∃ stack signature, Visits overloadedTranspiler.lines 0 0 ∧
      stackAt? overloadedTranspiler.lines 0 = some stack ∧
      stack.signature? = some signature ∧ signature.lastLine = 1 ∧
      signature.text.hasWord "private".toList = true ∧ stack.isTranspiler = true ∧
      forbiddenCall overloadedTranspiler 2 signature.name "T".toList ∈
        judge overloadedTranspiler 0 stack ∧
      forbiddenCall overloadedTranspiler 2 signature.name "T".toList ∈
        textRule.check overloadedTranspiler ∧
      ¬ ∃ column, CallAt (Mask.codeLines overloadedTranspiler.content) "T".toList 1 column ∧
        overloadedTranspilerCut.opening < toLex (1, column) ∧
        toLex (1, column) < overloadedTranspilerCut.closing := by
  refine ⟨transpilerStack "private static int T(int a) { return a; }"
      "internal static int T() => 0;",
    ⟨"private static int T(int a) { return a; }".toList, 1, 1⟩, .here, by decide, by decide,
    rfl, by decide, by decide, by decide, by decide, ?_⟩
  rintro ⟨column, ⟨text, stands, listed⟩, opened, _⟩
  have only : ∀ call ∈ Declaration.callNames text, call.2 = 20 := by
    obtain rfl := Option.some.inj stands
    decide
  obtain rfl : column = 20 := only _ listed
  exact absurd (Prod.Lex.toLex_lt_toLex.mp opened) (by decide)

end PatchMethod

end PatchLint

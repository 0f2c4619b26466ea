import PatchLint.Proofs.LineEnding.LineRules
import PatchLint.Rule.EmptyCatch
import PatchLint.Rule.LongMethod
import PatchLint.Rule.PatchClass
import PatchLint.Rule.PatchMethod

/-!
# Rules that read across lines

The rules that follow a declaration, a block or a loop over several lines report
the same issues for a file whose lines end in a carriage return and a line feed.
Each search over lines is read along two lists of lines that are padded line by
line, and finds the same lines in both.
-/

namespace PatchLint

/-- The masked lines of a file with carriage returns are padded. -/
theorem SourceFile.forall₂_codeLines_crlf (file : SourceFile) :
    List.Forall₂ Text.Padded (Mask.codeLines file.content) (Mask.codeLines file.crlf.content) :=
  (Mask.codeLines_crlf file.content).forall₂

/-! ## Empty catch blocks -/

namespace EmptyCatch

private theorem keywordEnd?_eq {cut other : Text.Cut} (padded : cut.Padded other) :
    keywordEnd? other = keywordEnd? cut := by
  rw [keywordEnd?, keywordEnd?, padded.startsWord_eq, padded.offset_eq]
  match Text.after? keyword cut.after, Text.after? keyword other.after,
    padded.2.after? (show Text.Solid keyword by decide) with
  | _, _, .none => rfl
  | _, _, .some rest => simp only [rest.endsWord_eq]

private theorem keywordEnds_eq {line longer : Text} (padded : Text.Padded line longer) :
    keywordEnds longer = keywordEnds line :=
  padded.filterMap_cuts_eq (fun _ => rfl) fun _ _ cuts => keywordEnd?_eq cuts

/-- The rule about empty catch blocks gives the same for both line endings. -/
theorem ignoresReturns : textRule.IgnoresReturns := by
  intro file
  have code := file.forall₂_codeLines_crlf
  refine Text.flatMap_eq_of_forall₂ (forall₂_zipIdx code 0) ?_
  rintro ⟨line, _⟩ ⟨longer, number⟩ ⟨padded, rfl⟩
  simp only [checkLine, keywordEnds_eq padded, blockSpan?_eq code]
  rfl

end EmptyCatch

/-! ## Long methods -/

/-- The rule about long methods gives the same for both line endings. -/
theorem LongMethod.ignoresReturns (limit : Nat) : (textRule limit).IgnoresReturns := by
  intro file
  simp only [textRule, methodSpans_eq file.forall₂_codeLines_crlf]
  rfl

/-! ## Patch classes -/

namespace PatchClass

/-- Two targets on the same line, of which the second one is read from padded
lines. -/
inductive Target.Padded : Target → Target → Prop where
  | classAt (line : Nat) {declaration longer : Text} (padded : Text.Padded declaration longer) :
      Target.Padded (.classAt line declaration) (.classAt line longer)
  | otherAt (line : Nat) : Target.Padded (.otherAt line) (.otherAt line)
  | missing : Target.Padded .missing .missing

private theorem declaresOther_eq {line longer : Text} (padded : Text.Padded line longer) :
    declaresOther longer = declaresOther line := by
  rw [declaresOther, declaresOther, padded.contains_eq (by decide), padded.hasAnyWord_eq,
    padded.hasAnyWord_eq]

private theorem findTarget_padded {lines others : List Text}
    (padded : List.Forall₂ Text.Padded lines others) (number : Nat) :
    (findTarget number lines).Padded (findTarget number others) := by
  induction padded generalizing number with
  | nil => exact .missing
  | cons first _ ih =>
      rw [findTarget, findTarget, Line.isSkippable_eq first, first.hasWord_eq,
        declaresOther_eq first]
      split_ifs
      · exact ih (number + 1)
      · exact .classAt number first
      · exact .otherAt number
      · exact ih (number + 1)

private theorem checkDeclaration_eq (file : SourceFile) (line : Nat) {declaration longer : Text}
    (padded : Text.Padded declaration longer) :
    checkDeclaration file.crlf line longer = checkDeclaration file line declaration := by
  rw [checkDeclaration, checkDeclaration, padded.trim_eq]
  rfl

private theorem isAttributeLine_eq {line longer : Text} (padded : Text.Padded line longer) :
    isAttributeLine longer = isAttributeLine line := by
  rw [isAttributeLine, isAttributeLine, Line.isComment_eq padded, Line.attributeName?_eq padded]

private theorem scan_eq (file : SourceFile) {lines others : List Text}
    (padded : List.Forall₂ Text.Padded lines others) (number resume : Nat) :
    scan file.crlf number resume others = scan file number resume lines := by
  induction padded generalizing number resume with
  | nil => rfl
  | @cons line longer rest otherRest first later ih =>
      rw [scan, scan, isAttributeLine_eq first, ih]
      split
      next => rfl
      next =>
        match findTarget (number + 1) rest, findTarget (number + 1) otherRest,
          findTarget_padded later (number + 1) with
        | _, _, .classAt target declaration =>
            dsimp only
            rw [checkDeclaration_eq file target declaration, ih]
        | _, _, .otherAt target => exact ih _ _
        | _, _, .missing => rfl

/-- The rule about patch classes gives the same for both line endings. -/
theorem ignoresReturns : textRule.IgnoresReturns :=
  fun file => scan_eq file file.forall₂_lines_crlf 0 0

end PatchClass

/-! ## Patch methods -/

namespace PatchMethod

variable {line longer : Text} {lines others code longers : List Text}

private theorem declaredOn?_eq (padded : Text.Padded line longer) :
    declaredOn? longer = declaredOn? line := by
  have head := padded.before '('
  simp only [declaredOn?, padded.contains_eq (show ¬ Text.IsPad '(' by decide), head.words_eq,
    Declaration.isInitializerHead_eq head, head.hasWord_eq, Declaration.methodName?_eq padded]

private theorem declaredMethods_eq (padded : List.Forall₂ Text.Padded code longers) :
    declaredMethods longers = declaredMethods code :=
  Text.filterMap_eq_of_forall₂ padded fun _ _ => declaredOn?_eq

private theorem isFiller_eq (padded : Text.Padded line longer) :
    isFiller longer = isFiller line := by
  rw [isFiller, isFiller, padded.trim_eq]

private theorem stackedAttribute?_eq (padded : Text.Padded line longer) :
    stackedAttribute? longer = stackedAttribute? line := by
  rw [stackedAttribute?, stackedAttribute?, Line.attributeName?_eq padded]

private theorem role?_eq (padded : Text.Padded line longer) : role? longer = role? line := by
  rw [role?, role?, Line.isComment_eq padded, Line.attributeName?_eq padded]

/-- Two stacked of the same attributes, with padded lines behind the second one. -/
structure Stack.Padded (stack other : Stack) : Prop where
  names_eq : other.names = stack.names
  after_eq : other.after = stack.after
  rest : List.Forall₂ Text.Padded stack.rest other.rest

private theorem Stack.Padded.withRole {stack other : Stack} (padded : stack.Padded other)
    (role : Text) :
    Stack.Padded ⟨role :: stack.names, stack.after, stack.rest⟩
      ⟨role :: other.names, other.after, other.rest⟩ :=
  ⟨congrArg (role :: ·) padded.names_eq, padded.after_eq, padded.rest⟩

private theorem stackFrom_padded (padded : List.Forall₂ Text.Padded lines others) (number : Nat) :
    (stackFrom number lines).Padded (stackFrom number others) := by
  induction padded generalizing number with
  | nil => exact ⟨rfl, rfl, .nil⟩
  | cons first later ih =>
      rw [stackFrom, stackFrom, isFiller_eq first, stackedAttribute?_eq first]
      split
      next => exact ih (number + 1)
      next =>
        have below := ih (number + 1)
        split
        next name _ => exact below.withRole name
        next => exact ⟨rfl, rfl, .cons first later⟩

/-- A signature is put together from trimmed lines. -/
theorem gatherFrom_eq (padded : List.Forall₂ Text.Padded lines others) (number : Nat)
    (parts : List Text) (first? : Option Nat) :
    gatherFrom number parts first? others = gatherFrom number parts first? lines := by
  induction padded generalizing number parts first? with
  | nil => rfl
  | cons first _ ih => simp only [gatherFrom, first.trim_eq, ih]

private theorem Stack.Padded.signature?_eq {stack other : Stack} (padded : stack.Padded other) :
    other.signature? = stack.signature? := by
  rw [Stack.signature?, Stack.signature?, padded.after_eq, gatherFrom_eq padded.rest]

private theorem transpilerCalls_eq (file : SourceFile)
    (padded : List.Forall₂ Text.Padded code longers)
    (signatureEnd : Nat) (transpiler : Text) :
    transpilerCalls file.crlf longers signatureEnd transpiler =
      transpilerCalls file code signatureEnd transpiler := by
  simp only [transpilerCalls, blockSpan?_eq padded, declaredMethods_eq padded]
  refine Text.flatMap_eq_of_forall₂
    (List.forall₂_drop _ (List.forall₂_take _ (forall₂_zipIdx padded 0))) ?_
  rintro ⟨line, _⟩ ⟨longer, number⟩ ⟨related, rfl⟩
  simp only [callsOnLine, Declaration.callNames_eq related]
  rfl

private theorem checkSignature_eq (file : SourceFile)
    (padded : List.Forall₂ Text.Padded code longers)
    {stack other : Stack} (stacked : stack.Padded other) (signature : Signature) :
    checkSignature file.crlf longers other signature =
      checkSignature file code stack signature := by
  simp only [checkSignature, Stack.isTranspiler, stacked.names_eq, transpilerCalls_eq file padded]
  rfl

private theorem scan_eq (file : SourceFile) (code_padded : List.Forall₂ Text.Padded code longers)
    (padded : List.Forall₂ Text.Padded lines others) (number resume : Nat) :
    scan file.crlf longers number resume others = scan file code number resume lines := by
  induction padded generalizing number resume with
  | nil => rfl
  | @cons line longer rest otherRest first later ih =>
      have below := stackFrom_padded later (number + 1)
      rw [scan, scan, role?_eq first]
      split
      next => exact ih _ _
      next =>
        split
        next => exact ih _ _
        next role _ =>
          have stacked := below.withRole role
          dsimp only
          rw [stacked.signature?_eq]
          split
          next =>
            rw [ih, below.names_eq, below.after_eq]
            rfl
          next signature _ => rw [ih, checkSignature_eq file code_padded stacked]

/-- The rule about patch methods gives the same for both line endings. -/
theorem ignoresReturns : textRule.IgnoresReturns :=
  fun file => scan_eq file file.forall₂_codeLines_crlf file.forall₂_lines_crlf 0 0

end PatchMethod

/-! ## Concatenation in a loop -/

namespace Concatenation

variable {line longer : Text} {code longers : List Text}

private theorem afterClosing?_append {pad : Char} (isPad : Text.IsPad pad) (depth : Nat)
    (line : Text) :
    afterClosing? depth (line ++ [pad]) = (afterClosing? depth line).map (· ++ [pad]) := by
  fun_induction afterClosing? depth line with
  | case1 depth => rcases isPad with rfl | rfl <;> simp [afterClosing?]
  | case2 depth rest ih => simpa [afterClosing?] using ih
  | case3 rest => rfl
  | case4 rest _ outer ih => exact ih
  | case5 depth c rest notOpen notClose ih =>
      rw [List.cons_append, afterClosing?.eq_def]
      simp only [notOpen, notClose, if_false, ih]

private theorem afterClosing?_padded (padded : Text.Padded line longer) :
    Option.Rel Text.Padded (afterClosing? 0 line) (afterClosing? 0 longer) := by
  cases padded with
  | same => exact Text.Padded.rel_same _
  | longer isPad =>
      rw [afterClosing?_append isPad]
      exact Text.Padded.rel_longer _ isPad

/-- Two heads at the same column, of which the second one is read from a padded
line. -/
structure LoopHead.Padded (head other : LoopHead) : Prop where
  column_eq : other.column = head.column
  rest? : Option.Rel Text.Padded head.rest? other.rest?

private theorem solid_of_mem_loopKeywords :
    ∀ {keyword : String}, keyword ∈ loopKeywords → Text.Solid keyword.toList := by
  decide

private theorem loopHead?_padded {cut other : Text.Cut} (padded : cut.Padded other) :
    Option.Rel LoopHead.Padded (loopHead? cut) (loopHead? other) := by
  rw [loopHead?, loopHead?, padded.startsRun_eq]
  split
  · refine Text.rel_findSome? fun keyword member => ?_
    have solid := solid_of_mem_loopKeywords member
    match Text.after? keyword.toList cut.after, Text.after? keyword.toList other.after,
      padded.2.after? solid with
    | _, _, .none => exact .none
    | some rest, some otherRest, .some behind =>
        rcases behind.trimStart.cons_or_not (c := '(') (by decide) with
          ⟨condition, otherCondition, rest_eq, other_eq, conditions⟩ | ⟨rest_ne, other_ne⟩
        · simp only [Option.map_some, rest_eq, other_eq, padded.offset_eq]
          exact .some ⟨rfl, afterClosing?_padded conditions⟩
        · simp only [Option.map_some]
          split
          next condition found => exact absurd (Option.some.inj found) (rest_ne condition)
          next =>
            split
            next condition found => exact absurd (Option.some.inj found) (other_ne condition)
            next => exact .none
  · exact .none

private theorem loopHeads_padded (padded : Text.Padded line longer) :
    List.Forall₂ LoopHead.Padded (loopHeads line) (loopHeads longer) := by
  refine padded.filterMap_cuts (fun read => ?_) fun _ _ => loopHead?_padded
  rw [loopHead?, List.findSome?_eq_none_iff.mpr, ite_self]
  intro keyword member
  rw [(solid_of_mem_loopKeywords member).after?_nil]
  rfl

private theorem getD_padded {answer other : Option Text}
    (answers : Option.Rel Text.Padded answer other) :
    Text.Padded (answer.getD []) (other.getD []) := by
  cases answers with
  | none => exact .same []
  | some padded => exact padded

private theorem rel_getElem? {lines others : List Text}
    (padded : List.Forall₂ Text.Padded lines others)
    (index : Nat) : Option.Rel Text.Padded lines[index]? others[index]? := by
  induction padded generalizing index with
  | nil => exact .none
  | cons first _ ih =>
      cases index with
      | zero => exact .some first
      | succ index => exact ih index

private theorem firstFilled?_eq {lines others : List Text}
    (padded : List.Forall₂ Text.Padded lines others) (number : Nat) :
    firstFilled? number others = firstFilled? number lines := by
  induction padded generalizing number with
  | nil => rfl
  | cons first _ ih => rw [firstFilled?, firstFilled?, first.isBlankText_eq, ih]

private theorem bodyLines_eq (padded : List.Forall₂ Text.Padded code longers) (number : Nat)
    {head other : LoopHead} (heads : head.Padded other) :
    bodyLines longers number other = bodyLines code number head := by
  have behind := getD_padded heads.rest?
  rw [bodyLines, bodyLines, heads.column_eq, blockSpan?_eq padded, behind.isBlankText_eq,
    firstFilled?_eq (List.forall₂_drop (number + 1) padded)]

private theorem appendsAt_eq {cut other : Text.Cut} (padded : cut.Padded other) :
    appendsAt other = appendsAt cut := by
  have typed := Text.isSome_eq_of_rel (Text.rel_bind
    (padded.2.after? (show Text.Solid "string".toList by decide)) fun _ _ => afterPlus?_padded)
  rw [appendsAt, appendsAt, typed, padded.1]
  refine congrArg₂ or (congrArg₂ or ?quoted rfl) (congrArg₂ and rfl ?added)
  case quoted =>
    rcases padded.2.cons_or_not (c := '"') (by decide) with
      ⟨rest, otherRest, cut_eq, other_eq, padded_rest⟩ | ⟨cut_ne, other_ne⟩
    · rw [cut_eq, other_eq]
      exact Text.isSome_eq_of_rel (afterPlus?_padded padded_rest)
    · split
      next rest found => exact absurd found (other_ne rest)
      next => rfl
  case added =>
    match Text.after? "+=".toList cut.after.trimStart,
      Text.after? "+=".toList other.after.trimStart,
      padded.2.trimStart.after? (show Text.Solid "+=".toList by decide) with
    | _, _, .none => rfl
    | _, _, .some rest =>
        have operand := Text.rel_bind (afterOperand?_padded rest) fun _ _ => afterPlus?_padded
        have quotes := Text.any_eq_of_rel operand fun _ _ => startsQuote_eq
        exact congrArg₂ or (startsQuote_eq rest) quotes

private theorem appends_eq {source masked longerSource longerMasked : Text}
    (sources : Text.Padded source longerSource) (maskeds : Text.Padded masked longerMasked) :
    appends longerSource longerMasked = appends source masked := by
  rw [appends, appends, maskeds.mentions_eq (by decide), sources.lower.mentions_eq (by decide),
    sources.any_cuts_eq ?_ fun _ _ => appendsAt_eq]
  intro read
  simp [appendsAt, Text.after?, Text.trimStart]

private theorem bodyPart_padded (padded : List.Forall₂ Text.Padded code longers) (number : Nat)
    {head other : LoopHead} (heads : head.Padded other) (bodyLine : Nat) :
    Text.Padded (bodyPart code number head bodyLine) (bodyPart longers number other bodyLine) := by
  rw [bodyPart, bodyPart]
  split
  · exact getD_padded heads.rest?
  · exact getD_padded (rel_getElem? padded bodyLine)

private theorem appendsOn_eq (file : SourceFile) (padded : List.Forall₂ Text.Padded code longers)
    (number : Nat) {head other : LoopHead} (heads : head.Padded other) (bodyLine : Nat) :
    appendsOn file.crlf longers number other bodyLine =
      appendsOn file code number head bodyLine := by
  have sources := getD_padded (rel_getElem? file.forall₂_lines_crlf bodyLine)
  have parts := bodyPart_padded padded number heads bodyLine
  simp only [appendsOn, SourceFile.line?, Line.isComment_eq sources, appends_eq sources parts]

private theorem appendingLines_eq (file : SourceFile)
    (padded : List.Forall₂ Text.Padded code longers)
    (number : Nat) (lines : Text.Padded line longer) :
    appendingLines file.crlf longers (longer, number) =
      appendingLines file code (line, number) := by
  refine Text.flatMap_eq_of_forall₂ (loopHeads_padded lines) fun head other heads => ?_
  rw [bodyLines_eq padded number heads]
  exact List.filter_congr fun bodyLine _ => appendsOn_eq file padded number heads bodyLine

/-- The rule about concatenation in loops gives the same for both line endings. -/
theorem loopRule_ignoresReturns : loopRule.IgnoresReturns := by
  intro file
  have code := file.forall₂_codeLines_crlf
  have appending : (Mask.codeLines file.crlf.content).zipIdx.flatMap
        (appendingLines file.crlf (Mask.codeLines file.crlf.content)) =
      (Mask.codeLines file.content).zipIdx.flatMap
        (appendingLines file (Mask.codeLines file.content)) := by
    refine Text.flatMap_eq_of_forall₂ (forall₂_zipIdx code 0) ?_
    rintro ⟨line, _⟩ ⟨longer, number⟩ ⟨padded, rfl⟩
    exact appendingLines_eq file code number padded
  simp only [loopRule, appending, code.length_eq]
  rfl

end Concatenation

end PatchLint

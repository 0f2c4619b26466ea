import Mathlib.Data.List.Nodup
import PatchLint.Proofs.Mask.Position
import PatchLint.Proofs.Source.Passage

/-!
# Which catch blocks are reported

The rule goes through the keywords of the masked text and judges each by the block
behind it. A `CatchBlock` is a text around one `catch`: what stands before it, its
header, the body in braces and what follows. `CatchBlock.check_eq` says what the rule
makes of that one keyword, wherever it stands and whatever else the text holds. It is
put together from three parts: masking leaves the keyword, the header and the braces
as they are, the keyword is found at one place, and the block behind that place is the
body.
-/

namespace PatchLint.EmptyCatch

/-! ## Places -/

/-- A place in masked lines: a line, counted from zero, and a byte in it. -/
structure Place where
  line : Nat
  column : Nat
deriving DecidableEq

/-- The place behind a text. -/
def Place.behind (text : Text) : Place :=
  ⟨text.count '\n', text.lastLine.byteSize⟩

/-- The places behind the keywords of masked lines, in order. -/
def places (code : List Text) : List Place :=
  code.zipIdx.flatMap fun line => (keywordEnds line.1).map (Place.mk line.2)

/-- What the rule reports for the keyword in front of a place. -/
def judge (file : SourceFile) (place : Place) : Option Issue :=
  if (blockSpan? (Mask.codeLines file.content) place.line place.column).any BlockSpan.empty then
    some (finding file (place.line + 1))
  else none

/-- The rule judges the keywords one by one. -/
theorem check_eq_filterMap (file : SourceFile) :
    textRule.check file = (places (Mask.codeLines file.content)).filterMap (judge file) := by
  rw [places, List.filterMap_flatMap]
  change List.flatMap _ _ = _
  congr 1
  funext line
  rw [checkLine, List.filterMap_map, ← List.filterMap_eq_map, ← List.filterMap_eq_filter,
    List.filterMap_filterMap]
  congr 1
  funext column
  rw [Function.comp_apply, judge]
  split <;> simp_all [Option.guard]

/-! ## Every keyword once -/

/-- The keyword stands at a cut exactly if it is found there, and it ends by its own bytes later. -/
theorem keywordEnd?_eq_some_iff {cut : Text.Cut} {column : Nat} :
    keywordEnd? cut = some column ↔ ∃ rest, cut.after = keyword ++ rest ∧
      cut.startsWord = true ∧ Text.endsWord rest = true ∧
        column = cut.offset + keyword.byteSize := by
  rw [keywordEnd?]
  cases starts : Text.after? keyword cut.after with
  | none =>
      refine iff_of_false (by simp) ?_
      rintro ⟨rest, split, _⟩
      rw [Text.after?_eq_some_iff.mpr split] at starts
      exact absurd starts (by simp)
  | some rest =>
      have split := Text.after?_eq_some_iff.mp starts
      simp only [Option.ite_none_right_eq_some, Bool.and_eq_true, Option.some.injEq]
      constructor
      · rintro ⟨⟨startsWord, endsWord⟩, rfl⟩
        exact ⟨rest, split, startsWord, endsWord, rfl⟩
      · rintro ⟨other, otherSplit, startsWord, endsWord, rfl⟩
        obtain rfl := List.append_cancel_left (split.symm.trans otherSplit)
        exact ⟨⟨startsWord, endsWord⟩, rfl⟩

/-- The keywords of a line come from left to right. -/
theorem pairwise_keywordEnds (line : Text) : (keywordEnds line).Pairwise (· < ·) := by
  refine List.Pairwise.filterMap _ ?_ (Text.pairwise_offset_cuts line)
  intro first second ordered firstEnd firstEnds secondEnd secondEnds
  obtain ⟨_, _, _, _, rfl⟩ := keywordEnd?_eq_some_iff.mp firstEnds
  obtain ⟨_, _, _, _, rfl⟩ := keywordEnd?_eq_some_iff.mp secondEnds
  omega

/-- The keywords of a line end at different bytes. -/
theorem nodup_keywordEnds (line : Text) : (keywordEnds line).Nodup :=
  (pairwise_keywordEnds line).imp Nat.ne_of_lt

private theorem nodup_places (code : List Text) : (places code).Nodup := by
  rw [places, List.nodup_flatMap]
  constructor
  · intro line _
    exact (nodup_keywordEnds line.1).map fun _ _ same => (Place.mk.inj same).2
  · have numbers : (code.zipIdx.map Prod.snd).Nodup := by
      rw [List.zipIdx_map_snd]
      exact List.nodup_range'
    refine (List.pairwise_map.mp numbers).imp fun {first second} differ => ?_
    intro place inFirst inSecond
    obtain ⟨_, _, rfl⟩ := List.mem_map.mp inFirst
    obtain ⟨_, _, same⟩ := List.mem_map.mp inSecond
    exact differ (Place.mk.inj same).1.symm

private theorem newline_not_mem_keyword : '\n' ∉ keyword := by
  decide

/-- A keyword that stands on its own has its place. -/
theorem behind_mem_places {front back : Text} (startsWord : front.getLast?.any isWordChar = false)
    (endsWord : back.head?.any isWordChar = false) :
    Place.behind (front ++ keyword) ∈ places (front ++ (keyword ++ back)).lines := by
  obtain ⟨init, frontLines, length⟩ := front.exists_lines_eq_append_lastLine
  obtain ⟨line, more, backLines⟩ := back.exists_lines_eq_cons
  have behindLines := Text.lines_append_of_eq newline_not_mem_keyword backLines
  have member := Text.mem_cuts_append front.lastLine (keyword ++ line)
  have found : keywordEnd? ⟨front.lastLine.reverse, keyword ++ line⟩ =
      some (Text.byteSize (front.lastLine ++ keyword)) := by
    refine keywordEnd?_eq_some_iff.mpr ⟨line, rfl, ?_, ?_, ?_⟩
    · rw [Text.Cut.startsWord, List.head?_reverse, Bool.not_eq_true']
      cases ends : front.lastLine.getLast? with
      | none => rfl
      | some c => rwa [Text.getLast?_of_getLast?_lastLine ends] at startsWord
    · rw [Text.endsWord, Bool.not_eq_true']
      cases starts : line.head? with
      | none => rfl
      | some c => rwa [Text.head?_of_lines_eq backLines starts] at endsWord
    · rw [Text.byteSize_append, Text.Cut.offset, Text.byteSize_reverse]
  rw [Text.lines_append frontLines behindLines, places, List.mem_flatMap]
  refine ⟨(front.lastLine ++ (keyword ++ line), init.length), ?_, ?_⟩
  · exact List.mk_mem_zipIdx_iff_getElem?.mpr (by simp)
  · refine List.mem_map.mpr ⟨_, List.mem_filterMap.mpr ⟨_, member, found⟩, ?_⟩
    rw [Place.behind, Text.lastLine_append newline_not_mem_keyword, List.count_append,
      List.count_eq_zero.mpr newline_not_mem_keyword, length, Nat.add_zero]

/-! ## Catch blocks -/

/-- A text with a `catch` in code that stands on its own, a header that leads up to an
opening brace and holds neither literals nor comments, and a body in braces. -/
structure CatchBlock where
  before : Text
  header : Text
  body : Text
  after : Text
  inCode : Mask.InCode before
  startsWord : before.getLast?.any isWordChar = false
  endsWord : header.head?.any isWordChar = false
  noQuote : '"' ∉ header
  noApostrophe : '\'' ∉ header
  noSlash : '/' ∉ header
  isHeader : BlockSpan.IsHeader 0 header

namespace CatchBlock

variable (block : CatchBlock)

/-- The keyword, the header and the opening brace. -/
def clause : Text :=
  keyword ++ block.header ++ ['{']

/-- The text up to the body. -/
def front : Text :=
  block.before ++ block.clause

/-- The whole text. -/
def content : Text :=
  block.front ++ block.body ++ '}' :: block.after

/-- The place behind the keyword, in the masked text. -/
def place : Place :=
  .behind ((Mask.maskedText block.content).take (block.before.length + keyword.length))

/-- What masking leaves of the body. -/
def maskedBody : Text :=
  (Mask.maskedText (block.front ++ block.body)).drop block.front.length

private theorem clause_append (behind : Text) :
    block.clause ++ behind = keyword ++ (block.header ++ '{' :: behind) := by
  simp [clause]

/-- Masking leaves the clause as it stands, whatever follows. -/
theorem maskedText_front_append {rest out : Text}
    (masks : Mask.MasksTo .code block.front.reverse rest out) :
    Mask.maskedText (block.front ++ rest) =
      Mask.maskedText block.before ++ (block.clause ++ out) := by
  have detached : Mask.Detached (block.clause ++ rest) := by
    constructor <;> simp [clause, keyword]
  have clause : Mask.MasksTo .code block.before.reverse (block.clause ++ rest)
      (block.clause ++ out) := by
    refine .plain ?_ ?_ ?_ (by simpa [front] using masks)
    · simp [clause, keyword, block.noQuote]
    · simp [clause, keyword, block.noApostrophe]
    · simp [clause, keyword, block.noSlash]
  rw [front, List.append_assoc]
  exact block.inCode.maskedText_append detached clause

variable {block} {behind shown rest : Text}

/-- The masked text around the clause says where its keyword ends. -/
theorem place_eq (layout : Mask.maskedText block.content =
      Mask.maskedText block.before ++ (block.clause ++ behind)) :
    block.place = .behind (Mask.maskedText block.before ++ keyword) := by
  rw [place, layout, clause_append, ← List.append_assoc,
    List.take_left' (by rw [List.length_append, Mask.length_maskedText])]

variable (block)

/-- The keyword is one of those that the rule goes through. -/
theorem place_mem : block.place ∈ places (Mask.codeLines block.content) := by
  obtain ⟨behind, masks⟩ := Mask.exists_masksTo .code block.front.reverse
    (block.body ++ '}' :: block.after)
  have layout : Mask.maskedText block.content =
      Mask.maskedText block.before ++ (block.clause ++ behind) := by
    rw [← block.maskedText_front_append masks, content, List.append_assoc]
  have startsWord : (Mask.maskedText block.before).getLast?.any isWordChar = false :=
    (Mask.blanked_maskedText block.before).getLast?_any (by decide) block.startsWord
  have endsWord : (block.header ++ '{' :: behind).head?.any isWordChar = false := by
    have headerEnds := block.endsWord
    cases header : block.header with
    | nil => rfl
    | cons c header =>
        rw [header] at headerEnds
        exact headerEnds
  rw [place_eq layout, ← Mask.lines_maskedText, layout, clause_append]
  exact behind_mem_places startsWord endsWord

variable {block}

/-- The keyword is judged by what masking leaves of its body. -/
theorem judge_place (path : Text) (layout : Mask.maskedText block.content =
      Mask.maskedText block.before ++ (block.clause ++ (shown ++ '}' :: rest)))
    (balanced : BlockSpan.Balanced shown) :
    judge ⟨path, block.content⟩ block.place =
      if shown.all isBlank then
        some (finding ⟨path, block.content⟩ (block.before.count '\n' + 1))
      else none := by
  have split : Mask.maskedText block.content = (Mask.maskedText block.before ++ keyword) ++
      (block.header ++ '{' :: (shown ++ '}' :: rest)) := by
    rw [layout, clause_append, List.append_assoc]
  have line : (Mask.maskedText block.before ++ keyword).count '\n' = block.before.count '\n' := by
    rw [List.count_append, List.count_eq_zero.mpr newline_not_mem_keyword, Nat.add_zero,
      Mask.count_newline_maskedText]
  have span := blockSpan?_lines block.isHeader balanced
    (Mask.maskedText block.before ++ keyword) rest
  rw [← split, Mask.lines_maskedText, line] at span
  rw [judge, place_eq layout]
  simp only [Place.behind, line, span, Option.any_some]

/-- A body of blanks and comments is reported, on the line of the keyword. -/
theorem judge_of_isVoid (path : Text) (void : Mask.IsVoid block.body) :
    judge ⟨path, block.content⟩ block.place =
      some (finding ⟨path, block.content⟩ (block.before.count '\n' + 1)) := by
  obtain ⟨shown, blanks, masks⟩ := void.exists_masksTo
  obtain ⟨rest, restMasks⟩ := Mask.exists_masksTo .code
    ('}' :: (block.body.reverse ++ block.front.reverse)) block.after
  have behind := masks (.plainChar (by decide) (by decide) (by decide) restMasks)
  have layout := block.maskedText_front_append behind
  rw [← List.append_assoc] at layout
  have balanced : BlockSpan.Balanced shown := by
    refine BlockSpan.balanced_of_not_mem ?_ ?_
    · exact fun member => absurd (blanks _ member) (by decide)
    · exact fun member => absurd (blanks _ member) (by decide)
  rw [judge_place path layout balanced, if_pos (List.all_eq_true.mpr blanks)]

/-- A balanced body of which something is left is not reported. -/
theorem judge_of_filled (path : Text) (inCode : Mask.InCode (block.front ++ block.body))
    (balanced : BlockSpan.Balanced block.maskedBody)
    (filled : ∃ c ∈ block.maskedBody, isBlank c = false) :
    judge ⟨path, block.content⟩ block.place = none := by
  obtain ⟨shown, masks⟩ := Mask.exists_masksTo .code block.front.reverse block.body
  have frontLayout := block.maskedText_front_append masks
  have same : block.maskedBody = shown := by
    rw [maskedBody, frontLayout, ← List.append_assoc]
    refine List.drop_left' ?_
    rw [List.length_append, Mask.length_maskedText, front, List.length_append]
  rw [same] at balanced filled
  obtain ⟨rest, restMasks⟩ := Mask.exists_masksTo .code
    ('}' :: (block.front ++ block.body).reverse) block.after
  have layout : Mask.maskedText block.content =
      Mask.maskedText block.before ++ (block.clause ++ (shown ++ '}' :: rest)) := by
    have detached : Mask.Detached ('}' :: block.after) := by
      constructor <;> simp
    rw [content, inCode.maskedText_append detached
      (.plainChar (by decide) (by decide) (by decide) restMasks), frontLayout]
    simp
  obtain ⟨c, member, notBlank⟩ := filled
  have notVoid : shown.all isBlank = false :=
    List.all_eq_false.mpr ⟨c, member, by simp [notBlank]⟩
  rw [judge_place path layout balanced, notVoid]
  rfl

end CatchBlock

/-- Among the keywords of a file, each with its place, that of a catch block stands
once. Whatever stands around the block, the rule reports the other keywords as it
judges them, and this one as follows. If the body is void, there is one finding for
it, on the line on which the keyword stands. If masking is in code behind the body and
leaves a balanced text of it that is not blank, there is none. -/
theorem check_catchBlock (path : Text) (block : CatchBlock) :
    let file : SourceFile := ⟨path, block.content⟩
    ∃ earlier later : List Place,
      places (Mask.codeLines file.content) = earlier ++ block.place :: later ∧
      block.place ∉ earlier ++ later ∧
      (Mask.IsVoid block.body →
        textRule.check file = earlier.filterMap (judge file) ++
          finding file (block.before.count '\n' + 1) :: later.filterMap (judge file)) ∧
      (Mask.InCode (block.front ++ block.body) → BlockSpan.Balanced block.maskedBody →
        (∃ c ∈ block.maskedBody, isBlank c = false) →
        textRule.check file =
          earlier.filterMap (judge file) ++ later.filterMap (judge file)) := by
  intro file
  obtain ⟨earlier, later, split⟩ := List.append_of_mem block.place_mem
  have once : (earlier ++ block.place :: later).Nodup := split ▸ nodup_places _
  have check : textRule.check file = earlier.filterMap (judge file) ++
      ((judge file block.place).toList ++ later.filterMap (judge file)) := by
    rw [check_eq_filterMap, split, List.filterMap_append, List.filterMap_cons]
    cases judge file block.place <;> rfl
  refine ⟨earlier, later, split, (List.nodup_cons.mp (List.nodup_middle.mp once)).1, ?_, ?_⟩
  · intro void
    rw [check, CatchBlock.judge_of_isVoid path void]
    rfl
  · intro inCode balanced filled
    rw [check, CatchBlock.judge_of_filled path inCode balanced filled]
    rfl

/-- A `catch` with a header on lines of its own, behind a comment and a string and in
front of another `catch`, and with the given body. -/
def catchWith (body : Text) : CatchBlock where
  before := "/* catch */\n".toList ++ r#"try { f("é//"); }"#.toList ++ ['\n']
  header := "\n(E e)\n".toList
  body := body
  after := " catch {}".toList
  inCode := by decide
  startsWord := by decide
  endsWord := by decide
  noQuote := by decide
  noApostrophe := by decide
  noSlash := by decide
  isHeader := by decide

/-- Comments about everything that a catch block could hold. -/
def hushedBody : Text :=
  r#" // catch { ""#.toList ++ '\n' :: r"/* }; ' */".toList

private theorem isVoid_hushedBody : Mask.IsVoid hushedBody :=
  .blank ' ' (by decide) (.lineComment r#" catch { ""#.toList (by decide)
    (.blockComment r" }; ' ".toList (by decide) .nil))

/-- A block in the body, and a brace in a string. -/
def loggedBody : Text :=
  r#"if (e) { log("}"); } // "#.toList ++ ['\n']

/-- On the third line the hushed body is reported, and the other one is not. -/
theorem check_catchBlock_catchWith :
    (∃ earlier later, textRule.check ⟨['A'], (catchWith hushedBody).content⟩ =
      earlier ++ ⟨"A", 3, .error, "BCS003",
        "Empty catch block found - should handle exceptions properly"⟩ :: later) ∧
    let file : SourceFile := ⟨['A'], (catchWith loggedBody).content⟩
    ∃ earlier later : List Place, (catchWith loggedBody).place ∉ earlier ++ later ∧
      textRule.check file = earlier.filterMap (judge file) ++ later.filterMap (judge file) := by
  constructor
  · obtain ⟨earlier, later, _, _, void, _⟩ := check_catchBlock ['A'] (catchWith hushedBody)
    exact ⟨_, _, void isVoid_hushedBody⟩
  · obtain ⟨earlier, later, _, once, _, filled⟩ := check_catchBlock ['A'] (catchWith loggedBody)
    have left : 'i' ∈ (catchWith loggedBody).maskedBody := by decide
    exact ⟨earlier, later, once, filled (by decide) (by decide) ⟨'i', left, by decide⟩⟩

end PatchLint.EmptyCatch

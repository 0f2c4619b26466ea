import Mathlib.Data.List.ReduceOption
import Mathlib.Data.List.TakeWhile
import PatchLint.Proofs.Bytewise.Basic
import PatchLint.Rule.EmptyCatch
import PatchLint.Source.Declaration
import PatchLint.Source.Mask

/-!
# Words and comments in bytes

The searches that cut a line at what they have found in it: a keyword, a
parenthesis, the sign of a comment. Each cut lies between characters, whatever the
line holds.
-/

namespace PatchLint.Bytewise

open Text Checked

variable {line : Text} {cut : Cut}

/-! ## Keywords -/

/-- The position behind the keyword at `start`, when it stands there on its own. -/
def keywordEnd (line : Text) (start : Nat) : Checked (Option Nat) := do
  let stop := start + EmptyCatch.keyword.byteSize
  let before ← textUpTo line start
  let after ← textFrom line stop
  return if !before.getLast?.any isWordChar && !after.head?.any isWordChar then some stop else none

/-- The positions behind the keywords of a line. -/
def keywordEnds (line : Text) : Checked (List Nat) :=
  return (← (positionsOf EmptyCatch.keyword line).mapM (keywordEnd line)).reduceOption

private theorem keywordEnd_eq (member : cut ∈ line.cuts) {rest : Text}
    (starts : Text.after? EmptyCatch.keyword cut.after = some rest) :
    keywordEnd line cut.offset = .ok (EmptyCatch.keywordEnd? cut) := by
  rw [keywordEnd, Cut.textUpTo_offset member, ok_bind,
    Cut.textFrom_add member (after?_eq_some_iff.mp starts), ok_bind, EmptyCatch.keywordEnd?, starts,
    List.getLast?_reverse]
  rfl

/-- Looking for keywords never faults and finds the same places. -/
theorem keywordEnds_eq (line : Text) : keywordEnds line = .ok (EmptyCatch.keywordEnds line) := by
  have steps : ∀ cut ∈ line.cuts, ∀ rest, Text.after? EmptyCatch.keyword cut.after = some rest →
      keywordEnd line cut.offset = .ok (EmptyCatch.keywordEnd? cut) :=
    fun cut member rest starts => keywordEnd_eq member starts
  rw [keywordEnds, mapM_positionsOf steps, ok_bind, List.reduceOption, List.filterMap_filterMap]
  refine congrArg Except.ok (List.filterMap_congr fun cut _ => ?_)
  rw [EmptyCatch.keywordEnd?]
  cases Text.after? EmptyCatch.keyword cut.after <;> rfl

/-! ## Identifiers -/

/-- The identifier that ends at a position, up to spaces and tabs. -/
def identifierBefore (text : Text) (stop : Nat) : Checked (Option Text) := do
  let upTo ← textUpTo text stop
  let head := (upTo.reverse.dropWhile fun c => c == ' ' || c == '\t').reverse
  match ((charIndices 0 head).reverse.takeWhile fun place => isWordChar place.2).getLast? with
  | some (start, _) => return some (← textFrom head start)
  | none => return none

/-- The identifier before the first parenthesis. -/
def methodName (declaration : Text) : Checked (Option Text) :=
  match positionWhere? (· == '(') declaration with
  | some opening => identifierBefore declaration opening
  | none => return none

/-- Each identifier that a parenthesis follows, with the position of the parenthesis. -/
def callNames (line : Text) : Checked (List (Text × Nat)) := do
  let names ← (positionsOf ['('] line).mapM fun opening =>
    return (← identifierBefore line opening).map fun name => (name, opening)
  return names.reduceOption

/-- Word characters at the end of a text are read up to where they start. -/
theorem getLast?_takeWhile_charIndices {front word : Text}
    (isWord : ∀ c ∈ word, isWordChar c = true)
    (ends : ∀ c ∈ front.getLast?, isWordChar c = false) :
    ((charIndices 0 (front ++ word)).reverse.takeWhile fun place =>
      isWordChar place.2).getLast? = word.head?.map fun c => (front.byteSize, c) := by
  have inWord : ∀ place ∈ (charIndices (0 + front.byteSize) word).reverse,
      isWordChar place.2 = true := by
    intro place member
    exact isWord place.2 (mem_of_mem_charIndices (List.mem_reverse.mp member))
  have beforeWord : ((charIndices 0 front).reverse.takeWhile fun place =>
      isWordChar place.2) = [] := by
    rcases List.eq_nil_or_concat front with rfl | ⟨init, last, rfl⟩
    · rfl
    · have other : isWordChar last = false := ends last (by simp)
      simp [List.concat_eq_append, charIndices_append, charIndices, other]
  rw [charIndices_append, List.reverse_append, List.takeWhile_append_of_pos inWord, beforeWord,
    List.append_nil, List.getLast?_reverse, Nat.zero_add]
  cases word <;> rfl

/-- Reading the identifier in front of a cut never faults and gives the same one. -/
theorem identifierBefore_eq (member : cut ∈ line.cuts) :
    identifierBefore line cut.offset = .ok (Declaration.identifierBefore? cut) := by
  rw [identifierBefore, Cut.textUpTo_offset member, ok_bind, List.reverse_reverse,
    Declaration.identifierBefore?]
  generalize cut.before.dropWhile (fun c => c == ' ' || c == '\t') = read
  have split : read.reverse =
      (read.dropWhile isWordChar).reverse ++ (read.takeWhile isWordChar).reverse := by
    rw [← List.reverse_append, List.takeWhile_append_dropWhile]
  have isWord : ∀ c ∈ (read.takeWhile isWordChar).reverse, isWordChar c = true := fun c inWord =>
    List.mem_takeWhile_imp (List.mem_reverse.mp inWord)
  have ends : ∀ c ∈ (read.dropWhile isWordChar).reverse.getLast?, isWordChar c = false := by
    intro c first
    rw [List.getLast?_reverse] at first
    have fails := List.head?_dropWhile_not isWordChar read
    rw [first] at fails
    exact fails
  simp only [split, getLast?_takeWhile_charIndices isWord ends]
  cases name : (read.takeWhile isWordChar).reverse with
  | nil =>
      rw [List.reverse_eq_nil_iff] at name
      simp [name]
      rfl
  | cons c rest =>
      have some : (read.takeWhile isWordChar).isEmpty = false := by
        rw [← List.isEmpty_reverse, name]
        rfl
      simp only [List.head?_cons, Option.map_some, textFrom_append, ok_bind, some]
      rfl

/-- The first parenthesis follows the first cut before one. -/
theorem positionWhere?_eq_offset (line : Text) :
    positionWhere? (· == '(') line = (line.cuts.find? Declaration.opensParen).map Cut.offset := by
  have reading (read rest : Text) :
      ((cutsFrom read rest).find? Declaration.opensParen).map Cut.offset =
        (positionWhere? (· == '(') rest).map (read.byteSize + ·) := by
    induction rest generalizing read with
    | nil => rfl
    | cons c rest ih =>
        have here : Declaration.opensParen ⟨read, c :: rest⟩ = (c == '(') := rfl
        rw [cutsFrom, positionWhere?, List.find?_cons, here]
        cases c == '(' with
        | true => rfl
        | false =>
            rw [ih, if_neg Bool.false_ne_true, Option.map_map]
            refine congrArg (Option.map · _) (funext fun position => ?_)
            simp only [byteSize_cons, Function.comp_apply]
            omega
  rw [cuts, reading]
  simp

/-- Reading the name of a method never faults and gives the same name. -/
theorem methodName_eq (declaration : Text) :
    methodName declaration = .ok (Declaration.methodName? declaration) := by
  rw [methodName, positionWhere?_eq_offset, Declaration.methodName?]
  cases found : declaration.cuts.find? Declaration.opensParen with
  | none => rfl
  | some cut => exact identifierBefore_eq (List.mem_of_find?_eq_some found)

/-- Listing the calls of a line never faults and gives the same calls. -/
theorem callNames_eq (line : Text) : callNames line = .ok (Declaration.callNames line) := by
  have steps : ∀ cut ∈ line.cuts, ∀ rest, Text.after? ['('] cut.after = some rest →
      (return (← identifierBefore line cut.offset).map fun name => (name, cut.offset) :
        Checked (Option (Text × Nat))) =
        .ok ((Declaration.identifierBefore? cut).map fun name => (name, cut.offset)) := by
    intro cut member rest _
    rw [identifierBefore_eq member, ok_bind]
    rfl
  rw [callNames, mapM_positionsOf steps, ok_bind, List.reduceOption, List.filterMap_filterMap,
    Declaration.callNames, List.filterMap_filter]
  refine congrArg Except.ok (List.filterMap_congr fun cut _ => ?_)
  rw [Declaration.opensParen, Text.after?]
  cases cut.after with
  | nil => rfl
  | cons c rest =>
      by_cases opens : c = '('
      · subst opens
        simp
      · have other : '(' ≠ c := fun same => opens same.symm
        simp [opens, other]

/-! ## Names of classes -/

/-- The keyword of a class. -/
def classKeyword : Text :=
  "class".toList

/-- The keyword at `start` stands on its own, and a blank follows it. -/
def startsClass (declaration : Text) (start : Nat) : Checked Bool := do
  let before ← textUpTo declaration start
  let after ← textFrom declaration (start + classKeyword.byteSize)
  return !before.getLast?.any isWordChar && after.head?.any isBlank

/-- The position behind the word at the start of a text. -/
def wordEnd (text : Text) : Nat :=
  (positionWhere? (fun c => !isWordChar c) text).getD text.byteSize

/-- The identifier after the first keyword. -/
def className (declaration : Text) : Checked (Option Text) := do
  match ← (positionsOf classKeyword declaration).findM? (startsClass declaration) with
  | none => return none
  | some start =>
    let rest := (← textFrom declaration (start + classKeyword.byteSize)).trimStart
    if 0 < wordEnd rest then return some (← textUpTo rest (wordEnd rest)) else return none

private theorem startsClass_eq (member : cut ∈ line.cuts) {rest : Text}
    (starts : Text.after? classKeyword cut.after = some rest) :
    startsClass line cut.offset = .ok (Declaration.afterClassKeyword? cut).isSome := by
  have keyword : Text.after? "class".toList cut.after = some rest := starts
  rw [startsClass, Cut.textUpTo_offset member, ok_bind,
    Cut.textFrom_add member (after?_eq_some_iff.mp starts), ok_bind,
    Declaration.afterClassKeyword?, keyword, List.getLast?_reverse, Cut.startsWord]
  cases cut.before.head?.any isWordChar <;> cases blank : rest.head?.any isBlank <;>
    simp [blank] <;> rfl

private theorem findM?_startsClass (declaration : Text) :
    (positionsOf classKeyword declaration).findM? (startsClass declaration) =
      .ok ((declaration.cuts.find? fun cut =>
        (Declaration.afterClassKeyword? cut).isSome).map Cut.offset) := by
  refine findM?_positionsOf (fun cut member rest starts => startsClass_eq member starts) ?_
  intro cut other
  have keyword : Text.after? "class".toList cut.after = none := other
  rw [Declaration.afterClassKeyword?, keyword]
  split <;> rfl

/-- What a search gives is what it has found. -/
theorem findSome?_eq_bind_find? {α β : Type} (search : α → Option β) (items : List α) :
    items.findSome? search = (items.find? fun item => (search item).isSome).bind search := by
  induction items with
  | nil => rfl
  | cons item rest ih =>
      rw [List.findSome?_cons, List.find?_cons]
      cases found : search item with
      | none => exact ih
      | some value => exact found.symm

private theorem wordEnd_eq (text : Text) : wordEnd text = byteSize (text.takeWhile isWordChar) := by
  rw [wordEnd, getD_positionWhere?]
  simp only [Bool.not_not]

/-- A word is cut off at its end. -/
theorem textUpTo_wordEnd (text : Text) :
    textUpTo text (wordEnd text) = .ok (text.takeWhile isWordChar) := by
  have split := textUpTo_append (text.takeWhile isWordChar) (text.dropWhile isWordChar)
  rwa [List.takeWhile_append_dropWhile, ← wordEnd_eq] at split

/-- Reading the name of a class never faults and gives the same name. -/
theorem className_eq (declaration : Text) :
    className declaration = .ok (Declaration.className? declaration) := by
  rw [className, findM?_startsClass, ok_bind, Declaration.className?, findSome?_eq_bind_find?]
  cases found : declaration.cuts.find? fun cut => (Declaration.afterClassKeyword? cut).isSome with
  | none => rfl
  | some cut =>
      have member := List.mem_of_find?_eq_some found
      have isKeyword := List.find?_some found
      obtain ⟨rest, opens⟩ := Option.isSome_iff_exists.mp isKeyword
      have starts : Text.after? classKeyword cut.after = some rest := by
        rw [Declaration.afterClassKeyword?, Option.ite_none_right_eq_some] at opens
        exact (Option.filter_eq_some_iff.mp opens.2).1
      simp only [Option.map_some, Cut.textFrom_add member (after?_eq_some_iff.mp starts), ok_bind,
        Option.bind_some, Option.bind_eq_bind, opens, textUpTo_wordEnd]
      rw [wordEnd_eq]
      cases rest.trimStart.takeWhile isWordChar with
      | nil => rfl
      | cons c word =>
          have some : 0 < byteSize (c :: word) := Nat.add_pos_left c.utf8Size_pos _
          rw [if_pos some]
          rfl

/-! ## Comments -/

/-- The position of the first end of a block comment. -/
def commentEnd? : Text → Option Nat
  | [] => none
  | c :: rest =>
    if "*/".toList.isPrefixOf (c :: rest) then some 0
    else (commentEnd? rest).map (c.utf8Size + ·)

/-- The text of a block comment up to its end. -/
def blockText (text : Text) : Checked Text :=
  match commentEnd? text with
  | some stop => textUpTo text stop
  | none => .ok text

/-- Read on in search for a comment, outside of a literal or inside of one with the
delimiter `quote?`, where `escaped` says that the next character is escaped. -/
def scanComment (line : Text) (quote? : Option Char) (escaped : Bool) :
    List (Nat × Char) → Checked (Option Text)
  | [] => .ok none
  | (position, c) :: rest =>
    match quote? with
    | some quote =>
      if escaped then scanComment line (some quote) false rest
      else if c = '\\' then scanComment line (some quote) true rest
      else if c = quote then scanComment line none false rest
      else scanComment line (some quote) false rest
    | none =>
      if c = '"' ∨ c = '\'' then scanComment line (some c) escaped rest
      else if c = '/' then do
        let behind ← textFrom line (position + 1)
        match Text.after? ['/'] behind, Text.after? ['*'] behind with
        | some text, _ => return some text
        | none, some text => return some (← blockText text)
        | none, none => scanComment line none escaped rest
      else scanComment line none escaped rest

/-- The text of the first comment of a line. -/
def comment (line : Text) : Checked (Option Text) :=
  scanComment line none false (charIndices 0 line)

/-- The end of a block comment is found behind its text. -/
theorem commentEnd?_eq (text : Text) :
    (∃ rest, text = Mask.blockCommentText text ++ rest ∧
      commentEnd? text = some (Mask.blockCommentText text).byteSize) ∨
    (commentEnd? text = none ∧ Mask.blockCommentText text = text) := by
  induction text with
  | nil => exact .inr ⟨rfl, rfl⟩
  | cons c rest ih =>
      rw [commentEnd?]
      split
      next ends =>
        obtain ⟨behind, same⟩ := List.isPrefixOf_iff_prefix.mp ends
        cases same
        exact .inl ⟨_, rfl, rfl⟩
      next noEnd =>
        have other : ∀ behind, c = '*' → rest = '/' :: behind → False := by
          rintro behind rfl rfl
          exact noEnd rfl
        rw [Mask.blockCommentText.eq_2 c rest other]
        obtain ⟨behind, split, found⟩ | ⟨absent, all⟩ := ih
        · refine .inl ⟨behind, congrArg (c :: ·) split, ?_⟩
          rw [found]
          rfl
        · exact .inr ⟨by rw [absent]; rfl, congrArg (c :: ·) all⟩

private theorem blockText_eq (text : Text) : blockText text = .ok (Mask.blockCommentText text) := by
  rw [blockText]
  obtain ⟨rest, split, found⟩ | ⟨absent, all⟩ := commentEnd?_eq text
  · have upTo := textUpTo_append (Mask.blockCommentText text) rest
    rw [found]
    rwa [← split] at upTo
  · rw [absent, all]

/-- What follows a slash is what follows its position and one byte. -/
theorem textFrom_slash {rest : Text} (isRest : '/' :: rest <:+ line) :
    textFrom line (line.startOf ('/' :: rest) + 1) = .ok rest := by
  have position : line.startOf ('/' :: rest) + 1 = line.startOf rest := (startOf_cons isRest).symm
  rw [position, textFrom_startOf ((List.suffix_cons _ _).trans isRest)]

/-- A slash outside of a literal is followed by a comment or by something else. -/
theorem scanComment_slash {rest : Text} (isRest : '/' :: rest <:+ line)
    (places : List (Nat × Char)) :
    scanComment line none false ((line.startOf ('/' :: rest), '/') :: places) =
      match Text.after? ['/'] rest, Text.after? ['*'] rest with
      | some text, _ => .ok (some text)
      | none, some text => .ok (some (Mask.blockCommentText text))
      | none, none => scanComment line none false places := by
  have noQuote : ¬ ('/' = '"' ∨ '/' = '\'') := by decide
  rw [scanComment]
  simp only [noQuote, if_false, if_true, textFrom_slash isRest, ok_bind, blockText_eq]
  split <;> rfl

/-- A literal is read with its escapes, and what follows a slash outside of one is cut off
behind it. -/
theorem scanComment_eq (text : Text) (isRest : text <:+ line) (quote? : Option Char) :
    scanComment line quote? false (charIndices (line.startOf text) text) =
      .ok (Mask.commentFrom quote? text) := by
  match text, quote? with
  | [], quote? => cases quote? <;> rfl
  | c :: rest, some delimiter =>
      have restIsRest : rest <:+ line := (List.suffix_cons _ _).trans isRest
      rw [charIndices, ← startOf_cons isRest, scanComment]
      by_cases escapes : c = '\\'
      · subst escapes
        cases rest with
        | nil => simp [charIndices, scanComment, Mask.commentFrom]
        | cons next rest =>
            have behind : rest <:+ line := (List.suffix_cons _ _).trans restIsRest
            rw [Mask.commentFrom, charIndices, ← startOf_cons restIsRest]
            simp only [Bool.false_eq_true, if_false, if_true, scanComment]
            exact scanComment_eq rest behind (some delimiter)
      · rw [Mask.commentFrom.eq_3 _ _ _ fun _ _ same => absurd same escapes,
          ← scanComment_eq rest restIsRest]
        simp only [Bool.false_eq_true, if_false, escapes]
        split <;> rfl
  | c :: rest, none =>
      have restIsRest : rest <:+ line := (List.suffix_cons _ _).trans isRest
      rw [charIndices]
      by_cases slash : c = '/'
      · subst slash
        rw [scanComment_slash isRest, ← startOf_cons isRest]
        split
        next text signs =>
          obtain rfl : rest = '/' :: text := after?_eq_some_iff.mp signs
          rw [Mask.commentFrom]
        next text _ signs =>
          obtain rfl : rest = '*' :: text := after?_eq_some_iff.mp signs
          rw [Mask.commentFrom]
        next noLine noBlock =>
          have absent (sign : Char) (missing : Text.after? [sign] rest = none) (text : Text)
              (same : rest = sign :: text) : False := by
            rw [after?_eq_some_iff.mpr same] at missing
            contradiction
          rw [Mask.commentFrom.eq_6 _ _ (fun text _ => absent '/' noLine text)
            (fun text _ => absent '*' noBlock text), ← scanComment_eq rest restIsRest]
          rfl
      · rw [← startOf_cons isRest, scanComment, Mask.commentFrom.eq_6 _ _
          (fun _ same => absurd same slash) (fun _ same => absurd same slash),
          ← scanComment_eq rest restIsRest]
        simp only [slash, if_false]
        split <;> rfl

/-- Looking for a comment never faults and finds the same one. -/
theorem comment_eq (line : Text) : comment line = .ok (Mask.comment? line) := by
  have start : line.startOf line = 0 := Nat.sub_self _
  have scanned := scanComment_eq line (List.suffix_refl line) none
  rwa [start] at scanned

end PatchLint.Bytewise

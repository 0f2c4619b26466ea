import Mathlib.Data.List.TakeWhile
import PatchLint.Proofs.Bytewise.Basic
import PatchLint.Proofs.Location.TextRules

/-!
# Blocks and loops in bytes

The search for a block counts its depth up and down, and so does the search for
the end of a loop head. Neither count is ever taken below zero, since it starts
with a brace or a parenthesis that opens. The rule about loops cuts lines behind
the heads that it finds, and asks for the lines of their bodies: all of these
positions and lines are there.
-/

namespace PatchLint.Bytewise

open Text Checked

/-! ## Blocks -/

/-- What a search for a block keeps. -/
structure BlockSearch where
  /-- How many parentheses of the header are open. -/
  parens : Nat := 0
  /-- How many braces are open. -/
  depth : Nat := 0
  /-- The line of the opening brace. -/
  openLine? : Option Nat := none
  /-- Nothing but blanks have been read since. -/
  empty : Bool := true

/-- Read on in search for a block. -/
def scanBlock (search : BlockSearch) : List (Char × Nat) → Checked (Option BlockSpan)
  | [] => .ok none
  | (c, line) :: rest =>
    match search.openLine? with
    | none =>
      if c = '(' then scanBlock { search with parens := search.parens + 1 } rest
      else if c = ')' then scanBlock { search with parens := search.parens - 1 } rest
      else if c = ';' ∧ search.parens = 0 then .ok none
      else if c = '{' then scanBlock { search with openLine? := some line, depth := 1 } rest
      else scanBlock search rest
    | some openLine =>
      if c = '{' then scanBlock { search with depth := search.depth + 1, empty := false } rest
      else if c = '}' then do
        let depth ← sub search.depth 1
        if depth = 0 then .ok (some ⟨openLine, line, search.empty⟩)
        else scanBlock { search with depth := depth, empty := false } rest
      else scanBlock { search with empty := search.empty && isBlank c } rest

/-- The block that starts at or after byte `column` of line `line`. -/
def blockSpan (code : List Text) (line column : Nat) : Checked (Option BlockSpan) :=
  scanBlock {} (BlockSpan.searchText code line column)

/-- Inside of a body at least one brace is open. -/
theorem scanBlock_body (parens inner openLine : Nat) (empty : Bool) (text : List (Char × Nat)) :
    scanBlock ⟨parens, inner + 1, some openLine, empty⟩ text =
      .ok ((BlockSpan.findClose inner empty text).map fun close =>
        ⟨openLine, close.1, close.2⟩) := by
  induction text generalizing inner empty with
  | nil => rfl
  | cons place rest ih =>
      obtain ⟨c, line⟩ := place
      rw [scanBlock, BlockSpan.findClose.eq_def]
      simp only [succ_sub_one, ok_bind]
      split_ifs with opens closes depth
      · exact ih (inner + 1) false
      · subst depth
        rfl
      · obtain ⟨outer, rfl⟩ := Nat.exists_eq_succ_of_ne_zero depth
        exact ih outer false
      · exact ih inner (empty && isBlank c)

/-- The header is read without a count of braces. -/
theorem scanBlock_header (parens : Nat) (text : List (Char × Nat)) :
    scanBlock ⟨parens, 0, none, true⟩ text =
      .ok ((BlockSpan.findOpen parens text).bind fun header =>
        (BlockSpan.findClose 0 true header.2).map fun close =>
          ⟨header.1, close.1, close.2⟩) := by
  induction text generalizing parens with
  | nil => rfl
  | cons place rest ih =>
      obtain ⟨c, line⟩ := place
      rw [scanBlock, BlockSpan.findOpen]
      by_cases opens : c = '{'
      · subst opens
        exact scanBlock_body parens 0 line true rest
      · simp only [opens, if_false, ih]
        split_ifs <;> simp_all

/-- The search for a block never faults and finds the same block. -/
theorem blockSpan_eq (code : List Text) (line column : Nat) :
    blockSpan code line column = .ok (blockSpan? code line column) := by
  rw [blockSpan, scanBlock_header, blockSpan?]
  refine congrArg _ (congrArg _ (funext fun header => ?_))
  obtain ⟨openLine, body⟩ := header
  cases found : BlockSpan.findClose 0 true body <;> simp [found]

/-! ## Heads of loops -/

variable {line condition : Text} {cut : Cut}

/-- Read on in search for the parenthesis that matches the first one. -/
def scanHead (depth : Nat) : List (Nat × Char) → Checked (Option Nat)
  | [] => .ok none
  | (position, c) :: rest =>
    if c = '(' then scanHead (depth + 1) rest
    else if c = ')' then do
      let depth ← sub depth 1
      if depth = 0 then .ok (some (position + 1)) else scanHead depth rest
    else scanHead depth rest

/-- The position behind the parenthesis that matches the one at `opening`. -/
def headEnd (line : Text) (opening : Nat) : Checked (Option Nat) :=
  scanHead 0 ((charIndices 0 line).dropWhile fun place => place.1 < opening)

/-- What follows a position, if there is one. -/
def behind (line : Text) : Option Nat → Checked Text
  | some position => textFrom line position
  | none => .ok []

private theorem suffix_of_afterClosing? {depth : Nat} {text rest : Text}
    (closed : Concatenation.afterClosing? depth text = some rest) : rest <:+ text := by
  fun_induction Concatenation.afterClosing? depth text with
  | case1 => contradiction
  | case2 depth text ih => exact (ih closed).trans (List.suffix_cons _ _)
  | case3 text =>
      obtain rfl := Option.some.inj closed
      exact List.suffix_cons _ _
  | case4 text outer _ ih => exact (ih closed).trans (List.suffix_cons _ _)
  | case5 depth c text _ _ ih => exact (ih closed).trans (List.suffix_cons _ _)

/-- Behind the first parenthesis at least one is open. -/
theorem scanHead_eq (inner : Nat) {text : Text} (isRest : text <:+ line) :
    scanHead (inner + 1) (charIndices (line.startOf text) text) =
      .ok ((Concatenation.afterClosing? inner text).map line.startOf) := by
  induction text generalizing inner with
  | nil => rfl
  | cons c rest ih =>
      have restIsRest : rest <:+ line := (List.suffix_cons c rest).trans isRest
      rw [charIndices, ← startOf_cons isRest, scanHead, Concatenation.afterClosing?.eq_def]
      simp only [succ_sub_one, ok_bind]
      split_ifs with opens closes depth
      · exact ih (inner + 1) restIsRest
      · subst depth closes
        rw [Option.map_some, startOf_cons isRest]
        rfl
      · obtain ⟨outer, rfl⟩ := Nat.exists_eq_succ_of_ne_zero depth
        exact ih outer restIsRest
      · exact ih inner restIsRest

/-- From an opening parenthesis on the end of the head is found. -/
theorem headEnd_eq (isRest : '(' :: condition <:+ line) :
    headEnd line (line.startOf ('(' :: condition)) =
      .ok ((Concatenation.afterClosing? 0 condition).map line.startOf) := by
  have conditionIsRest : condition <:+ line := (List.suffix_cons _ _).trans isRest
  rw [headEnd, dropWhile_charIndices isRest, charIndices, ← startOf_cons isRest, scanHead,
    if_pos rfl, scanHead_eq 0 conditionIsRest]

example : headEnd "a)".toList 0 = .error .underflow := rfl

/-- The end of the head lies between characters. -/
theorem behind_afterClosing? (isRest : '(' :: condition <:+ line) :
    behind line ((Concatenation.afterClosing? 0 condition).map line.startOf) =
      .ok ((Concatenation.afterClosing? 0 condition).getD []) := by
  cases closed : Concatenation.afterClosing? 0 condition with
  | none => rfl
  | some rest =>
      have conditionIsRest : condition <:+ line := (List.suffix_cons _ _).trans isRest
      exact textFrom_startOf ((suffix_of_afterClosing? closed).trans conditionIsRest)

/-- The condition of the loop whose keyword starts at the cut. -/
def conditionAt? (cut : Cut) : Option Text :=
  if cut.startsRun then
    Concatenation.loopKeywords.findSome? fun keyword =>
      match (Text.after? keyword.toList cut.after).map Text.trimStart with
      | some ('(' :: condition) => some condition
      | _ => none
  else none

private theorem loopHead?_eq (cut : Cut) :
    Concatenation.loopHead? cut =
      (conditionAt? cut).map fun condition =>
        ⟨cut.offset, Concatenation.afterClosing? 0 condition⟩ := by
  rw [Concatenation.loopHead?, conditionAt?]
  split
  next =>
    rw [List.map_findSome?]
    refine congrArg (List.findSome? · _) (funext fun keyword => ?_)
    rw [Function.comp_apply]
    generalize (Text.after? keyword.toList cut.after).map Text.trimStart = opened
    split <;> simp_all
  next => rfl

/-- Between the keyword and the condition stands no other parenthesis. -/
theorem exists_of_conditionAt? (head : conditionAt? cut = some condition) :
    ∃ front, '(' ∉ front ∧ cut.after = front ++ '(' :: condition := by
  rw [conditionAt?, Option.ite_none_right_eq_some] at head
  obtain ⟨keyword, listed, found⟩ := List.exists_of_findSome?_eq_some head.2
  split at found
  next other opened =>
    obtain rfl := Option.some.inj found
    obtain ⟨rest, after, trimmed⟩ := Option.map_eq_some_iff.mp opened
    refine ⟨keyword.toList ++ rest.takeWhile isBlank, ?_, ?_⟩
    · have noneInKeyword : ∀ keyword ∈ Concatenation.loopKeywords, '(' ∉ keyword.toList := by decide
      rw [List.mem_append]
      rintro (inKeyword | inBlanks)
      · exact noneInKeyword keyword listed inKeyword
      · have blank : isBlank '(' = true := List.mem_takeWhile_imp inBlanks
        exact absurd blank (by decide)
    · rw [after?_eq_some_iff.mp after, List.append_assoc, ← trimmed, trimStart,
        List.takeWhile_append_dropWhile]
  next => contradiction

/-! ## Bodies of loops -/

/-- Where the head of a loop stands. -/
structure LoopPlace where
  /-- The position of the keyword. -/
  start : Nat
  /-- The position behind the parenthesis. -/
  stop : Nat

/-- The heads of the loops on a masked line, from left to right. -/
def loopPlaces (line : Text) : List LoopPlace :=
  line.cuts.filterMap fun cut =>
    (conditionAt? cut).map fun condition => ⟨cut.offset, line.startOf condition⟩

/-- The lines of the body of a loop. -/
def loopBody (code : List Text) (number column : Nat) : Checked (List Nat) := do
  match ← blockSpan code number column with
  | some span => return List.range' span.openLine (span.closeLine + 1 - span.openLine)
  | none =>
    let line ← Checked.line code number
    let opening? := (positionWhere? (· == '(') (← textFrom line column)).map (column + ·)
    let stop? ← match opening? with
      | some opening => headEnd line opening
      | none => pure none
    let rest ← behind line stop?
    if rest.isBlankText then
      return (Concatenation.firstFilled? (number + 1) (code.drop (number + 1))).toList
    else return [number]

/-- The part of a body line that belongs to the body. -/
def bodyPart (code : List Text) (number : Nat) (place : LoopPlace) (bodyLine : Nat) :
    Checked Text := do
  let masked ← Checked.line code bodyLine
  if bodyLine = number then behind masked (← headEnd masked (← sub place.stop 1))
  else return masked

/-- The lines on which a loop appends to a string. -/
def appendingAt (file : SourceFile) (code : List Text) (number : Nat) (place : LoopPlace) :
    Checked (List Nat) := do
  let bodyLines ← loopBody code number place.start
  let bodies ← bodyLines.mapM fun bodyLine =>
    return (bodyLine, ← bodyPart code number place bodyLine)
  return (bodies.filter fun body =>
    let source := (file.line? (body.1 + 1)).getD []
    !Line.isComment source && Concatenation.appends source body.2).map Prod.fst

/-- The lines on which the loops of a masked line append to a string. -/
def appendingLines (file : SourceFile) (code : List Text) (line : Text × Nat) :
    Checked (List Nat) :=
  return (← (loopPlaces line.1).mapM (appendingAt file code line.2)).flatten

/-- The lines of a file on which loops append to a string. -/
def appendingInLoops (file : SourceFile) : Checked (List Nat) := do
  let code := Mask.codeLines file.content
  return (← code.zipIdx.mapM (appendingLines file code)).flatten

variable {code : List Text} {number : Nat}

private theorem line_eq (there : code[number]? = some line) :
    Checked.line code number = .ok line := by
  rw [Checked.line, there]
  rfl

/-- The condition of a loop is a rest of its line, and the parenthesis before it is found. -/
theorem suffix_of_conditionAt? (member : cut ∈ line.cuts)
    (head : conditionAt? cut = some condition) :
    '(' :: condition <:+ line ∧
      (positionWhere? (· == '(') cut.after).map (cut.offset + ·) =
        some (line.startOf ('(' :: condition)) := by
  obtain ⟨front, noneBefore, split⟩ := exists_of_conditionAt? head
  have lineSplit : line = (cut.before.reverse ++ front) ++ '(' :: condition := by
    rw [List.append_assoc, ← split, append_of_mem_cuts member]
  have failed : ∀ other ∈ front, (other == '(') = false := by
    intro other isBefore
    rw [beq_eq_false_iff_ne]
    rintro rfl
    exact noneBefore isBefore
  refine ⟨⟨_, lineSplit.symm⟩, ?_⟩
  rw [split, positionWhere?_append rfl failed, Option.map_some, lineSplit, startOf_append,
    byteSize_append, byteSize_reverse, Cut.offset]

private theorem loopBody_eq (there : code[number]? = some line) (member : cut ∈ line.cuts)
    (head : conditionAt? cut = some condition) :
    loopBody code number cut.offset =
      .ok (Concatenation.bodyLines code number
        ⟨cut.offset, Concatenation.afterClosing? 0 condition⟩) := by
  obtain ⟨isRest, found⟩ := suffix_of_conditionAt? member head
  rw [loopBody, blockSpan_eq, ok_bind, Concatenation.bodyLines]
  cases blockSpan? code number cut.offset with
  | some span => rfl
  | none =>
      simp only [line_eq there, ok_bind, Cut.textFrom_offset member, found, headEnd_eq isRest,
        behind_afterClosing? isRest]
      split <;> rfl

private theorem bodyPart_eq (there : code[number]? = some line) (isRest : '(' :: condition <:+ line)
    {bodyLine : Nat} (inside : bodyLine < code.length) (column : Nat) :
    bodyPart code number ⟨column, line.startOf condition⟩ bodyLine =
      .ok (Concatenation.bodyPart code number
        ⟨column, Concatenation.afterClosing? 0 condition⟩ bodyLine) := by
  rw [bodyPart, Concatenation.bodyPart]
  by_cases same : bodyLine = number
  · have before : sub (line.startOf condition) 1 = .ok (line.startOf ('(' :: condition)) := by
      rw [startOf_cons isRest]
      exact succ_sub_one _
    rw [same]
    simp only [line_eq there, ok_bind, if_true, before, headEnd_eq isRest,
      behind_afterClosing? isRest]
  · have present := List.getElem?_eq_getElem inside
    simp only [line_eq present, ok_bind, same, if_false, present, Option.getD_some]
    rfl

private theorem appendingAt_eq (file : SourceFile) (there : code[number]? = some line)
    (member : cut ∈ line.cuts) (head : conditionAt? cut = some condition) :
    let loopHead : Concatenation.LoopHead :=
      ⟨cut.offset, Concatenation.afterClosing? 0 condition⟩
    appendingAt file code number ⟨cut.offset, line.startOf condition⟩ =
      .ok ((Concatenation.bodyLines code number loopHead).filter
        (Concatenation.appendsOn file code number loopHead)) := by
  intro loopHead
  have isRest := (suffix_of_conditionAt? member head).1
  have headLine : number < code.length := (List.getElem?_eq_some_iff.mp there).1
  have bodies : ∀ bodyLine ∈ Concatenation.bodyLines code number loopHead,
      (return (bodyLine, ← bodyPart code number ⟨cut.offset, line.startOf condition⟩ bodyLine) :
          Checked (Nat × Text)) =
        .ok (bodyLine, Concatenation.bodyPart code number loopHead bodyLine) := by
    intro bodyLine inBody
    have inside := Concatenation.lt_length_of_mem_bodyLines headLine inBody
    rw [bodyPart_eq there isRest inside, ok_bind]
    rfl
  rw [appendingAt, loopBody_eq there member head, ok_bind, mapM_eq_ok bodies, ok_bind,
    List.filter_map, List.map_map]
  exact congrArg _ (List.map_id _)

private theorem appendingLines_eq (file : SourceFile) (there : code[number]? = some line) :
    appendingLines file code (line, number) =
      .ok (Concatenation.appendingLines file code (line, number)) := by
  let appending (head : Concatenation.LoopHead) : List Nat :=
    (Concatenation.bodyLines code number head).filter
      (Concatenation.appendsOn file code number head)
  have places : ∀ cut ∈ line.cuts,
      (((conditionAt? cut).map fun condition =>
          LoopPlace.mk cut.offset (line.startOf condition)).mapM
        (appendingAt file code number)) = .ok ((Concatenation.loopHead? cut).map appending) := by
    intro cut member
    rw [loopHead?_eq]
    cases head : conditionAt? cut with
    | none => rfl
    | some condition =>
        rw [Option.map_some, Option.mapM_some, appendingAt_eq file there member head]
        rfl
  rw [appendingLines, loopPlaces, mapM_filterMap_eq_ok places, ok_bind,
    Concatenation.appendingLines, Concatenation.loopHeads, ← List.map_filterMap, List.flatMap]
  rfl

/-- The rule about loops never cuts a line at a bad position, and never asks for a line that is
not there. -/
theorem appendingInLoops_eq (file : SourceFile) :
    appendingInLoops file =
      .ok ((Mask.codeLines file.content).zipIdx.flatMap
        (Concatenation.appendingLines file (Mask.codeLines file.content))) := by
  have lines : ∀ line ∈ (Mask.codeLines file.content).zipIdx,
      appendingLines file (Mask.codeLines file.content) line =
        .ok (Concatenation.appendingLines file (Mask.codeLines file.content) line) := by
    intro line member
    exact appendingLines_eq file (List.mem_zipIdx_iff_getElem?.mp member)
  rw [appendingInLoops, mapM_eq_ok lines, ok_bind, List.flatMap]
  rfl

end PatchLint.Bytewise

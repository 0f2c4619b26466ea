import Mathlib.Data.List.Induction
import PatchLint.Text.Basic

/-!
# Lines and the text they make up

`Text.lines` cuts a text at its line feeds and `joinLines` puts the pieces
together again. Neither loses anything: the two are inverse to each other on
lines without line feeds, and there is one more line than there are line feeds.
-/

namespace PatchLint.Text

/-- The text that has these lines. -/
def joinLines (lines : List Text) : Text :=
  List.intercalate ['\n'] lines

/-- Every text has a line. -/
theorem lines_ne_nil (text : Text) : text.lines ≠ [] :=
  List.splitOn_ne_nil '\n' text

/-- Every text has a first line. -/
theorem exists_lines_eq_cons (text : Text) : ∃ line more, text.lines = line :: more :=
  List.exists_cons_of_ne_nil text.lines_ne_nil

@[simp] theorem lines_nil : lines [] = [[]] :=
  List.splitOn_nil '\n'

/-- A line feed in front is an empty line in front. -/
@[simp] theorem lines_newline (rest : Text) : lines ('\n' :: rest) = [] :: rest.lines := by
  simp [lines, List.splitOn_cons_eq_if_modifyHead]

/-- Any other character in front belongs to the first line. -/
theorem lines_cons {c : Char} (other : c ≠ '\n') (rest : Text) :
    lines (c :: rest) = rest.lines.modifyHead (List.cons c) := by
  simp [lines, List.splitOn_cons_eq_if_modifyHead, other]

/-- The same with the first line spelled out. -/
theorem lines_cons_of_eq {c : Char} (other : c ≠ '\n') {rest line : Text} {more : List Text}
    (split : rest.lines = line :: more) : lines (c :: rest) = (c :: line) :: more := by
  rw [lines_cons other, split, List.modifyHead_cons]

/-- A text without line feeds in front belongs to the first line. -/
theorem lines_append_of_eq {taken rest line : Text} {more : List Text} (oneLine : '\n' ∉ taken)
    (split : rest.lines = line :: more) : lines (taken ++ rest) = (taken ++ line) :: more := by
  induction taken with
  | nil => exact split
  | cons c taken ih =>
      rw [List.mem_cons, not_or] at oneLine
      exact lines_cons_of_eq (Ne.symm oneLine.1) (ih oneLine.2)

/-- The first line starts with the first character, unless that is a line feed. -/
theorem head?_of_lines_eq {rest line : Text} {more : List Text} {c : Char}
    (split : rest.lines = line :: more) (starts : line.head? = some c) :
    rest.head? = some c := by
  cases rest with
  | nil =>
      rw [lines_nil] at split
      injection split with lineEq
      rw [← lineEq] at starts
      exact starts
  | cons d rest =>
      by_cases feed : d = '\n'
      · subst feed
        rw [lines_newline] at split
        injection split with lineEq
        rw [← lineEq] at starts
        exact absurd starts (by simp)
      · obtain ⟨first, others, restSplit⟩ := exists_lines_eq_cons rest
        rw [lines_cons_of_eq feed restSplit] at split
        injection split with lineEq
        rw [← lineEq] at starts
        exact starts

/-- There is one more line than there are line feeds. -/
theorem length_lines (text : Text) : text.lines.length = text.count '\n' + 1 := by
  induction text with
  | nil => simp
  | cons c rest ih =>
      by_cases feed : c = '\n'
      · subst feed
        simp [ih]
      · simp [lines_cons feed, ih, List.count_cons_of_ne feed]

/-- No line holds a line feed. -/
theorem newline_not_mem_of_mem_lines {text line : Text} (member : line ∈ text.lines) :
    '\n' ∉ line := by
  induction text generalizing line with
  | nil =>
      rw [lines_nil, List.mem_singleton] at member
      simp [member]
  | cons c rest ih =>
      by_cases feed : c = '\n'
      · subst feed
        rw [lines_newline, List.mem_cons] at member
        rcases member with rfl | later
        · simp
        · exact ih later
      · obtain ⟨first, more, split⟩ := exists_lines_eq_cons rest
        rw [lines_cons_of_eq feed split, List.mem_cons] at member
        rcases member with rfl | later
        · have clean : '\n' ∉ first := ih (by simp [split])
          simp [clean, Ne.symm feed]
        · exact ih (by simp [split, later])

/-- The lines of a text spell it again. -/
@[simp] theorem joinLines_lines (text : Text) : joinLines text.lines = text :=
  List.intercalate_splitOn '\n'

/-- Lines without line feeds can be read back from the text they make up. -/
theorem lines_joinLines {lines : List Text} (some : lines ≠ [])
    (clean : ∀ line ∈ lines, '\n' ∉ line) : (joinLines lines).lines = lines :=
  List.splitOn_intercalate '\n' clean some

/-! ## Texts put together -/

/-- Every text has a last piece. -/
theorem exists_splitOn_eq_append (mark : Char) (text : Text) :
    ∃ init last, text.splitOn mark = init ++ [last] := by
  rcases List.eq_nil_or_concat (text.splitOn mark) with empty | ⟨init, last, split⟩
  · exact absurd empty (List.splitOn_ne_nil mark text)
  · exact ⟨init, last, by rw [split, List.concat_eq_append]⟩

/-- The last piece of a text and the first piece of what follows it make up one piece. -/
theorem splitOn_append {mark : Char} {front back last piece : Text} {init more : List Text}
    (frontPieces : front.splitOn mark = init ++ [last])
    (backPieces : back.splitOn mark = piece :: more) :
    (front ++ back).splitOn mark = init ++ (last ++ piece) :: more := by
  induction front generalizing init last with
  | nil =>
      have same : [] ++ [[]] = init ++ [last] := frontPieces
      obtain ⟨rfl, sameLast⟩ := List.append_inj' same rfl
      obtain rfl := List.singleton_inj.mp sameLast
      exact backPieces
  | cons c rest ih =>
      obtain ⟨restInit, restLast, restPieces⟩ := exists_splitOn_eq_append mark rest
      have joined := ih restPieces
      rw [List.splitOn_cons_eq_if_modifyHead, restPieces] at frontPieces
      rw [List.cons_append, List.splitOn_cons_eq_if_modifyHead, joined]
      split at frontPieces
      next cut =>
        rw [← List.cons_append] at frontPieces
        obtain ⟨rfl, sameLast⟩ := List.append_inj' frontPieces rfl
        obtain rfl := List.singleton_inj.mp sameLast
        rw [if_pos cut, List.cons_append]
      next uncut =>
        rw [if_neg uncut]
        cases restInit with
        | nil =>
            have same : [] ++ [c :: restLast] = init ++ [last] := frontPieces
            obtain ⟨rfl, sameLast⟩ := List.append_inj' same rfl
            obtain rfl := List.singleton_inj.mp sameLast
            rfl
        | cons first restInit =>
            have same : ((c :: first) :: restInit) ++ [restLast] = init ++ [last] := frontPieces
            obtain ⟨rfl, sameLast⟩ := List.append_inj' same rfl
            obtain rfl := List.singleton_inj.mp sameLast
            rfl

/-- The last line of a text and the first line of what follows it make up one line. -/
theorem lines_append {front back last line : Text} {init more : List Text}
    (frontLines : front.lines = init ++ [last]) (backLines : back.lines = line :: more) :
    (front ++ back).lines = init ++ (last ++ line) :: more :=
  splitOn_append frontLines backLines

/-- The line with which a text ends. -/
def lastLine (text : Text) : Text :=
  (text.reverse.takeWhile (· != '\n')).reverse

private theorem lastLine_append_singleton {c : Char} (other : c ≠ '\n') (text : Text) :
    lastLine (text ++ [c]) = text.lastLine ++ [c] := by
  simp [lastLine, other]

/-- Text without line feeds is put behind the last line. -/
theorem lastLine_append {back : Text} (oneLine : '\n' ∉ back) (front : Text) :
    lastLine (front ++ back) = front.lastLine ++ back := by
  induction back using List.reverseRecOn with
  | nil => simp
  | append_singleton back c ih =>
      rw [List.mem_append, List.mem_singleton, not_or] at oneLine
      rw [← List.append_assoc, lastLine_append_singleton (Ne.symm oneLine.2), ih oneLine.1,
        List.append_assoc]

private theorem lastLine_append_newline (text : Text) : lastLine (text ++ ['\n']) = [] := by
  simp [lastLine]

/-- The last line comes last, and in front of it there are as many lines as there are
line feeds. -/
theorem exists_lines_eq_append_lastLine (text : Text) :
    ∃ init, text.lines = init ++ [text.lastLine] ∧ init.length = text.count '\n' := by
  have split : ∃ init, text.lines = init ++ [text.lastLine] := by
    induction text using List.reverseRecOn with
    | nil => exact ⟨[], rfl⟩
    | append_singleton text c ih =>
        obtain ⟨init, textLines⟩ := ih
        by_cases feed : c = '\n'
        · subst feed
          refine ⟨init ++ [lastLine text], ?_⟩
          have joined := lines_append textLines (lines_newline [])
          rw [joined, lastLine_append_newline, lines_nil]
          simp
        · refine ⟨init, ?_⟩
          have joined := lines_append textLines (lines_cons_of_eq feed lines_nil)
          rw [joined, lastLine_append_singleton feed]
  obtain ⟨init, textLines⟩ := split
  refine ⟨init, textLines, ?_⟩
  have count := length_lines text
  rw [textLines, List.length_append, List.length_singleton] at count
  omega

/-- What the last line ends with, the text ends with. -/
theorem getLast?_of_getLast?_lastLine {text : Text} {c : Char}
    (ends : text.lastLine.getLast? = some c) : text.getLast? = some c := by
  rw [lastLine, List.getLast?_reverse] at ends
  rw [← List.head?_reverse]
  cases reversed : text.reverse with
  | nil => simp [reversed] at ends
  | cons d rest =>
      rw [reversed, List.takeWhile_cons] at ends
      split at ends
      next => exact ends
      next => simp at ends

/-- The line at the front of what is left of some lines, and what is left behind it. -/
theorem getElem?_of_drop_eq_cons {lines : List Text} {number : Nat} {line : Text}
    {rest : List Text} (left : lines.drop number = line :: rest) :
    lines[number]? = some line ∧ lines.drop (number + 1) = rest := by
  constructor
  · rw [← Nat.add_zero number, ← List.getElem?_drop, left, List.getElem?_cons_zero]
  · rw [← List.drop_drop, left, List.drop_one, List.tail_cons]

end PatchLint.Text

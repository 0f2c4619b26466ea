import Mathlib.Tactic.SplitIfs
import PatchLint.Proofs.Source.Block
import PatchLint.Proofs.Text.Bytes

/-!
# Blocks are matching braces

What the search for a block finds, said without the search. A text has a block
when it can be cut into a header, an opening brace, a body in which braces are
balanced, a closing brace and a rest. There is at most one way to do so: the
header has no opening brace, and a body that went on past its closing brace would
close more than it opens.

Both halves of the search read one character at a time. `IsHeader` and `Closes`
are taken apart in the same way, so each half is described by an induction over
the text.
-/

namespace PatchLint

namespace BlockSpan

/-! ## Headers -/

/-- The number of open parentheses behind a character. A closing parenthesis
without an opening one counts for nothing. -/
def parenStep (depth : Nat) (c : Char) : Nat :=
  if c = '(' then depth + 1 else if c = ')' then depth - 1 else depth

/-- The number of open parentheses behind a text. -/
def parenDepth (depth : Nat) (text : Text) : Nat :=
  text.foldl parenStep depth

/-- Inside of `depth` parentheses the text can lead up to an opening brace: it has
no such brace itself, and no semicolon outside of parentheses. -/
structure IsHeader (depth : Nat) (text : Text) : Prop where
  noBrace : '{' ∉ text
  noEnd : ∀ front rest, text = front ++ ';' :: rest → parenDepth depth front ≠ 0

/-- The empty text is a header, whatever is open in front of it. -/
theorem isHeader_nil (depth : Nat) : IsHeader depth [] where
  noBrace := List.not_mem_nil
  noEnd front rest split := by simp at split

/-- A header goes on as a header behind each of its characters. -/
theorem isHeader_cons {depth : Nat} {c : Char} {text : Text} :
    IsHeader depth (c :: text) ↔
      c ≠ '{' ∧ (c = ';' → depth ≠ 0) ∧ IsHeader (parenStep depth c) text := by
  constructor
  · intro header
    have noBrace := header.noBrace
    rw [List.mem_cons, not_or] at noBrace
    refine ⟨Ne.symm noBrace.1, ?_, noBrace.2, ?_⟩
    · rintro rfl
      exact header.noEnd [] text rfl
    · rintro front rest rfl
      exact header.noEnd (c :: front) rest rfl
  · rintro ⟨notBrace, notEnd, header⟩
    refine ⟨by simp [Ne.symm notBrace, header.noBrace], ?_⟩
    intro front rest split
    cases front with
    | nil =>
        rw [List.nil_append, List.cons.injEq] at split
        exact notEnd split.1
    | cons d front =>
        rw [List.cons_append, List.cons.injEq] at split
        obtain ⟨rfl, split⟩ := split
        exact header.noEnd front rest split

private theorem findOpen_cons (parens line : Nat) (c : Char) (places : List (Char × Nat)) :
    findOpen parens ((c, line) :: places) =
      if c = '{' then some (line, places)
      else if c = ';' ∧ parens = 0 then none
      else findOpen (parenStep parens c) places := by
  rw [findOpen, parenStep]
  split_ifs <;> rfl

/-- The first half of the search finds the brace behind a header. -/
theorem findOpen_eq_some_iff {parens line : Nat} {places rest : List (Char × Nat)} :
    findOpen parens places = some (line, rest) ↔
      ∃ header, places = header ++ ('{', line) :: rest ∧
        IsHeader parens (header.map Prod.fst) := by
  induction places generalizing parens with
  | nil => simp [findOpen]
  | cons place places ih =>
      obtain ⟨c, number⟩ := place
      rw [findOpen_cons]
      constructor
      · intro found
        split_ifs at found with brace ends
        · obtain ⟨rfl, rfl⟩ := Prod.mk.inj (Option.some.inj found)
          exact ⟨[], by rw [brace]; rfl, isHeader_nil parens⟩
        · obtain ⟨header, rfl, isHeader⟩ := ih.mp found
          refine ⟨(c, number) :: header, rfl, isHeader_cons.mpr ⟨brace, ?_, isHeader⟩⟩
          exact fun semicolon closed => ends ⟨semicolon, closed⟩
      · rintro ⟨header, split, isHeader⟩
        cases header with
        | nil =>
            simp only [List.nil_append, List.cons.injEq, Prod.mk.injEq] at split
            obtain ⟨⟨rfl, rfl⟩, rfl⟩ := split
            rw [if_pos rfl]
        | cons first header =>
            rw [List.cons_append, List.cons.injEq] at split
            obtain ⟨rfl, split⟩ := split
            rw [List.map_cons, isHeader_cons] at isHeader
            obtain ⟨notBrace, notEnd, isHeader⟩ := isHeader
            rw [if_neg notBrace, if_neg fun ends => notEnd ends.1 ends.2, ih]
            exact ⟨header, split, isHeader⟩

/-! ## Bodies -/

/-- The text closes all blocks that it opens, and never more than it has opened. -/
structure Balanced (text : Text) : Prop where
  covered : ∀ front, front <+: text → front.count '}' ≤ front.count '{'
  total : text.count '}' = text.count '{'

/-- The balance of a text tells its opening braces from its closing ones. -/
theorem braceBalance_eq (text : Text) :
    braceBalance text = (text.count '{' : Int) - text.count '}' := by
  induction text with
  | nil => rfl
  | cons c rest ih =>
      rw [braceBalance, ih, List.count_cons, List.count_cons]
      by_cases opening : c = '{'
      · simp [opening]
        omega
      · by_cases closing : c = '}'
        · simp [closing]
          omega
        · simp [opening, closing]

/-- A text is balanced when it closes as much as it opens and no front of it closes more. -/
theorem balanced_iff {text : Text} :
    Balanced text ↔
      braceBalance text = 0 ∧ ∀ front, front <+: text → 0 ≤ braceBalance front := by
  simp only [braceBalance_eq]
  constructor
  · rintro ⟨covered, total⟩
    refine ⟨by omega, fun front leads => ?_⟩
    have bound := covered front leads
    omega
  · rintro ⟨total, covered⟩
    refine ⟨fun front leads => ?_, by omega⟩
    have bound := covered front leads
    omega

/-- The balances of two texts add up. -/
theorem braceBalance_append (front back : Text) :
    braceBalance (front ++ back) = braceBalance front + braceBalance back := by
  simp only [braceBalance_eq, List.count_append]
  omega

/-- The depth behind a line is the balance of all lines up to this one. -/
theorem exists_prefix_of_mem_braceDepths {depth behind : Int} {lines : List Text}
    (member : behind ∈ braceDepths depth lines) :
    ∃ front, front <+: lines ∧ behind = depth + braceBalance front.flatten := by
  induction lines generalizing depth with
  | nil => simp [braceDepths] at member
  | cons line rest ih =>
      rcases List.mem_cons.mp member with rfl | later
      · exact ⟨[line], ⟨rest, rfl⟩, by simp⟩
      · obtain ⟨front, leads, rfl⟩ := ih later
        refine ⟨line :: front, List.cons_prefix_cons.mpr ⟨rfl, leads⟩, ?_⟩
        rw [List.flatten_cons, braceBalance_append, Int.add_assoc]

/-- The depth behind the last line is the balance of all lines. -/
theorem getLastD_braceDepths (depth : Int) (lines : List Text) :
    (braceDepths depth lines).getLastD depth = depth + braceBalance lines.flatten := by
  induction lines generalizing depth with
  | nil => simp [braceDepths, braceBalance]
  | cons line rest ih =>
      rw [braceDepths, List.getLastD_cons, ih, List.flatten_cons, braceBalance_append,
        Int.add_assoc]

/-- The lines of a balanced text never lead below the depth at which they start, and they end
at this depth. -/
theorem Balanced.braceDepths {lines : List Text} (balanced : Balanced lines.flatten)
    (depth : Int) :
    (∀ behind ∈ braceDepths depth lines, depth ≤ behind) ∧
      (braceDepths depth lines).getLastD depth = depth := by
  obtain ⟨total, covered⟩ := balanced_iff.mp balanced
  constructor
  · intro behind member
    obtain ⟨front, ⟨back, rfl⟩, rfl⟩ := exists_prefix_of_mem_braceDepths member
    have bound := covered front.flatten (by simp)
    omega
  · rw [getLastD_braceDepths, total, Int.add_zero]

/-- The text closes all blocks that it opens and `inner` blocks around it, and
never more than that. -/
structure Closes (inner : Nat) (text : Text) : Prop where
  covered : ∀ front, front <+: text → front.count '}' ≤ inner + front.count '{'
  total : text.count '}' = inner + text.count '{'

private theorem closes_zero_iff {text : Text} : Closes 0 text ↔ Balanced text := by
  constructor
  · rintro ⟨covered, total⟩
    exact ⟨by simpa using covered, by simpa using total⟩
  · rintro ⟨covered, total⟩
    exact ⟨by simpa using covered, by simpa using total⟩

private theorem closes_nil {inner : Nat} : Closes inner [] ↔ inner = 0 := by
  constructor
  · intro closes
    simpa using closes.total.symm
  · rintro rfl
    exact ⟨by simp, rfl⟩

/-- What has to be closed behind a character, if it was possible to close it. -/
theorem closes_cons {inner behind : Nat} {c : Char}
    (step : inner + [c].count '{' = behind + [c].count '}') (text : Text) :
    Closes inner (c :: text) ↔ Closes behind text := by
  have counts (d : Char) (text : Text) : (c :: text).count d = [c].count d + text.count d := by
    rw [← List.singleton_append, List.count_append]
  have opening := counts '{'
  have closing := counts '}'
  constructor
  · rintro ⟨covered, total⟩
    refine ⟨fun front leads => ?_, ?_⟩
    · have bound := covered (c :: front) (List.cons_prefix_cons.mpr ⟨rfl, leads⟩)
      rw [opening front, closing front] at bound
      omega
    · rw [opening text, closing text] at total
      omega
  · rintro ⟨covered, total⟩
    refine ⟨fun front leads => ?_, ?_⟩
    · rcases List.prefix_cons_iff.mp leads with rfl | ⟨more, rfl, leads⟩
      · simp
      · have bound := covered more (List.cons_prefix_cons.mp leads).2
        rw [opening more, closing more]
        omega
    · rw [opening text, closing text]
      omega

private theorem not_closes_zero_cons (text : Text) : ¬ Closes 0 ('}' :: text) := by
  intro closes
  have bound := closes.covered ['}'] ⟨text, rfl⟩
  simp at bound

/-- A body ends at one place only: past that place more would be closed than was
open. -/
theorem Balanced.eq_of_append_eq {body other rest otherRest : List (Char × Nat)}
    {line otherLine : Nat} (balanced : Balanced (body.map Prod.fst))
    (otherBalanced : Balanced (other.map Prod.fst))
    (same : body ++ ('}', line) :: rest = other ++ ('}', otherLine) :: otherRest) :
    body = other := by
  -- The longer of two different bodies would have the shorter one and its closing
  -- brace as a front.
  have shorter : ∀ {first second : List (Char × Nat)} {number : Nat}
      {more : List (Char × Nat)}, Balanced (first.map Prod.fst) → Balanced (second.map Prod.fst) →
      second ≠ first ++ ('}', number) :: more := by
    rintro first second number more first_balanced second_balanced rfl
    have bound := second_balanced.covered (first.map Prod.fst ++ ['}']) (by simp)
    have total := first_balanced.total
    rw [List.count_append, List.count_append, total] at bound
    have one : ['}'].count '}' = 1 := rfl
    have none : ['}'].count '{' = 0 := rfl
    omega
  rcases List.append_eq_append_iff.mp same with
    ⟨between, otherEq, restEq⟩ | ⟨between, bodyEq, restEq⟩
  · cases between with
    | nil => simpa using otherEq.symm
    | cons place more =>
        obtain ⟨rfl, _⟩ := List.cons.inj restEq
        exact absurd otherEq (shorter balanced otherBalanced)
  · cases between with
    | nil => simpa using bodyEq
    | cons place more =>
        obtain ⟨rfl, _⟩ := List.cons.inj restEq
        exact absurd bodyEq (shorter otherBalanced balanced)

/-- `places` starts with a body inside of `inner` further blocks, which ends on line
`line`. Nothing but blanks stand in it and in what was read before it. -/
def EndsAt (inner : Nat) (empty : Bool) (places : List (Char × Nat)) (line : Nat)
    (blank : Bool) : Prop :=
  ∃ body rest, places = body ++ ('}', line) :: rest ∧ Closes inner (body.map Prod.fst) ∧
    blank = (empty && body.all fun place => isBlank place.1)

/-- A character that does not end the body belongs to it. -/
theorem endsAt_cons {inner line number : Nat} {empty blank : Bool} {c : Char} (behind : Nat)
    (step : inner + [c].count '{' = behind + [c].count '}') (goesOn : c = '}' → inner ≠ 0)
    (places : List (Char × Nat)) :
    EndsAt inner empty ((c, number) :: places) line blank ↔
      EndsAt behind (empty && isBlank c) places line blank := by
  constructor
  · rintro ⟨body, rest, split, closes, rfl⟩
    cases body with
    | nil =>
        obtain ⟨same, _⟩ := List.cons.inj split
        exact absurd (closes_nil.mp closes) (goesOn (Prod.mk.inj same).1)
    | cons place body =>
        obtain ⟨rfl, rfl⟩ := List.cons.inj split
        refine ⟨body, rest, rfl, (closes_cons step _).mp closes, ?_⟩
        rw [List.all_cons, Bool.and_assoc]
  · rintro ⟨body, rest, rfl, closes, rfl⟩
    refine ⟨(c, number) :: body, rest, rfl, (closes_cons step _).mpr closes, ?_⟩
    rw [List.all_cons, Bool.and_assoc]

/-- The second half of the search finds the brace behind a body, and says whether
the body is blank. -/
theorem findClose_eq_some_iff {inner line : Nat} {empty blank : Bool}
    {places : List (Char × Nat)} :
    findClose inner empty places = some (line, blank) ↔ EndsAt inner empty places line blank := by
  fun_induction findClose inner empty places with
  | case1 => simp [EndsAt]
  | case2 inner empty number places ih =>
      have notBlank : isBlank '{' = false := by decide
      rw [ih, endsAt_cons (inner + 1) rfl (by simp), notBlank, Bool.and_false]
  | case3 empty number places =>
      constructor
      · intro found
        obtain ⟨rfl, rfl⟩ := Prod.mk.inj (Option.some.inj found)
        exact ⟨[], places, rfl, closes_nil.mpr rfl, by simp⟩
      · rintro ⟨body, rest, split, closes, rfl⟩
        cases body with
        | nil =>
            obtain ⟨same, _⟩ := List.cons.inj split
            simp [(Prod.mk.inj same).2]
        | cons place body =>
            obtain ⟨rfl, _⟩ := List.cons.inj split
            exact absurd closes (not_closes_zero_cons _)
  | case4 empty number places outer _ ih =>
      have notBlank : isBlank '}' = false := by decide
      rw [ih, endsAt_cons outer rfl (by simp), notBlank, Bool.and_false]
  | case5 inner empty c number places notOpen notClose ih =>
      have step : inner + [c].count '{' = inner + [c].count '}' := by
        simp [notOpen, notClose]
      rw [ih, endsAt_cons inner step fun closing => absurd closing notClose]

/-! ## The search text -/

/-- The search text is the text of the lines. -/
theorem map_fst_located (number : Nat) (lines : List Text) :
    (located number lines).map Prod.fst = lines.flatten := by
  induction lines generalizing number with
  | nil => rfl
  | cons line rest ih => simp [located, ih, Function.comp_def]

/-- Lines come in order. -/
theorem pairwise_located (number : Nat) (lines : List Text) :
    (located number lines).Pairwise fun first second => first.2 ≤ second.2 := by
  induction lines generalizing number with
  | nil => exact .nil
  | cons line rest ih =>
      rw [located, List.pairwise_append]
      refine ⟨?_, ih (number + 1), ?_⟩
      · rw [List.pairwise_map]
        exact List.pairwise_of_forall fun _ _ => Nat.le_refl number
      · intro first firstMember second secondMember
        obtain ⟨c, _, rfl⟩ := List.mem_map.mp firstMember
        have bounds := mem_located secondMember
        simp only
        omega

/-- The search reads on from a column that lies between characters. -/
theorem searchText_append (before after : List Text) (front back : Text) :
    searchText (before ++ (front ++ back) :: after) before.length front.byteSize =
      located before.length (back :: after) := by
  have within : min front.byteSize (front ++ back).byteSize = front.byteSize := by simp
  have cut : Text.dropBytes? front.byteSize (front ++ back) = some back :=
    Text.dropBytes?_eq_some_iff.mpr ⟨front, rfl, rfl⟩
  simp only [searchText, List.drop_left, fromColumn, within, cut, Option.getD_some]

end BlockSpan

/-- Characters with their lines, cut into a header, a block in braces and a rest. -/
structure Bracketed (places : List (Char × Nat)) where
  /-- What stands before the opening brace. -/
  header : List (Char × Nat)
  /-- The line of the opening brace. -/
  openLine : Nat
  /-- What stands between the braces. -/
  body : List (Char × Nat)
  /-- The line of the closing brace. -/
  closeLine : Nat
  /-- What stands behind the closing brace. -/
  rest : List (Char × Nat)
  split : places = header ++ ('{', openLine) :: (body ++ ('}', closeLine) :: rest)
  isHeader : BlockSpan.IsHeader 0 (header.map Prod.fst)
  balanced : BlockSpan.Balanced (body.map Prod.fst)

namespace Bracketed

open BlockSpan

variable {places : List (Char × Nat)}

private theorem findOpen_eq (cut : Bracketed places) :
    findOpen 0 places = some (cut.openLine, cut.body ++ ('}', cut.closeLine) :: cut.rest) :=
  findOpen_eq_some_iff.mpr ⟨cut.header, cut.split, cut.isHeader⟩

private theorem mem (cut : Bracketed places) :
    ('{', cut.openLine) ∈ places ∧ ('}', cut.closeLine) ∈ places := by
  obtain ⟨header, openLine, body, closeLine, rest, rfl, _, _⟩ := cut
  simp

/-- There is one way to cut a text at most. -/
instance : Subsingleton (Bracketed places) where
  allEq first second := by
    have opened := first.findOpen_eq.symm.trans second.findOpen_eq
    obtain ⟨sameOpen, sameTail⟩ := Prod.mk.inj (Option.some.inj opened)
    have sameBody := first.balanced.eq_of_append_eq second.balanced sameTail
    rw [sameBody, List.append_cancel_left_eq, List.cons.injEq, Prod.mk.injEq] at sameTail
    obtain ⟨⟨_, sameClose⟩, sameRest⟩ := sameTail
    have splits := first.split.symm.trans second.split
    rw [sameOpen, sameBody, sameClose, sameRest] at splits
    have sameHeader := List.append_cancel_right splits
    cases first
    cases second
    simp_all

/-- A block does not close before it opens. -/
theorem openLine_le_closeLine {number : Nat} {lines : List Text}
    (cut : Bracketed (located number lines)) : cut.openLine ≤ cut.closeLine := by
  have ordered := pairwise_located number lines
  rw [cut.split, List.pairwise_append, List.pairwise_cons] at ordered
  exact ordered.2.1.1 ('}', cut.closeLine) (by simp)

/-- A block stands within the lines that are searched. -/
theorem bounds {number : Nat} {lines : List Text} (cut : Bracketed (located number lines)) :
    number ≤ cut.openLine ∧ cut.closeLine < number + lines.length := by
  obtain ⟨opening, closing⟩ := cut.mem
  exact ⟨(mem_located opening).1, (mem_located closing).2⟩

end Bracketed

/-- The search for a block in characters with their lines finds the way to cut them. -/
theorem BlockSpan.search_eq_some_iff {places : List (Char × Nat)} {span : BlockSpan} :
    (do
      let (openLine, body) ← findOpen 0 places
      let (closeLine, empty) ← findClose 0 true body
      return ⟨openLine, closeLine, empty⟩) = some span ↔
    ∃ cut : Bracketed places, span.openLine = cut.openLine ∧ span.closeLine = cut.closeLine ∧
      span.empty = cut.body.all fun place => isBlank place.1 := by
  simp only [Option.bind_eq_bind, Option.bind_eq_some_iff, Prod.exists, Option.pure_def,
    Option.some.injEq]
  constructor
  · rintro ⟨openLine, tail, opened, closeLine, empty, closed, rfl⟩
    obtain ⟨header, split, isHeader⟩ := findOpen_eq_some_iff.mp opened
    obtain ⟨body, rest, rfl, closes, rfl⟩ := findClose_eq_some_iff.mp closed
    exact ⟨⟨header, openLine, body, closeLine, rest, split, isHeader, closes_zero_iff.mp closes⟩,
      rfl, rfl, by simp⟩
  · rintro ⟨cut, sameOpen, sameClose, sameEmpty⟩
    refine ⟨_, _, cut.findOpen_eq, cut.closeLine, span.empty, ?_, ?_⟩
    · exact findClose_eq_some_iff.mpr
        ⟨cut.body, cut.rest, rfl, closes_zero_iff.mpr cut.balanced, by simpa using sameEmpty⟩
    · rw [← sameOpen, ← sameClose]

/-- Behind `before` and the front of a line, with what follows, the search for a
block finds exactly the matching braces. A block is found if and only if the text
from there on can be cut into a header without an opening brace and without a
semicolon outside of parentheses, an opening brace, a balanced body, a closing brace
and a rest. There is one way to cut it at most, the block shows the lines of the two
braces, and it is empty when nothing but blanks stand between them. Behind the last
line there is no block. -/
theorem blockSpan?_matches_braces (before after : List Text) (front back : Text) :
    let code := before ++ (front ++ back) :: after
    let places := BlockSpan.located before.length (back :: after)
    places.map Prod.fst = back ++ after.flatten ∧
    (∀ span, blockSpan? code before.length front.byteSize = some span ↔
      ∃ cut : Bracketed places, span.openLine = cut.openLine ∧ span.closeLine = cut.closeLine ∧
        (span.empty = true ↔ ∀ place ∈ cut.body, isBlank place.1 = true)) ∧
    (∀ first second : Bracketed places, first = second) ∧
    (∀ cut : Bracketed places, before.length ≤ cut.openLine ∧ cut.openLine ≤ cut.closeLine ∧
      cut.closeLine < code.length) ∧
    ∀ line column, code.length ≤ line → blockSpan? code line column = none := by
  intro code places
  refine ⟨BlockSpan.map_fst_located _ _, fun span => ?_, Subsingleton.elim, fun cut => ?_,
    fun line column behind => ?_⟩
  · rw [blockSpan?, BlockSpan.searchText_append, BlockSpan.search_eq_some_iff]
    refine exists_congr fun cut => and_congr_right fun _ => and_congr_right fun _ => ?_
    rw [Bool.eq_iff_iff, List.all_eq_true]
  · obtain ⟨first, last⟩ := cut.bounds
    refine ⟨first, cut.openLine_le_closeLine, ?_⟩
    simpa [code] using last
  · have nothing : BlockSpan.searchText code line column = [] := by
      rw [BlockSpan.searchText, List.drop_eq_nil_of_le behind]
    rw [blockSpan?, nothing]
    rfl

/-- Lines with a loop. Semicolons stand in its head, and its body is empty. -/
def emptyLoop : List Text :=
  ["é", r"for(;;) {", r" } x"].map String.toList

/-- Behind its keyword the loop has a block of blanks on two lines. Behind all lines there is
none. -/
theorem blockSpan?_matches_braces_emptyLoop :
    (∃ cut : Bracketed (BlockSpan.searchText emptyLoop 1 3),
      cut.openLine = 1 ∧ cut.closeLine = 2 ∧ ∀ place ∈ cut.body, isBlank place.1 = true) ∧
    blockSpan? emptyLoop 3 0 = none := by
  obtain ⟨_, spans, _, _, behind⟩ := blockSpan?_matches_braces ["é".toList] [r" } x".toList]
    "for".toList r"(;;) {".toList
  obtain ⟨cut, opens, closes, blank⟩ := (spans ⟨1, 2, true⟩).mp (by decide)
  exact ⟨⟨cut, opens.symm, closes.symm, blank.mp rfl⟩, behind 3 0 (by decide)⟩

end PatchLint

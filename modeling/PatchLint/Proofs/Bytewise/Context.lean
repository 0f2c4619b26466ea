import PatchLint.Proofs.Bytewise.Basic
import PatchLint.Source.GuidContext

/-!
# The surroundings of a number in bytes

What stands near a number is cut out of its line at positions that may lie
anywhere: past the end of the line, inside of a character or the wrong way round.
One search goes back and one goes on, each to the nearest place between characters.
Both come to an end inside of the line.
-/

namespace PatchLint

namespace Text

/-- The position lies between characters of the text. -/
def isBoundary (text : Text) (position : Nat) : Bool :=
  (text.dropBytes? position).isSome

variable {front back : Text} {c : Char} {position : Nat}

private theorem isBoundary_append (front back : Text) :
    (front ++ back).isBoundary front.byteSize = true := by
  rw [isBoundary, dropBytes?_eq_some_iff.mpr ⟨front, rfl, rfl⟩]
  rfl

private theorem not_isBoundary_append (beyond : front.byteSize < position)
    (under : position < front.byteSize + c.utf8Size) :
    (front ++ c :: back).isBoundary position = false := by
  refine Bool.eq_false_iff.mpr fun boundary => ?_
  obtain ⟨rest, found⟩ := Option.isSome_iff_exists.mp boundary
  obtain ⟨before, split, size⟩ := dropBytes?_eq_some_iff.mp found
  rcases List.append_eq_append_iff.mp split with ⟨more, beforeEq, restEq⟩ | ⟨more, frontEq, _⟩
  · cases more with
    | nil => simp [beforeEq] at size; omega
    | cons d more =>
        rw [List.cons_append, List.cons.injEq] at restEq
        rw [beforeEq, byteSize_append, byteSize_cons, ← restEq.1] at size
        omega
  · rw [frontEq, byteSize_append] at beyond
    omega

/-! ## Rounding in characters -/

/-- Whole characters within the first bytes end before them, and one more does not. -/
theorem charsWithin_spec (bytes : Nat) (text : Text) :
    byteSize (text.take (charsWithin bytes text)) ≤ bytes ∧
      ∀ c rest, text.drop (charsWithin bytes text) = c :: rest →
        bytes < byteSize (text.take (charsWithin bytes text)) + c.utf8Size := by
  fun_induction charsWithin bytes text with
  | case1 => simp
  | case2 bytes c rest fits ih =>
      rw [Nat.add_comm 1, List.take_succ_cons, List.drop_succ_cons, byteSize_cons]
      refine ⟨by omega, fun d more next => ?_⟩
      have bound := ih.2 d more next
      omega
  | case3 bytes c rest tooLarge =>
      simp
      omega

/-- Characters that start before a byte reach it, and the last of them does start before it. -/
theorem charsBefore_spec (bytes : Nat) (text : Text) :
    min bytes text.byteSize ≤ byteSize (text.take (charsBefore bytes text)) ∧
      ∀ front c, text.take (charsBefore bytes text) = front ++ [c] → byteSize front < bytes := by
  fun_induction charsBefore bytes text with
  | case1 => simp
  | case2 => simp
  | case3 bytes c rest ih =>
      rw [Nat.add_comm 1, List.take_succ_cons, byteSize_cons, byteSize_cons]
      refine ⟨by omega, fun front d split => ?_⟩
      cases front with
      | nil => simp
      | cons other front =>
          rw [List.cons_append, List.cons.injEq] at split
          have bound := ih.2 front d split.2
          rw [byteSize_cons, ← split.1]
          omega

/-- What a longer front adds to a shorter one makes up the longer one. -/
theorem take_append_between {first last : Nat} (ordered : first ≤ last) (text : Text) :
    text.take first ++ (text.take last).drop first = text.take last := by
  have both := List.take_append_drop first (text.take last)
  rwa [List.take_take, Nat.min_eq_left ordered] at both

/-- More characters take more bytes. -/
theorem byteSize_take_le_iff {first last : Nat} {text : Text} (inside : first ≤ text.length) :
    byteSize (text.take first) ≤ byteSize (text.take last) ↔ first ≤ last := by
  constructor
  · intro fewer
    by_contra more
    rw [Nat.not_le] at more
    -- The characters between the two have a size.
    have size : byteSize ((text.take first).drop last) = 0 := by
      have sizes := congrArg byteSize (take_append_between (Nat.le_of_lt more) text)
      rw [byteSize_append] at sizes
      omega
    have empty := congrArg List.length (byteSize_eq_zero_iff.mp size)
    rw [List.length_drop, List.length_take, List.length_nil] at empty
    omega
  · intro fewer
    rw [← take_append_between fewer text, byteSize_append]
    exact Nat.le_add_right _ _

end Text

namespace Bytewise

open Text Checked

/-- Go back to the nearest place between characters. -/
def boundaryBelow (line : Text) : Nat → Checked Nat
  | 0 => if line.isBoundary 0 then .ok 0 else .error .underflow
  | position + 1 =>
    if line.isBoundary (position + 1) then .ok (position + 1) else boundaryBelow line position

/-- Go on to the nearest place between characters. Past the end of the line there is none. -/
def boundaryAbove (line : Text) (position : Nat) : Checked Nat :=
  if line.isBoundary position then .ok position
  else if position < line.byteSize then boundaryAbove line (position + 1)
  else .error .badPosition
termination_by line.byteSize - position

/-- The bytes from `start` to `stop` of a line belong to an identifier or to metadata. -/
def inGuidContext (line : Text) (start stop : Nat) : Checked Bool := do
  if GuidContext.mentionsKeyword line then return true
  let first ← boundaryBelow line (min (start - GuidContext.window) line.byteSize)
  let last ← boundaryAbove line (min (stop + GuidContext.window) line.byteSize)
  if first ≤ last then return GuidContext.hasGuidShape (← textBetween line first last)
  else return false

variable {front back line : Text} {c : Char} {position : Nat}

private theorem boundaryBelow_of_isBoundary (boundary : line.isBoundary position = true) :
    boundaryBelow line position = .ok position := by
  cases position <;> rw [boundaryBelow, if_pos boundary]

/-- From inside of a character the search goes back to its start. -/
theorem boundaryBelow_append {inside : Nat} (within : inside < c.utf8Size) :
    boundaryBelow (front ++ c :: back) (front.byteSize + inside) = .ok front.byteSize := by
  induction inside with
  | zero => exact boundaryBelow_of_isBoundary (isBoundary_append _ _)
  | succ inside ih =>
      have between : (front ++ c :: back).isBoundary (front.byteSize + inside + 1) = false :=
        not_isBoundary_append (by omega) (by omega)
      rw [← Nat.add_assoc, boundaryBelow, between]
      exact ih (by omega)

private theorem boundaryAbove_of_isBoundary (boundary : line.isBoundary position = true) :
    boundaryAbove line position = .ok position := by
  rw [boundaryAbove, if_pos boundary]

/-- From inside of a character the search goes on to its end. -/
theorem boundaryAbove_append {left : Nat} (within : left < c.utf8Size) :
    boundaryAbove (front ++ c :: back) (front.byteSize + c.utf8Size - left) =
      .ok (front.byteSize + c.utf8Size) := by
  have size : byteSize (front ++ [c]) = front.byteSize + c.utf8Size := by simp
  induction left with
  | zero =>
      have boundary := isBoundary_append (front ++ [c]) back
      rw [size, List.append_assoc] at boundary
      exact boundaryAbove_of_isBoundary boundary
  | succ left ih =>
      have between : (front ++ c :: back).isBoundary
          (front.byteSize + c.utf8Size - (left + 1)) = false :=
        not_isBoundary_append (by omega) (by omega)
      have inside : front.byteSize + c.utf8Size - (left + 1) < byteSize (front ++ c :: back) := by
        rw [byteSize_append, byteSize_cons]
        omega
      have next : front.byteSize + c.utf8Size - (left + 1) + 1 =
          front.byteSize + c.utf8Size - left := by omega
      rw [boundaryAbove, between, if_neg Bool.false_ne_true, if_pos inside, next]
      exact ih (by omega)

/-- The search back ends where rounding down to characters does. -/
theorem boundaryBelow_eq (bytes : Nat) (line : Text) :
    boundaryBelow line (min bytes line.byteSize) =
      .ok (byteSize (line.take (charsWithin bytes line))) := by
  obtain ⟨reached, ends⟩ := charsWithin_spec bytes line
  have split := List.take_append_drop (charsWithin bytes line) line
  revert reached ends split
  generalize line.take (charsWithin bytes line) = front
  generalize line.drop (charsWithin bytes line) = back
  rintro reached ends rfl
  cases back with
  | nil =>
      rw [List.append_nil, Nat.min_eq_right reached]
      have boundary := isBoundary_append front []
      rw [List.append_nil] at boundary
      exact boundaryBelow_of_isBoundary boundary
  | cons c rest =>
      have within := ends c rest rfl
      have position : min bytes (byteSize (front ++ c :: rest)) =
          byteSize front + (bytes - byteSize front) := by
        rw [byteSize_append, byteSize_cons]
        omega
      rw [position]
      exact boundaryBelow_append (by omega)

/-- The search on ends where rounding up to characters does. -/
theorem boundaryAbove_eq (bytes : Nat) (line : Text) :
    boundaryAbove line (min bytes line.byteSize) =
      .ok (byteSize (line.take (charsBefore bytes line))) := by
  obtain ⟨reaches, starts⟩ := charsBefore_spec bytes line
  have split := List.take_append_drop (charsBefore bytes line) line
  revert reaches starts split
  generalize line.take (charsBefore bytes line) = front
  generalize line.drop (charsBefore bytes line) = back
  rintro reaches starts rfl
  rcases List.eq_nil_or_concat front with rfl | ⟨init, c, rfl⟩
  · rw [Nat.le_zero.mp reaches]
    exact boundaryAbove_of_isBoundary (isBoundary_append [] back)
  · rw [List.concat_eq_append] at *
    have before := starts init c rfl
    have position : min bytes (byteSize (init ++ [c] ++ back)) =
        byteSize init + c.utf8Size -
          (byteSize init + c.utf8Size - min bytes (byteSize (init ++ [c] ++ back))) := by
      simp only [byteSize_append, byteSize_cons, byteSize_nil] at reaches ⊢
      omega
    have size : byteSize (init ++ [c]) = byteSize init + c.utf8Size := by simp
    have positive := c.utf8Size_pos
    rw [position, size, List.append_assoc]
    refine boundaryAbove_append ?_
    simp only [byteSize_append, byteSize_cons, byteSize_nil]
    omega

/-- The surroundings of a number are cut out at good positions, wherever the number is said to
start and to stop. -/
theorem inGuidContext_eq (line : Text) (start stop : Nat) :
    inGuidContext line start stop = .ok (PatchLint.inGuidContext line start stop) := by
  rw [inGuidContext, PatchLint.inGuidContext, GuidContext.nearby?]
  cases GuidContext.mentionsKeyword line with
  | true => rfl
  | false =>
      simp only [boundaryBelow_eq, boundaryAbove_eq, ok_bind,
        byteSize_take_le_iff (charsWithin_le_length _ _)]
      generalize charsWithin (start - GuidContext.window) line = first
      generalize charsBefore (stop + GuidContext.window) line = last
      by_cases ordered : first ≤ last
      · have cut := textBetween_append (line.take first) ((line.take last).drop first)
          (line.drop last)
        rw [← List.append_assoc, take_append_between ordered, List.take_append_drop] at cut
        simp only [ordered, if_true, cut, ok_bind, Bool.false_eq_true, if_false, Bool.false_or,
          Option.any_some]
        rfl
      · simp only [ordered, if_false, Bool.false_eq_true, Bool.false_or, Option.any_none]
        rfl

end Bytewise

end PatchLint

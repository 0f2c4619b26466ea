import Mathlib.Data.List.Basic
import PatchLint.Proofs.Text.Bytes

/-!
# Steps that may go wrong

A search that keeps its place as a number of bytes can go wrong where a search
through characters cannot: it may take away from a counter that is zero, cut a
text inside of a character or past its end, or ask for a line that is not there.
`Checked` computations give a fault then, and these are the steps that they are
made of.

A position is always that of a rest of the line, which `startOf` gives.
-/

namespace PatchLint

/-- What can go wrong when positions are numbers of bytes. -/
inductive Fault where
  /-- A number is taken away from a smaller one. -/
  | underflow
  /-- A position does not lie between characters of its text. -/
  | badPosition
  /-- There is no line of this number. -/
  | badLine
deriving DecidableEq, Repr

/-- A computation that may go wrong. -/
abbrev Checked := Except Fault

namespace Checked

variable {α β : Type}

/-- What is there, or a fault. -/
def ofOption (fault : Fault) : Option α → Checked α
  | some value => .ok value
  | none => .error fault

/-- Take a number away from another one. -/
def sub (left right : Nat) : Checked Nat :=
  if right ≤ left then .ok (left - right) else .error .underflow

/-- What follows a position. -/
def textFrom (text : Text) (start : Nat) : Checked Text :=
  ofOption .badPosition (text.dropBytes? start)

/-- What stands before a position. -/
def textUpTo (text : Text) (stop : Nat) : Checked Text :=
  ofOption .badPosition (text.takeBytes? stop)

/-- What stands between two positions. -/
def textBetween (text : Text) (start stop : Nat) : Checked Text :=
  ofOption .badPosition (text.slice? start stop)

/-- The line of this number. -/
def line (code : List Text) (number : Nat) : Checked Text :=
  ofOption .badLine code[number]?

/-- A step that does not fault hands its value on. -/
@[simp] theorem ok_bind (value : α) (next : α → Checked β) :
    (Except.ok value >>= next) = next value :=
  rfl

/-- A subtraction that stays above zero does not fault. -/
theorem sub_eq_ok {left right : Nat} (fits : right ≤ left) : sub left right = .ok (left - right) :=
  if_pos fits

@[simp] theorem succ_sub_one (number : Nat) : sub (number + 1) 1 = .ok number :=
  sub_eq_ok (Nat.le_add_left 1 number)

/-- Steps that do not go wrong one by one do not go wrong one after the other. -/
theorem mapM_eq_ok {items : List α} {step : α → Checked β} {result : α → β}
    (steps : ∀ item ∈ items, step item = .ok (result item)) :
    items.mapM step = .ok (items.map result) := by
  induction items with
  | nil => rfl
  | cons item rest ih =>
      obtain ⟨first, others⟩ := List.forall_mem_cons.mp steps
      rw [List.mapM_cons, first, ok_bind, ih others]
      rfl

/-- Steps on a selection do not go wrong if they do not for whatever is selected. -/
theorem mapM_filterMap_eq_ok {γ : Type} {items : List α} {select : α → Option β}
    {step : β → Checked γ} {result : α → Option γ}
    (steps : ∀ item ∈ items, (select item).mapM step = .ok (result item)) :
    (items.filterMap select).mapM step = .ok (items.filterMap result) := by
  induction items with
  | nil => rfl
  | cons item rest ih =>
      obtain ⟨first, others⟩ := List.forall_mem_cons.mp steps
      cases selected : select item with
      | none =>
          rw [selected] at first
          have none : result item = none := (Except.ok.inj first).symm
          rw [List.filterMap_cons_none selected, List.filterMap_cons_none none, ih others]
      | some value =>
          rw [selected] at first
          cases done : step value with
          | error fault => simp [Option.mapM_some, done] at first
          | ok output =>
              have some : result item = some output := by
                simpa [Option.mapM_some, done, eq_comm] using first
              rw [List.filterMap_cons_some selected, List.filterMap_cons_some some,
                List.mapM_cons, done, ok_bind, ih others]
              rfl

end Checked

namespace Text

open Checked

variable {line text front back rest : Text} {c : Char}

/-! ## Positions between characters -/

/-- The position at which a rest of the line starts. -/
def startOf (line rest : Text) : Nat :=
  line.byteSize - rest.byteSize

/-- A rest of a line starts behind the bytes of the front. -/
@[simp] theorem startOf_append (front rest : Text) :
    (front ++ rest).startOf rest = front.byteSize := by
  rw [startOf, byteSize_append, Nat.add_sub_cancel]

/-- One character on, a rest starts by the bytes of that character later. -/
theorem startOf_cons (isRest : c :: rest <:+ line) :
    line.startOf rest = line.startOf (c :: rest) + c.utf8Size := by
  obtain ⟨front, rfl⟩ := isRest
  have split : front ++ c :: rest = (front ++ [c]) ++ rest := by simp
  rw [startOf_append, split, startOf_append]
  simp

/-- A line can be cut behind any front of it. -/
theorem textFrom_append (front rest : Text) :
    textFrom (front ++ rest) front.byteSize = .ok rest := by
  rw [textFrom, dropBytes?_eq_some_iff.mpr ⟨front, rfl, rfl⟩]
  rfl

/-- A rest of the line is what follows its start. -/
theorem textFrom_startOf (isRest : rest <:+ line) :
    textFrom line (line.startOf rest) = .ok rest := by
  obtain ⟨front, rfl⟩ := isRest
  rw [startOf_append, textFrom_append]

example : textFrom "é".toList 1 = .error .badPosition := rfl

private theorem takeBytes?_append (front rest : Text) :
    takeBytes? front.byteSize (front ++ rest) = some front := by
  induction front with
  | nil => rw [byteSize_nil, takeBytes?]
  | cons c front ih =>
      have positive := c.utf8Size_pos
      obtain ⟨size, sizeEq⟩ : ∃ size, byteSize (c :: front) = size + 1 :=
        Nat.exists_eq_succ_of_ne_zero (by rw [byteSize_cons]; omega)
      have fits : c.utf8Size ≤ size + 1 := by
        rw [← sizeEq, byteSize_cons]
        omega
      have left : size + 1 - c.utf8Size = byteSize front := by
        rw [← sizeEq, byteSize_cons]
        omega
      rw [sizeEq, List.cons_append, takeBytes?, if_pos fits, left, ih]
      rfl

/-- A front of a line can be cut off. -/
theorem textUpTo_append (front rest : Text) :
    textUpTo (front ++ rest) front.byteSize = .ok front := by
  rw [textUpTo, takeBytes?_append]
  rfl

/-- Any passage of a line can be cut out. -/
theorem textBetween_append (front middle back : Text) :
    textBetween (front ++ (middle ++ back)) front.byteSize (front ++ middle).byteSize =
      .ok middle := by
  have ordered : front.byteSize ≤ (front ++ middle).byteSize := by simp
  have size : (front ++ middle).byteSize - front.byteSize = middle.byteSize := by simp
  rw [textBetween, slice?, if_pos ordered, dropBytes?_eq_some_iff.mpr ⟨front, rfl, rfl⟩,
    Option.bind_some, size, takeBytes?_append]
  rfl

/-! ## Characters with their positions -/

/-- The characters of a text that starts at a position, each with its own. -/
def charIndices (position : Nat) : Text → List (Nat × Char)
  | [] => []
  | c :: rest => (position, c) :: charIndices (position + c.utf8Size) rest

/-- The characters behind a front stand where the bytes of the front end. -/
theorem charIndices_append (position : Nat) (front back : Text) :
    charIndices position (front ++ back) =
      charIndices position front ++ charIndices (position + front.byteSize) back := by
  induction front generalizing position with
  | nil => simp [charIndices]
  | cons c rest ih =>
      rw [List.cons_append, charIndices, charIndices, ih, byteSize_cons, Nat.add_assoc,
        List.cons_append]

/-- A numbered character is one of the text. -/
theorem mem_of_mem_charIndices {position : Nat} {place : Nat × Char}
    (member : place ∈ charIndices position text) : place.2 ∈ text := by
  induction text generalizing position with
  | nil => contradiction
  | cons c rest ih =>
      rcases List.mem_cons.mp member with rfl | later
      · exact List.mem_cons_self
      · exact List.mem_cons_of_mem c (ih later)

/-- The characters of a rest of the line are those from its start on. -/
theorem dropWhile_charIndices (isRest : rest <:+ line) :
    ((charIndices 0 line).dropWhile fun place => place.1 < line.startOf rest) =
      charIndices (line.startOf rest) rest := by
  obtain ⟨front, rfl⟩ := isRest
  rw [startOf_append]
  have skips (position : Nat) :
      ((charIndices position (front ++ rest)).dropWhile fun place =>
        place.1 < position + byteSize front) = charIndices (position + byteSize front) rest := by
    induction front generalizing position with
    | nil => cases rest <;> simp [charIndices]
    | cons c front ih =>
        have inside : position < position + byteSize (c :: front) := by
          have positive := c.utf8Size_pos
          rw [byteSize_cons]
          omega
        rw [List.cons_append, charIndices, List.dropWhile_cons_of_pos (by simpa using inside),
          byteSize_cons, ← Nat.add_assoc, ih]
  simpa using skips 0

/-! ## Searches for a position -/

/-- The position of the first character that passes a test. -/
def positionWhere? (test : Char → Bool) : Text → Option Nat
  | [] => none
  | c :: rest => if test c then some 0 else (positionWhere? test rest).map (c.utf8Size + ·)

/-- The first character that passes stands behind all that fail. -/
theorem positionWhere?_append {test : Char → Bool} (passed : test c = true)
    (failed : ∀ other ∈ front, test other = false) (rest : Text) :
    positionWhere? test (front ++ c :: rest) = some front.byteSize := by
  induction front with
  | nil => simp [positionWhere?, passed]
  | cons other front ih =>
      obtain ⟨here, behind⟩ := List.forall_mem_cons.mp failed
      simp [positionWhere?, here, ih behind]

/-- The characters up to the first that passes a test end at its position. -/
theorem getD_positionWhere? (test : Char → Bool) (text : Text) :
    (positionWhere? test text).getD text.byteSize =
      byteSize (text.takeWhile fun c => !test c) := by
  induction text with
  | nil => rfl
  | cons c rest ih =>
      rw [positionWhere?]
      cases passed : test c with
      | true => simp [passed]
      | false =>
          have size : ((positionWhere? test rest).map (c.utf8Size + ·)).getD
              (byteSize (c :: rest)) =
              c.utf8Size + (positionWhere? test rest).getD (byteSize rest) := by
            cases positionWhere? test rest <;> rfl
          rw [if_neg Bool.false_ne_true, size, ih, List.takeWhile_cons_of_pos (by simp [passed]),
            byteSize_cons]

/-! ## Positions of cuts -/

variable {cut : Cut}

/-- A line can be cut behind what stands at a cut. -/
theorem Cut.textFrom_add (member : cut ∈ line.cuts) (starts : cut.after = front ++ rest) :
    textFrom line (cut.offset + front.byteSize) = .ok rest := by
  have split : line = (cut.before.reverse ++ front) ++ rest := by
    rw [List.append_assoc, ← starts, append_of_mem_cuts member]
  have size : cut.offset + front.byteSize = byteSize (cut.before.reverse ++ front) := by
    rw [byteSize_append, byteSize_reverse, offset]
  rw [size, split, textFrom_append]

/-- A line can be cut at a cut, to what stands behind it. -/
theorem Cut.textFrom_offset (member : cut ∈ line.cuts) :
    textFrom line cut.offset = .ok cut.after :=
  textFrom_add member (List.nil_append cut.after).symm

/-- A line can be cut at a cut, to what stands in front of it. -/
theorem Cut.textUpTo_offset (member : cut ∈ line.cuts) :
    textUpTo line cut.offset = .ok cut.before.reverse := by
  have size : cut.offset = byteSize cut.before.reverse := by rw [byteSize_reverse, offset]
  rw [size, ← append_of_mem_cuts member, textUpTo_append]

/-- The positions at which a pattern occurs, from left to right. -/
def positionsOf (pattern line : Text) : List Nat :=
  line.cuts.filterMap fun cut => (after? pattern cut.after).map fun _ => cut.offset

/-- Steps at the positions of a pattern do not go wrong if they do not at its cuts. -/
theorem mapM_positionsOf {γ : Type} {pattern line : Text} {step : Nat → Checked γ}
    {result : Cut → γ}
    (steps : ∀ cut ∈ line.cuts, ∀ rest, after? pattern cut.after = some rest →
      step cut.offset = .ok (result cut)) :
    (positionsOf pattern line).mapM step =
      .ok (line.cuts.filterMap fun cut => (after? pattern cut.after).map fun _ => result cut) := by
  refine mapM_filterMap_eq_ok fun cut member => ?_
  cases starts : after? pattern cut.after with
  | none => rfl
  | some rest =>
      rw [Option.map_some, Option.mapM_some, steps cut member rest starts]
      rfl

/-- A search through the positions of a pattern does not go wrong if its test does not at
the cuts of the pattern. -/
theorem findM?_positionsOf {γ : Type} {pattern line : Text} {step : Nat → Checked Bool}
    {result : Cut → Option γ}
    (steps : ∀ cut ∈ line.cuts, ∀ rest, after? pattern cut.after = some rest →
      step cut.offset = .ok (result cut).isSome)
    (others : ∀ cut, after? pattern cut.after = none → result cut = none) :
    (positionsOf pattern line).findM? step =
      .ok ((line.cuts.find? fun cut => (result cut).isSome).map Cut.offset) := by
  rw [positionsOf]
  generalize line.cuts = cuts at steps
  induction cuts with
  | nil => rfl
  | cons cut rest ih =>
      obtain ⟨first, behind⟩ := List.forall_mem_cons.mp steps
      rw [List.find?_cons]
      cases starts : after? pattern cut.after with
      | none =>
          rw [List.filterMap_cons_none (by rw [starts]; rfl), others cut starts, ih behind]
          rfl
      | some text =>
          rw [List.filterMap_cons_some (by rw [starts]; rfl), List.findM?, first text starts,
            ok_bind, ih behind]
          cases (result cut).isSome <;> rfl

end Text

end PatchLint

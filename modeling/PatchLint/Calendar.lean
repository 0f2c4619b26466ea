import PatchLint.Literal

/-!
# Points in time

A point in time to the second, with the two ways in which result files write
it: compact in their names, and readable in their text. A second of sixty is a
leap second, which comes after the second before it and before the next minute.
A clock shows a `Moment`, which is finer than that and is cut to the second.
-/

namespace PatchLint

/-- The number of days of a month. -/
def daysOfMonth (year month : Nat) : Nat :=
  if month = 2 then
    if year % 4 = 0 ∧ (year % 100 ≠ 0 ∨ year % 400 = 0) then 29 else 28
  else if month = 4 ∨ month = 6 ∨ month = 9 ∨ month = 11 then 30
  else 31

/-- A point in time. -/
structure Timestamp where
  /-- The year. -/
  year : Nat
  /-- The month, counted from one. -/
  month : Nat
  /-- The day of the month, counted from one. -/
  day : Nat
  /-- The hour of the day. -/
  hour : Nat
  /-- The minute of the hour. -/
  minute : Nat
  /-- The second of the minute; sixty is a leap second. -/
  second : Nat
deriving DecidableEq, Repr

namespace Timestamp

/-- The calendar knows this point in time. -/
def IsValid (stamp : Timestamp) : Prop :=
  stamp.year ≤ 9999 ∧ 1 ≤ stamp.month ∧ stamp.month ≤ 12 ∧ 1 ≤ stamp.day ∧
    stamp.day ≤ daysOfMonth stamp.year stamp.month ∧ stamp.hour ≤ 23 ∧ stamp.minute ≤ 59 ∧
    stamp.second ≤ 60

instance (stamp : Timestamp) : Decidable stamp.IsValid := by
  unfold IsValid
  infer_instance

/-- The parts of a point in time, the greatest first. -/
def parts (stamp : Timestamp) : List Nat :=
  [stamp.year, stamp.month, stamp.day, stamp.hour, stamp.minute, stamp.second]

/-- Points in time are ordered by their parts. -/
def compare (left right : Timestamp) : Ordering :=
  compareOfLessAndEq left.parts right.parts

/-- A number in so many digits, the last ones of it. -/
def digits : Nat → Nat → Text
  | 0, _ => []
  | width + 1, value => digits width (value / 10) ++ [Char.ofNat ('0'.toNat + value % 10)]

/-- The compact form: eight digits of the date, an underscore, and six digits of
the time. -/
def compact (stamp : Timestamp) : Text :=
  digits 4 stamp.year ++ digits 2 stamp.month ++ digits 2 stamp.day ++ ['_'] ++
    digits 2 stamp.hour ++ digits 2 stamp.minute ++ digits 2 stamp.second

/-- The readable form. -/
def readable (stamp : Timestamp) : Text :=
  digits 4 stamp.year ++ ['-'] ++ digits 2 stamp.month ++ ['-'] ++ digits 2 stamp.day ++ [' '] ++
    digits 2 stamp.hour ++ [':'] ++ digits 2 stamp.minute ++ [':'] ++ digits 2 stamp.second

/-- The point in time that a compact form stands for. -/
def ofCompact? (text : Text) : Option Timestamp := do
  let date := text.take 8
  let time := text.drop 9
  if text.length = 15 ∧ text[8]? = some '_' ∧ date.all Char.isDigit ∧ time.all Char.isDigit then
    let stamp : Timestamp := {
      year := ← Literal.readNat? 10 (date.take 4)
      month := ← Literal.readNat? 10 ((date.drop 4).take 2)
      day := ← Literal.readNat? 10 (date.drop 6)
      hour := ← Literal.readNat? 10 (time.take 2)
      minute := ← Literal.readNat? 10 ((time.drop 2).take 2)
      second := ← Literal.readNat? 10 (time.drop 4) }
    if stamp.IsValid then some stamp else none
  else none

/-- A window of five minutes. Leap seconds have windows of their own. -/
structure Window where
  /-- The year. -/
  year : Nat
  /-- The month. -/
  month : Nat
  /-- The day. -/
  day : Nat
  /-- The hour. -/
  hour : Nat
  /-- The number of the window in its hour. -/
  slot : Nat
  /-- The window holds leap seconds. -/
  leap : Bool
deriving DecidableEq, Repr

/-- The number of minutes of a window. -/
def windowMinutes : Nat := 5

/-- The window in which a point in time lies. -/
def window (stamp : Timestamp) : Window :=
  ⟨stamp.year, stamp.month, stamp.day, stamp.hour, stamp.minute / windowMinutes,
    stamp.second = 60⟩

/-- Two points in time lie in one window if they lie in the same five minutes of an hour, and both
of them or none is a leap second. -/
theorem window_eq_iff {left right : Timestamp} : left.window = right.window ↔
    (left.year = right.year ∧ left.month = right.month ∧ left.day = right.day) ∧
      left.hour = right.hour ∧ left.minute / 5 = right.minute / 5 ∧
      (left.second = 60 ↔ right.second = 60) := by
  simp only [window, windowMinutes, Window.mk.injEq, decide_eq_decide, and_assoc]

end Timestamp

/-- What a clock shows. A leap second has no number of its own: in it the
nanoseconds of the second before it run on. -/
structure Moment where
  /-- The year. -/
  year : Nat
  /-- The month, counted from one. -/
  month : Nat
  /-- The day of the month, counted from one. -/
  day : Nat
  /-- The hour of the day. -/
  hour : Nat
  /-- The minute of the hour. -/
  minute : Nat
  /-- The second of the minute. -/
  second : Nat
  /-- The nanoseconds since the second began. -/
  nanosecond : Nat
deriving DecidableEq, Repr

namespace Moment

/-- The number of nanoseconds of a second. -/
def nanoseconds : Nat := 1000000000

/-- The point in time to the second, with a leap second as the sixtieth. -/
def stamp (moment : Moment) : Timestamp :=
  ⟨moment.year, moment.month, moment.day, moment.hour, moment.minute,
    moment.second + moment.nanosecond / nanoseconds⟩

end Moment

end PatchLint

import Mathlib.Algebra.Group.Nat.Defs
import Mathlib.Data.List.Induction
import PatchLint.Proofs.Path.Parts
import PatchLint.Proofs.Text.Bytes
import PatchLint.Retention

/-!
# Names of result files

A name is read as that of a result file exactly when it is the name that would be
written at some point in time of the calendar, and the point in time can be read
back from it. So nothing else is ever taken for a result file, and every result
file is found again, and for no other stem than its own.
-/

namespace PatchLint

namespace Timestamp

/-- The digit of a number below ten is read as that number. -/
theorem digitValue?_digit :
    ∀ value < 10, Literal.digitValue? 10 (Char.ofNat ('0'.toNat + value)) = some value := by
  decide

private theorem isDigit_digit : ∀ value < 10, (Char.ofNat ('0'.toNat + value)).isDigit = true := by
  decide

@[simp] private theorem length_digits (width value : Nat) :
    (digits width value).length = width := by
  induction width generalizing value with
  | zero => rfl
  | succ width ih => simp [digits, ih]

private theorem isDigit_of_mem_digits {width value : Nat} {c : Char}
    (member : c ∈ digits width value) :
    c.isDigit = true := by
  induction width generalizing value with
  | zero => simp [digits] at member
  | succ width ih =>
      rw [digits, List.mem_append, List.mem_singleton] at member
      rcases member with front | rfl
      · exact ih front
      · exact isDigit_digit _ (Nat.mod_lt value (by omega))

/-- The last digits of a number are read as its remainder. -/
theorem readDigits?_digits (width value soFar : Nat) :
    Literal.readDigits? 10 soFar (digits width value) =
      some (soFar * 10 ^ width + value % 10 ^ width) := by
  induction width generalizing value with
  | zero => simp [digits, Literal.readDigits?, Nat.mod_one]
  | succ width ih =>
      have digit := digitValue?_digit (value % 10) (Nat.mod_lt value (by omega))
      rw [digits, Literal.readDigits?_append, ih]
      simp only [Literal.readDigits?, digit, Option.bind_some, Option.bind_eq_bind,
        Option.some.injEq]
      rw [Nat.pow_succ, Nat.mul_comm (10 ^ width) 10, Nat.mod_mul, Nat.mul_left_comm]
      omega

private theorem readNat?_digits {width value : Nat} (wide : 0 < width) (fits : value < 10 ^ width) :
    Literal.readNat? 10 (digits width value) = some value := by
  have notEmpty : (digits width value).isEmpty = false := by
    rw [← Bool.not_eq_true, List.isEmpty_iff_length_eq_zero, length_digits]
    omega
  rw [Literal.readNat?, notEmpty, readDigits?_digits, Nat.mod_eq_of_lt fits]
  simp

/-- Every run of digits spells a number. -/
theorem exists_eq_digits {text : Text} {width : Nat} (length : text.length = width)
    (numeric : ∀ c ∈ text, c.isDigit = true) :
    ∃ value < 10 ^ width, text = digits width value := by
  subst length
  induction text using List.reverseRecOn with
  | nil => exact ⟨0, by simp, rfl⟩
  | append_singleton front c ih =>
      obtain ⟨value, fits, spelled⟩ := ih fun d member => numeric d (by simp [member])
      have digit := Char.isDigit_iff_toNat.mp (numeric c (by simp))
      have zero : '0'.toNat = 48 := rfl
      have nine : '9'.toNat = 57 := rfl
      let last := c.toNat - '0'.toNat
      have spelledLast : Char.ofNat ('0'.toNat + last) = c := by
        rw [Nat.add_sub_cancel' digit.1, Char.ofNat_toNat]
      have quotient : (value * 10 + last) / 10 = value := by omega
      have remainder : (value * 10 + last) % 10 = last := by omega
      refine ⟨value * 10 + last, ?_, ?_⟩
      · rw [List.length_append, List.length_singleton, Nat.pow_succ]
        omega
      · rw [List.length_append, List.length_singleton, digits, quotient, remainder, spelledLast,
          ← spelled]

/-- Every part of the point in time fits its digits. -/
structure Fits (stamp : Timestamp) : Prop where
  year : stamp.year < 10 ^ 4
  month : stamp.month < 10 ^ 2
  day : stamp.day < 10 ^ 2
  hour : stamp.hour < 10 ^ 2
  minute : stamp.minute < 10 ^ 2
  second : stamp.second < 10 ^ 2

private theorem daysOfMonth_le (year month : Nat) : daysOfMonth year month ≤ 31 := by
  rw [daysOfMonth]
  split_ifs <;> omega

private theorem IsValid.fits {stamp : Timestamp} (valid : stamp.IsValid) : stamp.Fits := by
  obtain ⟨year, _, month, _, day, hour, minute, second⟩ := valid
  have days := daysOfMonth_le stamp.year stamp.month
  constructor <;> omega

/-- The eight digits of the date. -/
def dateDigits (stamp : Timestamp) : Text :=
  digits 4 stamp.year ++ (digits 2 stamp.month ++ digits 2 stamp.day)

/-- The six digits of the time of day. -/
def timeDigits (stamp : Timestamp) : Text :=
  digits 2 stamp.hour ++ (digits 2 stamp.minute ++ digits 2 stamp.second)

private theorem compact_eq (stamp : Timestamp) :
    stamp.compact = stamp.dateDigits ++ '_' :: stamp.timeDigits := by
  simp [compact, dateDigits, timeDigits]

@[simp] private theorem length_dateDigits (stamp : Timestamp) : stamp.dateDigits.length = 8 := by
  simp [dateDigits]

@[simp] private theorem length_timeDigits (stamp : Timestamp) : stamp.timeDigits.length = 6 := by
  simp [timeDigits]

/-- Three numbers in a row, with two digits for the second and the third one, are
read one by one. -/
theorem readNat?_three {width first second third : Nat} (wide : 0 < width)
    (fitsFirst : first < 10 ^ width) (fitsSecond : second < 10 ^ 2) (fitsThird : third < 10 ^ 2) :
    let text := digits width first ++ (digits 2 second ++ digits 2 third)
    Literal.readNat? 10 (text.take width) = some first ∧
      Literal.readNat? 10 ((text.drop width).take 2) = some second ∧
      Literal.readNat? 10 (text.drop (width + 2)) = some third := by
  refine ⟨?_, ?_, ?_⟩
  · rw [List.take_left' (length_digits width first), readNat?_digits wide fitsFirst]
  · rw [List.drop_left' (length_digits width first), List.take_left' (length_digits 2 second),
      readNat?_digits (by omega) fitsSecond]
  · rw [← List.append_assoc, List.drop_left' (by simp), readNat?_digits (by omega) fitsThird]

private theorem all_isDigit_dateDigits (stamp : Timestamp) :
    stamp.dateDigits.all Char.isDigit = true := by
  simp only [dateDigits, List.all_append, Bool.and_eq_true, List.all_eq_true]
  exact ⟨fun _ => isDigit_of_mem_digits, fun _ => isDigit_of_mem_digits,
    fun _ => isDigit_of_mem_digits⟩

private theorem all_isDigit_timeDigits (stamp : Timestamp) :
    stamp.timeDigits.all Char.isDigit = true := by
  simp only [timeDigits, List.all_append, Bool.and_eq_true, List.all_eq_true]
  exact ⟨fun _ => isDigit_of_mem_digits, fun _ => isDigit_of_mem_digits,
    fun _ => isDigit_of_mem_digits⟩

/-- What fits its digits is read back, if the calendar knows it. -/
theorem Fits.ofCompact?_compact {stamp : Timestamp} (fits : stamp.Fits) :
    ofCompact? stamp.compact = if stamp.IsValid then some stamp else none := by
  have date : stamp.compact.take 8 = stamp.dateDigits := by
    rw [compact_eq, List.take_left' stamp.length_dateDigits]
  have time : stamp.compact.drop 9 = stamp.timeDigits := by
    rw [compact_eq, ← List.singleton_append, ← List.append_assoc, List.drop_left' (by simp)]
  have shape : stamp.compact.length = 15 ∧ stamp.compact[8]? = some '_' ∧
      stamp.dateDigits.all Char.isDigit = true ∧ stamp.timeDigits.all Char.isDigit = true :=
    ⟨by simp [compact_eq], by simp [compact_eq], stamp.all_isDigit_dateDigits,
      stamp.all_isDigit_timeDigits⟩
  obtain ⟨year, month, day⟩ := readNat?_three (by omega) fits.year fits.month fits.day
  obtain ⟨hour, minute, second⟩ := readNat?_three (by omega) fits.hour fits.minute fits.second
  rw [ofCompact?, date, time, if_pos shape, dateDigits, timeDigits, year, month, day, hour, minute,
    second]
  rfl

/-- Digits can be read as three numbers in a row. -/
theorem exists_eq_three {text : Text} {width : Nat} (length : text.length = width + 4)
    (numeric : ∀ c ∈ text, c.isDigit = true) :
    ∃ first < 10 ^ width, ∃ second < 10 ^ 2, ∃ third < 10 ^ 2,
      text = digits width first ++ (digits 2 second ++ digits 2 third) := by
  have firstLength : (text.take width).length = width := by simp [length]
  have secondLength : ((text.drop width).take 2).length = 2 := by simp [length]
  have thirdLength : ((text.drop width).drop 2).length = 2 := by simp [length]
  obtain ⟨first, fitsFirst, spelledFirst⟩ := exists_eq_digits firstLength fun c member =>
    numeric c (List.mem_of_mem_take member)
  obtain ⟨second, fitsSecond, spelledSecond⟩ := exists_eq_digits secondLength fun c member =>
    numeric c (List.mem_of_mem_drop (List.mem_of_mem_take member))
  obtain ⟨third, fitsThird, spelledThird⟩ := exists_eq_digits thirdLength fun c member =>
    numeric c (List.mem_of_mem_drop (List.mem_of_mem_drop member))
  refine ⟨first, fitsFirst, second, fitsSecond, third, fitsThird, ?_⟩
  rw [← spelledFirst, ← spelledSecond, ← spelledThird, List.take_append_drop,
    List.take_append_drop]

/-- A text of digits around an underscore is the compact form of something. -/
theorem exists_fits_compact_eq {date time : Text} (dateLength : date.length = 8)
    (timeLength : time.length = 6) (dateNumeric : ∀ c ∈ date, c.isDigit = true)
    (timeNumeric : ∀ c ∈ time, c.isDigit = true) :
    ∃ stamp : Timestamp, stamp.Fits ∧ date ++ '_' :: time = stamp.compact := by
  obtain ⟨year, fitsYear, month, fitsMonth, day, fitsDay, rfl⟩ :=
    exists_eq_three dateLength dateNumeric
  obtain ⟨hour, fitsHour, minute, fitsMinute, second, fitsSecond, rfl⟩ :=
    exists_eq_three timeLength timeNumeric
  refine ⟨⟨year, month, day, hour, minute, second⟩,
    ⟨fitsYear, fitsMonth, fitsDay, fitsHour, fitsMinute, fitsSecond⟩, ?_⟩
  rw [compact_eq]
  rfl

/-- What is read from a text is a point in time of which it is the compact form. -/
theorem ofCompact?_eq_some_iff {text : Text} {stamp : Timestamp} :
    ofCompact? text = some stamp ↔ stamp.IsValid ∧ text = stamp.compact := by
  constructor
  · intro read
    have shape : text.length = 15 ∧ text[8]? = some '_' ∧
        (text.take 8).all Char.isDigit = true ∧ (text.drop 9).all Char.isDigit = true := by
      by_contra other
      rw [ofCompact?, if_neg other] at read
      simp at read
    obtain ⟨length, underscore, dateNumeric, timeNumeric⟩ := shape
    have dateLength : (text.take 8).length = 8 := by simp [length]
    have timeLength : (text.drop 9).length = 6 := by simp [length]
    obtain ⟨spelled, fits, same⟩ := exists_fits_compact_eq dateLength timeLength
      (List.all_eq_true.mp dateNumeric) (List.all_eq_true.mp timeNumeric)
    have whole : text.take 8 ++ '_' :: text.drop 9 = text := by
      obtain ⟨bound, there⟩ := List.getElem?_eq_some_iff.mp underscore
      rw [← there, ← List.drop_eq_getElem_cons bound, List.take_append_drop]
    rw [whole] at same
    rw [same, fits.ofCompact?_compact, Option.ite_none_right_eq_some] at read
    obtain ⟨valid, found⟩ := read
    injection found with found
    exact found ▸ ⟨valid, same⟩
  · rintro ⟨valid, rfl⟩
    rw [valid.fits.ofCompact?_compact, if_pos valid]

end Timestamp

namespace Moment

/-- The clock shows a moment of the years that have four digits. Nanoseconds can run on past a
second, but not for more than another one. -/
structure IsValid (moment : Moment) : Prop where
  year : moment.year ≤ 9999
  month : 1 ≤ moment.month ∧ moment.month ≤ 12
  day : 1 ≤ moment.day ∧ moment.day ≤ daysOfMonth moment.year moment.month
  hour : moment.hour ≤ 23
  minute : moment.minute ≤ 59
  second : moment.second ≤ 59
  nanosecond : moment.nanosecond < 2 * nanoseconds

/-- Nanoseconds run on past a second only where calendars put leap seconds: in the last second of a
minute. -/
def LeapsAtEnd (moment : Moment) : Prop :=
  nanoseconds ≤ moment.nanosecond → moment.second = 59

/-- The moment at which the second began, be it a leap second or not. -/
def truncate (moment : Moment) : Moment :=
  { moment with nanosecond := moment.nanosecond / nanoseconds * nanoseconds }

variable {moment other : Moment}

/-- How many whole seconds the nanoseconds are: one if they run on, else none. -/
theorem IsValid.wholeSeconds (valid : moment.IsValid) :
    moment.nanosecond / nanoseconds = if moment.nanosecond < nanoseconds then 0 else 1 := by
  have bound := valid.nanosecond
  split
  all_goals
    simp only [nanoseconds] at *
    omega

/-- Nanoseconds that run on belong to the next second, which is the sixtieth at the end of a
minute. -/
theorem IsValid.stamp_eq (valid : moment.IsValid) :
    moment.stamp = ⟨moment.year, moment.month, moment.day, moment.hour, moment.minute,
      if moment.nanosecond < nanoseconds then moment.second else moment.second + 1⟩ := by
  rw [Moment.stamp, valid.wholeSeconds]
  split <;> rfl

/-- What a clock shows to the second is a point in time of the calendar. -/
theorem IsValid.stamp (valid : moment.IsValid) : moment.stamp.IsValid := by
  have within : moment.stamp.second ≤ 60 := by
    have second := valid.second
    rw [valid.stamp_eq]
    dsimp only
    split <;> omega
  exact ⟨valid.year, valid.month.1, valid.month.2, valid.day.1, valid.day.2, valid.hour,
    valid.minute, within⟩

/-- A leap second, and no other one, is the sixtieth. -/
theorem IsValid.second_stamp_iff (valid : moment.IsValid) (leaps : moment.LeapsAtEnd) :
    moment.stamp.second = 60 ↔ nanoseconds ≤ moment.nanosecond := by
  have second := valid.second
  rw [LeapsAtEnd] at leaps
  rw [valid.stamp_eq]
  dsimp only
  split <;> omega

/-- Cut to the second, moments are the same if they lie in the same second. -/
theorem IsValid.stamp_eq_iff (valid : moment.IsValid) (validOther : other.IsValid)
    (leaps : moment.LeapsAtEnd) (leapsOther : other.LeapsAtEnd) :
    moment.stamp = other.stamp ↔ moment.truncate = other.truncate := by
  have second := valid.second
  have otherSecond := validOther.second
  rw [LeapsAtEnd] at leaps leapsOther
  simp only [Moment.stamp, truncate, valid.wholeSeconds, validOther.wholeSeconds,
    Timestamp.mk.injEq, Moment.mk.injEq]
  refine and_congr_right fun _ => and_congr_right fun _ => and_congr_right fun _ =>
    and_congr_right fun _ => and_congr_right fun _ => ?_
  -- Sixty is the number of leap seconds only, so the number of a second says what it is.
  split <;> split <;> omega

end Moment

namespace Retention

/-- The name of a result file: the stem, an underscore, the digits of a point in
time of the calendar, and the ending. -/
def IsResultName (stem name : Text) : Prop :=
  ∃ stamp : Timestamp, stamp.IsValid ∧ name = Report.fileName stem stamp

/-- The name of a result file ends with the digits of a point in time. -/
theorem fileName_eq (stem : Text) (stamp : Timestamp) :
    Report.fileName stem stamp = (stem ++ ['_']) ++ (stamp.compact ++ ".txt".toList) := by
  simp [Report.fileName]

/-- A point in time is read from a name exactly when the name is the one that is
written at that time. -/
theorem stamp?_eq_some_iff {stem name : Text} {stamp : Timestamp} :
    stamp? stem name = some stamp ↔ stamp.IsValid ∧ name = Report.fileName stem stamp := by
  have behind (front : Text) :
      (front ++ ".txt".toList).take ((front ++ ".txt".toList).length - 4) = front :=
    List.take_left' (by simp)
  simp only [stamp?, Option.bind_eq_bind, Option.bind_eq_some_iff, Text.after?_eq_some_iff,
    Option.ite_none_right_eq_some, List.isSuffixOf_iff_suffix, fileName_eq]
  constructor
  · rintro ⟨_, rfl, ⟨front, rfl⟩, read⟩
    rw [behind, Timestamp.ofCompact?_eq_some_iff] at read
    exact ⟨read.1, by rw [read.2]⟩
  · rintro ⟨valid, rfl⟩
    refine ⟨_, rfl, List.suffix_append _ _, ?_⟩
    rw [behind, Timestamp.ofCompact?_eq_some_iff]
    exact ⟨valid, rfl⟩

/-- Result files of different points in time have different names. -/
theorem stamp_eq_of_fileName_eq {stem : Text} {left right : Timestamp} (valid : left.IsValid)
    (validRight : right.IsValid)
    (same : Report.fileName stem left = Report.fileName stem right) : left = right := by
  have readLeft : stamp? stem (Report.fileName stem left) = some left :=
    stamp?_eq_some_iff.mpr ⟨valid, rfl⟩
  have readRight : stamp? stem (Report.fileName stem left) = some right :=
    stamp?_eq_some_iff.mpr ⟨validRight, same⟩
  exact Option.some.inj (readLeft.symm.trans readRight)

/-- Result files of different stems have different names, whatever the stems end with: what
stands behind the stem has the same length in all names. -/
theorem stem_eq_of_fileName_eq {stem other : Text} {left right : Timestamp}
    (same : Report.fileName stem left = Report.fileName other right) : stem = other := by
  have split : stem ++ '_' :: (left.compact ++ ".txt".toList) =
      other ++ '_' :: (right.compact ++ ".txt".toList) := by
    simpa [Report.fileName] using same
  exact (List.append_inj' split (by simp [Timestamp.compact_eq])).1

/-- The name of a result file is that of an entry, unless the stem holds a slash. -/
theorem IsResultName.isEntryName {stem name : Text} (result : IsResultName stem name)
    (noSlash : '/' ∉ name) : Path.IsEntryName name := by
  obtain ⟨stamp, _, rfl⟩ := result
  have long : 2 < (Report.fileName stem stamp).length := by
    simp only [fileName_eq, Timestamp.compact_eq, List.length_append, List.length_cons,
      Timestamp.length_dateDigits]
    omega
  refine ⟨noSlash, ?_, ?_, ?_⟩
  all_goals
    intro short
    simp [short] at long

/-- The name of a result file holds no slash if its stem holds none. -/
theorem slash_not_mem_fileName {stem : Text} (noSlash : '/' ∉ stem) (stamp : Timestamp) :
    '/' ∉ Report.fileName stem stamp := by
  have date : '/' ∉ stamp.dateDigits := fun member =>
    absurd (List.all_eq_true.mp stamp.all_isDigit_dateDigits _ member) (by decide)
  have time : '/' ∉ stamp.timeDigits := fun member =>
    absurd (List.all_eq_true.mp stamp.all_isDigit_timeDigits _ member) (by decide)
  simp [fileName_eq, Timestamp.compact_eq, noSlash, date, time]

/-- What is read from the name of a result file, for its own stem and for others. -/
theorem stamp?_fileName (stem other : Text) {stamp : Timestamp} (valid : stamp.IsValid) :
    stamp? other (Report.fileName stem stamp) = if other = stem then some stamp else none := by
  by_cases same : other = stem
  · rw [if_pos same, same]
    exact stamp?_eq_some_iff.mpr ⟨valid, rfl⟩
  · rw [if_neg same]
    refine Option.eq_none_iff_forall_ne_some.mpr fun found read => same ?_
    exact (stem_eq_of_fileName_eq (stamp?_eq_some_iff.mp read).2).symm

/-- Result files are found again. The name that is written at a moment is that of an entry of a
directory, if the stem has no slash. Wherever it stands in a listing, it is a candidate for its
own stem, with the moment cut to the second, and for no other stem. Nanoseconds that run on past a
second count as the next one. Where they do so at the end of a minute only, leap seconds are read
back as such, and two moments are given one name exactly if they agree when they are cut to the
second. -/
theorem fileName_found {now : Moment} (valid : now.IsValid) (stem : Text) :
    ('/' ∉ stem → Path.IsEntryName (Report.fileName stem now.stamp)) ∧
    (∀ directory other entry front back, entry.name = Report.fileName stem now.stamp →
      candidates directory other (front ++ entry :: back) =
        candidates directory other front ++
          (if other = stem then [⟨now.stamp, Path.join directory entry.name⟩] else []) ++
          candidates directory other back) ∧
    now.stamp = ⟨now.year, now.month, now.day, now.hour, now.minute,
      if now.nanosecond < Moment.nanoseconds then now.second else now.second + 1⟩ ∧
    (∀ later : Moment, later.IsValid →
      (Report.fileName stem now.stamp = Report.fileName stem later.stamp ↔
        now.stamp = later.stamp)) ∧
    (now.LeapsAtEnd →
      (now.stamp.second = 60 ↔ Moment.nanoseconds ≤ now.nanosecond) ∧
      ∀ later : Moment, later.IsValid → later.LeapsAtEnd →
        (Report.fileName stem now.stamp = Report.fileName stem later.stamp ↔
          now.truncate = later.truncate)) := by
  have sameName (later : Moment) (validLater : later.IsValid) :
      Report.fileName stem now.stamp = Report.fileName stem later.stamp ↔
        now.stamp = later.stamp :=
    ⟨stamp_eq_of_fileName_eq valid.stamp validLater.stamp, fun same => by rw [same]⟩
  refine ⟨fun noSlash => ?_, ?_, valid.stamp_eq, sameName, fun leaps => ?_⟩
  · exact IsResultName.isEntryName ⟨now.stamp, valid.stamp, rfl⟩
      (slash_not_mem_fileName noSlash now.stamp)
  · intro directory other entry front back named
    have read := stamp?_fileName stem other valid.stamp
    rcases eq_or_ne other stem with rfl | different
    · rw [if_pos rfl] at read
      simp [candidates, named, read]
    · rw [if_neg different] at read
      simp [candidates, named, read, different]
  · refine ⟨valid.second_stamp_iff leaps, fun later validLater leapsLater => ?_⟩
    rw [sameName later validLater, valid.stamp_eq_iff validLater leaps leapsLater]

/-- A moment in the leap second at the end of a year. -/
def newYear : Moment :=
  ⟨2016, 12, 31, 23, 59, 59, 1500000000⟩

/-- The result file of a leap second is found again, in spite of a stem that looks like a name with
a point in time itself. For the front of that stem it is no result file. -/
theorem fileName_found_newYear :
    newYear.IsValid ∧ newYear.LeapsAtEnd ∧
      candidates "out".toList "[a]_20161231_235959".toList
          [.file "[a]_20161231_235959_20161231_235960.txt".toList (.text [])] =
        [⟨⟨2016, 12, 31, 23, 59, 60⟩, "out/[a]_20161231_235959_20161231_235960.txt".toList⟩] ∧
      candidates "out".toList "[a]".toList
          [.file "[a]_20161231_235959_20161231_235960.txt".toList (.text [])] = [] ∧
      newYear.stamp.second = 60 := by
  have valid : newYear.IsValid := by
    constructor <;> decide
  have leaps : newYear.LeapsAtEnd := fun _ => rfl
  obtain ⟨_, found, _, _, atEnd⟩ := fileName_found valid "[a]_20161231_235959".toList
  refine ⟨valid, leaps, ?_, ?_, (atEnd leaps).1.mpr (by decide)⟩
  · exact found "out".toList _ _ [] [] (by decide)
  · exact found "out".toList "[a]".toList _ [] [] (by decide)

/-- A moment whose nanoseconds run on in the middle of a minute. -/
def runningOn : Moment :=
  ⟨2024, 3, 5, 3, 5, 7, 1500000000⟩

/-- Nanoseconds that run on in the middle of a minute are not read back as a leap second: the file
is named and read like one of the next second, which is another one when cut to the second. -/
theorem fileName_runningOn :
    let next : Moment := ⟨2024, 3, 5, 3, 5, 8, 0⟩
    runningOn.IsValid ∧ next.IsValid ∧
      ¬ (Report.fileName ['r'] runningOn.stamp = Report.fileName ['r'] next.stamp ↔
        runningOn.truncate = next.truncate) ∧
      ¬ (runningOn.stamp.second = 60 ↔ Moment.nanoseconds ≤ runningOn.nanosecond) ∧
      candidates "out".toList ['r']
          [.file (Report.fileName ['r'] runningOn.stamp) (.text [])] =
        [⟨⟨2024, 3, 5, 3, 5, 8⟩, "out/r_20240305_030508.txt".toList⟩] := by
  refine ⟨?_, ?_, by decide, by decide, by decide⟩
  · constructor <;> decide
  · constructor <;> decide

end Retention

end PatchLint

/-
**Civil time and its ISO 8601 text.**

An instant is a number of microseconds since `0001-01-01T00:00:00Z` in the proleptic Gregorian
calendar.  This module takes it apart into a date and a time of day, and writes these in the
extended ISO 8601 format, with a fraction only when there is one.  It reads what Python's
`datetime.fromisoformat` reads: a date of the calendar or of an ISO week, in the extended or the
basic format, and after any one character a time of day with any number of digits in its fraction
and, possibly, an offset from UTC.

Main definitions:

* `CivilTime.yearDay`, `CivilTime.monthDay` — the year, month and day of a day number;
* `CivilTime.Civil`, `CivilTime.ofInstant`, `CivilTime.Civil.instant?` — broken-down times;
* `CivilTime.isoformat` — **the text of an instant**, without its offset;
* `CivilTime.readDate`, `CivilTime.readClock`, `CivilTime.readTime` — the parts of a text;
* `CivilTime.fromisoformat` — **what a text shows, and its offset**.

Main results:

* `CivilTime.yearDay_spec`, `CivilTime.monthDay_spec` — the calendar is a numbering of the days;
* `CivilTime.instant?_ofInstant` — an instant is recovered from its broken-down time;
* `CivilTime.readDate_append`, `CivilTime.readTime_append` — a date and a time of day are read back;
* `CivilTime.fromisoformat_isoformat` — **and so is an instant**.
-/

import ScheduledJobs.Numerals
import Mathlib.Tactic.IntervalCases

set_option relaxedAutoImplicit false
set_option autoImplicit false

namespace CivilTime

open Numerals

/-! ### The calendar -/

/-- The year has a 29th of February. -/
def isLeap (year : ℕ) : Bool := year % 4 = 0 && (year % 100 ≠ 0 || year % 400 = 0)

/-- The number of days before a year. -/
def daysBeforeYear (year : ℕ) : ℕ :=
  (year - 1) * 365 + (year - 1) / 4 - (year - 1) / 100 + (year - 1) / 400

/-- The year of a day, and the number of days of that year before it.  Days are counted from
`0001-01-01`, in cycles of 400, 100, 4 and 1 years; the last day of a cycle of 400 or of 4 years
belongs to its last part. -/
def yearDay (day : ℕ) : ℕ × ℕ :=
  let n400 := day / 146097
  let d400 := day % 146097
  let n100 := min (d400 / 36524) 3
  let d100 := d400 - n100 * 36524
  let n4 := d100 / 1461
  let d4 := d100 % 1461
  let n1 := min (d4 / 365) 3
  (n400 * 400 + n100 * 100 + n4 * 4 + n1 + 1, d4 - n1 * 365)

/-- **Every day lies in its year.** -/
theorem yearDay_spec (day : ℕ) :
    daysBeforeYear (yearDay day).1 + (yearDay day).2 = day ∧
      (yearDay day).2 < 365 + (isLeap (yearDay day).1).toNat := by
  obtain ⟨n400, d400, hday, h400⟩ : ∃ n d, day = n * 146097 + d ∧ d < 146097 :=
    ⟨day / 146097, day % 146097, by omega, by omega⟩
  obtain ⟨n100, d100, hd400, hn100, h100⟩ :
      ∃ n d, d400 = n * 36524 + d ∧ n = min (d400 / 36524) 3 ∧ d ≤ 36524 :=
    ⟨min (d400 / 36524) 3, d400 - min (d400 / 36524) 3 * 36524, by omega, rfl, by omega⟩
  obtain ⟨n4, d4, hd100, h4⟩ : ∃ n d, d100 = n * 1461 + d ∧ d < 1461 :=
    ⟨d100 / 1461, d100 % 1461, by omega, by omega⟩
  obtain ⟨n1, d1, hd4, hn1, h1⟩ : ∃ n d, d4 = n * 365 + d ∧ n = min (d4 / 365) 3 ∧ d ≤ 365 :=
    ⟨min (d4 / 365) 3, d4 - min (d4 / 365) 3 * 365, by omega, rfl, by omega⟩
  have hyear : yearDay day = (n400 * 400 + n100 * 100 + n4 * 4 + n1 + 1, d1) := by
    have e400 : day / 146097 = n400 := by omega
    have r400 : day % 146097 = d400 := by omega
    have r100 : d400 - n100 * 36524 = d100 := by omega
    have e4 : d100 / 1461 = n4 := by omega
    have r4 : d100 % 1461 = d4 := by omega
    have r1 : d4 - n1 * 365 = d1 := by omega
    simp only [yearDay, e400, r400, ← hn100, r100, e4, r4, ← hn1, r1]
  -- The last part of a cycle is one day longer exactly when the year after it is a leap year.
  have hn100' : n100 ≤ 3 := by omega
  have hn4 : n4 ≤ 24 := by omega
  have hn1' : n1 ≤ 3 := by omega
  rw [hyear]
  constructor
  · have q4 : (n400 * 400 + n100 * 100 + n4 * 4 + n1) / 4 = n400 * 100 + n100 * 25 + n4 := by omega
    have q100 : (n400 * 400 + n100 * 100 + n4 * 4 + n1) / 100 = n400 * 4 + n100 := by omega
    have q400 : (n400 * 400 + n100 * 100 + n4 * 4 + n1) / 400 = n400 := by omega
    simp only [daysBeforeYear, Nat.add_sub_cancel, q4, q100, q400]
    omega
  · rcases Nat.lt_or_ge d1 365 with hlt | hge
    · exact Nat.lt_of_lt_of_le hlt (Nat.le_add_right 365 _)
    · have hlast : n1 = 3 ∧ d1 = 365 := by omega
      have hcentury : n4 = 24 → n100 = 3 := by omega
      have hleap : isLeap (n400 * 400 + n100 * 100 + n4 * 4 + n1 + 1) = true := by
        simp only [isLeap, Bool.and_eq_true, Bool.or_eq_true, decide_eq_true_eq]
        omega
      simp only [hleap, Bool.toNat_true]
      omega

/-- A year that starts in the first 9999 years is one of them. -/
theorem yearDay_le {day : ℕ} (h : day < 3652059) :
    1 ≤ (yearDay day).1 ∧ (yearDay day).1 < 10000 := by
  simp only [yearDay]
  omega

/-- The number of days of a year before a month. -/
def daysBeforeMonth (leap : Bool) (month : ℕ) : ℕ :=
  [0, 31, 59, 90, 120, 151, 181, 212, 243, 273, 304, 334].getD (month - 1) 0 +
    if leap ∧ 2 < month then 1 else 0

/-- The number of days of a month. -/
def daysInMonth (leap : Bool) (month : ℕ) : ℕ :=
  [31, if leap then 29 else 28, 31, 30, 31, 30, 31, 31, 30, 31, 30, 31].getD (month - 1) 0

/-- The month and the day of the month.  `(day + 50) / 32` is the month or the one after it. -/
def monthDay (leap : Bool) (day : ℕ) : ℕ × ℕ :=
  let month := (day + 50) / 32
  let month := if daysBeforeMonth leap month ≤ day then month else month - 1
  (month, day - daysBeforeMonth leap month + 1)

/-- **Every day of a year lies in its month.** -/
theorem monthDay_spec : ∀ (leap : Bool), ∀ day < 365 + leap.toNat,
    daysBeforeMonth leap (monthDay leap day).1 + (monthDay leap day).2 = day + 1 ∧
      1 ≤ (monthDay leap day).1 ∧ (monthDay leap day).1 ≤ 12 ∧
      1 ≤ (monthDay leap day).2 ∧
      (monthDay leap day).2 ≤ daysInMonth leap (monthDay leap day).1 := by
  decide +kernel

theorem daysInMonth_le (leap : Bool) (month : ℕ) (h : 1 ≤ month ∧ month ≤ 12) :
    daysInMonth leap month ≤ 31 := by
  obtain ⟨hlow, hhigh⟩ := h
  cases leap <;> interval_cases month <;> decide

/-! ### Broken-down times -/

/-- A date and a time of day. -/
structure Civil where
  year : ℕ
  month : ℕ
  day : ℕ
  hour : ℕ
  minute : ℕ
  second : ℕ
  microsecond : ℕ
  deriving DecidableEq, Repr

/-- The end of the year 9999. -/
def maxInstant : ℕ := 3652059 * 86400000000

/-- The broken-down time of an instant. -/
def ofInstant (t : ℕ) : Civil :=
  let year := yearDay (t / 86400000000)
  let month := monthDay (isLeap year.1) year.2
  { year := year.1
    month := month.1
    day := month.2
    hour := t / 3600000000 % 24
    minute := t / 60000000 % 60
    second := t / 1000000 % 60
    microsecond := t % 1000000 }

namespace Civil

/-- The fields are in their ranges. -/
def IsValid (c : Civil) : Prop :=
  (1 ≤ c.year ∧ c.year < 10000) ∧ (1 ≤ c.month ∧ c.month ≤ 12) ∧
    (1 ≤ c.day ∧ c.day ≤ daysInMonth (isLeap c.year) c.month) ∧
    c.hour < 24 ∧ c.minute < 60 ∧ c.second < 60 ∧ c.microsecond < 1000000

instance (c : Civil) : Decidable c.IsValid := inferInstanceAs (Decidable (_ ∧ _))

/-- The instant of a broken-down time. -/
def instant (c : Civil) : ℕ :=
  (((daysBeforeYear c.year + daysBeforeMonth (isLeap c.year) c.month + c.day - 1) * 24 + c.hour) *
    60 + c.minute) * 60000000 + c.second * 1000000 + c.microsecond

/-- The instant, when the fields are in their ranges. -/
def instant? (c : Civil) : Option ℕ := if c.IsValid then some c.instant else none

end Civil

theorem isValid_ofInstant {t : ℕ} (h : t < maxInstant) : (ofInstant t).IsValid := by
  have hday : t / 86400000000 < 3652059 := by
    unfold maxInstant at h
    omega
  obtain ⟨_, hlow, hhigh, hfirst, hlast⟩ :=
    monthDay_spec _ _ (yearDay_spec (t / 86400000000)).2
  exact ⟨yearDay_le hday, ⟨hlow, hhigh⟩, ⟨hfirst, hlast⟩, Nat.mod_lt _ (by decide),
    Nat.mod_lt _ (by decide), Nat.mod_lt _ (by decide), Nat.mod_lt _ (by decide)⟩

/-- **An instant is recovered from its broken-down time.** -/
theorem instant_ofInstant (t : ℕ) : (ofInstant t).instant = t := by
  obtain ⟨hyear, hlt⟩ := yearDay_spec (t / 86400000000)
  obtain ⟨hmonth, _⟩ := monthDay_spec _ _ hlt
  simp only [Civil.instant, ofInstant]
  have hdays : daysBeforeYear (yearDay (t / 86400000000)).1 +
      daysBeforeMonth (isLeap (yearDay (t / 86400000000)).1)
        (monthDay (isLeap (yearDay (t / 86400000000)).1) (yearDay (t / 86400000000)).2).1 +
      (monthDay (isLeap (yearDay (t / 86400000000)).1) (yearDay (t / 86400000000)).2).2 - 1 =
        t / 86400000000 := by
    omega
  rw [hdays]
  omega

theorem instant?_ofInstant {t : ℕ} (h : t < maxInstant) : (ofInstant t).instant? = some t := by
  rw [Civil.instant?, if_pos (isValid_ofInstant h), instant_ofInstant]

/-! ### Texts -/

/-- The fraction of a second, when there is one. -/
def fraction (microsecond : ℕ) : List Char :=
  if microsecond = 0 then [] else '.' :: pad 6 microsecond

/-- The text of the date. -/
def Civil.dateText (c : Civil) : List Char :=
  pad 4 c.year ++ '-' :: (pad 2 c.month ++ '-' :: pad 2 c.day)

/-- The text of the time of day. -/
def Civil.clockText (c : Civil) : List Char :=
  pad 2 c.hour ++ ':' :: (pad 2 c.minute ++ ':' :: (pad 2 c.second ++ fraction c.microsecond))

/-- The text of a broken-down time. -/
def Civil.isoformat (c : Civil) : List Char := c.dateText ++ 'T' :: c.clockText

/-- **The text of an instant**, without its offset. -/
def isoformat (t : ℕ) : List Char := (ofInstant t).isoformat

/-! ### Reading a date -/

/-- The day of the first Monday of an ISO year, counted from `0001-01-01`, a Monday: the week with
the year's first Thursday is its first. -/
def firstMonday (year : ℕ) : ℕ :=
  let first := daysBeforeYear year
  if first % 7 ≤ 3 then first - first % 7 else first - first % 7 + 7

/-- An ISO year has a 53rd week when it begins with a Thursday, or with a Wednesday in a leap
year. -/
def hasWeek53 (year : ℕ) : Bool :=
  daysBeforeYear year % 7 = 3 || (daysBeforeYear year % 7 = 2 && isLeap year)

/-- The date of a day of an ISO week. -/
def ofWeekDate (year week weekday : ℕ) : Option (ℕ × ℕ × ℕ) :=
  if 1 ≤ year ∧ 1 ≤ week ∧ (week ≤ 52 ∨ week = 53 ∧ hasWeek53 year) ∧ 1 ≤ weekday ∧ weekday ≤ 7 then
    let c := ofInstant ((firstMonday year + (week - 1) * 7 + (weekday - 1)) * 86400000000)
    some (c.year, c.month, c.day)
  else none

/-- Where the date of a text ends, which depends on its fifth and sixth characters.  Any character
may separate it from the time; a hyphen after a week is taken for the separator when two digits
follow it, and so is a digit when the number of digits up to the next character is odd. -/
def separatorLocation (cs : List Char) : Option ℕ :=
  if cs.length = 7 then some 7
  else if cs[4]? = some '-' then
    if cs[5]? = some 'W' then
      if cs.length < 8 then none
      else if cs[8]? = some '-' then
        if cs.length = 9 then none
        else if cs[10]?.any Char.isDigit then some 8
        else some 10
      else some 8
    else some 10
  else if cs[4]? = some 'W' then
    let digits := 7 + ((cs.drop 7).takeWhile Char.isDigit).length
    if digits < 9 then some digits else if digits % 2 = 0 then some 7 else some 8
  else some 8

/-- A character that must come next, if there are separators. -/
def expectIf (separated : Bool) (c : Char) (cs : List Char) : Option (List Char) :=
  if separated then if cs.head? = some c then some cs.tail else none
  else some cs

/-- The year, the month and the day of a text. -/
def readDate (cs : List Char) : Option (ℕ × ℕ × ℕ) := do
  let (year, rest) ← readPadded 4 0 cs
  let separated := decide (rest.head? = some '-')
  let rest ← expectIf separated '-' rest
  if rest.head? = some 'W' then
    let (week, rest) ← readPadded 2 0 rest.tail
    if rest = [] then ofWeekDate year week 1
    else
      let rest ← expectIf separated '-' rest
      let (weekday, _) ← readPadded 1 0 rest
      ofWeekDate year week weekday
  else
    let (month, rest) ← readPadded 2 0 rest
    let rest ← expectIf separated '-' rest
    let (day, _) ← readPadded 2 0 rest
    return (year, month, day)

/-! ### Reading a time of day -/

/-- A time of day, or the parts of an offset. -/
structure Clock where
  hour : ℕ := 0
  minute : ℕ := 0
  second : ℕ := 0
  microsecond : ℕ := 0
  deriving DecidableEq, Repr

/-- The microseconds of a fraction, of which six digits count, and what is left of the text. -/
def readMicroseconds (cs : List Char) : Option (ℕ × List Char) := do
  let width := min 6 cs.length
  let (digits, rest) ← readPadded width 0 cs
  return (digits * 10 ^ (6 - width), rest.dropWhile Char.isDigit)

/-- The units after the first one, `count` of them at most, and a fraction after any of them, with
what is left of the text.  A character that ends the text is not looked at. -/
def readUnits (separated : Bool) : ℕ → List Char → Option (List ℕ × ℕ × List Char)
  | _, [] => some ([], 0, [])
  | _, [c] => some ([], 0, [c])
  | 0, c :: cs => do
      -- a fraction needs no point here
      let (microsecond, rest) ←
        if separated && c = ':' || c = '.' || c = ',' then readMicroseconds cs
        else if separated then none
        else readMicroseconds (c :: cs)
      return ([], microsecond, rest)
  | count + 1, c :: cs =>
      if separated && c = ':' then do
        let (value, cs) ← readPadded 2 0 cs
        let (values, microsecond, rest) ← readUnits separated count cs
        return (value :: values, microsecond, rest)
      else if c = '.' || c = ',' then do
        let (microsecond, rest) ← readMicroseconds cs
        return ([], microsecond, rest)
      else if separated then none
      else do
        let (value, cs) ← readPadded 2 0 (c :: cs)
        let (values, microsecond, rest) ← readUnits separated count cs
        return (value :: values, microsecond, rest)

/-- `[HH[:?MM[:?SS]]]` with a fraction, and what is left of the text. -/
def readClock (cs : List Char) : Option (Clock × List Char) := do
  let (hour, cs) ← readPadded 2 0 cs
  let (values, microsecond, rest) ← readUnits (decide (cs.head? = some ':')) 2 cs
  return ({ hour := hour
            minute := values.getD 0 0
            second := values.getD 1 0
            microsecond := microsecond }, rest)

/-- The offset of a sign and a clock, in microseconds: none but the whole seconds decide whether it
is that of UTC, and it has to be less than a day. -/
def offsetOf (negative : Bool) (clock : Clock) : Option ℤ :=
  let whole := clock.hour * 3600 + clock.minute * 60 + clock.second
  let length := if whole = 0 then 0 else whole * 1000000 + clock.microsecond
  if length < 86400000000 then some (if negative then -(length : ℤ) else length) else none

/-- The character begins an offset. -/
def isZone (c : Char) : Bool := c = '+' || c = '-' || c = 'Z'

/-- A time of day, and its offset if it has one.  What is left before an offset is not looked at. -/
def readTime (cs : List Char) : Option (Clock × Option ℤ) := do
  let (clock, rest) ← readClock (cs.takeWhile fun c => ¬ isZone c)
  match cs.dropWhile fun c => ¬ isZone c with
  | [] => if rest = [] then return (clock, none) else none
  | 'Z' :: zone => if zone = [] then return (clock, some 0) else none
  | sign :: zone => do
      let (offset, rest) ← readClock zone
      if rest = [] then
        let offset ← offsetOf (decide (sign = '-')) offset
        return (clock, some offset)
      else none

/-- **What a text shows, and its offset** if it has one. -/
def fromisoformat (cs : List Char) : Option (ℕ × Option ℤ) := do
  let location ← separatorLocation cs
  let (year, month, day) ← readDate (cs.take location)
  let (clock, offset) ← match cs.drop location with
    | [] => some ({}, none)
    | _ :: time => readTime time
  let wall ← Civil.instant?
    ⟨year, month, day, clock.hour, clock.minute, clock.second, clock.microsecond⟩
  return (wall, offset)

/-! ### Reading what was written -/

/-- A numeral does not begin with a character that is no digit. -/
theorem head?_pad_ne {w n : ℕ} {c : Char} (hc : c.isDigit = false) (cs : List Char) :
    (pad (w + 1) n ++ cs).head? ≠ some c := by
  rw [pad, List.cons_append, List.head?_cons]
  intro h
  have hdigit : (Nat.digitChar (n / 10 ^ w % 10)).isDigit = true :=
    (digitChar_isDigit _ (Nat.mod_lt _ (by decide))).1
  rw [Option.some_inj.1 h, hc] at hdigit
  cases hdigit

theorem length_dateText (c : Civil) : c.dateText.length = 10 := by
  simp [Civil.dateText, length_pad]

/-- The date of a text that was written ends after ten characters. -/
theorem separatorLocation_append (c : Civil) (d : Char) (cs : List Char) :
    separatorLocation (c.dateText ++ d :: cs) = some 10 := by
  have hlength : (c.dateText ++ d :: cs).length ≠ 7 := by
    rw [List.length_append, length_dateText]
    omega
  have hhyphen : (c.dateText ++ d :: cs)[4]? = some '-' := rfl
  have hmonth : (c.dateText ++ d :: cs)[5]? ≠ some 'W' :=
    head?_pad_ne (w := 1) (n := c.month) (by decide) ('-' :: (pad 2 c.day ++ d :: cs))
  rw [separatorLocation, if_neg hlength, if_pos hhyphen, if_neg hmonth]

/-- **A date is read back from its text.** -/
theorem readDate_dateText {c : Civil} (h : c.IsValid) :
    readDate c.dateText = some (c.year, c.month, c.day) := by
  obtain ⟨⟨-, hyear⟩, hmonth, hday, -⟩ := h
  have hdays := daysInMonth_le (isLeap c.year) c.month hmonth
  have hyear : c.year < 10 ^ 4 := hyear
  have hmonth : c.month < 10 ^ 2 := by omega
  have hday : c.day < 10 ^ 2 := by omega
  have hweek := head?_pad_ne (w := 1) (n := c.month) (c := 'W') (by decide) ('-' :: pad 2 c.day)
  refine Option.bind_eq_some_iff.2 ⟨_, readPadded_append hyear _, ?_⟩
  refine Option.bind_eq_some_iff.2 ⟨_, if_pos rfl, ?_⟩
  rw [List.tail_cons]
  refine (if_neg hweek).trans ?_
  refine Option.bind_eq_some_iff.2 ⟨_, readPadded_append hmonth _, ?_⟩
  refine Option.bind_eq_some_iff.2 ⟨_, if_pos rfl, ?_⟩
  have hlast := readPadded_append hday []
  rw [List.append_nil] at hlast
  exact Option.bind_eq_some_iff.2 ⟨_, hlast, rfl⟩

theorem readMicroseconds_pad {microsecond : ℕ} (h : microsecond < 1000000) :
    readMicroseconds (pad 6 microsecond) = some (microsecond, []) := by
  have hread := readPadded_append (w := 6) h []
  rw [List.append_nil] at hread
  simp [readMicroseconds, length_pad, hread]

/-- A fraction of a second ends the units. -/
theorem readUnits_fraction {microsecond : ℕ} (h : microsecond < 1000000) :
    readUnits true 0 (fraction microsecond) = some ([], microsecond, []) := by
  unfold fraction
  split
  · next hzero =>
      rw [hzero]
      rfl
  · have hread := readMicroseconds_pad h
    obtain ⟨d, ds, hdigits⟩ : ∃ d ds, pad 6 microsecond = d :: ds := ⟨_, _, rfl⟩
    rw [hdigits] at hread ⊢
    simp [readUnits, hread]

/-- One more unit comes before the others. -/
theorem readUnits_cons {n count microsecond : ℕ} {values : List ℕ} {cs : List Char}
    (hn : n < 10 ^ 2) (h : readUnits true count cs = some (values, microsecond, [])) :
    readUnits true (count + 1) (':' :: (pad 2 n ++ cs)) = some (n :: values, microsecond, []) := by
  have hread := readPadded_append hn cs
  obtain ⟨d, e, hdigits⟩ : ∃ d e, pad 2 n = [d, e] := ⟨_, _, rfl⟩
  rw [hdigits] at hread ⊢
  simp only [List.cons_append, List.nil_append] at hread ⊢
  simp [readUnits, hread, h]

/-- **A time of day is read back from its text.** -/
theorem readClock_clockText {c : Civil} (h : c.IsValid) :
    readClock c.clockText = some (⟨c.hour, c.minute, c.second, c.microsecond⟩, []) := by
  obtain ⟨-, -, -, hhour, hminute, hsecond, hmicro⟩ := h
  have hhour : c.hour < 10 ^ 2 := by omega
  have hminute : c.minute < 10 ^ 2 := by omega
  have hsecond : c.second < 10 ^ 2 := by omega
  have hunits := readUnits_cons hminute (readUnits_cons hsecond (readUnits_fraction hmicro))
  refine Option.bind_eq_some_iff.2 ⟨_, readPadded_append hhour _, ?_⟩
  exact Option.bind_eq_some_iff.2 ⟨_, hunits, rfl⟩

/-- The characters of a fraction. -/
theorem mem_fraction {n : ℕ} {c : Char} (h : c ∈ fraction n) : c.isDigit = true ∨ c = '.' := by
  unfold fraction at h
  split at h
  · cases h
  · rcases List.mem_cons.1 h with rfl | h
    · exact Or.inr rfl
    · exact Or.inl (pad_isDigit h)

/-- The characters of a time of day. -/
theorem mem_clockText {c : Civil} {d : Char} (h : d ∈ c.clockText) :
    d.isDigit = true ∨ d = ':' ∨ d = '.' := by
  simp only [Civil.clockText, List.mem_append, List.mem_cons] at h
  rcases h with h | rfl | h | rfl | h | h
  · exact Or.inl (pad_isDigit h)
  · exact Or.inr (Or.inl rfl)
  · exact Or.inl (pad_isDigit h)
  · exact Or.inr (Or.inl rfl)
  · exact Or.inl (pad_isDigit h)
  · exact (mem_fraction h).imp id Or.inr

theorem isZone_of_mem_clockText {c : Civil} {d : Char} (h : d ∈ c.clockText) :
    isZone d = false := by
  rcases mem_clockText h with hdigit | rfl | rfl
  · rw [isZone, Bool.or_eq_false_iff, Bool.or_eq_false_iff]
    refine ⟨⟨decide_eq_false ?_, decide_eq_false ?_⟩, decide_eq_false ?_⟩ <;>
      · rintro rfl
        cases hdigit
  · rfl
  · rfl

/-- The offset of UTC. -/
def utcOffset : List Char := ['+', '0', '0', ':', '0', '0']

/-- **And so is its offset**, when it is that of UTC. -/
theorem readTime_append {c : Civil} (h : c.IsValid) :
    readTime (c.clockText ++ utcOffset) =
      some (⟨c.hour, c.minute, c.second, c.microsecond⟩, some 0) := by
  have hall : ∀ d ∈ c.clockText, decide (¬ isZone d = true) = true := fun d hd => by
    rw [isZone_of_mem_clockText hd]
    rfl
  have hzone : utcOffset.takeWhile (fun d => ¬ isZone d) = [] ∧
      utcOffset.dropWhile (fun d => ¬ isZone d) = utcOffset := by decide
  have hoffset : readClock ['0', '0', ':', '0', '0'] = some ({}, []) := by decide
  unfold readTime
  rw [List.takeWhile_append_of_pos hall, List.dropWhile_append_of_pos hall, hzone.1, hzone.2,
    List.append_nil, readClock_clockText h]
  simp [utcOffset, hoffset, offsetOf]

/-- The characters of the text of an instant. -/
theorem notMem_isoformat (t : ℕ) {c : Char}
    (h : c.isDigit = false ∧ c ∉ ['-', 'T', ':', '.']) : c ∉ isoformat t := by
  obtain ⟨hdigit, hother⟩ := h
  have hpad : ∀ w n, c ∉ pad w n := fun w n hc => by
    rw [pad_isDigit hc] at hdigit
    cases hdigit
  simp only [List.mem_cons, List.not_mem_nil, or_false, not_or] at hother
  have hclock : c ∉ (ofInstant t).clockText := fun hc => by
    rcases mem_clockText hc with hc | rfl | rfl
    · rw [hdigit] at hc
      cases hc
    · exact hother.2.2.1 rfl
    · exact hother.2.2.2 rfl
  simp [isoformat, Civil.isoformat, Civil.dateText, hpad, hclock, hother]

/-- **An instant is read back from its text**, with the offset of UTC. -/
theorem fromisoformat_isoformat {t : ℕ} (h : t < maxInstant) :
    fromisoformat (isoformat t ++ utcOffset) = some (t, some 0) := by
  have hvalid := isValid_ofInstant h
  have hlength := length_dateText (ofInstant t)
  unfold isoformat Civil.isoformat
  rw [List.append_assoc, List.cons_append]
  refine Option.bind_eq_some_iff.2 ⟨_, separatorLocation_append _ _ _, ?_⟩
  rw [List.take_left' hlength, List.drop_left' hlength]
  refine Option.bind_eq_some_iff.2 ⟨_, readDate_dateText hvalid, ?_⟩
  refine Option.bind_eq_some_iff.2 ⟨_, readTime_append hvalid, ?_⟩
  exact Option.bind_eq_some_iff.2 ⟨_, instant?_ofInstant h, rfl⟩

/-- Thursday of the first week of 2026, with a comma before the fraction and a basic time. -/
example : fromisoformat "2026-W01-4 123045,25-0530".toList =
    some (63902867445250000, some (-19800000000)) := by decide +kernel

end CivilTime

import Mathlib.Data.Nat.Find

/- # `Calendar` — days, months and years of an instant

The proleptic Gregorian calendar of a date library whose instants are milliseconds since
1970-01-01T00:00Z, for instants from there on: a year starts with the day its count of leap
years gives, a day belongs to the last year that starts by it, and the same for months.

**Proved here.**

    a day is told by its year, month and date  (`makeDay_fromDay`)
    an instant is told by its day and the time of the day  (`dayOf_utc`, `hourOf_utc`,
                                                                        `minuteOf_utc`)
-/

namespace Calendar

def msPerMinute : Nat := 60000

def msPerHour : Nat := 3600000

def msPerDay : Nat := 86400000

/-! ## The time of the day -/

/-- Days since the epoch. -/
def dayOf (t : Nat) : Nat := t / msPerDay

def hourOf (t : Nat) : Nat := t / msPerHour % 24

def minuteOf (t : Nat) : Nat := t / msPerMinute % 60

/-- 0 is Sunday; the epoch was a Thursday. -/
def weekDay (day : Nat) : Nat := (day + 4) % 7

/-! ## Years -/

/-- The first day of a year from 1970 on. -/
def dayFromYear (year : Nat) : Nat :=
  365 * (year - 1970) + (year - 1969) / 4 + (year - 1601) / 400 - (year - 1901) / 100

/-- The last year that starts by `day`. -/
def yearFromDay (day : Nat) : Nat :=
  Nat.findGreatest (fun year => dayFromYear year ≤ day) (1970 + day / 365)

def isLeapYear (year : Nat) : Bool := dayFromYear (year + 1) - dayFromYear year = 366

/-- Days since the first of January. -/
def dayWithinYear (day : Nat) : Nat := day - dayFromYear (yearFromDay day)

theorem le_dayFromYear (year : Nat) (h : 1970 ≤ year) : 365 * (year - 1970) ≤ dayFromYear year := by
  rw [dayFromYear]
  omega

theorem dayFromYear_1970 : dayFromYear 1970 = 0 := rfl

theorem dayFromYear_yearFromDay_le (day : Nat) : dayFromYear (yearFromDay day) ≤ day :=
  Nat.findGreatest_spec (P := fun year => dayFromYear year ≤ day) (Nat.le_add_right 1970 _)
    (by rw [dayFromYear_1970]; exact Nat.zero_le day)

theorem le_yearFromDay (day : Nat) : 1970 ≤ yearFromDay day :=
  Nat.le_findGreatest (Nat.le_add_right 1970 _) (by rw [dayFromYear_1970]; exact Nat.zero_le day)

/-! ## Months -/

/-- The first day of a month, January being 0. -/
def monthStart (leap : Bool) (month : Nat) : Nat :=
  [0, 31, 59, 90, 120, 151, 181, 212, 243, 273, 304, 334].getD month 365 +
    if leap && 2 ≤ month then 1 else 0

/-- The month of a day, January being 0. -/
def monthFromDay (day : Nat) : Nat :=
  Nat.findGreatest
    (fun month => monthStart (isLeapYear (yearFromDay day)) month ≤ dayWithinYear day) 11

/-- The day of the month, from 1. -/
def dateFromDay (day : Nat) : Nat :=
  dayWithinYear day - monthStart (isLeapYear (yearFromDay day)) (monthFromDay day) + 1

/-- The day of a date. -/
def makeDay (year month date : Nat) : Nat :=
  dayFromYear year + monthStart (isLeapYear year) month + (date - 1)

theorem monthStart_monthFromDay_le (day : Nat) :
    monthStart (isLeapYear (yearFromDay day)) (monthFromDay day) ≤ dayWithinYear day :=
  Nat.findGreatest_spec
    (P := fun month => monthStart (isLeapYear (yearFromDay day)) month ≤ dayWithinYear day)
    (Nat.zero_le 11) (by simp [monthStart])

theorem makeDay_fromDay (day : Nat) :
    makeDay (yearFromDay day) (monthFromDay day) (dateFromDay day) = day := by
  have hyear := dayFromYear_yearFromDay_le day
  have hmonth := monthStart_monthFromDay_le day
  rw [dayWithinYear] at hmonth
  rw [makeDay, dateFromDay, dayWithinYear, Nat.add_sub_cancel]
  omega

/-! ## Instants -/

/-- The instant of a date and a time, seconds zero. -/
def utc (year month date hour minute : Nat) : Nat :=
  makeDay year month date * msPerDay + hour * msPerHour + minute * msPerMinute

theorem utc_fromDay (day hour minute : Nat) :
    utc (yearFromDay day) (monthFromDay day) (dateFromDay day) hour minute =
      day * msPerDay + hour * msPerHour + minute * msPerMinute := by
  rw [utc, makeDay_fromDay]

variable {day hour minute : Nat}

theorem dayOf_utc (hhour : hour < 24) (hminute : minute < 60) :
    dayOf (day * msPerDay + hour * msPerHour + minute * msPerMinute) = day := by
  rw [dayOf, msPerDay, msPerHour, msPerMinute]
  omega

theorem hourOf_utc (hhour : hour < 24) (hminute : minute < 60) :
    hourOf (day * msPerDay + hour * msPerHour + minute * msPerMinute) = hour := by
  rw [hourOf, msPerDay, msPerHour, msPerMinute]
  omega

theorem minuteOf_utc (hminute : minute < 60) :
    minuteOf (day * msPerDay + hour * msPerHour + minute * msPerMinute) = minute := by
  rw [minuteOf, msPerDay, msPerHour, msPerMinute]
  omega

/-- A whole minute, taken apart. -/
theorem eq_of_minute (t : Nat) (h : t % msPerMinute = 0) :
    t = dayOf t * msPerDay + hourOf t * msPerHour + minuteOf t * msPerMinute := by
  rw [msPerMinute] at h
  rw [dayOf, hourOf, minuteOf, msPerDay, msPerHour, msPerMinute]
  omega

-- 2024-02-29 was a Thursday.
example : yearFromDay 19782 = 2024 ∧ monthFromDay 19782 = 1 ∧ dateFromDay 19782 = 29 ∧
    weekDay 19782 = 4 := by decide +kernel

end Calendar

/-! # Civil dates

    The proleptic Gregorian calendar: a year divisible by 4 is a leap year,
    unless it is divisible by 100 and not by 400, and this holds of every
    year, before 1 as well. Days are counted from 1970-01-01.

    * **`yearStart_le`**, **`lt_yearStart_succ`**: the year found for a day
      is the one whose days it lies among.
-/

namespace TypedQuery.Calendar

/-! ## Years -/

/-- Whether a year has a 29th of February. -/
def isLeap (year : Int) : Bool := year % 4 == 0 && (year % 100 != 0 || year % 400 == 0)

/-- The day number of 1 January: 365 days a year and one more for each leap
    year between. -/
def yearStart (year : Int) : Int :=
  365 * (year - 1970) + ((year - 1) / 4 - (year - 1) / 100 + (year - 1) / 400 - 477)

/-- The year of a day: by the mean length of a year, 146097 days in 400
    years, and at most one year off that. -/
def yearOf (day : Int) : Int :=
  let year := 1970 + 400 * day / 146097
  if day < yearStart year then year - 1
  else if yearStart (year + 1) ≤ day then year + 1
  else year

theorem yearStart_le (day : Int) : yearStart (yearOf day) ≤ day := by
  simp only [yearOf]
  split
  · simp only [yearStart] at *; omega
  · split
    · assumption
    · omega

theorem lt_yearStart_succ (day : Int) : day < yearStart (yearOf day + 1) := by
  simp only [yearOf]
  split
  · rw [Int.sub_add_cancel]; assumption
  · split
    · simp only [yearStart] at *; omega
    · omega

/-! ## Months -/

/-- The lengths of the months, January first. -/
def monthLengths (leap : Bool) : List Nat :=
  [31, if leap then 29 else 28, 31, 30, 31, 30, 31, 31, 30, 31, 30, 31]

/-- The month and the day in it, both from 1, of the `n`-th day of a stretch
    of months with the given lengths. -/
def monthDay : List Nat → Nat → Nat × Nat
  | [], n => (1, n + 1)
  | length :: rest, n =>
    if n < length then (1, n + 1)
    else
      let (month, day) := monthDay rest (n - length)
      (month + 1, day)

/-! ## Dates -/

/-- A day of the calendar, with months and days counted from 1. -/
structure Date where
  year : Int
  month : Nat
  day : Nat
  deriving DecidableEq, Repr

/-- The date of a day number. -/
def Date.ofDay (n : Int) : Date :=
  let year := yearOf n
  let (month, day) := monthDay (monthLengths (isLeap year)) (n - yearStart year).toNat
  ⟨year, month, day⟩

/-- The day number of a date. -/
def Date.toDay (d : Date) : Int :=
  let before : Nat := ((monthLengths (isLeap d.year)).take (d.month - 1)).foldl (· + ·) 0
  yearStart d.year + before + (d.day - 1)

end TypedQuery.Calendar

import Mathlib.Algebra.GroupWithZero.Nat
import TypedQuery.Calendar.Date

/-! # Counting days

    The number of a date by definition: the days of the whole years since
    1970, or, for a year before, of those that are missing; then the days of
    the whole months since January; then the days before it in its month.
    The date of a day is found by closed formulas and a search through the
    months, and is the one with that number.

    * **`daysBeforeYear_eq_yearStart`**: the closed formula for the start of
      a year counts the days of the years.
    * **`isValid_ofDay`**: the date of a day is one that the calendar has.
    * **`count_ofDay`**: its number is the day again.
-/

namespace TypedQuery.Calendar

/-! ## Section 1: Lengths of years and months -/

/-- Every fourth year is a leap year, but of those that end a century only
    every fourth. -/
def IsLeapYear (year : Int) : Prop := 4 ∣ year ∧ (100 ∣ year → 400 ∣ year)

instance (year : Int) : Decidable (IsLeapYear year) :=
  inferInstanceAs (Decidable (4 ∣ year ∧ (100 ∣ year → 400 ∣ year)))

/-- The number of days of a year. -/
def yearLength (year : Int) : Nat := if IsLeapYear year then 366 else 365

/-- The number of days of a month. -/
def monthLength (year : Int) (month : Nat) : Nat :=
  if month = 2 then if IsLeapYear year then 29 else 28
  else if month ∈ [4, 6, 9, 11] then 30
  else 31

theorem monthLength_le (year : Int) (month : Nat) : monthLength year month ≤ 31 := by
  unfold monthLength
  split
  · split <;> decide
  · split <;> decide

theorem isLeap_eq (year : Int) : isLeap year = decide (IsLeapYear year) := by
  rw [Bool.eq_iff_iff, decide_eq_true_iff]
  simp only [isLeap, IsLeapYear, Bool.and_eq_true, Bool.or_eq_true, beq_iff_eq, bne_iff_ne]
  omega

/-- The list of lengths has those of all twelve months in order. -/
theorem monthLengths_eq (year : Int) :
    monthLengths (isLeap year) = (List.range' 1 12).map (monthLength year) := by
  rw [isLeap_eq]
  by_cases leap : IsLeapYear year <;> simp [monthLengths, monthLength, leap, List.range']

theorem sum_monthLengths (year : Int) : (monthLengths (isLeap year)).sum = yearLength year := by
  rw [isLeap_eq]
  by_cases leap : IsLeapYear year <;> simp [monthLengths, yearLength, leap]

/-! ## Section 2: The definition of the count -/

/-- The days of `n` years from a year on. -/
def daysOfYears (year : Int) : Nat → Nat
  | 0 => 0
  | n + 1 => daysOfYears year n + yearLength (year + n)

/-- The days from the start of 1970 to the start of a year, negative for a
    year before. -/
def daysBeforeYear (year : Int) : Int :=
  if 1970 ≤ year then daysOfYears 1970 (year - 1970).toNat
  else -daysOfYears year (1970 - year).toNat

/-- The days of the first `n` months of a year. -/
def daysOfMonths (year : Int) : Nat → Nat
  | 0 => 0
  | n + 1 => daysOfMonths year n + monthLength year (n + 1)

namespace Date

/-- The days from 1970-01-01 to a date. -/
def count (d : Date) : Int :=
  daysBeforeYear d.year + daysOfMonths d.year (d.month - 1) + (d.day - 1)

/-- The date is one that the calendar has. -/
structure IsValid (d : Date) : Prop where
  month : 1 ≤ d.month ∧ d.month ≤ 12
  day : 1 ≤ d.day ∧ d.day ≤ monthLength d.year d.month

end Date

/-! ## Section 3: Years -/

theorem yearStart_add_one (year : Int) : yearStart (year + 1) = yearStart year + yearLength year := by
  unfold yearStart yearLength
  by_cases leap : IsLeapYear year
  · rw [if_pos leap]
    obtain ⟨four, centuries⟩ := leap
    omega
  · rw [if_neg leap]
    unfold IsLeapYear at leap
    omega

theorem daysOfYears_eq (year : Int) (n : Nat) :
    daysOfYears year n = yearStart (year + n) - yearStart year := by
  induction n with
  | zero => simp [daysOfYears]
  | succ n ih =>
    have next := yearStart_add_one (year + n)
    rw [daysOfYears]
    push_cast
    rw [ih, ← Int.add_assoc, next]
    omega

theorem daysBeforeYear_eq_yearStart (year : Int) : daysBeforeYear year = yearStart year := by
  have epoch : yearStart 1970 = 0 := rfl
  unfold daysBeforeYear
  by_cases after : 1970 ≤ year
  · have span : 1970 + ((year - 1970).toNat : Int) = year := by omega
    rw [if_pos after, daysOfYears_eq, span, epoch, Int.sub_zero]
  · have span : year + ((1970 - year).toNat : Int) = 1970 := by omega
    rw [if_neg after, daysOfYears_eq, span, epoch]
    omega

/-! ## Section 4: Months -/

/-- A day of a stretch of months lies in one of them, after those before it. -/
theorem monthDay_spec {lengths : List Nat} {n : Nat} (h : n < lengths.sum) :
    ∃ i length day, monthDay lengths n = (i + 1, day) ∧ lengths[i]? = some length ∧
      1 ≤ day ∧ day ≤ length ∧ (lengths.take i).sum + day = n + 1 := by
  induction lengths generalizing n with
  | nil => simp at h
  | cons length rest ih =>
    rw [List.sum_cons] at h
    by_cases first : n < length
    · refine ⟨0, length, n + 1, ?_, rfl, by omega, by omega, by simp⟩
      rw [monthDay, if_pos first]
    · -- one month later than among the rest
      obtain ⟨i, length', day, found, member, least, most, total⟩ :=
        ih (by omega : n - length < rest.sum)
      refine ⟨i + 1, length', day, ?_, member, least, most, ?_⟩
      · rw [monthDay, if_neg first, found]
      · rw [List.take_succ_cons, List.sum_cons]
        omega

theorem daysOfMonths_eq_sum (year : Int) (n : Nat) :
    daysOfMonths year n = ((List.range' 1 n).map (monthLength year)).sum := by
  induction n with
  | zero => rfl
  | succ n ih =>
    rw [daysOfMonths, ih, List.range'_1_concat, List.map_append, List.sum_append, Nat.add_comm 1 n]
    simp

theorem daysOfMonths_eq_take {n : Nat} (year : Int) (h : n ≤ 12) :
    daysOfMonths year n = ((monthLengths (isLeap year)).take n).sum := by
  rw [daysOfMonths_eq_sum, monthLengths_eq, ← List.map_take, List.take_range'_of_length_ge h]

/-! ## Section 5: Dates -/

namespace Date

theorem toDay_eq_count {d : Date} (h : d.IsValid) : d.toDay = d.count := by
  have last := h.month.2
  have months : d.month - 1 ≤ 12 := by omega
  rw [toDay, count, daysBeforeYear_eq_yearStart, daysOfMonths_eq_take _ months, List.sum_eq_foldl]

/-- The months of the year are searched with the days since its start. -/
theorem exists_ofDay_eq (n : Int) :
    ∃ i length day, ofDay n = ⟨yearOf n, i + 1, day⟩ ∧
      (monthLengths (isLeap (yearOf n)))[i]? = some length ∧ 1 ≤ day ∧ day ≤ length ∧
      yearStart (yearOf n) + ((monthLengths (isLeap (yearOf n))).take i).sum + (day - 1) = n := by
  have start := yearStart_le n
  have next := lt_yearStart_succ n
  rw [yearStart_add_one, ← sum_monthLengths] at next
  have within : (n - yearStart (yearOf n)).toNat < (monthLengths (isLeap (yearOf n))).sum := by
    omega
  obtain ⟨i, length, day, found, member, least, most, total⟩ := monthDay_spec within
  refine ⟨i, length, day, ?_, member, least, most, by omega⟩
  simp only [ofDay, found]

theorem isValid_ofDay (n : Int) : (ofDay n).IsValid := by
  obtain ⟨i, length, day, date, member, least, most, -⟩ := exists_ofDay_eq n
  rw [monthLengths_eq, List.getElem?_map, Option.map_eq_some_iff] at member
  obtain ⟨month, listed, rfl⟩ := member
  obtain ⟨place, rfl⟩ := List.getElem?_eq_some_iff.mp listed
  have twelve : i < 12 := by rwa [List.length_range'] at place
  rw [List.getElem_range', Nat.one_mul, Nat.add_comm] at most
  rw [date]
  exact ⟨⟨Nat.succ_pos i, twelve⟩, least, most⟩

theorem toDay_ofDay (n : Int) : (ofDay n).toDay = n := by
  obtain ⟨i, length, day, date, -, -, -, total⟩ := exists_ofDay_eq n
  rw [date, toDay, Nat.add_sub_cancel, ← List.sum_eq_foldl]
  exact total

/-- **The calendar counts days**: the date of a day is as many days after
    1970-01-01 as the day is. -/
theorem count_ofDay (n : Int) : (ofDay n).count = n := by
  rw [← toDay_eq_count (isValid_ofDay n), toDay_ofDay]

end Date

end TypedQuery.Calendar

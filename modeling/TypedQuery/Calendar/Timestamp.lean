import TypedQuery.Calendar.Date
import TypedQuery.Number.Decimal

/-! # Timestamps

    An instant of Coordinated Universal Time: seconds since the start of
    1970 and nanoseconds. A leap second is told from the second before it
    by nanoseconds from a billion upward. They may stand after any second,
    though leap seconds come after the last of a minute.

    Its text is the civil date and time with six digits of the second's
    fraction, the rest cut off. A year from 0 to 9999 has four digits;
    another year has a sign and at least four.

    * **`second_le`**: the second of the minute is at most 60.
-/

namespace TypedQuery.Calendar

open Number (fixed)

/-- An instant, with `nanos` below a billion in an ordinary second and from
    a billion to two billions in the second after it. -/
structure Timestamp where
  seconds : Int
  nanos : Nat
  nanos_lt : nanos < 2_000_000_000
  deriving DecidableEq, Repr

namespace Timestamp

/-! ## Civil time -/

/-- The day of an instant. -/
def date (t : Timestamp) : Date := .ofDay (t.seconds / 86400)

/-- The seconds since the start of the day, leap seconds apart. -/
def secondOfDay (t : Timestamp) : Nat := (t.seconds % 86400).toNat

/-- The hour of the day. -/
def hour (t : Timestamp) : Nat := t.secondOfDay / 3600

/-- The minute of the hour. -/
def minute (t : Timestamp) : Nat := t.secondOfDay / 60 % 60

/-- The second of the minute, one more from a billion nanoseconds on: 60 in a
    leap second. -/
def second (t : Timestamp) : Nat := t.secondOfDay % 60 + t.nanos / 1_000_000_000

/-- The whole microseconds of the second. -/
def micros (t : Timestamp) : Nat := t.nanos % 1_000_000_000 / 1000

theorem second_le (t : Timestamp) : t.second ≤ 60 := by
  have := t.nanos_lt
  unfold second secondOfDay
  omega

/-! ## Text -/

/-- The text of a year. -/
def yearText (year : Int) : List Char :=
  if 0 ≤ year ∧ year ≤ 9999 then fixed 4 year.toNat
  else (if year < 0 then '-' else '+') :: fixed 4 year.natAbs

/-- The text of a date, as in `2024-02-29`. -/
def dateText (d : Date) : List Char :=
  yearText d.year ++ '-' :: fixed 2 d.month ++ '-' :: fixed 2 d.day

/-- The text of the time of day, as in `23:59:60.000001`. -/
def timeText (t : Timestamp) : List Char :=
  fixed 2 t.hour ++ ':' :: fixed 2 t.minute ++ ':' :: fixed 2 t.second ++ '.' :: fixed 6 t.micros

/-- The text of an instant: the date and the time, with a blank between. -/
def text (t : Timestamp) : String :=
  String.ofList (dateText t.date ++ ' ' :: t.timeText)

@[simp] theorem toList_text (t : Timestamp) :
    t.text.toList = dateText t.date ++ ' ' :: t.timeText := by
  simp [text]

end Timestamp

end TypedQuery.Calendar

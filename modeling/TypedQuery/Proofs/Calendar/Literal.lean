import TypedQuery.Data.Value
import TypedQuery.Proofs.Calendar.Count
import TypedQuery.Proofs.Number.Numeral
import TypedQuery.Proofs.Text.Literal

/-! # Literals of timestamps

    A timestamp is written as a civil date and time. A reader that knows
    the calendar only by its rules, and counts days, gets back the instant
    to the microsecond, before 1970 as well as after, and a leap second as
    the second that it is. A billion nanoseconds and more after any other
    second than the last of a minute are written as the next second.

    * **`read?_text`**: the text is read as the civil time of the instant.
    * **`isValid_civil`**, **`seconds_civil_of_regular`**: that is a date and
      time of the calendar, and as many seconds after the start of 1970.
    * **`civil_carried`**: nanoseconds that make a whole second may be carried
      over to the seconds, unless it is a leap second.
    * **`Value.timestamp_literal_denotes`**: so a literal denotes its
      instant, and two instants share a literal only within a microsecond.
-/

namespace TypedQuery

open Number

namespace Calendar

/-! ## Section 1: Civil times -/

/-- A date and a time of day, to the microsecond. -/
structure CivilTime where
  date : Date
  hour : Nat
  minute : Nat
  second : Nat
  micros : Nat
  deriving DecidableEq, Repr

namespace CivilTime

/-- The date is one that the calendar has, and the time one that a clock
    shows, which in a leap second shows 60. -/
structure IsValid (c : CivilTime) : Prop where
  date : c.date.IsValid
  hour : c.hour < 24
  minute : c.minute < 60
  second : c.second ≤ 60
  micros : c.micros < 1_000_000

/-- The seconds since the start of 1970, where a leap second counts as the
    second before it. -/
def seconds (c : CivilTime) : Int :=
  86400 * c.date.count + 3600 * c.hour + 60 * c.minute + min c.second 59

/-! ## Section 2: Reading -/

/-- Reads a number of `w` digits, and gives what follows. -/
def readPlaces (w : Nat) (cs : List Char) : Option (Nat × List Char) :=
  if (cs.take w).length = w ∧ (cs.take w).all Char.isDigit then
    some (Nat.ofDigitChars 10 (cs.take w) 0, cs.drop w)
  else none

/-- Reads a mark and a number of `w` digits after it. -/
def readField (mark : Char) (w : Nat) : List Char → Option (Nat × List Char)
  | [] => none
  | c :: cs => if c = mark then readPlaces w cs else none

/-- Reads the digits of a year after its sign, four or more. A sign is for
    years that four digits alone cannot tell. -/
def readSigned (sign : Int) (cs : List Char) : Option (Int × List Char) :=
  let digits := cs.takeWhile Char.isDigit
  let year := sign * Nat.ofDigitChars 10 digits 0
  if 4 ≤ digits.length ∧ (year < 0 ∨ 9999 < year) then
    some (year, cs.dropWhile Char.isDigit)
  else none

/-- Reads a year: four digits, or a sign and digits. -/
def readYear : List Char → Option (Int × List Char)
  | '-' :: cs => readSigned (-1) cs
  | '+' :: cs => readSigned 1 cs
  | cs => (readPlaces 4 cs).map fun (year, rest) => (year, rest)

/-- Reads a date and a time of day, and nothing after them. -/
def read? (cs : List Char) : Option CivilTime := do
  let (year, cs) ← readYear cs
  let (month, cs) ← readField '-' 2 cs
  let (day, cs) ← readField '-' 2 cs
  let (hour, cs) ← readField ' ' 2 cs
  let (minute, cs) ← readField ':' 2 cs
  let (second, cs) ← readField ':' 2 cs
  let (micros, cs) ← readField '.' 6 cs
  if cs = [] then some ⟨⟨year, month, day⟩, hour, minute, second, micros⟩ else none

variable {w n : Nat} {rest : List Char}

theorem readPlaces_fixed (places : 0 < w) (h : n < 10 ^ w) :
    readPlaces w (fixed w n ++ rest) = some (n, rest) := by
  have length := length_fixed_of_lt places h
  have digits : (fixed w n).all Char.isDigit = true :=
    List.all_eq_true.mpr fun _ => isDigit_of_mem_fixed
  rw [readPlaces, List.take_left' length, List.drop_left' length, ofDigitChars_fixed_zero]
  exact if_pos ⟨length, digits⟩

theorem readField_fixed (mark : Char) (places : 0 < w) (h : n < 10 ^ w) :
    readField mark w (mark :: (fixed w n ++ rest)) = some (n, rest) := by
  rw [readField, if_pos rfl, readPlaces_fixed places h]

theorem readSigned_fixed {sign : Int} (h : sign * n < 0 ∨ 9999 < sign * n) :
    readSigned sign (fixed 4 n ++ '-' :: rest) = some (sign * n, '-' :: rest) := by
  have digits : ∀ c ∈ fixed 4 n, c.isDigit = true := fun _ => isDigit_of_mem_fixed
  have least : 4 ≤ (fixed 4 n).length := by
    rw [length_fixed]
    exact Nat.le_max_left _ _
  rw [readSigned, List.takeWhile_append_of_pos digits, List.dropWhile_append_of_pos digits,
    List.takeWhile_cons_of_neg (by decide), List.dropWhile_cons_of_neg (by decide),
    List.append_nil, ofDigitChars_fixed_zero]
  exact if_pos ⟨least, h⟩

theorem readYear_of_digit {c : Char} {cs : List Char} (digit : c.isDigit) :
    readYear (c :: cs) = (readPlaces 4 (c :: cs)).map fun (year, rest) => (year, rest) := by
  have unsigned {sign : Char} (mark : sign.isDigit = false) (rest : List Char) :
      c :: cs ≠ sign :: rest := by
    intro signed
    rw [(List.cons.inj signed).1, mark] at digit
    exact Bool.noConfusion digit
  rw [readYear]
  · exact unsigned (by decide)
  · exact unsigned (by decide)

theorem readYear_fixed (h : n < 10 ^ 4) :
    readYear (fixed 4 n ++ rest) = some ((n : Int), rest) := by
  have read : readPlaces 4 (fixed 4 n ++ rest) = some (n, rest) := readPlaces_fixed (by decide) h
  obtain ⟨c, cs, shape⟩ := List.exists_cons_of_ne_nil (isDigits_fixed 4 n).nonempty
  have digit : c.isDigit := isDigit_of_mem_fixed (shape ▸ List.mem_cons_self)
  rw [shape, List.cons_append] at read ⊢
  rw [readYear_of_digit digit, read]
  rfl

/-- A mark must follow, which closes a year that may have any number of
    digits. -/
theorem readYear_yearText (year : Int) :
    readYear (Timestamp.yearText year ++ '-' :: rest) = some (year, '-' :: rest) := by
  unfold Timestamp.yearText
  by_cases plain : 0 ≤ year ∧ year ≤ 9999
  · rw [if_pos plain, readYear_fixed (by omega), Int.toNat_of_nonneg plain.1]
  · rw [if_neg plain]
    by_cases before : year < 0
    · rw [if_pos before, List.cons_append, readYear, readSigned_fixed (by omega)]
      simp only [Option.some.injEq, Prod.mk.injEq, and_true]
      omega
    · rw [if_neg before, List.cons_append, readYear, readSigned_fixed (by omega)]
      simp only [Option.some.injEq, Prod.mk.injEq, and_true]
      omega

end CivilTime

/-! ## Section 3: The civil time of an instant -/

namespace Timestamp

/-- The date and the time of day of an instant. -/
def civil (t : Timestamp) : CivilTime := ⟨t.date, t.hour, t.minute, t.second, t.micros⟩

theorem isValid_civil (t : Timestamp) : t.civil.IsValid where
  date := Date.isValid_ofDay _
  hour := by
    show t.secondOfDay / 3600 < 24
    unfold secondOfDay
    omega
  minute := Nat.mod_lt _ (by decide)
  second := t.second_le
  micros := by
    show t.nanos % 1_000_000_000 / 1000 < 1_000_000
    omega

/-- The text field by field, each between its marks. -/
theorem toList_text_fields (t : Timestamp) :
    t.text.toList = yearText t.date.year ++ '-' :: (fixed 2 t.date.month ++
      '-' :: (fixed 2 t.date.day ++ ' ' :: (fixed 2 t.hour ++ ':' :: (fixed 2 t.minute ++
      ':' :: (fixed 2 t.second ++ '.' :: (fixed 6 t.micros ++ [])))))) := by
  simp [dateText, timeText]

theorem quote_not_mem_fixed (w n : Nat) : '\'' ∉ fixed w n :=
  fun quote => absurd (isDigit_of_mem_fixed quote) (by decide)

theorem quote_not_mem_text (t : Timestamp) : '\'' ∉ t.text.toList := by
  have year : '\'' ∉ yearText t.date.year := by
    unfold yearText
    split
    · exact quote_not_mem_fixed _ _
    · split <;> simp [quote_not_mem_fixed]
  rw [toList_text_fields]
  simp [year, quote_not_mem_fixed]

theorem read?_text (t : Timestamp) : CivilTime.read? t.text.toList = some t.civil := by
  -- the fields of a valid time fit their places
  have valid := t.isValid_civil
  have month : t.date.month < 10 ^ 2 := valid.date.month.2.trans_lt (by decide)
  have day : t.date.day < 10 ^ 2 :=
    (valid.date.day.2.trans (monthLength_le _ _)).trans_lt (by decide)
  have hour : t.hour < 10 ^ 2 := valid.hour.trans (by decide)
  have minute : t.minute < 10 ^ 2 := valid.minute.trans (by decide)
  have second : t.second < 10 ^ 2 := t.second_le.trans_lt (by decide)
  have micros : t.micros < 10 ^ 6 := valid.micros
  have two : 0 < 2 := by decide
  rw [toList_text_fields, CivilTime.read?, CivilTime.readYear_yearText]
  simp only [Option.bind_eq_bind, Option.bind_some, CivilTime.readField_fixed _ two month,
    CivilTime.readField_fixed _ two day, CivilTime.readField_fixed _ two hour,
    CivilTime.readField_fixed _ two minute, CivilTime.readField_fixed _ two second,
    CivilTime.readField_fixed _ (by decide) micros]
  rfl

/-! ## Section 4: Leap seconds -/

/-- Whether a billion nanoseconds stand only where a leap second comes, after
    the last second of a minute. -/
def IsRegular (t : Timestamp) : Prop := 1_000_000_000 ≤ t.nanos → t.seconds % 60 = 59

instance (t : Timestamp) : Decidable t.IsRegular :=
  inferInstanceAs (Decidable (1_000_000_000 ≤ t.nanos → t.seconds % 60 = 59))

/-- The instant with a billion nanoseconds carried over to the seconds, unless
    it is in a leap second. -/
def carried (t : Timestamp) : Timestamp :=
  if t.IsRegular then t
  else ⟨t.seconds + 1, t.nanos - 1_000_000_000, (Nat.sub_le _ _).trans_lt t.nanos_lt⟩

variable {t u : Timestamp}

theorem carried_of_regular (h : t.IsRegular) : t.carried = t := if_pos h

theorem carried_of_not_regular (h : ¬ t.IsRegular) :
    1_000_000_000 ≤ t.nanos ∧ t.seconds % 60 ≠ 59 ∧ t.carried.seconds = t.seconds + 1 ∧
      t.carried.nanos = t.nanos - 1_000_000_000 := by
  have late : 1_000_000_000 ≤ t.nanos ∧ t.seconds % 60 ≠ 59 := Classical.not_imp.mp h
  rw [carried, if_neg h]
  exact ⟨late.1, late.2, rfl, rfl⟩

theorem isRegular_carried (t : Timestamp) : t.carried.IsRegular := by
  by_cases regular : t.IsRegular
  · rw [carried_of_regular regular]
    exact regular
  · -- less than a billion nanoseconds are left
    obtain ⟨-, -, -, nanos⟩ := carried_of_not_regular regular
    have := t.nanos_lt
    unfold IsRegular
    omega

theorem carried_eq_self_iff : t.carried = t ↔ t.IsRegular := by
  constructor
  · intro same
    rw [← same]
    exact t.isRegular_carried
  · exact carried_of_regular

/-- Carrying over changes the seconds and the nanoseconds, but not what they
    come to together. -/
theorem nanoseconds_carried (t : Timestamp) :
    t.carried.seconds * 1_000_000_000 + t.carried.nanos = t.seconds * 1_000_000_000 + t.nanos := by
  by_cases regular : t.IsRegular
  · rw [carried_of_regular regular]
  · obtain ⟨late, -, seconds, nanos⟩ := carried_of_not_regular regular
    omega

theorem seconds_carried_iff : t.carried.seconds = t.seconds ↔ t.IsRegular := by
  by_cases regular : t.IsRegular
  · simp [carried_of_regular, regular]
  · obtain ⟨-, -, seconds, -⟩ := carried_of_not_regular regular
    simp [seconds, regular]

/-- A clock shows the same for both: the second after one that is not the last
    of its minute is in that minute. -/
theorem civil_carried (t : Timestamp) : t.carried.civil = t.civil := by
  by_cases regular : t.IsRegular
  · rw [carried_of_regular regular]
  · obtain ⟨late, middle, seconds, nanos⟩ := carried_of_not_regular regular
    have := t.nanos_lt
    have date : t.carried.date = t.date := by
      unfold date
      rw [seconds]
      congr 1
      omega
    have hour : t.carried.hour = t.hour := by
      unfold hour secondOfDay
      omega
    have minute : t.carried.minute = t.minute := by
      unfold minute secondOfDay
      omega
    have second : t.carried.second = t.second := by
      unfold second secondOfDay
      omega
    have micros : t.carried.micros = t.micros := by
      unfold micros
      omega
    rw [civil, civil, date, hour, minute, second, micros]

/-- Days are counted from the start of 1970 on, so an instant before it has a
    negative day and a second of that day which is not. -/
theorem seconds_civil_of_regular (h : t.IsRegular) : t.civil.seconds = t.seconds := by
  have nanos := t.nanos_lt
  have leap : 1_000_000_000 ≤ t.nanos → t.seconds % 60 = 59 := h
  have day : t.civil.date.count = t.seconds / 86400 := Date.count_ofDay _
  rw [CivilTime.seconds, day]
  show 86400 * (t.seconds / 86400) + 3600 * (t.hour : Int) + 60 * (t.minute : Int) +
    min t.second 59 = t.seconds
  unfold hour minute second secondOfDay
  omega

theorem second_eq_sixty_iff_of_regular (h : t.IsRegular) :
    t.second = 60 ↔ 1_000_000_000 ≤ t.nanos := by
  have nanos := t.nanos_lt
  have leap : 1_000_000_000 ≤ t.nanos → t.seconds % 60 = 59 := h
  unfold second secondOfDay
  omega

theorem seconds_civil (t : Timestamp) : t.civil.seconds = t.carried.seconds := by
  rw [← civil_carried]
  exact seconds_civil_of_regular t.isRegular_carried

theorem second_eq_sixty_iff (t : Timestamp) :
    t.civil.second = 60 ↔ 1_000_000_000 ≤ t.carried.nanos := by
  rw [← civil_carried]
  exact second_eq_sixty_iff_of_regular t.isRegular_carried

/-! ## Section 5: Instants with one text -/

theorem text_eq_iff_civil : t.text = u.text ↔ t.civil = u.civil := by
  constructor
  · intro same
    rw [← Option.some_inj, ← read?_text, same, read?_text]
  · intro same
    obtain ⟨date, hour, minute, second, micros⟩ := CivilTime.mk.inj same
    rw [← String.toList_inj, toList_text_fields, toList_text_fields, date, hour, minute, second,
      micros]

theorem civil_congr (seconds : t.seconds = u.seconds) (micros : t.nanos / 1000 = u.nanos / 1000) :
    t.civil = u.civil := by
  have clock : t.second = u.second := by
    unfold second secondOfDay
    omega
  have fraction : t.micros = u.micros := by
    unfold Timestamp.micros
    omega
  unfold civil date hour minute secondOfDay
  rw [seconds, clock, fraction]

theorem text_eq_iff :
    t.text = u.text ↔ t.carried.seconds = u.carried.seconds ∧
      t.carried.nanos / 1000 = u.carried.nanos / 1000 := by
  rw [text_eq_iff_civil]
  constructor
  · intro same
    have seconds : t.carried.seconds = u.carried.seconds := by
      rw [← seconds_civil, same, seconds_civil]
    have micros : t.carried.micros = u.carried.micros := by
      show t.carried.civil.micros = u.carried.civil.micros
      rw [civil_carried, civil_carried, same]
    refine ⟨seconds, ?_⟩
    -- the second tells whether it is a leap second, and so the billion
    have leap := t.second_eq_sixty_iff
    rw [same, u.second_eq_sixty_iff] at leap
    have := t.carried.nanos_lt
    have := u.carried.nanos_lt
    unfold Timestamp.micros at micros
    omega
  · rintro ⟨seconds, micros⟩
    rw [← t.civil_carried, ← u.civil_carried]
    exact civil_congr seconds micros

end Timestamp

end Calendar

/-! ## Section 6: Values -/

namespace Value

open Calendar

theorem toList_literal_timestamp (t : Timestamp) :
    (Value.timestamp t).literal.toList = '\'' :: (t.text.toList ++ ['\'']) := by
  show (Text.enclose '\'' t.text).toList = _
  rw [Text.toList_enclose, Text.doubled_eq_self '\'' t.quote_not_mem_text]

/-- **Literals denote their instants**: between two quotes the literal of a
    timestamp has a valid date and time. It is as many seconds after the
    start of 1970 as the timestamp, once a second of nanoseconds that is no
    leap second has been carried over; it shows the second 60 exactly in a
    leap second, and has the whole microseconds of the second. Timestamps
    share a literal exactly if they agree so to the microsecond. -/
theorem timestamp_literal_denotes :
    (∀ t : Timestamp, ∃ (cs : List Char) (c : CivilTime),
      (Value.timestamp t).literal.toList = '\'' :: (cs ++ ['\'']) ∧
      CivilTime.read? cs = some c ∧ c.IsValid ∧ c.seconds = t.carried.seconds ∧
      (c.seconds = t.seconds ↔ t.IsRegular) ∧
      (c.second = 60 ↔ 1_000_000_000 ≤ t.carried.nanos) ∧
      c.micros = t.nanos % 1_000_000_000 / 1000) ∧
    (∀ t : Timestamp, t.carried.IsRegular ∧ (t.carried = t ↔ t.IsRegular) ∧
      t.carried.seconds * 1_000_000_000 + t.carried.nanos =
        t.seconds * 1_000_000_000 + t.nanos) ∧
    (∀ t u : Timestamp, (Value.timestamp t).literal = (Value.timestamp u).literal ↔
      t.carried.seconds = u.carried.seconds ∧
        t.carried.nanos / 1000 = u.carried.nanos / 1000) := by
  refine ⟨?_, ?_, ?_⟩
  · intro t
    have stored : t.civil.seconds = t.seconds ↔ t.IsRegular := by
      rw [t.seconds_civil]
      exact Timestamp.seconds_carried_iff
    exact ⟨t.text.toList, t.civil, toList_literal_timestamp t, t.read?_text, t.isValid_civil,
      t.seconds_civil, stored, t.second_eq_sixty_iff, rfl⟩
  · intro t
    exact ⟨t.isRegular_carried, Timestamp.carried_eq_self_iff, t.nanoseconds_carried⟩
  · intro t u
    rw [← Timestamp.text_eq_iff, ← String.toList_inj, toList_literal_timestamp,
      toList_literal_timestamp, List.cons_inj_right, List.append_cancel_right_eq,
      String.toList_inj]

/-- A third of a second after the fifth second of a minute, told from the
    fourth second on and from the fifth: the text is the same, and the seconds
    that it says are not those of the first. -/
theorem timestamp_literal_past_second :
    let t : Timestamp := ⟨1468022164, 1_333_333_333, of_decide_eq_true rfl⟩
    let u : Timestamp := ⟨1468022165, 333_333_333, of_decide_eq_true rfl⟩
    let c : CivilTime := ⟨⟨2016, 7, 8⟩, 23, 56, 5, 333_333⟩
    (Value.timestamp t).literal = "'2016-07-08 23:56:05.333333'" ∧
    CivilTime.read? "2016-07-08 23:56:05.333333".toList = some c ∧ c.seconds ≠ t.seconds ∧
    (Value.timestamp t).literal = (Value.timestamp u).literal ∧
    ¬ (t.seconds = u.seconds ∧ t.nanos / 1000 = u.nanos / 1000) := by
  decide +kernel

/-- A leap second before 1970, cut off after the microseconds. -/
example : (Value.timestamp ⟨-1, 1_000_001_999, by decide⟩).literal =
    "'1969-12-31 23:59:60.000001'" := by decide +kernel

end Value

end TypedQuery

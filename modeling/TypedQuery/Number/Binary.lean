import TypedQuery.Number.Shortest

/-! # Binary floating-point numbers

    Numbers of the IEEE 754 formats binary64 and binary32 as their words of
    bits: a sign bit, 11 (8) bits of exponent and 52 (23) bits of fraction.
    All of it is computed on natural numbers and rationals; a field starts
    where a mask has its one bit.

    * **Text**: the shortest decimal that reads back, in positional form,
      with a minus sign exactly if the sign bit is set.
    * **Equality**: that of the standard, in which `-0` equals `0` and
      nothing equals a NaN.
    * **Widening**: every binary32 number is a binary64 number.
-/

namespace TypedQuery.Number

/-! ## Binary64 -/

/-- A binary64 number, by its word. -/
structure Binary64 where
  word : UInt64
  deriving DecidableEq, Repr

namespace Binary64

/-- Whether the sign bit is set. -/
def isNegative (x : Binary64) : Bool := 0x8000000000000000 ≤ x.word.toNat

/-- The exponent field. -/
def exponent (x : Binary64) : Nat := x.word.toNat >>> 52 % 0x800

/-- The fraction field. -/
def fraction (x : Binary64) : Nat := x.word.toNat % 0x10000000000000

/-- Neither infinite nor a NaN. -/
def isFinite (x : Binary64) : Bool := x.exponent != 2047

/-- Not a number: the largest exponent with a nonzero fraction. -/
def isNaN (x : Binary64) : Bool := x.exponent == 2047 && x.fraction != 0

/-- Zero of either sign. -/
def isZero (x : Binary64) : Bool := x.exponent == 0 && x.fraction == 0

/-- The whole number whose multiple by a power of two is the magnitude. -/
def significand (x : Binary64) : Nat :=
  if x.exponent = 0 then x.fraction else 0x10000000000000 + x.fraction

/-- The power of two by which the significand is multiplied. -/
def scale (x : Binary64) : Int := max x.exponent 1 - 1075

/-- The absolute value of a finite number. -/
def magnitude (x : Binary64) : Rat := x.significand * (2 : Rat) ^ x.scale

/-- The value of a finite number. -/
def value (x : Binary64) : Rat := if x.isNegative then -x.magnitude else x.magnitude

/-- The reals that round to the magnitude, ties to an even significand.
    Below a power of two the numbers lie twice as close. -/
def interval (x : Binary64) : RoundingInterval where
  low :=
    if x.fraction = 0 ∧ 1 < x.exponent then x.magnitude - (2 : Rat) ^ (x.scale - 2)
    else x.magnitude - (2 : Rat) ^ (x.scale - 1)
  number := x.magnitude
  high := x.magnitude + (2 : Rat) ^ (x.scale - 1)
  closed := x.significand % 2 == 0

/-- The shortest decimal that rounds to the magnitude. -/
def decimal (x : Binary64) : Decimal :=
  if x.isZero then ⟨0, 0⟩ else x.interval.shortest (-x.scale).toNat

/-- The text of a finite number: a minus sign if the sign bit is set, and
    the shortest decimal in positional form. -/
def text (x : Binary64) : String :=
  String.ofList ((if x.isNegative then ['-'] else []) ++ x.decimal.positional)

@[simp] theorem toList_text (x : Binary64) :
    x.text.toList = (if x.isNegative then ['-'] else []) ++ x.decimal.positional := by
  simp [text]

/-- Equality as the standard has it: a NaN differs from everything, the two
    zeros are equal, and all else is equal if the words are. -/
def equal (x y : Binary64) : Bool :=
  !x.isNaN && !y.isNaN && (x.word == y.word || (x.isZero && y.isZero))

/-- The number with a given sign and fields. -/
def ofFields (negative : Bool) (exponent fraction : Nat) : Binary64 :=
  ⟨UInt64.ofNat ((if negative then 0x8000000000000000 else 0) + exponent <<< 52 + fraction)⟩

end Binary64

/-! ## Binary32 -/

/-- A binary32 number, by its word. -/
structure Binary32 where
  word : UInt32
  deriving DecidableEq, Repr

namespace Binary32

/-- Whether the sign bit is set. -/
def isNegative (x : Binary32) : Bool := 0x80000000 ≤ x.word.toNat

/-- The exponent field. -/
def exponent (x : Binary32) : Nat := x.word.toNat >>> 23 % 0x100

/-- The fraction field. -/
def fraction (x : Binary32) : Nat := x.word.toNat % 0x800000

/-- Neither infinite nor a NaN. -/
def isFinite (x : Binary32) : Bool := x.exponent != 255

/-- The value of a finite number. -/
def value (x : Binary32) : Rat :=
  let magnitude : Rat :=
    if x.exponent = 0 then x.fraction * (2 : Rat) ^ (-149 : Int)
    else (0x800000 + x.fraction : Nat) * (2 : Rat) ^ ((x.exponent : Int) - 150)
  if x.isNegative then -magnitude else magnitude

/-- The same number in binary64. A subnormal number is shifted until its
    leading bit is the hidden one; the payload of a NaN keeps its place and
    the NaN is a quiet one. -/
def widen (x : Binary32) : Binary64 :=
  let e := x.exponent
  let f := x.fraction
  if e = 255 then
    if f = 0 then .ofFields x.isNegative 2047 0
    else .ofFields x.isNegative 2047 (0x8000000000000 + (f % 0x400000) <<< 29)
  else if e ≠ 0 then .ofFields x.isNegative (e + 896) (f <<< 29)
  else if f = 0 then .ofFields x.isNegative 0 0
  else
    let top := f.log2
    .ofFields x.isNegative (top + 874) ((f - 1 <<< top) <<< (52 - top))

end Binary32

end TypedQuery.Number

/-! # Decimal numbers

    A decimal is a natural number times a power of ten. Its positional text
    has digits and, if the power is negative, a point and as many digits
    after it; there is never an exponent.

    * **`ofDigitChars_digits`**: the digits of a number denote it.
    * **`length_fixed`**: a number fits a field of `w` places if it has at
      most `w` digits.
-/

namespace TypedQuery.Number

/-! ## Digits -/

/-- The decimal digits of `n`, without leading zeros (`0` has one digit). -/
def digits (n : Nat) : List Char := Nat.toDigits 10 n

/-- The digits of `n`, filled up with zeros on the left to `w` places. -/
def fixed (w n : Nat) : List Char := (digits n).leftpad w '0'

theorem isDigit_of_mem_digits {n : Nat} {c : Char} (h : c ∈ digits n) : c.isDigit :=
  Nat.isDigit_of_mem_toDigits (by decide) (by decide) h

theorem ofDigitChars_digits (n : Nat) : Nat.ofDigitChars 10 (digits n) 0 = n :=
  Nat.ofDigitChars_toDigits (by decide) (by decide)

theorem length_fixed (w n : Nat) : (fixed w n).length = max w (digits n).length := by
  rw [fixed, List.length_leftpad]

theorem isDigit_of_mem_fixed {w n : Nat} {c : Char} (h : c ∈ fixed w n) : c.isDigit := by
  rcases List.mem_append.mp h with zero | digit
  · rw [List.eq_of_mem_replicate zero]
    rfl
  · exact isDigit_of_mem_digits digit

/-- The text of an integer: a minus sign if it is negative, and the digits
    of its absolute value. -/
def integerText (n : Int) : String :=
  String.ofList ((if n < 0 then ['-'] else []) ++ digits n.natAbs)

@[simp] theorem toList_integerText (n : Int) :
    (integerText n).toList = (if n < 0 then ['-'] else []) ++ digits n.natAbs := by
  simp [integerText]

/-- The text of a natural number. -/
def naturalText (n : Nat) : String := String.ofList (digits n)

@[simp] theorem toList_naturalText (n : Nat) : (naturalText n).toList = digits n := by
  simp [naturalText]

/-- The digits tell the number. -/
theorem naturalText_inj {n m : Nat} (h : naturalText n = naturalText m) : n = m := by
  have same : digits n = digits m := by
    rw [← toList_naturalText, ← toList_naturalText, h]
  rw [← ofDigitChars_digits n, same, ofDigitChars_digits]

/-! ## Decimals -/

/-- The number `coefficient · 10 ^ exponent`. -/
structure Decimal where
  coefficient : Nat
  exponent : Int
  deriving DecidableEq, Repr

namespace Decimal

/-- The number that a decimal stands for. -/
def value (d : Decimal) : Rat := d.coefficient * (10 : Rat) ^ d.exponent

/-- The digits of a decimal in their positions: trailing zeros stand for a
    positive power of ten, and a negative power moves the point. -/
def positional (d : Decimal) : List Char :=
  if 0 ≤ d.exponent then digits (d.coefficient * Nat.pow 10 d.exponent.toNat)
  else
    let places := (-d.exponent).toNat
    let unit := Nat.pow 10 places
    digits (d.coefficient / unit) ++ '.' :: fixed places (d.coefficient % unit)

end Decimal

end TypedQuery.Number

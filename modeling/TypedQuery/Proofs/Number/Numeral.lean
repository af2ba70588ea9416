import Mathlib.Algebra.Order.Field.Rat
import Mathlib.Tactic.NormNum
import TypedQuery.Number.Decimal

/-! # Numerals

    What a decimal looks like in a text: digits, and perhaps a point with
    digits after it. The characters tell the numeral and whether a minus
    sign stands before it, so a numeral denotes one number only.

    * **`signed_chars_inj`**: two signed numerals of the same characters are
      the same.
    * **`value_numeral`**: the positional text of a decimal is a numeral that
      denotes the decimal.
-/

namespace TypedQuery.Number

/-! ## Section 1: Form and value -/

/-- One or more decimal digits. -/
structure IsDigits (cs : List Char) : Prop where
  nonempty : cs ≠ []
  digit : ∀ c ∈ cs, c.isDigit

/-- Digits, and perhaps a point with digits after it. -/
structure Numeral where
  whole : List Char
  places : Option (List Char)
  isDigits_whole : IsDigits whole
  isDigits_places : ∀ cs ∈ places, IsDigits cs

namespace Numeral

/-- The point and what is after it. -/
def fraction (n : Numeral) : List Char :=
  match n.places with
  | none => []
  | some cs => '.' :: cs

/-- The characters of a numeral. -/
def chars (n : Numeral) : List Char := n.whole ++ n.fraction

/-- The number that a numeral denotes: all its digits as one whole number,
    divided by ten for each of those after the point. -/
def value (n : Numeral) : Rat :=
  Nat.ofDigitChars 10 (n.whole ++ n.places.getD []) 0 / (10 : Rat) ^ (n.places.getD []).length

variable {n m : Numeral} {s t : Bool}

theorem head_chars (n : Numeral) : ∃ c ∈ n.chars.head?, c.isDigit := by
  rw [chars]
  cases h : n.whole with
  | nil => exact absurd h n.isDigits_whole.nonempty
  | cons c cs => exact ⟨c, rfl, n.isDigits_whole.digit c (h ▸ List.mem_cons_self)⟩

theorem takeWhile_chars (n : Numeral) : n.chars.takeWhile Char.isDigit = n.whole := by
  have fraction : n.fraction.takeWhile Char.isDigit = [] := by
    unfold fraction
    split
    · rfl
    · exact List.takeWhile_cons_of_neg (by decide)
  rw [chars, List.takeWhile_append_of_pos n.isDigits_whole.digit, fraction, List.append_nil]

theorem places_eq_of_fraction_eq (h : n.fraction = m.fraction) : n.places = m.places := by
  unfold fraction at h
  cases hn : n.places <;> cases hm : m.places <;> simp_all

theorem chars_inj (h : n.chars = m.chars) : n = m := by
  have whole : n.whole = m.whole := by rw [← takeWhile_chars, h, takeWhile_chars]
  have fraction : n.fraction = m.fraction := by
    rw [chars, chars, whole] at h
    exact List.append_cancel_left h
  have places := places_eq_of_fraction_eq fraction
  cases n
  cases m
  cases whole
  cases places
  rfl

/-- No numeral begins with a minus sign. -/
theorem chars_ne_minus (n : Numeral) (cs : List Char) : n.chars ≠ '-' :: cs := by
  intro h
  obtain ⟨c, head, digit⟩ := n.head_chars
  rw [h] at head
  cases head
  exact absurd digit (by decide)

theorem signed_chars_inj
    (h : (if s then ['-'] else []) ++ n.chars = (if t then ['-'] else []) ++ m.chars) :
    s = t ∧ n = m := by
  cases s <;> cases t
  · exact ⟨rfl, chars_inj h⟩
  · exact absurd h (n.chars_ne_minus _)
  · exact absurd h.symm (m.chars_ne_minus _)
  · exact ⟨rfl, chars_inj (List.cons.inj h).2⟩

end Numeral

/-! ## Section 2: The numeral of a decimal -/

theorem isDigits_digits (n : Nat) : IsDigits (digits n) :=
  ⟨Nat.toDigits_ne_nil, fun _ => isDigit_of_mem_digits⟩

theorem isDigits_fixed (w n : Nat) : IsDigits (fixed w n) := by
  refine ⟨?_, fun _ => isDigit_of_mem_fixed⟩
  have one := List.length_pos_iff.mpr (isDigits_digits n).nonempty
  apply List.ne_nil_of_length_pos
  rw [length_fixed]
  omega

theorem length_fixed_of_lt {w n : Nat} (places : 0 < w) (h : n < 10 ^ w) :
    (fixed w n).length = w := by
  rw [length_fixed, max_eq_left]
  exact (Nat.length_toDigits_le_iff (by decide) places).mpr h

/-- Zeros on the left do not change what digits denote. -/
theorem ofDigitChars_fixed_zero (w n : Nat) : Nat.ofDigitChars 10 (fixed w n) 0 = n := by
  rw [fixed, List.leftpad, Nat.ofDigitChars_append, Nat.ofDigitChars_replicate_zero,
    Nat.mul_zero, ofDigitChars_digits]

theorem ofDigitChars_fixed (w n init : Nat) :
    Nat.ofDigitChars 10 (fixed w n) init = 10 ^ (fixed w n).length * init + n := by
  rw [Nat.ofDigitChars_eq_ofDigitChars_zero, ofDigitChars_fixed_zero]

namespace Decimal

/-- The positional text as a numeral. -/
def numeral (d : Decimal) : Numeral :=
  if 0 ≤ d.exponent then
    { whole := digits (d.coefficient * Nat.pow 10 d.exponent.toNat)
      places := none
      isDigits_whole := isDigits_digits _
      isDigits_places := by simp }
  else
    { whole := digits (d.coefficient / Nat.pow 10 (-d.exponent).toNat)
      places := some (fixed (-d.exponent).toNat (d.coefficient % Nat.pow 10 (-d.exponent).toNat))
      isDigits_whole := isDigits_digits _
      isDigits_places := by
        intro cs h
        cases h
        exact isDigits_fixed _ _ }

theorem chars_numeral (d : Decimal) : d.numeral.chars = d.positional := by
  unfold numeral positional
  split
  · exact List.append_nil _
  · rfl

theorem value_numeral (d : Decimal) : d.numeral.value = d.value := by
  by_cases whole : 0 ≤ d.exponent
  · obtain ⟨k, exponent⟩ := Int.eq_ofNat_of_zero_le whole
    rw [numeral, if_pos whole, Numeral.value, value]
    dsimp only [Option.getD_none]
    rw [List.append_nil, ofDigitChars_digits, Nat.pow_eq, exponent, Int.toNat_natCast,
      zpow_natCast]
    push_cast
    simp
  · obtain ⟨p, exponent⟩ : ∃ p : Nat, d.exponent = -p := ⟨(-d.exponent).toNat, by omega⟩
    have bound : d.coefficient % 10 ^ p < 10 ^ p := Nat.mod_lt _ (by positivity)
    have length := length_fixed_of_lt (by omega) bound
    rw [numeral, if_neg whole, Numeral.value, value]
    dsimp only [Option.getD_some]
    rw [Nat.pow_eq, exponent, neg_neg, Int.toNat_natCast, length, Nat.ofDigitChars_append,
      ofDigitChars_digits, ofDigitChars_fixed, length, Nat.div_add_mod, zpow_neg, zpow_natCast,
      div_eq_mul_inv]

end Decimal

end TypedQuery.Number

import TypedQuery.Data.Type
import TypedQuery.Proofs.Number.Numeral
import TypedQuery.Proofs.Number.Shortest
import TypedQuery.Proofs.Number.Widening

/-! # Literals of floating-point numbers

    A finite number is written into a statement as a decimal without
    exponent. A reader that rounds as the standard has it gets the number
    back to the last bit, the sign of a zero included.

    * **`read_iff`**: the decimal of a number is rounded to that number and
      to no other of its sign.
    * **`Value.float_literal_denotes`**: so a literal denotes its number, a
      narrow number is widened to the same one, and no two numbers share a
      literal.
-/

namespace TypedQuery

open Number

/-! ## Section 1: Reading back -/

namespace Number.Binary64

variable {x y : Binary64}

theorem read_iff (finite : x.isFinite) :
    y.isNegative = x.isNegative ∧ RoundsTo x.decimal.numeral.value y ↔ y = x := by
  have rounds := x.rounds_decimal
  rw [Decimal.value_numeral]
  constructor
  · rintro ⟨sign, nearest⟩
    exact rounds.eq_of_roundsTo finite nearest sign
  · rintro rfl
    exact ⟨rfl, rounds.roundsTo finite⟩

theorem toList_text_numeral (x : Binary64) :
    x.text.toList = (if x.isNegative then ['-'] else []) ++ x.decimal.numeral.chars := by
  rw [toList_text, Decimal.chars_numeral]

/-- The text tells the sign and the numeral, and these tell the number. -/
theorem eq_of_text_eq (finite : x.isFinite) (finite' : y.isFinite) (h : x.text = y.text) :
    x = y := by
  have chars := congrArg String.toList h
  rw [toList_text_numeral, toList_text_numeral] at chars
  obtain ⟨sign, numeral⟩ := Numeral.signed_chars_inj chars
  apply (read_iff finite').mp
  rw [← numeral]
  exact ⟨sign, ((read_iff finite).mpr rfl).2⟩

end Number.Binary64

/-! ## Section 2: Values -/

namespace Value

theorem literal_float {x : Binary64} (finite : x.isFinite) :
    (Value.float x).literal = x.text := by
  show (if x.isFinite then x.text else "NULL") = x.text
  rw [if_pos finite]

/-- **Literals denote their numbers**: the literal of a finite number is a
    numeral with a minus sign before it exactly if the sign bit is set, and the
    only number of that sign to which the numeral is rounded is the number
    itself. A narrow number becomes a wide one of the same value and sign, and
    different numbers, such as the two zeros, have different literals. -/
theorem float_literal_denotes :
    (∀ x : Binary64, x.isFinite → ∃ n : Numeral,
      (Value.float x).literal.toList = (if x.isNegative then ['-'] else []) ++ n.chars ∧
      ∀ y : Binary64, y.isNegative = x.isNegative ∧ Binary64.RoundsTo n.value y ↔ y = x) ∧
    (∀ x : Binary32, x.isFinite → ∃ y : Binary64, Kind.float.toValue x = .float y ∧
      y.isFinite ∧ y.isNegative = x.isNegative ∧ y.value = x.value) ∧
    (∀ x y : Binary64, x.isFinite → y.isFinite → x ≠ y →
      (Value.float x).literal ≠ (Value.float y).literal) := by
  refine ⟨?_, ?_, ?_⟩
  · intro x finite
    refine ⟨x.decimal.numeral, ?_, fun _ => Binary64.read_iff finite⟩
    rw [literal_float finite, Binary64.toList_text_numeral]
  · intro x finite
    exact ⟨x.widen, rfl, Binary32.value_widen finite⟩
  · intro x y finite finite' different same
    rw [literal_float finite, literal_float finite'] at same
    exact different (Binary64.eq_of_text_eq finite finite' same)

/-- The number nearest to one tenth is written `0.1`, the narrow one that is
    nearest to it keeps its value, and the two zeros are written differently. -/
theorem float_literal_denotes_tenth :
    (Value.float ⟨0x3fb999999999999a⟩).literal = "0.1" ∧
    (∃ n : Numeral, (Value.float ⟨0x3fb999999999999a⟩).literal.toList = n.chars ∧
      ∀ y : Binary64, y.isNegative = false ∧ Binary64.RoundsTo n.value y ↔
        y = ⟨0x3fb999999999999a⟩) ∧
    (∃ y : Binary64, Kind.float.toValue (Binary32.mk 0x3dcccccd) = .float y ∧
      y.value = 13421773 / 134217728) ∧
    (Value.float ⟨0⟩).literal ≠ (Value.float ⟨0x8000000000000000⟩).literal := by
  obtain ⟨wide, narrow, different⟩ := float_literal_denotes
  refine ⟨by decide +kernel, wide ⟨0x3fb999999999999a⟩ (by decide), ?_,
    different ⟨0⟩ ⟨0x8000000000000000⟩ (by decide) (by decide) (by decide)⟩
  obtain ⟨y, same, -, -, value⟩ := narrow ⟨0x3dcccccd⟩ (by decide)
  refine ⟨y, same, ?_⟩
  rw [value]
  decide +kernel

end Value

end TypedQuery

import Mathlib.Algebra.Order.Field.Power
import Mathlib.Algebra.Order.Field.Rat
import Mathlib.Order.Monotone.Basic
import Mathlib.Tactic.Linarith
import Mathlib.Tactic.NormNum
import Mathlib.Tactic.Ring
import TypedQuery.Number.Binary

/-! # The order of binary numbers

    Without its sign bit the word of a binary64 number is its rank among all
    magnitudes: the word after it is that of the next larger number. So
    whatever concerns the neighbours of a number can be said of ranks, and no
    case has to be made of subnormal numbers or of powers of two.

    * **`magnitudeAt_succ`**: the number after another one is larger by one
      step of the scale of the smaller one.
    * **`magnitudeAt_strictMono`**: larger ranks are larger numbers.
    * **`eq_of_magnitude_eq`**: a number is known by its sign bit and its
      magnitude.
-/

namespace TypedQuery.Number.Binary64

/-! ## Section 1: Fields of a word -/

variable {x y : Binary64} {n : Nat}

theorem fraction_lt (x : Binary64) : x.fraction < 0x10000000000000 :=
  Nat.mod_lt _ (by decide)

theorem exponent_le_of_isFinite (h : x.isFinite) : x.exponent ≤ 2046 := by
  have field : x.exponent < 0x800 := Nat.mod_lt _ (by decide)
  have other : x.exponent ≠ 2047 := bne_iff_ne.mp h
  omega

/-- The word without its sign bit. -/
def rank (x : Binary64) : Nat := x.word.toNat % 0x8000000000000000

theorem rank_div (x : Binary64) : x.rank / 0x10000000000000 = x.exponent := by
  rw [rank, exponent, Nat.shiftRight_eq_div_pow]
  omega

theorem rank_mod (x : Binary64) : x.rank % 0x10000000000000 = x.fraction := by
  rw [rank, fraction]
  omega

theorem eq_of_rank_eq (sign : x.isNegative = y.isNegative) (h : x.rank = y.rank) : x = y := by
  have signs : 0x8000000000000000 ≤ x.word.toNat ↔ 0x8000000000000000 ≤ y.word.toNat :=
    decide_eq_decide.mp sign
  have below := x.word.toNat_lt
  have below' := y.word.toNat_lt
  have words : x.word.toNat = y.word.toNat := by
    unfold rank at h
    omega
  cases x
  cases y
  exact congrArg mk (UInt64.toNat_inj.mp words)

theorem isZero_iff (x : Binary64) : x.isZero ↔ x.rank = 0 := by
  unfold isZero
  rw [Bool.and_eq_true, beq_iff_eq, beq_iff_eq, ← rank_div, ← rank_mod]
  omega

/-- The ranks of the finite numbers. -/
theorem rank_lt_of_isFinite (h : x.isFinite) : x.rank < 2047 * 0x10000000000000 := by
  have field := exponent_le_of_isFinite h
  rw [← rank_div] at field
  omega

/-- The number of a rank. -/
def ofRank (n : Nat) : Binary64 := ⟨UInt64.ofNat n⟩

theorem rank_ofRank (h : n < 0x8000000000000000) : (ofRank n).rank = n := by
  rw [rank, ofRank, UInt64.toNat_ofNat_of_lt' (by rw [UInt64.size]; omega), Nat.mod_eq_of_lt h]

theorem isFinite_ofRank (h : n < 2047 * 0x10000000000000) : (ofRank n).isFinite := by
  rw [isFinite, ← rank_div, rank_ofRank (by omega), bne_iff_ne]
  omega

/-! ## Section 2: Magnitudes by rank -/

/-- The significand of the number of a rank. -/
def significandAt (n : Nat) : Nat :=
  if n / 0x10000000000000 = 0 then n % 0x10000000000000
  else 0x10000000000000 + n % 0x10000000000000

/-- Its scale. -/
def scaleAt (n : Nat) : Int := (max (n / 0x10000000000000) 1 : Nat) - 1075

/-- Its magnitude. -/
def magnitudeAt (n : Nat) : Rat := significandAt n * (2 : Rat) ^ scaleAt n

theorem significandAt_rank (x : Binary64) : significandAt x.rank = x.significand := by
  rw [significandAt, rank_div, rank_mod, significand]

theorem scaleAt_rank (x : Binary64) : scaleAt x.rank = x.scale := by
  rw [scaleAt, rank_div, scale]

theorem magnitudeAt_rank (x : Binary64) : magnitudeAt x.rank = x.magnitude := by
  rw [magnitudeAt, significandAt_rank, scaleAt_rank, magnitude]

/-- Significands are even and odd in turn. -/
theorem significandAt_mod_two (n : Nat) : significandAt n % 2 = n % 2 := by
  unfold significandAt
  split <;> omega

theorem two_zpow_pos (k : Int) : (0 : Rat) < 2 ^ k := zpow_pos (by decide) k

theorem two_zpow_add_one (k : Int) : (2 : Rat) ^ (k + 1) = 2 * 2 ^ k := by
  rw [zpow_add_one₀ (by decide), mul_comm]

/-- The significand grows by one, or the scale by one when the significand
    would need a further bit. -/
theorem next_cases (n : Nat) :
    (significandAt (n + 1) = significandAt n + 1 ∧ scaleAt (n + 1) = scaleAt n) ∨
    (2 * significandAt (n + 1) = significandAt n + 1 ∧ scaleAt (n + 1) = scaleAt n + 1) := by
  unfold significandAt scaleAt
  -- the scale grows with the exponent, but not from the subnormal numbers to the others
  by_cases carry : n % 0x10000000000000 = 0xfffffffffffff ∧ n / 0x10000000000000 ≠ 0
  · right
    split <;> split <;> omega
  · left
    split <;> split <;> omega

theorem magnitudeAt_succ (n : Nat) : magnitudeAt (n + 1) = magnitudeAt n + 2 ^ scaleAt n := by
  unfold magnitudeAt
  rcases next_cases n with ⟨significand, scale⟩ | ⟨significand, scale⟩
  · rw [significand, scale]
    push_cast
    ring
  · have whole : (2 : Rat) * significandAt (n + 1) = significandAt n + 1 := by
      exact_mod_cast significand
    rw [scale, two_zpow_add_one]
    rw [← add_one_mul, ← whole]
    ring

theorem magnitudeAt_strictMono : StrictMono magnitudeAt := by
  apply strictMono_nat_of_lt_succ
  intro n
  rw [magnitudeAt_succ]
  exact lt_add_of_pos_right _ (two_zpow_pos _)

theorem magnitude_eq_iff : x.magnitude = y.magnitude ↔ x.rank = y.rank := by
  rw [← magnitudeAt_rank, ← magnitudeAt_rank]
  exact magnitudeAt_strictMono.injective.eq_iff

theorem eq_of_magnitude_eq (sign : x.isNegative = y.isNegative)
    (h : x.magnitude = y.magnitude) : x = y :=
  eq_of_rank_eq sign (magnitude_eq_iff.mp h)

end TypedQuery.Number.Binary64

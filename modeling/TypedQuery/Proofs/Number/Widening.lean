import TypedQuery.Proofs.Number.Order

/-! # Widening

    Every finite binary32 number is a binary64 number of the same sign. A
    normal number gets more fraction bits and another bias; a subnormal one
    becomes normal, its leading bit the hidden one.

    * **`value_widen`**: widening keeps the value.
-/

namespace TypedQuery.Number

/-! ## Section 1: A word from its fields -/

namespace Binary64

variable {negative : Bool} {e f : Nat}

theorem toNat_ofFields (he : e < 0x800) (hf : f < 0x10000000000000) :
    (ofFields negative e f).word.toNat =
      (if negative then 0x8000000000000000 else 0) + e * 0x10000000000000 + f := by
  rw [ofFields, Nat.shiftLeft_eq]
  apply UInt64.toNat_ofNat_of_lt'
  rw [UInt64.size]
  split <;> omega

theorem isNegative_ofFields (he : e < 0x800) (hf : f < 0x10000000000000) :
    (ofFields negative e f).isNegative = negative := by
  rw [isNegative, toNat_ofFields he hf]
  cases negative
  · simp only [Bool.false_eq_true, if_false, decide_eq_false_iff_not]
    omega
  · simp only [if_true, decide_eq_true_eq]
    omega

theorem exponent_ofFields (he : e < 0x800) (hf : f < 0x10000000000000) :
    (ofFields negative e f).exponent = e := by
  rw [exponent, toNat_ofFields he hf, Nat.shiftRight_eq_div_pow]
  split <;> omega

theorem fraction_ofFields (he : e < 0x800) (hf : f < 0x10000000000000) :
    (ofFields negative e f).fraction = f := by
  rw [fraction, toNat_ofFields he hf]
  split <;> omega

/-- A normal number has the hidden bit above its fraction. -/
theorem magnitude_ofFields (normal : e ≠ 0) (he : e < 0x800) (hf : f < 0x10000000000000) :
    (ofFields negative e f).magnitude =
      (0x10000000000000 + f : Nat) * (2 : Rat) ^ ((e : Int) - 1075) := by
  have one : max e 1 = e := by omega
  rw [magnitude, significand, scale, exponent_ofFields he hf, fraction_ofFields he hf,
    if_neg normal, one]

end Binary64

/-! ## Section 2: From 32 bits to 64 -/

namespace Binary32

open Binary64 (ofFields)

variable {x : Binary32}

theorem exponent_lt_of_isFinite (h : x.isFinite) : x.exponent < 255 := by
  have field : x.exponent < 0x100 := Nat.mod_lt _ (by decide)
  have other : x.exponent ≠ 255 := bne_iff_ne.mp h
  omega

theorem fraction_lt (x : Binary32) : x.fraction < 0x800000 := Nat.mod_lt _ (by decide)

/-- The absolute value of a finite number. -/
def magnitude (x : Binary32) : Rat :=
  if x.exponent = 0 then x.fraction * (2 : Rat) ^ (-149 : Int)
  else (0x800000 + x.fraction : Nat) * (2 : Rat) ^ ((x.exponent : Int) - 150)

/-- A shift of the significand is taken back by the scale. -/
theorem shifted_mul (m k : Nat) (s : Int) :
    ((m * 2 ^ k : Nat) : Rat) * 2 ^ s = m * (2 : Rat) ^ (k + s) := by
  rw [zpow_add₀ (by decide), zpow_natCast]
  push_cast
  ring

theorem widen_normal (normal : x.exponent ≠ 0) (finite : x.isFinite) :
    x.widen = ofFields x.isNegative (x.exponent + 896) (x.fraction * 2 ^ 29) := by
  have range := exponent_lt_of_isFinite finite
  rw [widen]
  dsimp only
  rw [if_neg (by omega), if_pos normal, Nat.shiftLeft_eq]

theorem widen_zero (zero : x.exponent = 0 ∧ x.fraction = 0) :
    x.widen = ofFields x.isNegative 0 0 := by
  simp [widen, zero]

theorem widen_subnormal (subnormal : x.exponent = 0) (nonzero : x.fraction ≠ 0) :
    x.widen = ofFields x.isNegative (x.fraction.log2 + 874)
      ((x.fraction - 2 ^ x.fraction.log2) * 2 ^ (52 - x.fraction.log2)) := by
  simp [widen, subnormal, nonzero, Nat.shiftLeft_eq]

/-- The bits below the leading one, moved up to where the hidden bit is. -/
theorem shifted_fraction {f : Nat} (nonzero : f ≠ 0) (bound : f < 0x800000) :
    f.log2 ≤ 22 ∧ (f - 2 ^ f.log2) * 2 ^ (52 - f.log2) < 0x10000000000000 ∧
    0x10000000000000 + (f - 2 ^ f.log2) * 2 ^ (52 - f.log2) = f * 2 ^ (52 - f.log2) := by
  have top : f.log2 < 23 := (Nat.log2_lt nonzero).mpr bound
  have leading : 2 ^ f.log2 ≤ f := Nat.log2_self_le nonzero
  have above : f < 2 ^ f.log2 * 2 := Nat.lt_log2_self
  have hidden : 2 ^ f.log2 * 2 ^ (52 - f.log2) = 0x10000000000000 := by
    rw [← pow_add, Nat.add_sub_of_le (by omega)]
    norm_num
  have less : (f - 2 ^ f.log2) * 2 ^ (52 - f.log2) < 2 ^ f.log2 * 2 ^ (52 - f.log2) :=
    Nat.mul_lt_mul_of_pos_right (by omega) (by positivity)
  refine ⟨by omega, hidden ▸ less, ?_⟩
  rw [← hidden, ← Nat.add_mul, Nat.add_sub_of_le leading]

/-- The fields of the wide number. -/
theorem widen_fields (finite : x.isFinite) :
    ∃ e f, e < 2047 ∧ f < 0x10000000000000 ∧ x.widen = ofFields x.isNegative e f ∧
      (ofFields x.isNegative e f).magnitude = x.magnitude := by
  have range := exponent_lt_of_isFinite finite
  have bound := x.fraction_lt
  by_cases subnormal : x.exponent = 0
  · rw [magnitude, if_pos subnormal]
    by_cases zero : x.fraction = 0
    · refine ⟨0, 0, by decide, by decide, widen_zero ⟨subnormal, zero⟩, ?_⟩
      rw [zero, Binary64.magnitude, Binary64.significand,
        Binary64.exponent_ofFields (by decide) (by decide), if_pos rfl,
        Binary64.fraction_ofFields (by decide) (by decide)]
      simp
    · obtain ⟨top, fraction, significand⟩ := shifted_fraction zero bound
      have scale : ((52 - x.fraction.log2 : Nat) : Int) +
          ((x.fraction.log2 + 874 : Nat) - 1075) = -149 := by omega
      refine ⟨_, _, by omega, fraction, widen_subnormal subnormal zero, ?_⟩
      rw [Binary64.magnitude_ofFields (by omega) (by omega) fraction, significand, shifted_mul,
        scale]
  · have fraction : x.fraction * 2 ^ 29 < 0x10000000000000 := by omega
    have significand : 0x10000000000000 + x.fraction * 2 ^ 29 =
        (0x800000 + x.fraction) * 2 ^ 29 := by omega
    have scale : ((29 : Nat) : Int) + ((x.exponent + 896 : Nat) - 1075) = x.exponent - 150 := by
      omega
    refine ⟨_, _, by omega, fraction, widen_normal subnormal finite, ?_⟩
    rw [Binary64.magnitude_ofFields (by omega) (by omega) fraction, significand, shifted_mul,
      scale, magnitude, if_neg subnormal]

theorem value_widen (finite : x.isFinite) :
    x.widen.isFinite ∧ x.widen.isNegative = x.isNegative ∧ x.widen.value = x.value := by
  obtain ⟨e, f, exponent, fraction, fields, magnitude⟩ := widen_fields finite
  have field : e < 0x800 := by omega
  have sign : x.widen.isNegative = x.isNegative := by
    rw [fields, Binary64.isNegative_ofFields field fraction]
  refine ⟨?_, sign, ?_⟩
  · rw [fields, Binary64.isFinite, Binary64.exponent_ofFields field fraction, bne_iff_ne]
    omega
  · have narrow : x.value = if x.isNegative then -x.magnitude else x.magnitude := rfl
    rw [Binary64.value, sign, fields, magnitude, narrow]

end Binary32

end TypedQuery.Number

import TypedQuery.Proofs.Number.Rounding

/-! # The decimal of a number

    The search for the shortest decimal goes from coarse grids to fine ones.
    What it finds on a grid is in the interval, and the finest grid has the
    number itself as a point. So the decimal of a number is rounded to that
    number, wherever the search ends.

    * **`contains_shortest`**: the shortest decimal of an interval is in the
      interval.
    * **`rounds_decimal`**: the decimal of a number is rounded to it.
    * **`decimal_coarsest`**: no decimal on a coarser grid is, so none with
      fewer places would do.
-/

namespace TypedQuery.Number

/-! ## Section 1: The search -/

namespace RoundingInterval

variable {i : RoundingInterval} {j k : Int} {n steps places : Nat} {d : Decimal}

theorem contains_of_nearest (h : i.nearest k = some d) : i.Contains d.value := by
  unfold nearest at h
  dsimp only at h
  split at h
  · split at h <;> rename_i down up <;> cases h
    · exact up.1
    · exact down
  · split at h <;> cases h
    assumption

theorem exponent_of_nearest (h : i.nearest k = some d) : d.exponent = k := by
  unfold nearest at h
  dsimp only at h
  split at h
  · split at h <;> cases h <;> rfl
  · split at h <;> cases h
    rfl

theorem contains_search (last : i.Contains (i.below (k - steps)).value) :
    i.Contains (i.search steps k).value := by
  induction steps generalizing k with
  | zero => simpa [search] using last
  | succ steps ih =>
    rw [search]
    cases found : i.nearest k with
    | some d => exact contains_of_nearest found
    | none =>
      apply ih
      have finer : k - 1 - steps = k - (steps + 1 : Nat) := by omega
      rwa [finer]

/-- A multiple of a power of ten is a point of its grid. -/
theorem value_below (multiple : i.number = n * (10 : Rat) ^ k) :
    (i.below k).value = i.number := by
  have quotient : i.number / (10 : Rat) ^ k = (n : Int) := by
    rw [multiple, mul_div_cancel_right₀ _ (zpow_ne_zero k (by decide))]
    rfl
  have coefficient : (i.below k).coefficient = n := by
    rw [below, quotient, Rat.floor_intCast, Int.toNat_natCast]
  have exponent : (i.below k).exponent = k := rfl
  rw [Decimal.value, coefficient, exponent, multiple]

theorem contains_shortest (multiple : i.number = n * (10 : Rat) ^ (-places : Int))
    (number : i.Contains i.number) : i.Contains (i.shortest places).value := by
  apply contains_search
  have finest : (i.leading : Int) - (i.leading + places : Nat) = -places := by omega
  rw [finest, value_below multiple]
  exact number

/-! ## Section 2: Coarser grids -/

/-- What lies between two points of an interval is in it. -/
theorem contains_of_between {p q r : Rat} (left : i.Contains p) (right : i.Contains r)
    (between : p ≤ q ∧ q ≤ r) : i.Contains q := by
  unfold Contains at *
  split at left
  · rw [if_pos ‹_›] at right ⊢
    exact ⟨left.1.trans between.1, between.2.trans right.2⟩
  · rw [if_neg ‹_›] at right ⊢
    exact ⟨left.1.trans_le between.1, between.2.trans_lt right.2⟩

theorem point_le_iff (m : Nat) :
    m * (10 : Rat) ^ k ≤ i.number ↔ m ≤ (i.number / (10 : Rat) ^ k).floor := by
  rw [Rat.le_floor_iff, le_div_iff₀ (zpow_pos (by decide) k)]
  rfl

/-- Of the points of a grid only the two neighbours of the number have to be
    looked at. -/
theorem not_contains_of_nearest (positive : 0 ≤ i.number) (number : i.Contains i.number)
    (passed : i.nearest k = none) (m : Nat) : ¬ i.Contains (m * (10 : Rat) ^ k) := by
  have power : (0 : Rat) ≤ 10 ^ k := (zpow_pos (by decide) k).le
  have neighbours : ¬ (i.Contains (i.below k).value ∨ i.Contains (i.above k).value) := by
    rw [← nearest_isSome_iff, passed]
    decide
  have floor : 0 ≤ (i.number / (10 : Rat) ^ k).floor := (point_le_iff 0).mp (by simpa using positive)
  intro point
  apply neighbours
  by_cases below : m * (10 : Rat) ^ k ≤ i.number
  · left
    have multiple : m ≤ (i.below k).coefficient := by
      have := (point_le_iff m).mp below
      show m ≤ (i.number / (10 : Rat) ^ k).floor.toNat
      omega
    apply contains_of_between point number
    refine ⟨mul_le_mul_of_nonneg_right (by exact_mod_cast multiple) power, ?_⟩
    apply (point_le_iff _).mpr
    exact (Int.toNat_of_nonneg floor).le
  · right
    have multiple : (i.above k).coefficient ≤ m := by
      have := mt (point_le_iff m).mpr below
      show (i.number / (10 : Rat) ^ k).floor.toNat + 1 ≤ m
      omega
    apply contains_of_between number point
    refine ⟨?_, mul_le_mul_of_nonneg_right (by exact_mod_cast multiple) power⟩
    apply le_of_lt
    apply lt_of_not_ge
    intro above
    have := (point_le_iff (k := k) _).mp above
    have next : (i.above k).coefficient = (i.number / (10 : Rat) ^ k).floor.toNat + 1 := rfl
    omega

/-- The search passes over every grid that is coarser than the one it ends
    on. -/
theorem nearest_of_coarser (coarser : (i.search steps k).exponent < j) (start : j ≤ k) :
    i.nearest j = none := by
  induction steps generalizing k with
  | zero =>
    have last : (i.search 0 k).exponent = k := rfl
    omega
  | succ steps ih =>
    rw [search] at coarser
    cases found : i.nearest k with
    | some d =>
      rw [found, Option.getD_some, exponent_of_nearest found] at coarser
      omega
    | none =>
      rw [found, Option.getD_none] at coarser
      by_cases first : j = k
      · rw [first, found]
      · exact ih coarser (by omega)

theorem high_lt (i : RoundingInterval) : i.high < (10 : Rat) ^ (i.leading : Int) := by
  have nonempty : 0 < i.leading := Nat.length_toDigits_pos
  have digits : i.high.floor.toNat < 10 ^ i.leading :=
    (Nat.length_toDigits_le_iff (by decide) nonempty).mp le_rfl
  have floor : i.high.floor + 1 ≤ (10 ^ i.leading : Nat) := by omega
  have whole : ((i.high.floor + 1 : Int) : Rat) ≤ (10 ^ i.leading : Nat) := by
    exact_mod_cast floor
  rw [zpow_natCast]
  push_cast at whole
  exact (Rat.lt_floor_add_one i.high).trans_le (by exact_mod_cast whole)

/-- No decimal of the interval is on a coarser grid than the shortest one. -/
theorem not_contains_of_coarser (positive : 0 < i.low) (number : i.Contains i.number)
    (coarser : (i.shortest places).exponent < j) (m : Nat) :
    ¬ i.Contains (m * (10 : Rat) ^ j) := by
  by_cases start : j ≤ i.leading
  · have above := (contains_iff.mp number).1
    exact not_contains_of_nearest (by linarith) number (nearest_of_coarser coarser start) m
  · intro point
    obtain ⟨low, high, -⟩ := contains_iff.mp point
    have least := i.high_lt
    have nonzero : m ≠ 0 := by
      rintro rfl
      simp only [Nat.cast_zero, zero_mul] at low
      linarith
    have whole : (1 : Rat) ≤ m := by exact_mod_cast Nat.one_le_iff_ne_zero.mpr nonzero
    have power : (10 : Rat) ^ (i.leading : Int) ≤ 10 ^ j :=
      zpow_le_zpow_right₀ (by decide) (by omega)
    have multiple : (10 : Rat) ^ j ≤ m * 10 ^ j :=
      le_mul_of_one_le_left (zpow_pos (by decide) j).le whole
    linarith

end RoundingInterval

/-! ## Section 3: Binary numbers -/

namespace Binary64

variable {x : Binary64}

/-- A multiple of a negative power of two is one of the same power of ten. -/
theorem magnitude_multiple (x : Binary64) :
    ∃ n : Nat, x.magnitude = n * (10 : Rat) ^ (-(-x.scale).toNat : Int) := by
  rw [magnitude]
  by_cases whole : 0 ≤ x.scale
  · obtain ⟨k, scale⟩ := Int.eq_ofNat_of_zero_le whole
    have places : (-x.scale).toNat = 0 := by omega
    refine ⟨x.significand * 2 ^ k, ?_⟩
    rw [places, scale, zpow_natCast]
    push_cast
    simp
  · obtain ⟨p, places⟩ : ∃ p : Nat, x.scale = -p := ⟨(-x.scale).toNat, by omega⟩
    have ten : (10 : Rat) ^ p = 2 ^ p * 5 ^ p := by
      rw [← mul_pow]
      norm_num
    have five : (5 : Rat) ^ p ≠ 0 := pow_ne_zero p (by decide)
    refine ⟨x.significand * 5 ^ p, ?_⟩
    rw [places, neg_neg, Int.toNat_natCast, zpow_neg, zpow_neg, zpow_natCast, zpow_natCast, ten]
    push_cast
    rw [mul_inv_rev, mul_assoc, mul_inv_cancel_left₀ five]

theorem contains_magnitude (x : Binary64) : x.interval.Contains x.magnitude := by
  have step := two_zpow_pos (x.scale - 1)
  have half := two_zpow_pos (x.scale - 2)
  have low : x.interval.low < x.magnitude := by
    unfold interval
    dsimp only
    split <;> linarith
  have high : x.magnitude < x.interval.high := lt_add_of_pos_right _ step
  unfold RoundingInterval.Contains
  split
  · exact ⟨low.le, high.le⟩
  · exact ⟨low, high⟩

theorem rounds_decimal (x : Binary64) : Rounds x.decimal.value x.rank := by
  rw [decimal]
  split
  · rename_i zero
    have value : (Decimal.mk 0 0).value = 0 := by simp [Decimal.value]
    rw [value]
    exact rounds_zero_of_isZero zero
  · obtain ⟨n, multiple⟩ := x.magnitude_multiple
    apply rounds_of_contains
    exact RoundingInterval.contains_shortest multiple x.contains_magnitude

theorem low_pos (nonzero : ¬ x.isZero) : 0 < x.interval.low := by
  rw [isZero_iff] at nonzero
  obtain ⟨n, next⟩ := Nat.exists_eq_succ_of_ne_zero nonzero
  have low := two_mul_low next.symm
  have before : 0 ≤ magnitudeAt n := by
    unfold magnitudeAt
    positivity
  have less : magnitudeAt n < magnitudeAt x.rank := magnitudeAt_strictMono (by omega)
  linarith

/-- No decimal with a larger power of ten is rounded to the number. -/
theorem decimal_coarsest (nonzero : ¬ x.isZero) {k : Int} (coarser : x.decimal.exponent < k)
    (m : Nat) : ¬ RoundsTo (m * (10 : Rat) ^ k) x := by
  intro rounded
  rw [decimal, if_neg nonzero] at coarser
  have point := contains_of_roundsTo (mt x.isZero_iff.mpr nonzero) rounded
  exact RoundingInterval.not_contains_of_coarser (low_pos nonzero) x.contains_magnitude coarser m
    point

end Binary64

end TypedQuery.Number

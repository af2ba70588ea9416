import Mathlib.Algebra.Order.Group.Unbundled.Abs
import TypedQuery.Proofs.Number.Order

/-! # Rounding to the nearest number

    The standard rounds a real to the finite binary64 number that is nearest,
    and of two that are equally near to the one with an even significand. A
    real that is half a step above the largest number or larger is rounded to
    infinity.

    * **`Rounds.roundsTo`**: the reals from halfway to the number below up to
      halfway to the number above are rounded to a number, the ends only if
      its significand is even.
    * **`Rounds.eq_of_roundsTo`**: they are rounded to no other.
    * **`roundsTo_iff_contains`**: these are the reals of the interval of the
      number.
-/

namespace TypedQuery.Number

/-- The ends of an interval belong to it only if it is closed. -/
theorem RoundingInterval.contains_iff {i : RoundingInterval} {r : Rat} :
    i.Contains r ↔
      i.low ≤ r ∧ r ≤ i.high ∧ ((r = i.low ∨ r = i.high) → i.closed) := by
  unfold Contains
  by_cases closed : i.closed
  · rw [if_pos closed]
    exact ⟨fun h => ⟨h.1, h.2, fun _ => closed⟩, fun h => ⟨h.1, h.2.1⟩⟩
  · rw [if_neg closed]
    constructor
    · intro h
      refine ⟨h.1.le, h.2.le, ?_⟩
      rintro (low | high)
      · exact absurd low h.1.ne'
      · exact absurd high h.2.ne
    · rintro ⟨low, high, ends⟩
      exact ⟨lt_of_le_of_ne low fun same => closed (ends (.inl same.symm)),
        lt_of_le_of_ne high fun same => closed (ends (.inr same))⟩

namespace Binary64

variable {x y : Binary64} {n m : Nat} {r : Rat}

/-! ## Section 1: The standard -/

/-- Half a step above the largest finite number. -/
def overflow : Rat := 2 ^ (1024 : Int) - 2 ^ (970 : Int)

/-- Halfway between the largest finite number and the next rank. -/
theorem magnitudeAt_top :
    magnitudeAt 0x7fefffffffffffff + magnitudeAt 0x7ff0000000000000 = 2 * overflow := by
  have below : magnitudeAt 0x7fefffffffffffff = 0x1fffffffffffff * (2 : Rat) ^ (971 : Int) := by
    norm_num [magnitudeAt, significandAt, scaleAt]
  have step : scaleAt 0x7fefffffffffffff = 971 := by decide
  have double : (2 : Rat) ^ (971 : Int) = 2 * 2 ^ (970 : Int) := two_zpow_add_one 970
  have power : (2 : Rat) ^ (1024 : Int) = 2 ^ (54 : Int) * 2 ^ (970 : Int) :=
    zpow_add₀ (by decide) 54 970
  have bits : (2 : Rat) ^ (54 : Int) = 0x40000000000000 := by norm_num
  rw [magnitudeAt_succ 0x7fefffffffffffff, below, step, overflow, double, power, bits]
  generalize (2 : Rat) ^ (970 : Int) = half
  ring

/-- The standard rounds the magnitude `r` to the magnitude of `x`. -/
structure RoundsTo (r : Rat) (x : Binary64) : Prop where
  finite : x.isFinite
  inRange : r < overflow
  nearest : ∀ y : Binary64, y.isFinite → |r - x.magnitude| ≤ |r - y.magnitude|
  even : ∀ y : Binary64, y.isFinite → y.magnitude ≠ x.magnitude →
    |r - y.magnitude| = |r - x.magnitude| → x.significand % 2 = 0

/-! ## Section 2: Between two neighbours -/

/-- A real is rounded to the number of a rank by the halves of the steps on
    both sides of it. -/
structure Rounds (r : Rat) (n : Nat) : Prop where
  low : ∀ k, k + 1 = n → magnitudeAt k + magnitudeAt n ≤ 2 * r
  high : 2 * r ≤ magnitudeAt n + magnitudeAt (n + 1)
  even_low : ∀ k, k + 1 = n → 2 * r = magnitudeAt k + magnitudeAt n → n % 2 = 0
  even_high : 2 * r = magnitudeAt n + magnitudeAt (n + 1) → n % 2 = 0

namespace Rounds

/-- No smaller number is nearer, and only the next smaller one is as near. -/
theorem nearer_of_lt (h : Rounds r n) (lt : m < n) :
    |r - magnitudeAt n| ≤ |r - magnitudeAt m| ∧
    (|r - magnitudeAt m| = |r - magnitudeAt n| →
      m + 1 = n ∧ 2 * r = magnitudeAt m + magnitudeAt n) := by
  obtain ⟨k, rfl⟩ : ∃ k, n = k + 1 := Nat.exists_eq_succ_of_ne_zero (Nat.ne_zero_of_lt lt)
  have halfway := h.low k rfl
  have below : magnitudeAt m ≤ magnitudeAt k :=
    magnitudeAt_strictMono.monotone (Nat.le_of_lt_succ lt)
  have smaller : magnitudeAt m < magnitudeAt (k + 1) := magnitudeAt_strictMono lt
  have distance : |r - magnitudeAt m| = r - magnitudeAt m := abs_of_nonneg (by linarith)
  rw [distance]
  refine ⟨abs_le.mpr ⟨by linarith, by linarith⟩, ?_⟩
  intro tie
  -- the two numbers lie on different sides, and none can lie between them
  rcases abs_choice (r - magnitudeAt (k + 1)) with same | other
  · linarith
  · have middle : 2 * r = magnitudeAt m + magnitudeAt (k + 1) := by linarith
    have last : k ≤ m := magnitudeAt_strictMono.le_iff_le.mp (by linarith)
    exact ⟨by omega, middle⟩

/-- No larger number is nearer, and only the next larger one is as near. -/
theorem nearer_of_gt (h : Rounds r n) (gt : n < m) :
    |r - magnitudeAt n| ≤ |r - magnitudeAt m| ∧
    (|r - magnitudeAt m| = |r - magnitudeAt n| →
      m = n + 1 ∧ 2 * r = magnitudeAt n + magnitudeAt m) := by
  have halfway := h.high
  have above : magnitudeAt (n + 1) ≤ magnitudeAt m := magnitudeAt_strictMono.monotone gt
  have larger : magnitudeAt n < magnitudeAt m := magnitudeAt_strictMono gt
  have distance : |r - magnitudeAt m| = magnitudeAt m - r := by
    rw [abs_of_nonpos (by linarith), neg_sub]
  rw [distance]
  refine ⟨abs_le.mpr ⟨by linarith, by linarith⟩, ?_⟩
  intro tie
  rcases abs_choice (r - magnitudeAt n) with other | same
  · have middle : 2 * r = magnitudeAt n + magnitudeAt m := by linarith
    have first : m ≤ n + 1 := magnitudeAt_strictMono.le_iff_le.mp (by linarith)
    exact ⟨by omega, middle⟩
  · linarith

theorem nearest (h : Rounds r n) (m : Nat) : |r - magnitudeAt n| ≤ |r - magnitudeAt m| := by
  rcases Nat.lt_trichotomy m n with lt | rfl | gt
  · exact (h.nearer_of_lt lt).1
  · exact le_rfl
  · exact (h.nearer_of_gt gt).1

/-- Only a neighbour can be as near, and then the rank is even and that of the
    neighbour is odd. -/
theorem parity_of_tie (h : Rounds r n) (other : m ≠ n)
    (tie : |r - magnitudeAt m| = |r - magnitudeAt n|) : n % 2 = 0 ∧ m % 2 = 1 := by
  rcases Nat.lt_or_gt_of_ne other with lt | gt
  · obtain ⟨next, middle⟩ := (h.nearer_of_lt lt).2 tie
    have even := h.even_low m next middle
    omega
  · obtain ⟨rfl, middle⟩ := (h.nearer_of_gt gt).2 tie
    have even := h.even_high middle
    omega

/-- The largest finite number has an odd rank, so that its upper end is not
    rounded to it. -/
theorem lt_overflow (h : Rounds r n) (finite : n < 2047 * 0x10000000000000) : r < overflow := by
  have halfway := h.high
  have last : magnitudeAt n ≤ magnitudeAt 0x7fefffffffffffff :=
    magnitudeAt_strictMono.monotone (by omega)
  rcases Nat.lt_or_eq_of_le (Nat.le_of_lt_succ finite) with lt | rfl
  · have next : magnitudeAt (n + 1) ≤ magnitudeAt 0x7fefffffffffffff :=
      magnitudeAt_strictMono.monotone (by omega)
    have step : magnitudeAt 0x7fefffffffffffff < magnitudeAt 0x7ff0000000000000 :=
      magnitudeAt_strictMono (by decide)
    linarith [magnitudeAt_top]
  · have odd : 2 * r ≠ magnitudeAt 0x7fefffffffffffff + magnitudeAt 0x7ff0000000000000 := by
      intro middle
      exact absurd (h.even_high middle) (by decide)
    have strict := lt_of_le_of_ne halfway odd
    linarith [magnitudeAt_top]

theorem roundsTo (h : Rounds r x.rank) (finite : x.isFinite) : RoundsTo r x where
  finite := finite
  inRange := h.lt_overflow (rank_lt_of_isFinite finite)
  nearest := by
    intro y _
    rw [← magnitudeAt_rank, ← magnitudeAt_rank]
    exact h.nearest y.rank
  even := by
    intro y _ other tie
    rw [← magnitudeAt_rank, ← magnitudeAt_rank] at tie
    have ranks : y.rank ≠ x.rank := mt magnitude_eq_iff.mpr other
    rw [← significandAt_rank, significandAt_mod_two]
    exact (h.parity_of_tie ranks tie).1

theorem eq_of_roundsTo (h : Rounds r x.rank) (finite : x.isFinite) (other : RoundsTo r y)
    (sign : y.isNegative = x.isNegative) : y = x := by
  by_cases ranks : y.rank = x.rank
  · exact eq_of_rank_eq sign ranks
  · -- two numbers can only be equally near, and then not both of them are even
    have tie : |r - y.magnitude| = |r - x.magnitude| :=
      le_antisymm (other.nearest x finite) ((h.roundsTo finite).nearest y other.finite)
    have numbers : x.magnitude ≠ y.magnitude := mt magnitude_eq_iff.mp (Ne.symm ranks)
    have even := other.even x finite numbers tie.symm
    rw [← significandAt_rank, significandAt_mod_two] at even
    rw [← magnitudeAt_rank, ← magnitudeAt_rank] at tie
    have odd := (h.parity_of_tie ranks tie).2
    omega

end Rounds

/-! ## Section 3: The interval of a number -/

/-- The ends of the interval are halfway to the neighbours. -/
theorem two_mul_high (x : Binary64) :
    2 * x.interval.high = magnitudeAt x.rank + magnitudeAt (x.rank + 1) := by
  have double : (2 : Rat) ^ x.scale = 2 * 2 ^ (x.scale - 1) := by
    rw [← two_zpow_add_one, sub_add_cancel]
  have high : x.interval.high = x.magnitude + 2 ^ (x.scale - 1) := rfl
  rw [magnitudeAt_succ, scaleAt_rank, magnitudeAt_rank, double, high]
  ring

/-- Only the number before a power of two has another scale. -/
theorem scaleAt_before (next : n + 1 = x.rank) :
    scaleAt n = if x.fraction = 0 ∧ 1 < x.exponent then x.scale - 1 else x.scale := by
  rw [scaleAt, scale, ← rank_div, ← rank_mod, ← next]
  split <;> omega

theorem two_mul_low (next : n + 1 = x.rank) :
    2 * x.interval.low = magnitudeAt n + magnitudeAt x.rank := by
  have step := magnitudeAt_succ n
  rw [next, scaleAt_before next, magnitudeAt_rank] at step
  have low : x.interval.low = if x.fraction = 0 ∧ 1 < x.exponent
      then x.magnitude - (2 : Rat) ^ (x.scale - 2)
      else x.magnitude - (2 : Rat) ^ (x.scale - 1) := rfl
  rw [magnitudeAt_rank, low]
  split at step <;> rename_i binade
  · have double : (2 : Rat) ^ (x.scale - 1) = 2 * 2 ^ (x.scale - 2) := by
      rw [← two_zpow_add_one]
      congr 1
      omega
    rw [if_pos binade]
    linarith
  · have double : (2 : Rat) ^ x.scale = 2 * 2 ^ (x.scale - 1) := by
      rw [← two_zpow_add_one, sub_add_cancel]
    rw [if_neg binade]
    linarith

theorem rounds_of_contains (h : x.interval.Contains r) : Rounds r x.rank := by
  obtain ⟨low, high, ends⟩ := RoundingInterval.contains_iff.mp h
  have even (atEnd : r = x.interval.low ∨ r = x.interval.high) : x.rank % 2 = 0 := by
    rw [← significandAt_mod_two, significandAt_rank]
    exact beq_iff_eq.mp (ends atEnd)
  refine ⟨?_, ?_, ?_, ?_⟩
  · intro k next
    linarith [two_mul_low next]
  · linarith [two_mul_high x]
  · intro k next middle
    exact even (.inl (by linarith [two_mul_low next]))
  · intro middle
    exact even (.inr (by linarith [two_mul_high x]))

/-- What is nearer to `a` than to `b` is on the side of `a`. -/
theorem add_le_of_nearer {a b : Rat} (less : b < a) (nearer : |r - a| ≤ |r - b|) :
    b + a ≤ 2 * r := by
  by_contra other
  have distance : |r - b| < a - r := abs_lt.mpr ⟨by linarith, by linarith⟩
  have := neg_le_abs (r - a)
  linarith

theorem le_add_of_nearer {a b : Rat} (less : a < b) (nearer : |r - a| ≤ |r - b|) :
    2 * r ≤ a + b := by
  by_contra other
  have distance : |r - b| < r - a := abs_lt.mpr ⟨by linarith, by linarith⟩
  have := le_abs_self (r - a)
  linarith

theorem RoundsTo.nearest_rank (h : RoundsTo r x) (finite : n < 2047 * 0x10000000000000) :
    |r - magnitudeAt x.rank| ≤ |r - magnitudeAt n| := by
  have nearer := h.nearest (ofRank n) (isFinite_ofRank finite)
  rwa [← magnitudeAt_rank, ← magnitudeAt_rank, rank_ofRank (by omega)] at nearer

theorem RoundsTo.even_of_middle (h : RoundsTo r x) (finite : n < 2047 * 0x10000000000000)
    (other : n ≠ x.rank) (middle : 2 * r = magnitudeAt n + magnitudeAt x.rank) :
    x.interval.closed := by
  have rank : (ofRank n).rank = n := rank_ofRank (by omega)
  apply beq_iff_eq.mpr
  apply h.even (ofRank n) (isFinite_ofRank finite)
  · intro same
    rw [magnitude_eq_iff, rank] at same
    exact other same
  · have opposite : r - magnitudeAt n = -(r - magnitudeAt x.rank) := by linarith
    rw [← magnitudeAt_rank, ← magnitudeAt_rank, rank, opposite, abs_neg]

/-- The standard rounds only the reals of the interval to a number. -/
theorem contains_of_roundsTo (nonzero : x.rank ≠ 0) (h : RoundsTo r x) :
    x.interval.Contains r := by
  have range := rank_lt_of_isFinite h.finite
  obtain ⟨k, next⟩ := Nat.exists_eq_succ_of_ne_zero nonzero
  have low := two_mul_low next.symm
  have high := two_mul_high x
  have below : magnitudeAt k < magnitudeAt x.rank := magnitudeAt_strictMono (by omega)
  have above : magnitudeAt x.rank < magnitudeAt (x.rank + 1) := magnitudeAt_strictMono (by omega)
  have nearer := add_le_of_nearer below (h.nearest_rank (by omega))
  rw [RoundingInterval.contains_iff]
  by_cases top : x.rank = 0x7fefffffffffffff
  · -- the number after the largest one is not finite, but the threshold is halfway to it
    have threshold := magnitudeAt_top
    have inRange := h.inRange
    rw [top] at high
    refine ⟨by linarith, by linarith, ?_⟩
    rintro (atLow | atHigh)
    · exact h.even_of_middle (n := k) (by omega) (by omega) (by linarith)
    · linarith
  · have nearer' := le_add_of_nearer above (h.nearest_rank (by omega))
    refine ⟨by linarith, by linarith, ?_⟩
    rintro (atLow | atHigh)
    · exact h.even_of_middle (n := k) (by omega) (by omega) (by linarith)
    · exact h.even_of_middle (n := x.rank + 1) (by omega) (by omega) (by linarith)

/-- **The interval of a number**: its points are the reals that the standard
    rounds to the number. -/
theorem roundsTo_iff_contains (finite : x.isFinite) (nonzero : x.rank ≠ 0) :
    RoundsTo r x ↔ x.interval.Contains r :=
  ⟨contains_of_roundsTo nonzero, fun h => (rounds_of_contains h).roundsTo finite⟩

/-- No interval is used for zero, the decimal of which is `0`. -/
theorem rounds_zero_of_isZero (h : x.isZero) : Rounds 0 x.rank := by
  have zero : magnitudeAt 0 = 0 := by norm_num [magnitudeAt, significandAt]
  have positive : magnitudeAt 0 < magnitudeAt (0 + 1) := magnitudeAt_strictMono (by decide)
  rw [(isZero_iff x).mp h]
  refine ⟨?_, ?_, fun _ _ _ => rfl, fun _ => rfl⟩
  · intro k next
    exact absurd next (Nat.succ_ne_zero k)
  · linarith

end Binary64

end TypedQuery.Number

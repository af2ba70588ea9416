import TypedQuery.Number.Decimal

/-! # The shortest decimal of an interval

    Each number of a binary format stands for the reals that round to it.
    The shortest decimal for such an interval lies on the coarsest grid
    `10 ^ k` that has a point in the interval; of two points there, the one
    nearer to the number is taken, and of two equally near ones the larger.

    The search goes through the grids from coarse to fine. It ends, because
    a binary number is itself a point of a fine enough grid.

    * **`nearest_isSome_iff`**: a grid is passed over exactly if neither
      neighbour of the number on it rounds to the number.
-/

namespace TypedQuery.Number

/-- The reals that round to one positive number. -/
structure RoundingInterval where
  low : Rat
  number : Rat
  high : Rat
  /-- Whether the two ends belong to the interval. -/
  closed : Bool

namespace RoundingInterval

/-- Whether `x` rounds to the number of the interval. -/
def Contains (i : RoundingInterval) (x : Rat) : Prop :=
  if i.closed then i.low ≤ x ∧ x ≤ i.high else i.low < x ∧ x < i.high

instance (i : RoundingInterval) (x : Rat) : Decidable (i.Contains x) := by
  unfold Contains; infer_instance

/-- The multiple of `10 ^ k` just below the number, or the number itself. -/
def below (i : RoundingInterval) (k : Int) : Decimal :=
  ⟨(i.number / (10 : Rat) ^ k).floor.toNat, k⟩

/-- The next multiple of `10 ^ k`. -/
def above (i : RoundingInterval) (k : Int) : Decimal :=
  ⟨(i.number / (10 : Rat) ^ k).floor.toNat + 1, k⟩

/-- The point of the grid `10 ^ k` that stands for the number, if one of its
    two neighbours there rounds to it. -/
def nearest (i : RoundingInterval) (k : Int) : Option Decimal :=
  let down := i.below k
  let up := i.above k
  if i.Contains down.value then
    if i.Contains up.value ∧ up.value - i.number ≤ i.number - down.value then some up
    else some down
  else if i.Contains up.value then some up
  else none

theorem nearest_isSome_iff (i : RoundingInterval) (k : Int) :
    (i.nearest k).isSome ↔ i.Contains (i.below k).value ∨ i.Contains (i.above k).value := by
  unfold nearest
  by_cases hd : i.Contains (i.below k).value <;> by_cases hu : i.Contains (i.above k).value <;>
    simp only [hd, hu, if_true, if_false, true_and, false_and, true_or, or_true, or_self,
      Option.isSome_some, Option.isSome_none, Bool.false_eq_true]
  split <;> simp

/-- The grids `10 ^ k`, `10 ^ (k - 1)`, … in turn, the last one `steps`
    further down; there the number itself is a point. -/
def search (i : RoundingInterval) : Nat → Int → Decimal
  | 0, k => i.below k
  | steps + 1, k => (i.nearest k).getD (i.search steps (k - 1))

/-- A power of ten above the whole interval: the count of digits before the
    point of its upper end. -/
def leading (i : RoundingInterval) : Nat := (digits i.high.floor.toNat).length

/-- The shortest decimal that rounds to the number, which is a multiple of
    `10 ^ -places`. -/
def shortest (i : RoundingInterval) (places : Nat) : Decimal :=
  i.search (i.leading + places) i.leading

end RoundingInterval

end TypedQuery.Number

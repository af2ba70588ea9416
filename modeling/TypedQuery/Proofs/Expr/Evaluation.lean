import TypedQuery.Expr.Basic

/-! # The value of expressions

    In a row of a table an expression has a value, which is a datum or
    `NULL`. What data are and how a database computes with them is left
    open here; what becomes of `NULL` is not:

    * **Comparison** and **arithmetic** are `NULL` if an operand is.
    * **Division** by zero is `NULL`, and so is the remainder of it.
    * **Logic** has a third truth value for what is not known.
    * **Tests** for `NULL` are never `NULL` themselves.
-/

namespace TypedQuery

/-! ## Section 1: Three truth values -/

/-- A truth value, or `none` where it is not known. -/
abbrev Truth : Type := Option Bool

namespace Truth

/-- Both of two: false as soon as one of them is. -/
def conj : Truth → Truth → Truth
  | some false, _ | _, some false => some false
  | some true, some true => some true
  | _, _ => none

/-- Either of two: true as soon as one of them is. -/
def disj : Truth → Truth → Truth
  | some true, _ | _, some true => some true
  | some false, some false => some false
  | _, _ => none

theorem conj_ne_none {a b : Truth} (ha : a ≠ none) (hb : b ≠ none) : conj a b ≠ none := by
  obtain ⟨p, rfl⟩ := Option.ne_none_iff_exists'.mp ha
  obtain ⟨q, rfl⟩ := Option.ne_none_iff_exists'.mp hb
  cases p <;> cases q <;> simp [conj]

theorem disj_ne_none {a b : Truth} (ha : a ≠ none) (hb : b ≠ none) : disj a b ≠ none := by
  obtain ⟨p, rfl⟩ := Option.ne_none_iff_exists'.mp ha
  obtain ⟨q, rfl⟩ := Option.ne_none_iff_exists'.mp hb
  cases p <;> cases q <;> simp [disj]

end Truth

/-! ## Section 2: Data -/

/-- How a database computes with data of type `δ`, which are all its values
    but `NULL`. -/
structure Interpretation (δ : Type) where
  /-- The datum of a literal other than `NULL`. -/
  literal : Value → δ
  /-- The datum of a truth value. -/
  ofBool : Bool → δ
  /-- Whether a datum counts as true. -/
  isTrue : δ → Bool
  /-- Whether a datum counts as zero. -/
  isZero : δ → Bool
  /-- Whether a comparison holds between two data. -/
  holds : BinaryOp → δ → δ → Bool
  /-- The outcome of an operation of arithmetic that has one. -/
  calculate : BinaryOp → δ → δ → δ
  negate : δ → δ
  isTrue_ofBool : ∀ b, isTrue (ofBool b) = b
  literal_bool : ∀ b, literal (.bool b) = ofBool b
  isZero_int : ∀ n, isZero (literal (.int n)) = (n == 0)

/-- What columns and function calls are worth in a row; `none` is `NULL`.
    There is always a count, while any other function may have no result. -/
structure Row (δ : Type) where
  column : String → Option δ
  call : String → List Expr → Bool → Option δ
  count_ne_none : ∀ args distinct, call "COUNT" args distinct ≠ none

/-- Whether an operation has no outcome where its right operand is zero. -/
def BinaryOp.divides : BinaryOp → Bool
  | .div | .mod => true
  | _ => false

namespace Interpretation

variable {δ : Type} (m : Interpretation δ)

/-! ## Section 3: Operations -/

/-- The value of a literal. -/
def constant : Value → Option δ
  | .null => none
  | v => some (m.literal v)

/-- What a value counts as where a truth value is asked for. -/
def truth (x : Option δ) : Truth := x.map m.isTrue

/-- A truth value as a value, turned round if `negated` says so. -/
def verdict (negated : Bool) (t : Truth) : Option δ := t.map fun b => m.ofBool (b != negated)

/-- Compares two values. -/
def compare (op : BinaryOp) : Option δ → Option δ → Truth
  | some x, some y => some (m.holds op x y)
  | _, _ => none

/-- Calculates with two values. -/
def arithmetic (op : BinaryOp) : Option δ → Option δ → Option δ
  | some x, some y => if op.divides && m.isZero y then none else some (m.calculate op x y)
  | _, _ => none

/-- Whether a value is one of a list: it equals the first, or the second, and
    so on. Not even `NULL` may be in an empty list. -/
def member (x : Option δ) (ys : List (Option δ)) : Truth :=
  ys.foldr (fun y found => Truth.disj (m.compare .eq x y) found) (some false)

/-- Whether a value is neither below a bound nor above another. -/
def within (x low high : Option δ) : Truth :=
  Truth.conj (m.compare .ge x low) (m.compare .le x high)

/-- The value of an operator between two operands. -/
def binary (op : BinaryOp) (x y : Option δ) : Option δ :=
  match op with
  | .and => m.verdict false (Truth.conj (m.truth x) (m.truth y))
  | .or => m.verdict false (Truth.disj (m.truth x) (m.truth y))
  | .eq | .ne | .lt | .le | .gt | .ge | .like => m.verdict false (m.compare op x y)
  | .add | .sub | .mul | .div | .mod | .bitAnd | .bitOr => m.arithmetic op x y

/-- The value of an operator before one operand. -/
def unary : UnaryOp → Option δ → Option δ
  | .not, x => m.verdict true (m.truth x)
  | .neg, x => x.map m.negate

section Nulls

variable {m} {op : BinaryOp} {x y : Option δ}

theorem constant_ne_none {v : Value} (h : v ≠ .null) : m.constant v ≠ none := by
  cases v with
  | null => exact absurd rfl h
  | _ => exact Option.some_ne_none _

theorem truth_ne_none (hx : x ≠ none) : m.truth x ≠ none := by
  simpa [truth] using hx

theorem verdict_ne_none {t : Truth} (negated : Bool) (h : t ≠ none) : m.verdict negated t ≠ none := by
  simpa [verdict] using h

theorem compare_ne_none (hx : x ≠ none) (hy : y ≠ none) : m.compare op x y ≠ none := by
  obtain ⟨a, rfl⟩ := Option.ne_none_iff_exists'.mp hx
  obtain ⟨b, rfl⟩ := Option.ne_none_iff_exists'.mp hy
  exact Option.some_ne_none _

/-- A list without `NULL` leaves no doubt, and an empty one never does. -/
theorem member_ne_none {ys : List (Option δ)} (hx : x ≠ none) (hys : ∀ y ∈ ys, y ≠ none) :
    m.member x ys ≠ none := by
  induction ys with
  | nil => exact Option.some_ne_none _
  | cons y ys ih =>
    obtain ⟨first, others⟩ := List.forall_mem_cons.mp hys
    exact Truth.disj_ne_none (compare_ne_none hx first) (ih others)

theorem within_ne_none {low high : Option δ} (hx : x ≠ none) (hl : low ≠ none) (hh : high ≠ none) :
    m.within x low high ≠ none :=
  Truth.conj_ne_none (compare_ne_none hx hl) (compare_ne_none hx hh)

theorem arithmetic_ne_none (hx : x ≠ none) (hy : y ≠ none)
    (nonzero : (op.divides && y.any m.isZero) = false) : m.arithmetic op x y ≠ none := by
  obtain ⟨a, rfl⟩ := Option.ne_none_iff_exists'.mp hx
  obtain ⟨b, rfl⟩ := Option.ne_none_iff_exists'.mp hy
  have outcome : m.arithmetic op (some a) (some b) = some (m.calculate op a b) :=
    if_neg (ne_true_of_eq_false nonzero)
  rw [outcome]
  exact Option.some_ne_none _

theorem arithmetic_zero {d : δ} (divides : op.divides) (zero : m.isZero d) (x : Option δ) :
    m.arithmetic op x (some d) = none := by
  cases x with
  | none => rfl
  | some a => simp [arithmetic, divides, zero]

/-- An operator makes `NULL` of other data only where it divides by zero. -/
theorem binary_ne_none (hx : x ≠ none) (hy : y ≠ none)
    (nonzero : (op.divides && y.any m.isZero) = false) : m.binary op x y ≠ none := by
  cases op with
  | and => exact verdict_ne_none _ (Truth.conj_ne_none (truth_ne_none hx) (truth_ne_none hy))
  | or => exact verdict_ne_none _ (Truth.disj_ne_none (truth_ne_none hx) (truth_ne_none hy))
  | eq | ne | lt | le | gt | ge | like => exact verdict_ne_none _ (compare_ne_none hx hy)
  | add | sub | mul | div | mod | bitAnd | bitOr => exact arithmetic_ne_none hx hy nonzero

theorem unary_ne_none (op : UnaryOp) (hx : x ≠ none) : m.unary op x ≠ none := by
  cases op with
  | not => exact verdict_ne_none _ (truth_ne_none hx)
  | neg => simpa [unary] using hx

end Nulls

/-! ## Section 4: Expressions -/

variable (row : Row δ)

mutual

/-- The value of an expression in a row. A `*` has none of its own. -/
def value : Expr → Option δ
  | .column name => row.column name
  | .literal v => m.constant v
  | .wildcard => none
  | .binary left op right => m.binary op (value left) (value right)
  | .unary op operand => m.unary op (value operand)
  | .isNull operand negated => m.verdict negated (some (value operand).isNone)
  | .inList operand items negated => m.verdict negated (m.member (value operand) (values items))
  | .between operand low high negated =>
    m.verdict negated (m.within (value operand) (value low) (value high))
  -- a call has the value that the rows of its group give it
  | .call name args distinct => row.call name args distinct

/-- The values of several expressions. -/
def values : List Expr → List (Option δ)
  | [] => []
  | e :: es => value e :: values es

end

theorem values_eq_map (es : List Expr) : m.values row es = es.map (m.value row) := by
  induction es with
  | nil => rfl
  | cons e es ih => rw [values, ih, List.map_cons]

mutual

/-- Whether the value of an expression depends on a division by zero. A test
    for `NULL` and a call have a value in any case. -/
def dividesByZero : Expr → Bool
  | .column _ | .literal _ | .wildcard | .isNull .. | .call .. => false
  | .binary left op right =>
    dividesByZero left || dividesByZero right || (op.divides && (m.value row right).any m.isZero)
  | .unary _ operand => dividesByZero operand
  | .inList operand items _ => dividesByZero operand || anyDividesByZero items
  | .between operand low high _ => dividesByZero operand || dividesByZero low || dividesByZero high

/-- Whether one of several values depends on a division by zero. -/
def anyDividesByZero : List Expr → Bool
  | [] => false
  | e :: es => dividesByZero e || anyDividesByZero es

end

theorem anyDividesByZero_eq_any (es : List Expr) :
    m.anyDividesByZero row es = es.any (m.dividesByZero row) := by
  induction es with
  | nil => rfl
  | cons e es ih => rw [anyDividesByZero, ih, List.any_cons]

end Interpretation

end TypedQuery

import Mathlib.Logic.Basic
import Mathlib.Logic.Relation
import TypedQuery.Proofs.Typed.Formation

/-! # Where the flag and the kind come from

    Each operation computes the flag of its expression from those of some of
    its operands. Over a whole formation this comes to a search: an
    expression is flagged if one can descend from it to something that is
    flagged by itself.

    * **`flagged_iff`**: one step of the descent.
    * **`descent`**: what is passed on from operands to expressions holds of
      all formations.
    * **`nullable_and_kind`**: the flag is found by descending, and the kind
      is that of the operation, or of its first operand.
-/

namespace TypedQuery

open Expression (Aggregate)

namespace Formation

variable {leaf : DataType → Expr → Prop}

/-! ## Section 1: Descending -/

/-- A formation for any role and of any type. -/
abbrev Node (leaf : DataType → Expr → Prop) : Type := Σ r : Role, Σ t : DataType, Formation leaf r t

/-- A formation as a node. -/
def node {r : Role} {t : DataType} (x : Formation leaf r t) : Node leaf := ⟨r, t, x⟩

/-- The operands that one descends to. A test for `NULL` and an aggregate are
    where a descent ends, and so is a count. -/
def operands {r : Role} {t : DataType} : Formation leaf r t → List (Node leaf)
  | .ofOperand e => [e.node]
  | .compare _ _ left right => [left.node, right.node]
  | .inList operand items _ => operand.node :: List.ofFn fun i => (items i).node
  | .between operand low high _ => [operand.node, low.node, high.node]
  | .and left right | .or left right => [left.node, right.node]
  | .not operand => [operand.node]
  | .calculate _ _ left right => [left.node, right.node]
  | .neg _ operand => [operand.node]
  | .leaf .. | .lit _ | .plain .. | .isNull .. | .aggregate .. | .countAll => []

/-- What is flagged by itself: leaves of a type that admits `NULL`, and
    aggregates that have no result for an empty group. Plain data count only
    if they are of the very type of the operand on their left. -/
def IsOrigin {r : Role} {t : DataType} : Formation leaf r t → Prop
  | .leaf (t := t) _ _ => t.isNullable
  | .lit (t := t) _ => t.isNullable
  | .plain (t := t) type _ _ => type = t ∧ type.isNullable
  | .aggregate f _ _ => f ∈ [Aggregate.sum, .avg, .min, .max]
  | _ => False

/-- One step down, to an operand. -/
def Descends (x y : Node leaf) : Prop := y ∈ x.2.2.operands

/-- One can descend from the first node to the second. -/
def Reaches : Node leaf → Node leaf → Prop := Relation.ReflTransGen Descends

/-- **Step**: a flag is that of the operation itself or of an operand. -/
theorem flagged_iff {r : Role} {t : DataType} (x : Formation leaf r t) :
    x.expression.nullable ↔ x.IsOrigin ∨ ∃ y ∈ x.operands, y.2.2.expression.nullable := by
  cases x with
  | leaf | lit => simp [expression, Expression.lit, Expression.ofTree, IsOrigin, operands]
  | ofOperand => simp [expression, IsOrigin, operands, node]
  | plain type h d =>
    by_cases same : type = t
    · simp [expression, Expression.plain, Expression.lit, Expression.ofTree, IsOrigin, operands,
        same]
    · simp [expression, Expression.plain, IsOrigin, operands, same]
  | compare | and | or | calculate =>
    simp [expression, Expression.compare, Expression.and, Expression.or, Expression.calculate,
      Expression.predicate, IsOrigin, operands, node]
  | not | neg =>
    simp [expression, Expression.not, Expression.neg, Expression.predicate, IsOrigin, operands,
      node]
  | between =>
    simp [expression, Expression.between, Expression.predicate, IsOrigin, operands, node, or_assoc]
  | inList =>
    simp [expression, Expression.inList, Expression.predicate, IsOrigin, operands, node]
  | isNull | countAll =>
    simp [expression, Expression.isNull, Expression.predicate, Expression.countAll, IsOrigin,
      operands]
  | aggregate f =>
    cases f <;>
      simp [expression, Expression.aggregate, Aggregate.nullable, IsOrigin, operands]

/-- **Descent**: what holds of a formation as soon as it holds of the operands
    that one descends to holds of all formations. -/
theorem descent {P : Node leaf → Prop} (step : ∀ x : Node leaf, (∀ y ∈ x.2.2.operands, P y) → P x)
    {r : Role} {t : DataType} (x : Formation leaf r t) : P x.node := by
  induction x with
  | leaf | lit | plain | isNull | aggregate | countAll => exact step _ (List.forall_mem_nil _)
  | ofOperand _ ih | not _ ih | neg _ _ ih => exact step _ (List.forall_mem_singleton.mpr ih)
  | compare _ _ _ _ ihl ihr | and _ _ ihl ihr | or _ _ ihl ihr | calculate _ _ _ _ ihl ihr =>
    have right := List.forall_mem_singleton.mpr ihr
    exact step _ (List.forall_mem_cons.mpr ⟨ihl, right⟩)
  | between _ _ _ _ ih ihl ihh =>
    have bounds := List.forall_mem_cons.mpr ⟨ihl, List.forall_mem_singleton.mpr ihh⟩
    exact step _ (List.forall_mem_cons.mpr ⟨ih, bounds⟩)
  | inList operand items negated ih ihi =>
    have all : ∀ y ∈ List.ofFn fun i => (items i).node, P y := by
      intro y h
      obtain ⟨i, rfl⟩ := List.mem_ofFn.mp h
      exact ihi i
    exact step _ (List.forall_mem_cons.mpr ⟨ih, all⟩)

/-! ## Section 2: Flags -/

/-- A flag is passed on all the way up. -/
theorem nullable_of_reaches {x y : Node leaf} (h : Reaches x y) (origin : y.2.2.IsOrigin) :
    x.2.2.expression.nullable := by
  induction h using Relation.ReflTransGen.head_induction_on with
  | refl => exact (flagged_iff _).mpr (.inl origin)
  | head down _ ih => exact (flagged_iff _).mpr (.inr ⟨_, down, ih⟩)

/-- Where there is a flag, it comes from somewhere. -/
theorem exists_origin {r : Role} {t : DataType} (x : Formation leaf r t) :
    x.expression.nullable → ∃ y, Reaches x.node y ∧ y.2.2.IsOrigin := by
  apply descent (P := fun x => x.2.2.expression.nullable → ∃ y, Reaches x y ∧ y.2.2.IsOrigin)
  intro x operands flagged
  rcases (flagged_iff _).mp flagged with origin | ⟨y, down, flagged⟩
  · exact ⟨x, .refl, origin⟩
  · obtain ⟨z, further, origin⟩ := operands y down flagged
    exact ⟨z, .head down further, origin⟩

/-! ## Section 3: Kinds -/

/-- The kind of an expression, told from its formation. -/
def kind {r : Role} {t : DataType} : Formation leaf r t → Kind
  | .leaf (t := t) _ _ | .lit (t := t) _ | .plain (t := t) _ _ _ => t.kind
  | .ofOperand e => e.kind
  | .compare .. | .isNull .. | .inList .. | .between .. => .boolean
  | .and .. | .or .. | .not _ => .boolean
  | .calculate _ _ left _ => left.kind
  | .neg _ operand => operand.kind
  | .aggregate .sum _ operand | .aggregate .min _ operand | .aggregate .max _ operand =>
    operand.kind
  | .aggregate .avg _ _ => .double
  | .aggregate .count _ _ | .aggregate .countDistinct _ _ | .countAll => .long

theorem kind_eq {r : Role} {t : DataType} (x : Formation leaf r t) : x.kind = t.kind := by
  induction x with
  | ofOperand _ ih | neg _ _ ih => exact ih
  | calculate _ _ _ _ ih _ => exact ih
  | aggregate f _ _ ih =>
    cases f with
    | sum | min | max => exact ih
    | avg | count | countDistinct => rfl
  | _ => rfl

/-- **Flag and kind**: an expression is flagged exactly if one can descend
    from it to a leaf of a type that admits `NULL` or to an aggregate that may
    have no result; its kind is that of the operation or of its first operand;
    and a field has both as they are. -/
theorem nullable_and_kind {r : Role} {t : DataType} (x : Formation leaf r t) :
    (x.expression.nullable ↔ ∃ y, Reaches x.node y ∧ y.2.2.IsOrigin) ∧
    x.expression.type.kind = x.kind ∧
    x.expression.field.nullable = x.expression.nullable ∧ x.expression.field.kind = x.kind := by
  have kind : x.expression.type.kind = x.kind := by rw [type_expression, kind_eq]
  refine ⟨⟨exists_origin x, ?_⟩, kind, rfl, kind⟩
  intro ⟨y, reached, origin⟩
  exact nullable_of_reaches reached origin

end Formation

end TypedQuery

import TypedQuery.Registry.Column

/-! # How typed expressions are formed

    A program does not write a typed expression down with its type and its
    flag. It forms it from leaves, operation by operation, and each operation
    takes operands of certain types only. A formation is that history, with
    the types in it, so one that is ill typed cannot be written.

    * **`type_expression`**: the expression has the type of its formation.
    * **`nullable_of_isNullable`**: an expression of a type that admits
      `NULL` is flagged.
-/

namespace TypedQuery

/-! ## Section 1: Types with operations of their own -/

namespace DataType

/-- Whether data of a type are numbers, if there are any. -/
def isNumeric (t : DataType) : Bool :=
  match t.kind with
  | .integer | .short | .long | .float | .double => true
  | _ => false

/-- Whether `LIKE` applies to a type. -/
def isTextual (t : DataType) : Bool :=
  match t.kind with
  | .text | .char => true
  | _ => false

end DataType

/-- Whether an aggregate calculates with its operand. -/
def Expression.Aggregate.calculates : Expression.Aggregate → Bool
  | .sum | .avg => true
  | .count | .countDistinct | .min | .max => false

/-! ## Section 2: Formations -/

open Expression (Comparison Arithmetic Aggregate)

/-- What an expression is formed for. -/
inductive Role where
  /-- To be the left operand of an operation, or used as it is. -/
  | operand
  /-- To be the right operand of one, where plain data may stand too. -/
  | argument

/-- How an expression of a type is formed from leaves, which are trees taken
    to be of a type. -/
inductive Formation (leaf : DataType → Expr → Prop) : Role → DataType → Type where
  | leaf {t : DataType} (tree : Expr) (h : leaf t tree) : Formation leaf .operand t
  | lit {t : DataType} (d : t.Datum) : Formation leaf .operand t
  /-- An expression on the right of an operand of its own type. -/
  | ofOperand {t : DataType} (e : Formation leaf .operand t) : Formation leaf .argument t
  /-- Plain data on the right of an operand of their own type, or of that type
      with an optional layer. -/
  | plain {t : DataType} (type : DataType) (h : type = t ∨ type.optional = t)
      (d : type.Datum) : Formation leaf .argument t
  | compare {t : DataType} (c : Comparison) (h : c = .like → t.isTextual)
      (left : Formation leaf .operand t) (right : Formation leaf .argument t) :
      Formation leaf .operand .boolean
  | isNull {t : DataType} (operand : Formation leaf .operand t) (negated : Bool) :
      Formation leaf .operand .boolean
  | inList {t : DataType} {n : Nat} (operand : Formation leaf .operand t)
      (items : Fin n → Formation leaf .argument t) (negated : Bool) :
      Formation leaf .operand .boolean
  | between {t : DataType} (operand : Formation leaf .operand t)
      (low high : Formation leaf .argument t) (negated : Bool) : Formation leaf .operand .boolean
  | and (left : Formation leaf .operand .boolean) (right : Formation leaf .argument .boolean) :
      Formation leaf .operand .boolean
  | or (left : Formation leaf .operand .boolean) (right : Formation leaf .argument .boolean) :
      Formation leaf .operand .boolean
  | not (operand : Formation leaf .operand .boolean) : Formation leaf .operand .boolean
  | calculate {t : DataType} (a : Arithmetic) (h : t.isNumeric)
      (left : Formation leaf .operand t) (right : Formation leaf .argument t) :
      Formation leaf .operand t
  | neg {t : DataType} (h : t.isNumeric) (operand : Formation leaf .operand t) :
      Formation leaf .operand t
  | aggregate {t : DataType} (f : Aggregate) (h : f.calculates → t.isNumeric)
      (operand : Formation leaf .operand t) : Formation leaf .operand (f.type t)
  | countAll : Formation leaf .operand .long

/-- The columns of a set as leaves. -/
inductive ColumnLeaf (columns : Column → Prop) : DataType → Expr → Prop where
  | column (c : Column) (h : columns c) : ColumnLeaf columns c.type (.column c.entry.name)

namespace Formation

variable {leaf : DataType → Expr → Prop}

/-- The expression that is formed. -/
def expression {r : Role} {t : DataType} : Formation leaf r t → Expression
  | .leaf tree _ => .ofTree t tree
  | .lit d => .lit t d
  | .ofOperand e => e.expression
  | .plain type _ d => .plain t type d
  | .compare c _ left right => .compare c left.expression right.expression
  | .isNull operand negated => operand.expression.isNull negated
  | .inList operand items negated =>
    operand.expression.inList (List.ofFn fun i => (items i).expression) negated
  | .between operand low high negated =>
    operand.expression.between low.expression high.expression negated
  | .and left right => left.expression.and right.expression
  | .or left right => left.expression.or right.expression
  | .not operand => operand.expression.not
  | .calculate a _ left right => .calculate a left.expression right.expression
  | .neg _ operand => operand.expression.neg
  | .aggregate f _ operand => .aggregate f operand.expression
  | .countAll => .countAll

/-- Forming an expression gives it the type that was meant. -/
theorem type_expression {r : Role} {t : DataType} (x : Formation leaf r t) :
    x.expression.type = t := by
  induction x with
  | plain type h d =>
    unfold expression Expression.plain
    split
    · assumption
    · rfl
  | ofOperand e ih => exact ih
  | calculate a h left right ih _ => exact ih
  | neg h operand ih => exact ih
  | aggregate f h operand ih => exact congrArg f.type ih
  | _ => rfl

/-- An expression of a type that admits `NULL` is flagged. Only plain data on
    the right of an operand are an exception. -/
theorem nullable_of_isNullable {t : DataType} (x : Formation leaf .operand t)
    (h : t.isNullable) : x.expression.nullable := by
  generalize hr : Role.operand = r at x
  induction x with
  | leaf tree _ => exact h
  | lit d => exact h
  | ofOperand _ _ | plain _ _ _ => cases hr
  -- a truth value is never `NULL` by its type, and neither is a count
  | compare | isNull | inList | between | and | or | not | countAll => cases h
  | calculate a _ left right ih _ => exact Bool.or_eq_true_iff.mpr (.inl (ih h rfl))
  | neg _ operand ih => exact ih h rfl
  | aggregate f _ operand _ =>
    cases f with
    | count | countDistinct => cases h
    | sum | avg | min | max => rfl

end Formation

end TypedQuery

import TypedQuery.Data.Type
import TypedQuery.Expr.Rendering

/-! # Typed expressions

    An expression together with its data type and whether it may be `NULL`.
    Both are computed from the operands by each operation:

    * **Leaves** are nullable if their type is, except that plain data given
      where an operand of an optional type stands is never nullable.
    * **Operators** are nullable if an operand is; the tests `IS NULL` and
      `IS NOT NULL` never are.
    * **Aggregates** are nullable, except a count.
-/

namespace TypedQuery

/-! ## Fields -/

/-- An expression as a statement selects, groups and orders by it: with the
    kind of its values and whether it may be `NULL`. -/
structure Field where
  tree : Expr
  kind : Kind
  nullable : Bool
  deriving Repr

namespace Field

/-- The field as it is shown. -/
def display (f : Field) : String := f.tree.display

/-- Adds the text of a field to a statement. -/
def write (f : Field) (s : Statement) : Statement := f.tree.write s

/-- Whether two fields are alike, with numbers compared as numbers. -/
def equal (f g : Field) : Bool :=
  f.tree.equal g.tree && f.kind == g.kind && f.nullable == g.nullable

end Field

/-! ## Expressions -/

/-- A typed expression. -/
structure Expression where
  type : DataType
  tree : Expr
  nullable : Bool
  deriving Repr

namespace Expression

/-- The expression as a field. -/
def field (e : Expression) : Field := ⟨e.tree, e.type.kind, e.nullable⟩

/-- Adds the text of an expression to a statement. -/
def write (e : Expression) (s : Statement) : Statement := e.tree.write s

/-- The statement that consists of an expression. -/
def statement (e : Expression) : Statement := e.tree.statement

/-- The expression as it is shown. -/
def display (e : Expression) : String := e.tree.display

/-! ## Leaves -/

/-- A tree taken to be of a type. -/
def ofTree (type : DataType) (tree : Expr) : Expression := ⟨type, tree, type.isNullable⟩

/-- A literal. -/
def lit (type : DataType) (d : type.Datum) : Expression :=
  .ofTree type (.literal (type.toValue d))

/-- Plain data where an operand of type `expected` stands. Data of another
    type than that is of the type under its optional layer. -/
def plain (expected type : DataType) (d : type.Datum) : Expression :=
  if type = expected then .lit type d
  else ⟨expected, .literal (type.toValue d), false⟩

/-! ## Comparisons and tests -/

/-- The operators that compare two operands. -/
inductive Comparison where
  | eq
  | ne
  | lt
  | le
  | gt
  | ge
  | like
  deriving DecidableEq, Repr

/-- The operator of a comparison. -/
def Comparison.op : Comparison → BinaryOp
  | .eq => .eq
  | .ne => .ne
  | .lt => .lt
  | .le => .le
  | .gt => .gt
  | .ge => .ge
  | .like => .like

/-- A predicate. -/
def predicate (tree : Expr) (nullable : Bool) : Expression := ⟨.boolean, tree, nullable⟩

/-- Compares two operands. -/
def compare (c : Comparison) (left right : Expression) : Expression :=
  predicate (.binary left.tree c.op right.tree) (left.nullable || right.nullable)

/-- Tests for `NULL`, or for anything else if negated. -/
def isNull (operand : Expression) (negated : Bool) : Expression :=
  predicate (.isNull operand.tree negated) false

/-- Tests for membership in a list, or for its contrary. -/
def inList (operand : Expression) (items : List Expression) (negated : Bool) : Expression :=
  predicate (.inList operand.tree (items.map (·.tree)) negated)
    (operand.nullable || items.any (·.nullable))

/-- Tests for a value between two bounds, or for its contrary. -/
def between (operand low high : Expression) (negated : Bool) : Expression :=
  predicate (.between operand.tree low.tree high.tree negated)
    (operand.nullable || low.nullable || high.nullable)

/-! ## Logic and arithmetic -/

/-- Both predicates. -/
def and (left right : Expression) : Expression :=
  predicate (.binary left.tree .and right.tree) (left.nullable || right.nullable)

/-- Either predicate. -/
def or (left right : Expression) : Expression :=
  predicate (.binary left.tree .or right.tree) (left.nullable || right.nullable)

/-- The contrary of a predicate. -/
def not (operand : Expression) : Expression :=
  predicate (.unary .not operand.tree) operand.nullable

/-- The operators of arithmetic. -/
inductive Arithmetic where
  | add
  | sub
  | mul
  | div
  | mod
  deriving DecidableEq, Repr

/-- The operator of an arithmetic operation. -/
def Arithmetic.op : Arithmetic → BinaryOp
  | .add => .add
  | .sub => .sub
  | .mul => .mul
  | .div => .div
  | .mod => .mod

/-- Calculates with two numbers; the type is that of the left one. -/
def calculate (a : Arithmetic) (left right : Expression) : Expression :=
  ⟨left.type, .binary left.tree a.op right.tree, left.nullable || right.nullable⟩

/-- The negative of a number. -/
def neg (operand : Expression) : Expression :=
  ⟨operand.type, .unary .neg operand.tree, operand.nullable⟩

/-! ## Aggregates -/

/-- The functions that make one value of the rows of a group. -/
inductive Aggregate where
  | count
  | countDistinct
  | sum
  | avg
  | min
  | max
  deriving DecidableEq, Repr

namespace Aggregate

/-- The name of the function. -/
def sqlName : Aggregate → String
  | .count | .countDistinct => "COUNT"
  | .sum => "SUM"
  | .avg => "AVG"
  | .min => "MIN"
  | .max => "MAX"

/-- The type of the result for an operand of a type. -/
def type : Aggregate → DataType → DataType
  | .count, _ | .countDistinct, _ => .long
  | .avg, _ => .double
  | .sum, t | .min, t | .max, t => t

/-- Whether the result is `NULL` for an empty group. -/
def nullable : Aggregate → Bool
  | .count | .countDistinct => false
  | .sum | .avg | .min | .max => true

end Aggregate

/-- An aggregate of an operand. -/
def aggregate (f : Aggregate) (operand : Expression) : Expression :=
  ⟨f.type operand.type, .call f.sqlName [operand.tree] (f == .countDistinct), f.nullable⟩

/-- The count of rows. -/
def countAll : Expression := ⟨.long, .call "COUNT" [.wildcard] false, false⟩

end Expression

end TypedQuery

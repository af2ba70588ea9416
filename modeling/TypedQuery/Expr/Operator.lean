/-! # Operators

    The operators of expressions with their text and their precedence: how
    tightly an operator binds, from `OR` at 1 to a leading minus at 12. All
    comparisons and tests share one level, and an atom binds tightest of all.
-/

namespace TypedQuery

/-- The precedence of comparisons and of the tests `IS NULL`, `IN` and
    `BETWEEN`. -/
def comparisonPrecedence : Nat := 5

/-- The precedence of what needs no parentheses anywhere. -/
def atomPrecedence : Nat := 13

/-- Operators between two operands. -/
inductive BinaryOp where
  | add
  | sub
  | mul
  | div
  | mod
  | eq
  | ne
  | lt
  | le
  | gt
  | ge
  | like
  | and
  | or
  | bitAnd
  | bitOr
  deriving DecidableEq, Repr

namespace BinaryOp

/-- The text of an operator. -/
def sql : BinaryOp → String
  | .add => "+"
  | .sub => "-"
  | .mul => "*"
  | .div => "/"
  | .mod => "%"
  | .eq => "="
  | .ne => "!="
  | .lt => "<"
  | .le => "<="
  | .gt => ">"
  | .ge => ">="
  | .like => "LIKE"
  | .and => "AND"
  | .or => "OR"
  | .bitAnd => "&"
  | .bitOr => "|"

/-- How tightly an operator binds. -/
def precedence : BinaryOp → Nat
  | .or => 1
  | .and => 3
  | .eq | .ne | .lt | .le | .gt | .ge | .like => comparisonPrecedence
  | .bitOr => 6
  | .bitAnd => 7
  | .add | .sub => 9
  | .mul | .div | .mod => 10

theorem precedence_pos (op : BinaryOp) : 0 < op.precedence := by
  cases op <;> decide

theorem precedence_lt_atom (op : BinaryOp) : op.precedence < atomPrecedence := by
  cases op <;> decide

end BinaryOp

/-- Operators before one operand. -/
inductive UnaryOp where
  | not
  | neg
  deriving DecidableEq, Repr

namespace UnaryOp

/-- The text of an operator, with the blank that a word needs after it. -/
def sql : UnaryOp → String
  | .not => "NOT "
  | .neg => "-"

/-- How tightly an operator binds. -/
def precedence : UnaryOp → Nat
  | .not => 4
  | .neg => 12

end UnaryOp

end TypedQuery

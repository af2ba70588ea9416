import TypedQuery.Data.Value
import TypedQuery.Expr.Operator

/-! # Expressions

    Trees of columns, literals, operators, tests and calls, without types.
-/

namespace TypedQuery

/-- An expression. -/
inductive Expr where
  /-- A column, by its name. -/
  | column (name : String)
  | literal (v : Value)
  /-- `*`, which means something only as the argument of `COUNT`. -/
  | wildcard
  | binary (left : Expr) (op : BinaryOp) (right : Expr)
  | unary (op : UnaryOp) (operand : Expr)
  /-- `IS NULL`, or `IS NOT NULL` if negated. -/
  | isNull (operand : Expr) (negated : Bool)
  /-- `IN` a list, or `NOT IN` if negated. -/
  | inList (operand : Expr) (items : List Expr) (negated : Bool)
  /-- `BETWEEN` two bounds, or `NOT BETWEEN` if negated. -/
  | between (operand low high : Expr) (negated : Bool)
  /-- A function call, of the distinct arguments only if so marked. -/
  | call (name : String) (args : List Expr) (distinct : Bool)
  deriving Repr

namespace Expr

/-- How tightly an expression binds as an operand. -/
def precedence : Expr → Nat
  | .binary _ op _ => op.precedence
  | .unary op _ => op.precedence
  | .isNull .. | .inList .. | .between .. => comparisonPrecedence
  | .column _ | .literal _ | .wildcard | .call .. => atomPrecedence

/-- Whether an expression is a literal that starts with a minus sign. -/
def isSignedLiteral : Expr → Bool
  | .literal v => v.hasSign
  | _ => false

/-! ## Equality -/

mutual

/-- Whether two expressions are alike, with numbers compared as numbers: a
    NaN is unlike itself, and the two zeros are alike. -/
def equal : Expr → Expr → Bool
  | .column a, .column b => a == b
  | .literal v, .literal w => v.equal w
  | .wildcard, .wildcard => true
  | .binary l op r, .binary l' op' r' => l.equal l' && op == op' && r.equal r'
  | .unary op e, .unary op' e' => op == op' && e.equal e'
  | .isNull e n, .isNull e' n' => e.equal e' && n == n'
  | .inList e items n, .inList e' items' n' => e.equal e' && equalAll items items' && n == n'
  | .between e l h n, .between e' l' h' n' =>
    e.equal e' && l.equal l' && h.equal h' && n == n'
  | .call f args d, .call f' args' d' => f == f' && equalAll args args' && d == d'
  | _, _ => false

/-- Whether two lists of expressions are alike item by item. -/
def equalAll : List Expr → List Expr → Bool
  | [], [] => true
  | e :: es, e' :: es' => e.equal e' && equalAll es es'
  | _, _ => false

end

end Expr

end TypedQuery

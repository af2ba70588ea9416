import TypedQuery.Expr.Basic
import TypedQuery.Statement.Lemmas

/-! # The text of expressions

    An expression is written with the parentheses that its operators need
    and no others: a left operand is wrapped if it binds less tightly than
    the operator, a right operand also if it binds as tightly. A literal
    that starts with a minus sign is wrapped behind a minus.

    * **`writeItems_eq_separated`**: a list of expressions is written with
      commas between.
-/

namespace TypedQuery.Expr

mutual

/-- Adds the text of an expression to a statement. A test against an empty
    list, which the database does not read, is the truth value it has. -/
def write : Expr → Statement → Statement
  | .column name, s => s.identifier name
  | .literal v, s => s.value v
  | .wildcard, s => s.text "*"
  | .binary left op right, s =>
    let s := s.grouped (left.precedence < op.precedence) left.write
    let s := s.text " " |>.text op.sql |>.text " "
    s.grouped (right.precedence ≤ op.precedence) right.write
  | .unary op operand, s =>
    (s.text op.sql).grouped
      (operand.precedence < op.precedence || (op == .neg && operand.isSignedLiteral))
      operand.write
  | .isNull operand negated, s =>
    (s.grouped (operand.precedence ≤ comparisonPrecedence) operand.write).text
      (if negated then " IS NOT NULL" else " IS NULL")
  | .inList _ [] negated, s => s.value (.bool negated)
  | .inList operand (item :: items) negated, s =>
    let s := s.grouped (operand.precedence ≤ comparisonPrecedence) operand.write
    let s := s.text (if negated then " NOT IN (" else " IN (")
    (writeRest items (item.write s)).text ")"
  | .between operand low high negated, s =>
    let s := s.grouped (operand.precedence ≤ comparisonPrecedence) operand.write
    let s := s.text (if negated then " NOT BETWEEN " else " BETWEEN ")
    let s := s.grouped (low.precedence ≤ comparisonPrecedence) low.write
    let s := s.text " AND "
    s.grouped (high.precedence ≤ comparisonPrecedence) high.write
  | .call name args distinct, s =>
    let s := s.text name |>.text "("
    let s := if distinct then s.text "DISTINCT " else s
    (writeItems args s).text ")"

/-- Adds expressions with commas between. -/
def writeItems : List Expr → Statement → Statement
  | [], s => s
  | e :: es, s => writeRest es (e.write s)

/-- Adds expressions with a comma before each. -/
def writeRest : List Expr → Statement → Statement
  | [], s => s
  | e :: es, s => writeRest es (e.write (s.text ", "))

end

/-- The statement that consists of an expression. -/
def statement (e : Expr) : Statement := e.write .empty

/-- An expression as it is shown: with its values as literals. -/
def display (e : Expr) : String := e.statement.inlined

/-! ## Lists -/

theorem writeRest_eq_foldl (es : List Expr) (s : Statement) :
    writeRest es s = es.foldl (fun s e => e.write (s.text ", ")) s := by
  induction es generalizing s with
  | nil => rfl
  | cons e es ih => rw [writeRest, ih, List.foldl_cons]

theorem writeItems_eq_separated (es : List Expr) (s : Statement) :
    writeItems es s = s.separated ", " write es := by
  cases es with
  | nil => rfl
  | cons e es => rw [writeItems, writeRest_eq_foldl, Statement.separated]

end TypedQuery.Expr

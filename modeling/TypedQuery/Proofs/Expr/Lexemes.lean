import TypedQuery.Expr.Rendering
import TypedQuery.Proofs.Lexeme.Basic

/-! # The lexemes of expressions

    What an expression adds to a statement, lexeme by lexeme.

    * **`write_eq_add`**: the lexemes say all that is written.
    * **`write_eq`**: an expression adds to a statement what it is on its
      own.
-/

namespace TypedQuery

open Lexeme (pieces)

/-! ## Section 1: Lexemes -/

/-- The sign and the digits of a number that is written into the text. -/
def Value.number? : Value → Option (Bool × String)
  | .int n => some (n.toInt < 0, String.ofList (Number.digits n.toInt.natAbs))
  | .float x => if x.isFinite then some (x.isNegative, String.ofList x.decimal.positional) else none
  | _ => none

/-- The lexemes of a value. -/
def Value.lexemes : Value → List (Lexeme Value)
  | .null => [.keyword .NULL]
  | .bool b => [.keyword (if b then .TRUE else .FALSE)]
  | v =>
    match v.number? with
    | some (true, digits) => [.symbol .minus, .numeral digits]
    | some (false, digits) => [.numeral digits]
    | none => [.place v]

/-- A value is written as a word, as a number with or without sign, or not
    at all. -/
theorem Value.lexemes_cases (v : Value) :
    (v = .null ∧ v.lexemes = [.keyword .NULL]) ∨
    (∃ b, v = .bool b ∧ v.lexemes = [.keyword (if b then .TRUE else .FALSE)]) ∨
    (∃ digits, v.number? = some (true, digits) ∧
      v.lexemes = [.symbol .minus, .numeral digits]) ∨
    (∃ digits, v.number? = some (false, digits) ∧ v.lexemes = [.numeral digits]) ∨
    (v.isInline = false ∧ v.lexemes = [.place v]) := by
  cases v with
  | null => simp [lexemes]
  | bool b => simp [lexemes]
  | int n => by_cases h : n.toInt < 0 <;> simp [lexemes, number?, h]
  | float x =>
    cases hf : x.isFinite <;> cases hn : x.isNegative <;>
      simp [lexemes, number?, isInline, hf, hn]
  | text _ | bytes _ | timestamp _ => simp [lexemes, number?, isInline]

/-- The lexeme of an operator between two operands. -/
def BinaryOp.lexeme {ν : Type} : BinaryOp → Lexeme ν
  | .add => .symbol .plus
  | .sub => .symbol .minus
  | .mul => .symbol .star
  | .div => .symbol .slash
  | .mod => .symbol .percent
  | .eq => .symbol .eq
  | .ne => .symbol .ne
  | .lt => .symbol .lt
  | .le => .symbol .le
  | .gt => .symbol .gt
  | .ge => .symbol .ge
  | .like => .keyword .LIKE
  | .and => .keyword .AND
  | .or => .keyword .OR
  | .bitAnd => .symbol .amp
  | .bitOr => .symbol .bar

@[simp] theorem BinaryOp.piece_lexeme (op : BinaryOp) : op.lexeme.piece = .text op.sql := by
  cases op <;> rfl

/-- The lexemes of an operator before one operand. -/
def UnaryOp.lexemes {ν : Type} : UnaryOp → List (Lexeme ν)
  | .not => [.keyword .NOT, .blank]
  | .neg => [.symbol .minus]

namespace Lexeme

/-- Lexemes between parentheses if `wrap` says so. -/
def grouped {ν : Type} (wrap : Bool) (ls : List (Lexeme ν)) : List (Lexeme ν) :=
  if wrap then .symbol .lparen :: ls ++ [.symbol .rparen] else ls

end Lexeme

namespace Expr

open Lexeme (grouped)

mutual

/-- The lexemes of an expression. -/
def lexemes : Expr → List (Lexeme Value)
  | .column name => [.identifier name]
  | .literal v => v.lexemes
  | .wildcard => [.symbol .star]
  | .binary left op right =>
    grouped (left.precedence < op.precedence) left.lexemes ++
      .blank :: op.lexeme :: .blank :: grouped (right.precedence ≤ op.precedence) right.lexemes
  | .unary op operand =>
    op.lexemes ++
      -- two minus signs in a row would begin a comment
      grouped (operand.precedence < op.precedence || (op == .neg && operand.isSignedLiteral))
        operand.lexemes
  | .isNull operand negated =>
    grouped (operand.precedence ≤ comparisonPrecedence) operand.lexemes ++
      .blank :: .keyword .IS :: .blank ::
        (if negated then [.keyword .NOT, .blank, .keyword .NULL] else [.keyword .NULL])
  | .inList _ [] negated => [.keyword (if negated then .TRUE else .FALSE)]
  | .inList operand (item :: items) negated =>
    grouped (operand.precedence ≤ comparisonPrecedence) operand.lexemes ++
      .blank :: ((if negated then [.keyword .NOT, .blank] else []) ++
        .keyword .IN :: .blank :: .symbol .lparen ::
          (item.lexemes ++ restLexemes items ++ [.symbol .rparen]))
  | .between operand low high negated =>
    grouped (operand.precedence ≤ comparisonPrecedence) operand.lexemes ++
      .blank :: ((if negated then [.keyword .NOT, .blank] else []) ++
        .keyword .BETWEEN :: .blank ::
          (grouped (low.precedence ≤ comparisonPrecedence) low.lexemes ++
            .blank :: .keyword .AND :: .blank ::
              grouped (high.precedence ≤ comparisonPrecedence) high.lexemes))
  | .call name args distinct =>
    .function name :: .symbol .lparen ::
      ((if distinct then [.keyword .DISTINCT, .blank] else []) ++
        (itemsLexemes args ++ [.symbol .rparen]))

/-- The lexemes of expressions with commas between. -/
def itemsLexemes : List Expr → List (Lexeme Value)
  | [] => []
  | e :: es => e.lexemes ++ restLexemes es

/-- The lexemes of expressions with a comma before each. -/
def restLexemes : List Expr → List (Lexeme Value)
  | [] => []
  | e :: es => .symbol .comma :: .blank :: (e.lexemes ++ restLexemes es)

end

/-- The pieces of an expression. -/
def pieces (e : Expr) : List Piece := Lexeme.pieces e.lexemes

/-! ## Section 2: What is written -/

theorem value_eq_add (v : Value) (s : Statement) : s.value v = s.add (Lexeme.pieces v.lexemes) := by
  cases v with
  | null => rfl
  | bool b => cases b <;> rfl
  | int n =>
    -- the sign of the literal is a lexeme of its own
    by_cases h : n.toInt < 0 <;>
      simp [Statement.value, Value.isInline, Value.literal, Value.lexemes, Value.number?,
        Number.integerText, h, Symbol.text]
  | float x =>
    by_cases h : x.isFinite
    · cases hn : x.isNegative <;>
        simp [Statement.value, Value.isInline, Value.literal, Value.lexemes, Value.number?,
          Number.Binary64.text, h, hn, Symbol.text]
    · simp [Statement.value, Value.isInline, Value.lexemes, Value.number?, h]
  | text t => rfl
  | bytes b => rfl
  | timestamp t => rfl

theorem grouped_eq_add (wrap : Bool) {body : Statement → Statement} {ls : List (Lexeme Value)}
    (h : ∀ s, body s = s.add (Lexeme.pieces ls)) (s : Statement) :
    s.grouped wrap body = s.add (Lexeme.pieces (grouped wrap ls)) := by
  cases wrap with
  | false => exact h s
  | true => simp [Statement.grouped, grouped, h, Symbol.text]

mutual

theorem write_eq_add : (e : Expr) → ∀ s : Statement, e.write s = s.add e.pieces
  | .column name, s => rfl
  | .literal v, s => value_eq_add v s
  | .wildcard, s => rfl
  | .binary left op right, s => by
    simp [write, pieces, lexemes, grouped_eq_add _ (write_eq_add left),
      grouped_eq_add _ (write_eq_add right)]
  | .unary op operand, s => by
    cases op <;>
      simp [write, pieces, lexemes, UnaryOp.lexemes, grouped_eq_add _ (write_eq_add operand),
        UnaryOp.sql, Keyword.text, Symbol.text]
  | .isNull operand negated, s => by
    cases negated <;>
      simp [write, pieces, lexemes, grouped_eq_add _ (write_eq_add operand), Keyword.text]
  | .inList _ [] negated, s => by cases negated <;> rfl
  | .inList operand (item :: items) negated, s => by
    cases negated <;>
      simp [write, pieces, lexemes, grouped_eq_add _ (write_eq_add operand), write_eq_add item,
        writeRest_eq_add items, Keyword.text, Symbol.text]
  | .between operand low high negated, s => by
    cases negated <;>
      simp [write, pieces, lexemes, grouped_eq_add _ (write_eq_add operand),
        grouped_eq_add _ (write_eq_add low), grouped_eq_add _ (write_eq_add high), Keyword.text]
  | .call name args distinct, s => by
    cases distinct <;>
      simp [write, pieces, lexemes, writeItems_eq_add args, Keyword.text, Symbol.text,
        String.append_assoc]

theorem writeItems_eq_add : (es : List Expr) → ∀ s : Statement,
    writeItems es s = s.add (Lexeme.pieces (itemsLexemes es))
  | [], s => rfl
  | e :: es, s => by simp [writeItems, itemsLexemes, write_eq_add e, writeRest_eq_add es, pieces]

theorem writeRest_eq_add : (es : List Expr) → ∀ s : Statement,
    writeRest es s = s.add (Lexeme.pieces (restLexemes es))
  | [], s => rfl
  | e :: es, s => by
    simp [writeRest, restLexemes, write_eq_add e, writeRest_eq_add es, pieces, Symbol.text]

end

theorem write_eq (e : Expr) (s : Statement) : e.write s = s ++ e.statement := by
  rw [write_eq_add, Statement.add_eq_append, statement, write_eq_add]

end Expr

end TypedQuery

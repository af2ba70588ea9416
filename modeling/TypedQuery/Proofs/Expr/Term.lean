import TypedQuery.Proofs.Expr.Lexemes

/-! # Expressions as they are read

    A text does not tell all that an expression was made of. What it tells
    is a term, which differs from an expression in three ways only:

    * **Signs**: a number has no sign of its own; a minus before it is an
      operator.
    * **Numbers**: a number is its text, be it an integer or not.
    * **Empty lists**: a test against an empty list is a truth value.
-/

namespace TypedQuery

/-- An expression as its text tells it. -/
inductive Term where
  | column (name : String)
  | null
  | truth (b : Bool)
  /-- A number in the text, without sign. -/
  | numeral (digits : String)
  /-- A bound value. -/
  | bound (v : Value)
  | wildcard
  | binary (left : Term) (op : BinaryOp) (right : Term)
  | unary (op : UnaryOp) (operand : Term)
  | isNull (operand : Term) (negated : Bool)
  | inList (operand : Term) (items : List Term) (negated : Bool)
  | between (operand low high : Term) (negated : Bool)
  | call (name : String) (args : List Term) (distinct : Bool)
  deriving Repr

/-- A literal as its text tells it. -/
def Value.term : Value → Term
  | .null => .null
  | .bool b => .truth b
  | v =>
    match v.number? with
    | some (true, digits) => .unary .neg (.numeral digits)
    | some (false, digits) => .numeral digits
    | none => .bound v

theorem Value.term_of_number? {v : Value} {negative : Bool} {digits : String}
    (h : v.number? = some (negative, digits)) :
    v.term = if negative then .unary .neg (.numeral digits) else .numeral digits := by
  cases v with
  | int n =>
    simp only [term, h]
    cases negative <;> rfl
  | float x =>
    simp only [term, h]
    cases negative <;> rfl
  | _ => cases h

theorem Value.term_of_bound {v : Value} (h : v.isInline = false) : v.term = .bound v := by
  cases v with
  | float x =>
    have infinite : x.isFinite = false := h
    simp [term, number?, infinite]
  | text _ | bytes _ | timestamp _ => rfl
  | _ => cases h

/-- What a literal is written as, and what is read. -/
theorem Value.term_cases (v : Value) :
    (v.lexemes = [.keyword .NULL] ∧ v.term = .null) ∨
    (∃ b, v.lexemes = [.keyword (if b then .TRUE else .FALSE)] ∧ v.term = .truth b) ∨
    (∃ digits, v.lexemes = [.symbol .minus, .numeral digits] ∧
      v.term = .unary .neg (.numeral digits)) ∨
    (∃ digits, v.lexemes = [.numeral digits] ∧ v.term = .numeral digits) ∨
    (v.lexemes = [.place v] ∧ v.term = .bound v) := by
  obtain ⟨rfl, h⟩ | ⟨b, rfl, h⟩ | ⟨digits, hn, h⟩ | ⟨digits, hn, h⟩ | ⟨bound, h⟩ := v.lexemes_cases
  · exact .inl ⟨h, rfl⟩
  · exact .inr (.inl ⟨b, h, rfl⟩)
  · exact .inr (.inr (.inl ⟨digits, h, term_of_number? hn⟩))
  · exact .inr (.inr (.inr (.inl ⟨digits, h, term_of_number? hn⟩)))
  · exact .inr (.inr (.inr (.inr ⟨h, term_of_bound bound⟩)))

namespace Expr

mutual

/-- An expression as its text tells it. -/
def term : Expr → Term
  | .column name => .column name
  | .literal v => v.term
  | .wildcard => .wildcard
  | .binary left op right => .binary left.term op right.term
  | .unary op operand => .unary op operand.term
  | .isNull operand negated => .isNull operand.term negated
  | .inList _ [] negated => .truth negated
  | .inList operand (item :: items) negated =>
    .inList operand.term (item.term :: terms items) negated
  | .between operand low high negated => .between operand.term low.term high.term negated
  | .call name args distinct => .call name (terms args) distinct

/-- Expressions as their texts tell them. -/
def terms : List Expr → List Term
  | [] => []
  | e :: es => e.term :: terms es

end

end Expr

end TypedQuery

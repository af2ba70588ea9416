import TypedQuery.Calendar.Date
import TypedQuery.Calendar.Timestamp
import TypedQuery.Data.Enumeration
import TypedQuery.Data.Type
import TypedQuery.Data.Value
import TypedQuery.Expr.Basic
import TypedQuery.Expr.Operator
import TypedQuery.Expr.Rendering
import TypedQuery.Number.Binary
import TypedQuery.Number.Decimal
import TypedQuery.Number.Shortest
import TypedQuery.Pool.Document
import TypedQuery.Pool.Opening
import TypedQuery.Pool.Settings
import TypedQuery.Pool.Token
import TypedQuery.Proofs.Expr.Lexemes
import TypedQuery.Proofs.Expr.Reader
import TypedQuery.Proofs.Expr.RoundTrip
import TypedQuery.Proofs.Expr.Term
import TypedQuery.Proofs.Expr.Vocabulary
import TypedQuery.Proofs.Lexeme.Basic
import TypedQuery.Proofs.Lexeme.Lexer
import TypedQuery.Proofs.Lexeme.Nesting
import TypedQuery.Proofs.Select.Lexemes
import TypedQuery.Proofs.Select.Outline
import TypedQuery.Proofs.Statement.Growth
import TypedQuery.Proofs.Statement.Piece
import TypedQuery.Proofs.Statement.Quotation
import TypedQuery.Registry.Column
import TypedQuery.Registry.Table
import TypedQuery.Registry.TypeName
import TypedQuery.Select.Basic
import TypedQuery.Select.Rendering
import TypedQuery.Select.Slice
import TypedQuery.Statement.Basic
import TypedQuery.Statement.Dialect
import TypedQuery.Statement.Lemmas
import TypedQuery.Submission
import TypedQuery.Text.Blank
import TypedQuery.Text.Hex
import TypedQuery.Text.Part
import TypedQuery.Text.Quoted
import TypedQuery.Typed.Expression
import TypedQuery.Proofs.Expr.Evaluation
import TypedQuery.Proofs.Typed.Formation
import TypedQuery.Proofs.Typed.Nullability
import TypedQuery.Proofs.Registry.Integrity
import TypedQuery.Proofs.Expr.Masking
import TypedQuery.Proofs.Registry.Attributes
import TypedQuery.Proofs.Select.Masking
import TypedQuery.Proofs.Select.Modifiers
import TypedQuery.Proofs.Submission
import TypedQuery.Proofs.Statement.Inlining
import TypedQuery.Proofs.Expr.Grammar
import TypedQuery.Proofs.Expr.Descent
import TypedQuery.Proofs.Expr.Sentence
import TypedQuery.Proofs.Expr.Faithful
import TypedQuery.Proofs.Registry.Views
import TypedQuery.Proofs.Registry.Updates
import TypedQuery.Proofs.Pool.Acceptance
import TypedQuery.Proofs.Pool.Opening
import TypedQuery.Proofs.Select.Rejection
import TypedQuery.Proofs.Text.Escape
import TypedQuery.Proofs.Expr.Minus
import TypedQuery.Proofs.Typed.Origin
import TypedQuery.Proofs.Registry.Identity
import TypedQuery.Proofs.Text.Identifier
import TypedQuery.Proofs.Number.Order
import TypedQuery.Proofs.Number.Rounding
import TypedQuery.Proofs.Registry.TypeName
import TypedQuery.Proofs.Number.Literal
import TypedQuery.Proofs.Calendar.Count
import TypedQuery.Proofs.Calendar.Literal

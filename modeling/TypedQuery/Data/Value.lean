import TypedQuery.Text.Quoted
import TypedQuery.Text.Hex
import TypedQuery.Number.Binary
import TypedQuery.Calendar.Timestamp

/-! # Values

    The values that a statement can mention. A value is either written into
    the text of the statement or bound to a placeholder:

    * **Inline**: `NULL`, booleans, integers and finite floating-point
      numbers, whose text has neither a quote nor anything a user typed.
    * **Bound**: text, bytes, timestamps, and the floating-point numbers
      that have no literal.
-/

namespace TypedQuery

open Number (Binary64 integerText)
open Calendar (Timestamp)

/-- A value of the database. -/
inductive Value where
  | null
  | bool (b : Bool)
  | int (n : Int64)
  | float (x : Binary64)
  | text (s : String)
  | bytes (b : List UInt8)
  | timestamp (t : Timestamp)
  deriving DecidableEq, Repr

namespace Value

/-! ## Literal text -/

/-- The text of a value as a literal. Text and timestamps stand between
    `'`, bytes are hexadecimal, and a number that is not finite is `NULL`. -/
def literal : Value → String
  | .null => "NULL"
  | .bool true => "TRUE"
  | .bool false => "FALSE"
  | .int n => integerText n.toInt
  | .float x => if x.isFinite then x.text else "NULL"
  | .text s => Text.enclose '\'' s
  | .bytes b => "X" ++ Text.enclose '\'' (Text.hex b)
  | .timestamp t => Text.enclose '\'' t.text

/-- Whether a value is written into the text rather than bound. -/
def isInline : Value → Bool
  | .null | .bool _ | .int _ => true
  | .float x => x.isFinite
  | .text _ | .bytes _ | .timestamp _ => false

/-! ## Sign and equality -/

/-- Whether the literal of a number starts with a minus sign. For a number
    that is not finite the sign bit decides, though no sign is written. -/
def hasSign : Value → Bool
  | .int n => n.toInt < 0
  | .float x => x.isNegative
  | _ => false

/-- Equality of values, which on floating-point numbers is that of their
    standard: `-0` equals `0`, and a NaN nothing. -/
def equal : Value → Value → Bool
  | .float x, .float y => x.equal y
  | v, w => v == w

end Value

end TypedQuery

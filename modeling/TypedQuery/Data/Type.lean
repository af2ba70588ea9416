import TypedQuery.Data.Value

/-! # Data types

    A column or an expression has a data type: the kind of its values, and
    how many times that kind has been made optional. A type with an
    optional layer admits `NULL`, and a second layer adds nothing that the
    database can tell.

    * **`Datum`**: what a program holds of a type.
    * **`toValue_ne_null`**: data of a type without layers is never `NULL`.
-/

namespace TypedQuery

open Number (Binary32 Binary64)
open Calendar (Timestamp)

/-! ## Kinds -/

/-- The kinds of values that a column can hold. An enumeration is told from
    others by its name. -/
inductive Kind where
  | integer
  | short
  | char
  | float
  | double
  | long
  | dateTime
  | boolean
  | blob
  | text
  | binary
  | enumeration (name : String)
  deriving DecidableEq, Repr

namespace Kind

/-- The name of a kind in the database. -/
def sqlName : Kind → String
  | .integer => "INT"
  | .short => "SMALLINT"
  | .char => "CHAR(1)"
  | .float => "FLOAT"
  | .double => "DOUBLE"
  | .long => "BIGINT"
  | .dateTime => "DATETIME"
  | .boolean => "BOOLEAN"
  | .blob => "BLOB"
  | .text => "TEXT"
  | .binary => "VARBINARY"
  | .enumeration _ => "ENUM"

/-- The name of a kind that also tells enumerations apart. -/
def label : Kind → String
  | .enumeration name => "ENUM<" ++ name ++ ">"
  | kind => kind.sqlName

theorem label_inj {k l : Kind} (h : k.label = l.label) : k = l := by
  cases k <;> cases l <;> simp_all [label, sqlName] <;>
    exact absurd (congrArg (fun s => s.toList.head?) h) (by simp [String.toList_append])

/-- What a program holds of a kind: for an enumeration, one of its labels. -/
abbrev Datum : Kind → Type
  | .integer => Int32
  | .short => Int16
  | .char => Char
  | .float => Binary32
  | .double => Binary64
  | .long => Int64
  | .dateTime => Timestamp
  | .boolean => Bool
  | .blob => List UInt8
  | .text => String
  | .binary => List UInt8
  | .enumeration _ => String

/-- The value of a datum: narrow numbers are widened, a character is a text
    of one, and both kinds of bytes are alike. -/
def toValue : (kind : Kind) → kind.Datum → Value
  | .integer, n => .int n.toInt64
  | .short, n => .int n.toInt64
  | .char, c => .text (String.singleton c)
  | .float, x => .float x.widen
  | .double, x => .float x
  | .long, n => .int n
  | .dateTime, t => .timestamp t
  | .boolean, b => .bool b
  | .blob, b => .bytes b
  | .text, s => .text s
  | .binary, b => .bytes b
  | .enumeration _, s => .text s

theorem toValue_ne_null (kind : Kind) (d : kind.Datum) : kind.toValue d ≠ .null := by
  cases kind <;> simp [toValue]

end Kind

/-! ## Types -/

/-- A kind under a number of optional layers. -/
structure DataType where
  kind : Kind
  layers : Nat
  deriving DecidableEq, Repr

namespace DataType

/-- The type of truth values, which a predicate has. -/
def boolean : DataType := ⟨.boolean, 0⟩

/-- The type of a count. -/
def long : DataType := ⟨.long, 0⟩

/-- The type of an average. -/
def double : DataType := ⟨.double, 0⟩

/-- The type of text. -/
def text : DataType := ⟨.text, 0⟩

/-- The type with one more optional layer. -/
def optional (t : DataType) : DataType := { t with layers := t.layers + 1 }

@[simp] theorem kind_optional (t : DataType) : t.optional.kind = t.kind := rfl

/-- Whether the type admits `NULL`. -/
def isNullable (t : DataType) : Bool := t.layers != 0

@[simp] theorem isNullable_optional (t : DataType) : t.optional.isNullable = true := by
  simp [isNullable, optional]

/-- `α` under `n` optional layers. -/
abbrev Layered (α : Type) : Nat → Type
  | 0 => α
  | n + 1 => Option (Layered α n)

/-- The value of layered data: `NULL` if any layer is empty. -/
def layeredValue {α : Type} (f : α → Value) : (n : Nat) → Layered α n → Value
  | 0, a => f a
  | _ + 1, none => .null
  | n + 1, some a => layeredValue f n a

/-- What a program holds of a type. -/
abbrev Datum (t : DataType) : Type := Layered t.kind.Datum t.layers

/-- The value of a datum. -/
def toValue (t : DataType) (d : t.Datum) : Value := layeredValue t.kind.toValue t.layers d

theorem toValue_ne_null {t : DataType} (h : t.isNullable = false) (d : t.Datum) :
    t.toValue d ≠ .null := by
  obtain ⟨kind, layers⟩ := t
  cases layers with
  | zero => exact kind.toValue_ne_null d
  | succ n => simp [isNullable] at h

end DataType

end TypedQuery

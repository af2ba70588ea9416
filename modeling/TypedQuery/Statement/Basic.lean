import TypedQuery.Data.Value
import TypedQuery.Statement.Dialect
import TypedQuery.Text.Part

/-! # Statements under construction

    A statement is text in which some places are held for bound values. It
    grows at its end only, by text, identifiers, counts and values.

    It is kept as three sequences side by side: the text with a placeholder
    in each place, the bound values, and the places themselves. A place is
    counted in bytes of the text, so a `?` that belongs to an identifier is
    not taken for one. The text with a literal in each place is cut together
    from the parts between the places.
-/

namespace TypedQuery

/-- Text with places for bound values. -/
@[ext]
structure Statement where
  /-- The text, with a placeholder in each place. -/
  sql : String
  /-- The bound values, in the order of their places. -/
  params : List Value
  /-- How many bytes of the text come before each place. -/
  places : List Nat
  deriving DecidableEq, Repr

namespace Statement

/-! ## Views -/

/-- The text from byte `start` on, with the literal of each value in its
    place. There is none if a part to be copied is out of range. -/
def inlinedFrom? (sql : String) : Nat → List (Nat × Value) → Option String
  | start, [] => Text.part? sql start sql.utf8ByteSize
  | start, (place, v) :: rest => do
    let lead ← Text.part? sql start place
    let tail ← inlinedFrom? sql (place + Dialect.mysql.placeholder.utf8ByteSize) rest
    return lead ++ v.literal ++ tail

/-- The text with literals, if every part of it is in range. -/
def inlined? (s : Statement) : Option String := inlinedFrom? s.sql 0 (s.places.zip s.params)

/-- The text with literals, to be shown and not to be run. -/
def inlined (s : Statement) : String := s.inlined?.getD ""

/-- Whether the statement has no text. -/
def isEmpty (s : Statement) : Bool := s.sql.isEmpty

/-! ## Growth -/

/-- The statement without text. -/
def empty : Statement := ⟨"", [], []⟩

/-- Adds text as it is. -/
def text (t : String) (s : Statement) : Statement := { s with sql := s.sql ++ t }

/-- Adds a place for a value. -/
def bind (v : Value) (s : Statement) : Statement where
  sql := s.sql ++ Dialect.mysql.placeholder
  params := s.params ++ [v]
  places := s.places ++ [s.sql.utf8ByteSize]

/-- Adds a count in decimal. -/
def count (n : UInt64) (s : Statement) : Statement := s.text (Number.naturalText n.toNat)

/-- Adds a quoted identifier. -/
def identifier (name : String) (s : Statement) : Statement := s.text (Dialect.mysql.quoted name)

/-- Adds a value: its literal if it is an inline one, and else a place. -/
def value (v : Value) (s : Statement) : Statement :=
  if v.isInline then s.text v.literal else s.bind v

/-- Adds each item in turn, with `separator` between two of them. -/
def separated {α : Type} (separator : String) (add : α → Statement → Statement) :
    List α → Statement → Statement
  | [], s => s
  | x :: xs, s => xs.foldl (fun s y => add y (s.text separator)) (add x s)

/-- Adds what `body` adds, between parentheses if `wrap` says so. -/
def grouped (wrap : Bool) (body : Statement → Statement) (s : Statement) : Statement :=
  if wrap then (body (s.text "(")).text ")" else body s

end Statement

end TypedQuery

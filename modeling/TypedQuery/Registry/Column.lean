import TypedQuery.Typed.Expression

/-! # Columns

    A column is recorded in its table as an entry, and a program holds a
    handle with the data type of the column beside a copy of the entry.

    * **Identity**: two entries are the same column if table, name and kind
      coincide. Whether they admit `NULL`, what they refer to and their
      defaults take no part.
    * **`same_iff_key_eq`**: entries are the same exactly if a hash table
      keys them alike.
-/

namespace TypedQuery

/-! ## Sources -/

/-- A table, known by its name. -/
structure Source where
  name : String
  deriving DecidableEq, Repr

/-- Adds the quoted name of a table to a statement. -/
def Source.write (source : Source) (s : Statement) : Statement := s.identifier source.name

/-! ## Entries -/

/-- A column as its table records it. -/
structure Entry where
  table : Source
  name : String
  kind : Kind
  nullable : Bool
  /-- The column that a foreign key refers to, as it was then. -/
  referee : Option Entry
  default : Option Value

namespace Entry

/-- A column as it is first declared. -/
def declared (table : Source) (type : DataType) (name : String) : Entry :=
  ⟨table, name, type.kind, type.isNullable, none, none⟩

/-- Whether two entries are the same column. -/
def same (a b : Entry) : Bool := a.table == b.table && a.name == b.name && a.kind == b.kind

/-- What a hash table keys an entry by. -/
def key (a : Entry) : List String := [a.table.name, a.name, a.kind.label]

/-- The column as a field. -/
def field (a : Entry) : Field := ⟨.column a.name, a.kind, a.nullable⟩

/-- Adds the quoted name of the column, without its table. -/
def write (a : Entry) (s : Statement) : Statement := s.identifier a.name

/-- The quoted name of the column. -/
def quoted (a : Entry) : String := (a.write .empty).sql

/-- The column as it is shown, with its table. -/
def display (a : Entry) : String := a.table.name ++ "." ++ a.name

theorem same_iff {a b : Entry} :
    a.same b ↔ a.table = b.table ∧ a.name = b.name ∧ a.kind = b.kind := by
  simp [same, and_assoc]

theorem same_iff_key_eq {a b : Entry} : a.same b ↔ a.key = b.key := by
  have hk : a.kind.label = b.kind.label ↔ a.kind = b.kind := ⟨Kind.label_inj, congrArg _⟩
  obtain ⟨⟨ta⟩, _⟩ := a
  obtain ⟨⟨tb⟩, _⟩ := b
  simp_all [same_iff, key]

end Entry

/-! ## Handles -/

/-- A column as a program holds it. -/
structure Column where
  type : DataType
  entry : Entry

namespace Column

/-- The column as an expression of its type. -/
def expression (c : Column) : Expression := .ofTree c.type (.column c.entry.name)

/-- The column as a field, by its type. -/
def field (c : Column) : Field := c.expression.field

/-- Whether two handles are of the same column, whatever their types are. -/
def same (c d : Column) : Bool := c.entry.same d.entry

/-- Whether a handle is of the column that is recorded. -/
def isOf (c : Column) (e : Entry) : Bool := c.entry.same e

/-- The column with a type of one more optional layer. -/
def madeNullable (c : Column) : Column := ⟨c.type.optional, { c.entry with nullable := true }⟩

/-- The column with a foreign key to `target`. -/
def referring (c target : Column) : Column := { c with entry.referee := some target.entry }

/-- The column with a default. -/
def withDefault (c : Column) (d : c.type.Datum) : Column :=
  { c with entry.default := some (c.type.toValue d) }

end Column

end TypedQuery

import TypedQuery.Registry.Table

/-! # Slices

    The fields that a statement selects, in order, and the table that they
    come from. The fields of a table are its columns; another slice lists
    fields of its own choice.
-/

namespace TypedQuery

/-- Fields of one table, in order. -/
structure Slice where
  source : Source
  fields : List Field
  deriving Repr

namespace Slice

/-- The slice with one more field. -/
def add (s : Slice) (f : Field) : Slice := { s with fields := s.fields ++ [f] }

/-- Whether two slices are alike: the same table, and the same fields in the
    same order, with numbers compared as numbers. -/
def equal (s t : Slice) : Bool :=
  s.source == t.source && s.fields.length == t.fields.length &&
    (s.fields.zip t.fields).all fun (f, g) => f.equal g

end Slice

/-- The slice of all columns of a table. -/
def Table.slice (t : Table) : Slice := ⟨t.source, t.fields⟩

end TypedQuery

import TypedQuery.Data.Type

/-! # Enumerations

    A declared list of labels under a name. The database holds the label of
    a member as text. Two members may share a label; a label found in the
    database then stands for the first of them.
-/

namespace TypedQuery

/-- A named list of labels, one for each member in the order declared. -/
structure Enumeration where
  name : String
  labels : List String
  deriving DecidableEq, Repr

namespace Enumeration

/-- The kind of columns that hold a member. -/
def kind (e : Enumeration) : Kind := .enumeration e.name

/-- The place of the first member with a label. -/
def find? (e : Enumeration) (label : String) : Option Nat :=
  e.labels.findIdx? (· == label)

/-- The label of the member in a place. -/
def label? (e : Enumeration) (place : Nat) : Option String := e.labels[place]?

theorem label?_of_find? {e : Enumeration} {label : String} {place : Nat}
    (h : e.find? label = some place) : e.label? place = some label := by
  obtain ⟨hlt, heq, _⟩ := List.findIdx?_eq_some_iff_getElem.mp h
  rw [label?, List.getElem?_eq_getElem hlt]
  simpa using heq

end Enumeration

end TypedQuery

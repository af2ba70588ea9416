import TypedQuery.Registry.Table

/-! # What is hashed

    To find a column or a table among others, a hash table feeds a hasher
    with what makes it the one that it is, piece by piece. A hasher that
    works on bytes sees the pieces one after the other: a text is closed by
    a byte that no text contains, and a number takes the eight bytes of a
    machine word.

    * **Columns**: table, name and kind are fed, and no other attribute. A
      handle is hashed as its entry is.
    * **Tables**: only the name is fed.
-/

namespace TypedQuery

/-! ## Pieces -/

/-- What a hasher is fed with at a time. -/
inductive Feed where
  | text (s : String)
  | number (n : Nat)
  deriving DecidableEq, Repr

namespace Feed

/-- The bytes of a text. -/
def textBytes (s : String) : List UInt8 := s.toList.flatMap String.utf8EncodeChar

/-- The eight bytes of a number, the lowest first. -/
def numberBytes (n : Nat) : List UInt8 :=
  (List.range 8).map fun i => UInt8.ofNat (n >>> (8 * i))

/-- The bytes that a hasher sees of a piece. -/
def bytes : Feed → List UInt8
  | text s => textBytes s ++ [0xff]
  | number n => numberBytes n

end Feed

/-! ## Columns and tables -/

/-- The place of a kind among all kinds. -/
def Kind.place : Kind → Nat
  | .integer => 0
  | .short => 1
  | .char => 2
  | .float => 3
  | .double => 4
  | .long => 5
  | .dateTime => 6
  | .boolean => 7
  | .blob => 8
  | .text => 9
  | .binary => 10
  | .enumeration _ => 11

/-- What is fed of a kind: its place, and the name of an enumeration. -/
def Kind.feed : Kind → List Feed
  | .enumeration name => [.number (Kind.enumeration name).place, .text name]
  | kind => [.number kind.place]

/-- What is fed of a source. -/
def Source.feed (source : Source) : List Feed := [.text source.name]

/-- What is fed of a column. -/
def Entry.feed (e : Entry) : List Feed := e.table.feed ++ [.text e.name] ++ e.kind.feed

/-- What is fed of a handle. -/
def Column.feed (c : Column) : List Feed := c.entry.feed

/-- What is fed of a table. -/
def Table.feed (t : Table) : List Feed := [.text t.name]

end TypedQuery

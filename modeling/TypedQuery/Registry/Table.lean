import TypedQuery.Registry.Column
import TypedQuery.Registry.TypeName

/-! # Tables

    A table is a name and a registry of columns in the order declared. A
    column is declared once, and later revised through a handle: the entry
    of the same column is replaced in its place, or appended if the table
    has none. Of several entries of the same column the first is replaced.

    Every change returns the handle to go on with, whose entry is the one
    that the registry now holds.

    * **`handle_entry_mem_change`**: what a change adds or replaces is the
      entry of the handle that it returns.
-/

namespace TypedQuery

/-! ## Registries -/

/-- Replaces the first entry of the same column as `old`, or appends. -/
def reviseFirst (old new : Entry) : List Entry → List Entry
  | [] => [new]
  | e :: es => if e.same old then new :: es else e :: reviseFirst old new es

@[simp] theorem reviseFirst_nil (old new : Entry) : reviseFirst old new [] = [new] := rfl

theorem reviseFirst_cons_of_same {e old : Entry} (h : e.same old) (new : Entry)
    (es : List Entry) : reviseFirst old new (e :: es) = new :: es := by
  simp [reviseFirst, h]

theorem reviseFirst_cons_of_not_same {e old : Entry} (h : ¬ e.same old) (new : Entry)
    (es : List Entry) : reviseFirst old new (e :: es) = e :: reviseFirst old new es := by
  simp [reviseFirst, h]

theorem mem_reviseFirst (old new : Entry) (es : List Entry) : new ∈ reviseFirst old new es := by
  induction es with
  | nil => simp
  | cons e es ih =>
    by_cases h : e.same old
    · simp [reviseFirst_cons_of_same h]
    · simp [reviseFirst_cons_of_not_same h, ih]

/-! ## Tables -/

/-- A named registry of columns. -/
structure Table where
  name : String
  entries : List Entry

/-- A change to a registry. -/
inductive Change where
  /-- Declares a new column. -/
  | declare (type : DataType) (name : String)
  /-- Makes a column admit `NULL`. -/
  | makeNullable (c : Column)
  /-- Gives a column a foreign key. -/
  | refer (c target : Column)
  /-- Gives a column a default. -/
  | setDefault (c : Column) (d : c.type.Datum)

namespace Table

/-- A table without columns. -/
def named (name : String) : Table := ⟨name, []⟩

/-- A table without columns, named after a type. -/
def ofTypeName (full : String) : Table := .named (TypeName.tableName full)

/-- The table as a source of rows. -/
def source (t : Table) : Source := ⟨t.name⟩

/-- The quoted name. -/
def quoted (t : Table) : String := (t.source.write .empty).sql

/-- The columns as fields. -/
def fields (t : Table) : List Field := t.entries.map (·.field)

/-- The first column of a name. -/
def column? (t : Table) (name : String) : Option Entry := t.entries.find? (·.name == name)

/-- Tables are the same if their names are. -/
def same (t u : Table) : Bool := t.name == u.name

/-- What a hash table keys a table by. -/
def key (t : Table) : String := t.name

/-! ## Changes -/

/-- The handle that a change returns. -/
def handle (t : Table) : Change → Column
  | .declare type name => ⟨type, .declared t.source type name⟩
  | .makeNullable c => c.madeNullable
  | .refer c target => c.referring target
  | .setDefault c d => c.withDefault d

/-- The table after a change. -/
def change (t : Table) (ch : Change) : Table :=
  let new := (t.handle ch).entry
  match ch with
  | .declare _ _ => { t with entries := t.entries ++ [new] }
  | .makeNullable c | .refer c _ | .setDefault c _ =>
    { t with entries := reviseFirst c.entry new t.entries }

@[simp] theorem name_change (t : Table) (ch : Change) : (t.change ch).name = t.name := by
  cases ch <;> rfl

theorem handle_entry_mem_change (t : Table) (ch : Change) :
    (t.handle ch).entry ∈ (t.change ch).entries := by
  cases ch <;> simp [change, mem_reviseFirst]

end Table

end TypedQuery

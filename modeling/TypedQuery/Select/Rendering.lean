import TypedQuery.Select.Basic

/-! # The text of SELECT statements

    The clauses are written in the one order that SQL has for them, each
    only if it is given: `SELECT`, `FROM`, `WHERE`, `GROUP BY`, `HAVING`,
    `ORDER BY`, `LIMIT`, `OFFSET`, `FOR UPDATE`. A statement that is
    rejected adds nothing.

    * **`write_eq_map`**: all clauses are written, or nothing is.
-/

namespace TypedQuery.Select

/-! ## Clauses -/

/-- Adds fields with commas between. -/
def writeFields (fs : List Field) (s : Statement) : Statement := s.separated ", " Field.write fs

/-- Adds a clause with a predicate, if there is one. -/
def writePredicate (keyword : String) : Option Expression → Statement → Statement
  | none, s => s
  | some e, s => e.write (s.text keyword)

/-- Adds the `GROUP BY` clause, unless it is empty. -/
def writeGrouping (fs : List Field) (s : Statement) : Statement :=
  if fs.isEmpty then s else writeFields fs (s.text " GROUP BY ")

/-- Adds a field to order by, and the direction. -/
def writeOrder (order : Field × Bool) (s : Statement) : Statement :=
  (order.1.write s).text (if order.2 then " ASC" else " DESC")

/-- Adds the `ORDER BY` clause, unless it is empty. -/
def writeOrdering (orders : List (Field × Bool)) (s : Statement) : Statement :=
  if orders.isEmpty then s else (s.text " ORDER BY ").separated ", " writeOrder orders

/-- Adds the `LIMIT` clause, and with it the `OFFSET` clause. -/
def writeLimit : Option UInt64 → Option UInt64 → Statement → Statement
  | none, _, s => s
  | some n, none, s => (s.text " LIMIT ").count n
  | some n, some m, s => (((s.text " LIMIT ").count n).text " OFFSET ").count m

/-- Adds all clauses in their order. -/
def writeClauses (q : Select) (s : Statement) : Statement :=
  let s := writeFields q.fields (s.text "SELECT ")
  let s := q.source.write (s.text " FROM ")
  let s := writePredicate " WHERE " q.filter s
  let s := writeGrouping q.grouping s
  let s := writePredicate " HAVING " q.having s
  let s := writeOrdering q.ordering s
  let s := writeLimit q.limit q.offset s
  if q.forUpdate then s.text " FOR UPDATE" else s

/-! ## Statements -/

/-- Adds the statement to the one under construction, which stays as it is
    where the check fails. -/
def format (q : Select) : ExceptT Rejection (StateM Statement) Unit := do
  q.validate
  modifyThe Statement q.writeClauses

/-- The outcome of adding the statement to `s`, and what has become of `s`. -/
def formatted (q : Select) (s : Statement) : Except Rejection Unit × Statement :=
  q.format.run.run s

theorem formatted_eq (q : Select) (s : Statement) :
    q.formatted s = (q.validate, if q.validate.isOk then q.writeClauses s else s) := by
  cases h : q.validate <;> simp [formatted, format, h] <;> rfl

/-- Adds the statement, unless it is rejected. -/
def write (q : Select) (s : Statement) : Except Rejection Statement :=
  match q.formatted s with
  | (.ok _, written) => .ok written
  | (.error r, _) => .error r

theorem write_eq_map (q : Select) (s : Statement) :
    q.write s = q.validate.map fun _ => q.writeClauses s := by
  rw [write, formatted_eq]
  cases q.validate <;> rfl

/-- The statement on its own. -/
def build (q : Select) : Except Rejection Statement := q.write .empty

/-- The text with placeholders. -/
def sql (q : Select) : Except Rejection String := q.build.map (·.sql)

/-- The text with literals. -/
def inlined (q : Select) : Except Rejection String := q.build.map (·.inlined)

end TypedQuery.Select

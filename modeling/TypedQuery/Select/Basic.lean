import TypedQuery.Select.Slice

/-! # SELECT statements

    A statement that selects fields from one table, with the clauses that
    narrow, group, order and limit the rows. The clauses are given in any
    order by modifiers:

    * **Grouping** and **ordering** accumulate, in the order given.
    * **`HAVING`**, **`LIMIT`** and **`OFFSET`** hold what was given last.
    * **`FOR UPDATE`** stays once given.
-/

namespace TypedQuery

/-- A SELECT statement, clause by clause. -/
structure Select where
  fields : List Field
  source : Source
  /-- The `WHERE` clause. -/
  filter : Option Expression
  grouping : List Field
  having : Option Expression
  /-- The `ORDER BY` clause: each field with whether it ascends. -/
  ordering : List (Field × Bool)
  limit : Option UInt64
  offset : Option UInt64
  /-- Whether the rows are locked for an update. -/
  forUpdate : Bool
  deriving Repr

namespace Select

/-- The statement that selects a slice, of all rows or those that satisfy a
    predicate. -/
def ofSlice (s : Slice) (filter : Option Expression) : Select where
  fields := s.fields
  source := s.source
  filter := filter
  grouping := []
  having := none
  ordering := []
  limit := none
  offset := none
  forUpdate := false

/-- What can be given to a statement after its start. -/
inductive Modifier where
  | groupBy (f : Field)
  | groupByAll (fs : List Field)
  | having (e : Expression)
  | orderBy (f : Field) (ascending : Bool)
  | orderByAll (fs : List (Field × Bool))
  | limit (n : UInt64)
  | offset (n : UInt64)
  | forUpdate
  deriving Repr

/-- Orders by a field, the least first. -/
def Modifier.orderByAsc (f : Field) : Modifier := .orderBy f true

/-- Orders by a field, the greatest first. -/
def Modifier.orderByDesc (f : Field) : Modifier := .orderBy f false

/-- The statement with a modifier given. -/
def modify (q : Select) : Modifier → Select
  | .groupBy f => { q with grouping := q.grouping ++ [f] }
  | .groupByAll fs => { q with grouping := q.grouping ++ fs }
  | .having e => { q with having := some e }
  | .orderBy f ascending => { q with ordering := q.ordering ++ [(f, ascending)] }
  | .orderByAll fs => { q with ordering := q.ordering ++ fs }
  | .limit n => { q with limit := some n }
  | .offset n => { q with offset := some n }
  | .forUpdate => { q with forUpdate := true }

/-! ## Rejection -/

/-- Why a statement cannot be rendered. -/
inductive Rejection where
  /-- It selects nothing from the table. -/
  | noFields (table : String)
  | offsetWithoutLimit
  | zeroLimit
  deriving DecidableEq, Repr

/-- The wording of a rejection. -/
def Rejection.message : Rejection → String
  | .noFields table => "SELECT from \x60" ++ table ++ "\x60 has no fields"
  | .offsetWithoutLimit => "OFFSET requires a LIMIT"
  | .zeroLimit => "LIMIT must be positive"

/-- What is wrong with a statement, if anything: first the lack of fields,
    then a limit of zero, then an offset without a limit. -/
def rejection? (q : Select) : Option Rejection :=
  if q.fields.isEmpty then some (.noFields q.source.name)
  else if q.limit = some 0 then some .zeroLimit
  else if q.limit.isNone ∧ q.offset.isSome then some .offsetWithoutLimit
  else none

/-- Checks that a statement can be rendered. -/
def validate (q : Select) : Except Rejection Unit :=
  match q.rejection? with
  | some r => .error r
  | none => .ok ()

/-- The statement with modifiers given one after the other. -/
def modifyAll (q : Select) (ms : List Modifier) : Select := ms.foldl modify q

@[simp] theorem modifyAll_nil (q : Select) : q.modifyAll [] = q := rfl

@[simp] theorem modifyAll_cons (q : Select) (m : Modifier) (ms : List Modifier) :
    q.modifyAll (m :: ms) = (q.modify m).modifyAll ms := rfl

@[simp] theorem fields_modify (q : Select) (m : Modifier) : (q.modify m).fields = q.fields := by
  cases m <;> rfl

@[simp] theorem source_modify (q : Select) (m : Modifier) : (q.modify m).source = q.source := by
  cases m <;> rfl

@[simp] theorem filter_modify (q : Select) (m : Modifier) : (q.modify m).filter = q.filter := by
  cases m <;> rfl

end Select

end TypedQuery

import TypedQuery.Proofs.Select.Lexemes
import TypedQuery.Registry.Table

/-! # Statements as they grow

    A program makes a statement step by step: it adds text, counts,
    identifiers and values, lists of what it adds in turn, and whole
    columns, tables, expressions and SELECT statements.

    * **`apply_eq_add`**: a step adds its pieces, whatever is there already.
    * **`run_refines_pieces`**: a statement made in any number of steps is
      the list of their pieces.
-/

namespace TypedQuery

open Lexeme (pieces)

/-! ## Section 1: Steps -/

/-- One step in the making of a statement. -/
inductive Growth where
  | text (t : String)
  | count (n : UInt64)
  | identifier (name : String)
  | value (v : Value)
  /-- For each item, the steps that add it; between two of them, text. -/
  | separated (separator : String) (items : List (List Growth))
  | column (c : Entry)
  | table (t : Source)
  | expression (e : Expr)
  | typed (e : Expression)
  | field (f : Field)
  /-- A SELECT statement, which may be rejected. -/
  | select (q : Select)

namespace Growth

mutual

/-- The statement after a step. -/
def apply : Growth → Statement → Statement
  | .text t, s => s.text t
  | .count n, s => s.count n
  | .identifier name, s => s.identifier name
  | .value v, s => s.value v
  | .separated _ [], s => s
  | .separated separator (item :: items), s => applyRest separator items (applyAll item s)
  | .column c, s => c.write s
  | .table t, s => t.write s
  | .expression e, s => e.write s
  | .typed e, s => e.write s
  | .field f, s => f.write s
  -- what is there after a statement is rejected, too
  | .select q, s => (q.formatted s).2

/-- The statement after several steps. -/
def applyAll : List Growth → Statement → Statement
  | [], s => s
  | g :: gs, s => applyAll gs (g.apply s)

/-- The statement after items with a separator before each. -/
def applyRest (separator : String) : List (List Growth) → Statement → Statement
  | [], s => s
  | item :: items, s => applyRest separator items (applyAll item (s.text separator))

end

/-- What a new statement has become after some steps. -/
def run (gs : List Growth) : Statement := applyAll gs .empty

theorem applyRest_eq_foldl (separator : String) (items : List (List Growth)) (s : Statement) :
    applyRest separator items s =
      items.foldl (fun s item => applyAll item (s.text separator)) s := by
  induction items generalizing s with
  | nil => rfl
  | cons item items ih => rw [applyRest, ih, List.foldl_cons]

/-- A list is written as statements write lists. -/
theorem apply_separated (separator : String) (items : List (List Growth)) (s : Statement) :
    (separated separator items).apply s = s.separated separator applyAll items := by
  cases items with
  | nil => rfl
  | cons item items => rw [apply, applyRest_eq_foldl, Statement.separated]

/-! ## Section 2: Pieces of steps -/

mutual

/-- The pieces that a step adds. -/
def pieces : Growth → List Piece
  | .text t => [.text t]
  | .count n => [.text (Number.naturalText n.toNat)]
  | .identifier name => [.text (Dialect.mysql.quoted name)]
  | .value v => if v.isInline then [.text v.literal] else [.value v]
  | .separated _ [] => []
  | .separated separator (item :: items) => piecesAll item ++ piecesRest separator items
  | .column c => [.text (Dialect.mysql.quoted c.name)]
  | .table t => [.text (Dialect.mysql.quoted t.name)]
  | .expression e => e.pieces
  | .typed e => e.tree.pieces
  | .field f => f.tree.pieces
  | .select q => if q.validate.isOk then Lexeme.pieces q.lexemes else []

/-- The pieces that several steps add. -/
def piecesAll : List Growth → List Piece
  | [] => []
  | g :: gs => g.pieces ++ piecesAll gs

/-- The pieces of items with a separator before each. -/
def piecesRest (separator : String) : List (List Growth) → List Piece
  | [] => []
  | item :: items => .text separator :: (piecesAll item ++ piecesRest separator items)

end

mutual

/-- **Step**: the pieces do not depend on the statement. -/
theorem apply_eq_add : (g : Growth) → ∀ s : Statement, g.apply s = s.add g.pieces
  | .text _, _ | .count _, _ | .identifier _, _ | .column _, _ | .table _, _ => rfl
  | .value v, s => by
    rw [apply, pieces, Statement.value]
    split
    · rfl
    · rfl
  | .separated _ [], _ => rfl
  | .separated separator (item :: items), s => by
    rw [apply, pieces, Statement.add_append, applyAll_eq_add item, applyRest_eq_add separator items]
  | .expression e, s => e.write_eq_add s
  | .typed e, s => e.tree.write_eq_add s
  | .field f, s => f.tree.write_eq_add s
  | .select q, s => by
    -- the check comes first, so a statement that fails it adds nothing
    rw [apply, pieces, Select.formatted_eq, Select.writeClauses_eq_add]
    split
    · rfl
    · rfl

theorem applyAll_eq_add : (gs : List Growth) → ∀ s : Statement,
    applyAll gs s = s.add (piecesAll gs)
  | [], _ => rfl
  | g :: gs, s => by
    rw [applyAll, piecesAll, Statement.add_append, apply_eq_add g, applyAll_eq_add gs]

theorem applyRest_eq_add (separator : String) : (items : List (List Growth)) → ∀ s : Statement,
    applyRest separator items s = s.add (piecesRest separator items)
  | [], _ => rfl
  | item :: items, s => by
    rw [applyRest, piecesRest, Statement.add_text_cons, Statement.add_append,
      applyAll_eq_add item, applyRest_eq_add separator items]

end

/-! ## Section 3: Runs -/

/-- **Run**: text, values and literals of a statement are those of its
    pieces, of which there are no values without text, and all parts that
    the text with literals is cut together from are in range. -/
theorem run_refines_pieces (gs : List Growth) :
    (run gs).sql = Piece.sql (piecesAll gs) ∧
    (run gs).params = Piece.values (piecesAll gs) ∧
    (run gs).inlined? = some (Piece.concat Value.literal (piecesAll gs)) ∧
    (run gs).inlined = Piece.concat Value.literal (piecesAll gs) ∧
    ((run gs).sql = "" → (run gs).params = []) ∧
    (∀ (g : Growth) (s : Statement), g.apply s = s.add g.pieces ∧ g.apply s = s ++ run [g]) ∧
    (∀ (q : Select) (s : Statement), q.validate ≠ .ok () →
      (select q).apply s = s ∧ (select q).pieces = []) := by
  have made : run gs = Statement.empty.add (piecesAll gs) := applyAll_eq_add gs .empty
  have sql : (run gs).sql = Piece.sql (piecesAll gs) := by
    rw [made, Statement.sql_add, Statement.sql_empty, String.empty_append]
  have params : (run gs).params = Piece.values (piecesAll gs) := by
    rw [made, Statement.params_add, Statement.params_empty, List.nil_append]
  refine ⟨sql, params, ?_, ?_, ?_, ?_, ?_⟩
  · rw [made, Statement.inlined?_add]
  · rw [made, Statement.inlined_add]
  · intro h
    rw [params]
    exact Piece.values_eq_nil_of_sql _ (sql ▸ h)
  · intro g s
    have step := apply_eq_add g s
    refine ⟨step, ?_⟩
    -- pieces added to `s` are those added to nothing, after `s`
    rw [step, Statement.add_eq_append]
    show _ = s ++ g.apply .empty
    rw [apply_eq_add]
  · intro q s invalid
    have rejected : q.validate.isOk = false := by
      cases h : q.validate with
      | error r => rfl
      | ok u => exact absurd h invalid
    rw [apply_eq_add, pieces, rejected]
    exact ⟨rfl, rfl⟩

/-- A name with a `?`, a bound value, and a statement that is rejected. -/
theorem run_refines_pieces_name :
    (run [.identifier "why?", .text " = ", .value (.text "it's"),
        .select (.ofSlice ⟨⟨"t"⟩, []⟩ none)]).inlined? = some "\x60why?\x60 = 'it''s'" ∧
    (select (.ofSlice ⟨⟨"t"⟩, []⟩ none)).apply .empty = .empty := by
  obtain ⟨-, -, inlined, -, -, -, rejected⟩ := run_refines_pieces
    [.identifier "why?", .text " = ", .value (.text "it's"), .select (.ofSlice ⟨⟨"t"⟩, []⟩ none)]
  refine ⟨inlined.trans (by decide), ?_⟩
  exact (rejected _ _ (by decide)).1

end Growth

end TypedQuery

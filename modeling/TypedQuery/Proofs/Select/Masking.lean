import TypedQuery.Proofs.Expr.Masking
import TypedQuery.Proofs.Select.Outline

/-! # Masked statements

    A SELECT statement is masked clause by clause, and its text is not told
    from that of any other which is alike when masked.

    * **`build_masked`**: what is built of a masked statement is what is
      built of the statement, masked, and neither is built unless both are.
    * **`text_independent_of_payload`**: values that may hold anything have
      no part in the text, and are found in the parameters only.
-/

namespace TypedQuery

open Statement (masked_text masked_separated)

/-! ## Section 1: Clauses -/

/-- The field with the literals of its tree masked. -/
def Field.masked (f : Field) : Field := { f with tree := f.tree.masked }

@[simp] theorem Field.tree_masked (f : Field) : f.masked.tree = f.tree.masked := rfl

/-- The expression with the literals of its tree masked. -/
def Expression.masked (e : Expression) : Expression := { e with tree := e.tree.masked }

@[simp] theorem Expression.tree_masked (e : Expression) : e.masked.tree = e.tree.masked := rfl

namespace Select

/-- The field to order by with its literals masked, and the direction. -/
def maskedOrder (order : Field × Bool) : Field × Bool := (order.1.masked, order.2)

/-- The statement with the literals in each of its clauses masked. -/
def masked (q : Select) : Select :=
  { q with
    fields := q.fields.map Field.masked
    filter := q.filter.map Expression.masked
    grouping := q.grouping.map Field.masked
    having := q.having.map Expression.masked
    ordering := q.ordering.map maskedOrder }

theorem writeFields_masked (fs : List Field) (s : Statement) :
    writeFields (fs.map Field.masked) s.masked = (writeFields fs s).masked :=
  masked_separated (fun f => f.tree.write_masked) fs s

theorem writePredicate_masked (keyword : String) (e : Option Expression) (s : Statement) :
    writePredicate keyword (e.map Expression.masked) s.masked =
      (writePredicate keyword e s).masked := by
  cases e with
  | none => rfl
  | some e => exact e.tree.write_masked (s.text keyword)

theorem writeGrouping_masked (fs : List Field) (s : Statement) :
    writeGrouping (fs.map Field.masked) s.masked = (writeGrouping fs s).masked := by
  cases fs with
  | nil => rfl
  | cons f fs => exact writeFields_masked (f :: fs) (s.text " GROUP BY ")

theorem writeOrder_masked (order : Field × Bool) (s : Statement) :
    writeOrder (maskedOrder order) s.masked = (writeOrder order s).masked :=
  congrArg (Statement.text _) (order.1.tree.write_masked s)

theorem writeOrdering_masked (orders : List (Field × Bool)) (s : Statement) :
    writeOrdering (orders.map maskedOrder) s.masked = (writeOrdering orders s).masked := by
  cases orders with
  | nil => rfl
  | cons order orders =>
    exact masked_separated writeOrder_masked (order :: orders) (s.text " ORDER BY ")

theorem writeLimit_masked (limit offset : Option UInt64) (s : Statement) :
    writeLimit limit offset s.masked = (writeLimit limit offset s).masked := by
  cases limit with
  | none => rfl
  | some n => cases offset <;> rfl

/-- What all clauses together add to a masked statement. -/
theorem writeClauses_masked (q : Select) (s : Statement) :
    q.masked.writeClauses s.masked = (q.writeClauses s).masked := by
  have source (s : Statement) : q.source.write s.masked = (q.source.write s).masked := rfl
  simp only [writeClauses, masked, ← masked_text, writeFields_masked, source,
    writePredicate_masked, writeGrouping_masked, writeOrdering_masked, writeLimit_masked]
  cases q.forUpdate <;> rfl

theorem validate_masked (q : Select) : q.masked.validate = q.validate := by
  simp [validate, rejection?, masked]

/-- Masking makes no difference to whether a statement is built, nor to its
    text. -/
theorem build_masked (q : Select) : q.masked.build = q.build.map Statement.masked := by
  have clauses := q.writeClauses_masked .empty
  rw [Statement.masked_empty] at clauses
  rw [build, build, write_eq_map, write_eq_map, validate_masked, clauses]
  cases q.validate <;> rfl

/-! ## Section 2: Literals -/

/-- The literals of a statement, in the order of its clauses. -/
def occurrences (q : Select) : List Occurrence := q.trees.flatMap Expr.occurrences

/-- Their values. -/
def literals (q : Select) : List Value := Occurrence.values q.occurrences

theorem trees_masked (q : Select) : q.masked.trees = q.trees.map Expr.masked := by
  cases hf : q.filter <;> cases hh : q.having <;>
    simp [trees, masked, maskedOrder, hf, hh, Function.comp_def]

theorem occurrences_masked (q : Select) :
    q.masked.occurrences = q.occurrences.map Occurrence.masked := by
  rw [occurrences, occurrences, trees_masked, List.flatMap_map, List.map_flatMap]
  exact List.flatMap_congr fun e _ => e.occurrences_masked

theorem params_of_build {q : Select} {s : Statement} (h : q.build = .ok s) :
    s.params = Occurrence.placed q.occurrences := by
  have lexemes := build_of_validate (validate_of_build h)
  obtain rfl := Except.ok.inj (h.symm.trans lexemes)
  have trees : q.paramLists.flatten = q.trees.flatMap (·.statement.params) := by
    simp [paramLists, trees, Expression.statement, List.flatMap_map]
  rw [Statement.params_add, Statement.params_empty, List.nil_append]
  refine q.values_select.trans ?_
  rw [trees, occurrences, Occurrence.placed_flatMap]
  exact List.flatMap_congr fun e _ => e.params_statement

end Select

/-- **Payloads stay out of the text**: trees, and statements, that differ in
    nothing but values which may hold anything are built alike or rejected
    alike, and told apart by the parameters that these values are. -/
theorem text_independent_of_payload :
    (∀ e₁ e₂ : Expr, e₁.masked = e₂.masked →
      Indistinct e₁.statement e₂.statement e₁.literals e₂.literals) ∧
    ∀ q₁ q₂ : Select, q₁.masked = q₂.masked →
      (∃ r, q₁.build = .error r ∧ q₂.build = .error r) ∨
      ∃ s₁ s₂, q₁.build = .ok s₁ ∧ q₂.build = .ok s₂ ∧
        Indistinct s₁ s₂ q₁.literals q₂.literals := by
  constructor
  · intro e₁ e₂ same
    apply Indistinct.of_masked
    · rw [← Expr.statement_masked, ← Expr.statement_masked, same]
    · rw [← Expr.occurrences_masked, ← Expr.occurrences_masked, same]
    · exact e₁.params_statement
    · exact e₂.params_statement
  · intro q₁ q₂ same
    have built : q₁.build.map Statement.masked = q₂.build.map Statement.masked := by
      rw [← Select.build_masked, ← Select.build_masked, same]
    cases h₁ : q₁.build with
    | error r =>
      cases h₂ : q₂.build with
      | ok s₂ =>
        rw [h₁, h₂] at built
        cases built
      | error r₂ =>
        rw [h₁, h₂] at built
        cases built
        exact .inl ⟨r, rfl, rfl⟩
    | ok s₁ =>
      cases h₂ : q₂.build with
      | error r =>
        rw [h₁, h₂] at built
        cases built
      | ok s₂ =>
        rw [h₁, h₂] at built
        refine .inr ⟨s₁, s₂, rfl, rfl, ?_⟩
        apply Indistinct.of_masked
        · exact Except.ok.inj built
        · rw [← Select.occurrences_masked, ← Select.occurrences_masked, same]
        · exact Select.params_of_build h₁
        · exact Select.params_of_build h₂

/-- The posts with a title, those with a certain file last. -/
def titled (title file : Value) : Select :=
  { Select.ofSlice ⟨⟨"posts"⟩, [⟨.column "id", .long, false⟩]⟩
      (some (.predicate (.inList (.column "title") [.literal title, .literal .null] false) true))
    with ordering := [(⟨.binary (.column "file") .eq (.literal file), .boolean, true⟩, true)] }

/-- A title that would end its literal, and a file that is given as text. -/
theorem text_independent_of_payload_titled :
    (Expr.literal (.text "a")).masked = (Expr.literal (.text "') -- ")).masked ∧
    Indistinct (Expr.literal (.text "a")).statement (Expr.literal (.text "') -- ")).statement
      [.text "a"] [.text "') -- "] ∧
    (titled (.text "a") (.bytes [])).masked = (titled (.text "') -- ") (.text "?")).masked ∧
    ∃ s₁ s₂, (titled (.text "a") (.bytes [])).build = .ok s₁ ∧
      (titled (.text "') -- ") (.text "?")).build = .ok s₂ ∧
      Indistinct s₁ s₂ [.text "a", .null, .bytes []] [.text "') -- ", .null, .text "?"] := by
  have valid : (titled (.text "a") (.bytes [])).validate = .ok () := rfl
  refine ⟨rfl, text_independent_of_payload.1 _ _ rfl, rfl, ?_⟩
  cases text_independent_of_payload.2 (titled (.text "a") (.bytes []))
    (titled (.text "') -- ") (.text "?")) rfl with
  | inl rejected =>
    obtain ⟨r, failed, -⟩ := rejected
    rw [Select.build_of_validate valid] at failed
    cases failed
  | inr built => exact built

end TypedQuery

import TypedQuery.Select.Rendering
import TypedQuery.Proofs.Expr.Vocabulary

/-! # The lexemes of SELECT statements

    A statement is written clause by clause. A clause is a heading, which is
    a keyword or two, and items with commas between.

    * **`writeClauses_eq_add`**: the clauses say all that is written.
    * **`spaced_lexemes`**, **`forall_mem_lexemes`**: a reader can tell the
      lexemes from each other.
-/

namespace TypedQuery

open Lexeme (pieces Spaced)

/-! ## Section 1: Clauses -/

/-- What a clause is about. -/
inductive Heading where
  | fields
  | source
  | filter
  | grouping
  | having
  | ordering
  | limit
  | offset
  | lock
  deriving DecidableEq, Repr

namespace Heading

variable {ν : Type}

/-- The keywords of a heading. -/
def keywords : Heading → List Keyword
  | .fields => [.SELECT]
  | .source => [.FROM]
  | .filter => [.WHERE]
  | .grouping => [.GROUP, .BY]
  | .having => [.HAVING]
  | .ordering => [.ORDER, .BY]
  | .limit => [.LIMIT]
  | .offset => [.OFFSET]
  | .lock => [.FOR, .UPDATE]

/-- The lexemes of a heading, with the blanks around it. Nothing follows the
    last one. -/
def lexemes (h : Heading) : List (Lexeme ν) :=
  h.keywords.flatMap (fun k => [.blank, .keyword k]) ++ if h = .lock then [] else [.blank]

/-- The text of a heading. -/
def text : Heading → String
  | .fields => " SELECT "
  | .source => " FROM "
  | .filter => " WHERE "
  | .grouping => " GROUP BY "
  | .having => " HAVING "
  | .ordering => " ORDER BY "
  | .limit => " LIMIT "
  | .offset => " OFFSET "
  | .lock => " FOR UPDATE"

@[simp] theorem add_lexemes (h : Heading) (s : Statement) :
    s.add (pieces h.lexemes) = s.text h.text := by
  cases h <;> simp [lexemes, keywords, text, Keyword.text]

end Heading

/-- A clause of a statement. -/
structure Clause (ν : Type) where
  heading : Heading
  /-- What stands between its commas. -/
  items : List (List (Lexeme ν))

open Lexeme (listed)

namespace Clause

/-- The lexemes of a clause. -/
def lexemes {ν : Type} (c : Clause ν) : List (Lexeme ν) := c.heading.lexemes ++ listed c.items

/-- The clause of a predicate, if there is one. -/
def ofPredicate (h : Heading) (e : Option Expression) : List (Clause Value) :=
  e.toList.map fun e => ⟨h, [e.tree.lexemes]⟩

/-- The clause of a list, unless it is empty. -/
def ofList (h : Heading) (items : List (List (Lexeme Value))) : List (Clause Value) :=
  if items = [] then [] else [⟨h, items⟩]

/-- The clause of a count. -/
def ofCount (h : Heading) (n : UInt64) : Clause Value :=
  ⟨h, [[.numeral (Number.naturalText n.toNat)]]⟩

end Clause

namespace Select

/-- The lexemes of a field to order by, with the direction. -/
def orderLexemes (order : Field × Bool) : List (Lexeme Value) :=
  order.1.tree.lexemes ++ [.blank, .keyword (if order.2 then .ASC else .DESC)]

/-- The clauses that limit the rows. -/
def limitClauses : Option UInt64 → Option UInt64 → List (Clause Value)
  | none, _ => []
  | some n, none => [.ofCount .limit n]
  | some n, some m => [.ofCount .limit n, .ofCount .offset m]

/-- The clauses after the first. -/
def laterClauses (q : Select) : List (Clause Value) :=
  ⟨.source, [[.identifier q.source.name]]⟩ ::
    (Clause.ofPredicate .filter q.filter ++
      (Clause.ofList .grouping (q.grouping.map (·.tree.lexemes)) ++
        (Clause.ofPredicate .having q.having ++
          (Clause.ofList .ordering (q.ordering.map orderLexemes) ++
            (limitClauses q.limit q.offset ++ if q.forUpdate then [⟨.lock, []⟩] else [])))))

/-- The clauses of a statement, in the order of the text. -/
def clauses (q : Select) : List (Clause Value) :=
  ⟨.fields, q.fields.map (·.tree.lexemes)⟩ :: q.laterClauses

/-- The lexemes of a statement. No blank stands before the first heading. -/
def lexemes (q : Select) : List (Lexeme Value) :=
  .keyword .SELECT :: .blank ::
    (listed (q.fields.map (·.tree.lexemes)) ++ q.laterClauses.flatMap Clause.lexemes)

theorem blank_cons_lexemes (q : Select) :
    .blank :: q.lexemes = q.clauses.flatMap Clause.lexemes := rfl

/-! ## Section 2: What is written -/

end Select

theorem Statement.separated_eq_add {α : Type} {write : α → Statement → Statement}
    {lexemes : α → List (Lexeme Value)} (h : ∀ x s, write x s = s.add (pieces (lexemes x)))
    (xs : List α) (s : Statement) :
    s.separated ", " write xs = s.add (pieces (listed (xs.map lexemes))) := by
  induction xs generalizing s with
  | nil => rfl
  | cons x xs ih =>
    cases xs with
    | nil => simp [Statement.separated, h]
    | cons y ys =>
      have rest : s.separated ", " write (x :: y :: ys) =
          ((write x s).text ", ").separated ", " write (y :: ys) := rfl
      rw [rest, ih]
      simp [h, Lexeme.listed_cons_cons, Symbol.text]

namespace Select

theorem writeFields_eq_add (fs : List Field) (s : Statement) :
    writeFields fs s = s.add (pieces (listed (fs.map (·.tree.lexemes)))) :=
  Statement.separated_eq_add (fun f => f.tree.write_eq_add) fs s

theorem writeOrder_eq_add (order : Field × Bool) (s : Statement) :
    writeOrder order s = s.add (pieces (orderLexemes order)) := by
  obtain ⟨f, ascending⟩ := order
  have tree : f.write s = s.add (pieces f.tree.lexemes) := f.tree.write_eq_add s
  cases ascending <;> simp [writeOrder, orderLexemes, tree, Keyword.text]

/-- The pieces of some clauses. -/
def clausePieces (cs : List (Clause Value)) : List Piece := pieces (cs.flatMap Clause.lexemes)

@[simp] theorem clausePieces_nil : clausePieces [] = [] := rfl

@[simp] theorem clausePieces_append (cs ds : List (Clause Value)) :
    clausePieces (cs ++ ds) = clausePieces cs ++ clausePieces ds := by
  simp [clausePieces]

@[simp] theorem clausePieces_cons (c : Clause Value) (cs : List (Clause Value)) :
    clausePieces (c :: cs) = pieces c.lexemes ++ clausePieces cs := by
  simp [clausePieces]

theorem writePredicate_eq_add (h : Heading) (e : Option Expression) (s : Statement) :
    writePredicate h.text e s = s.add (clausePieces (Clause.ofPredicate h e)) := by
  cases e with
  | none => rfl
  | some e =>
    simp [writePredicate, Clause.ofPredicate, Clause.lexemes, Expression.write,
      Expr.write_eq_add, Expr.pieces]

theorem writeGrouping_eq_add (fs : List Field) (s : Statement) :
    writeGrouping fs s =
      s.add (clausePieces (Clause.ofList .grouping (fs.map (·.tree.lexemes)))) := by
  cases fs with
  | nil => rfl
  | cons f fs =>
    simp [writeGrouping, Clause.ofList, Clause.lexemes, writeFields_eq_add, Heading.text]

theorem writeOrdering_eq_add (orders : List (Field × Bool)) (s : Statement) :
    writeOrdering orders s =
      s.add (clausePieces (Clause.ofList .ordering (orders.map orderLexemes))) := by
  cases orders with
  | nil => rfl
  | cons order orders =>
    simp [writeOrdering, Clause.ofList, Clause.lexemes,
      Statement.separated_eq_add writeOrder_eq_add, Heading.text]

theorem writeLimit_eq_add (limit offset : Option UInt64) (s : Statement) :
    writeLimit limit offset s = s.add (clausePieces (limitClauses limit offset)) := by
  cases limit <;> cases offset <;>
    simp [writeLimit, limitClauses, Clause.ofCount, Clause.lexemes, Heading.text, Statement.count]

theorem writeClauses_eq_add (q : Select) (s : Statement) :
    q.writeClauses s = s.add (pieces q.lexemes) := by
  have filter := writePredicate_eq_add .filter q.filter
  have having := writePredicate_eq_add .having q.having
  -- each clause is written as its pieces, and the clauses come in one order
  have rest : pieces (q.laterClauses.flatMap Clause.lexemes) = clausePieces q.laterClauses := rfl
  simp only [Heading.text] at filter having
  simp only [writeClauses, writeFields_eq_add, filter, writeGrouping_eq_add, having,
    writeOrdering_eq_add, writeLimit_eq_add, lexemes, Lexeme.pieces_cons, Lexeme.pieces_append,
    rest]
  cases h : q.forUpdate <;>
    simp [laterClauses, h, Clause.lexemes, Heading.text, Keyword.text, Source.write,
      Statement.identifier]

/-- A valid statement is written, and any other is not. -/
theorem write_eq_add (q : Select) (s : Statement) :
    q.write s = q.validate.map fun _ => s.add (pieces q.lexemes) := by
  rw [write_eq_map]
  simp only [writeClauses_eq_add]

/-- A statement adds to another what it is on its own. -/
theorem write_eq (q : Select) (s : Statement) : q.write s = q.build.map (s ++ ·) := by
  rw [build, write_eq_add, write_eq_add, Statement.add_eq_append]
  cases q.validate <;> rfl

/-- A statement that is valid has a text. -/
theorem build_of_validate {q : Select} (h : q.validate = .ok ()) :
    q.build = .ok (Statement.empty.add (pieces q.lexemes)) := by
  rw [build, write_eq_add, h]
  rfl

/-! ## Section 3: Items -/

/-- The trees of all expressions of a statement. -/
def trees (q : Select) : List Expr :=
  q.fields.map (·.tree) ++ (q.filter.toList.map (·.tree) ++ (q.grouping.map (·.tree) ++
    (q.having.toList.map (·.tree) ++ q.ordering.map (·.1.tree))))

/-- The names of the functions that a statement calls. -/
def functions (q : Select) : List String := q.trees.flatMap Expr.functions

/-- An item is an expression, perhaps with a direction, or a name, or a
    count. -/
theorem forall_items {q : Select} {P : List (Lexeme Value) → Prop}
    (tree : ∀ e ∈ q.trees, P e.lexemes)
    (order : ∀ e ∈ q.trees, ∀ k ∈ [Keyword.ASC, .DESC], P (e.lexemes ++ [.blank, .keyword k]))
    (name : P [.identifier q.source.name])
    (count : ∀ n : UInt64, P [.numeral (Number.naturalText n.toNat)]) :
    ∀ c ∈ q.clauses, ∀ ls ∈ c.items, P ls := by
  simp only [trees, List.forall_mem_append, List.forall_mem_map, Option.mem_toList] at tree order
  obtain ⟨fields, filter, grouping, having, -⟩ := tree
  obtain ⟨-, -, -, -, ordering⟩ := order
  simp only [clauses, laterClauses, List.forall_mem_cons, List.forall_mem_append]
  refine ⟨by simpa using fields, by simpa using name, ?_, ?_, ?_, ?_, ?_, ?_⟩
  · simpa [Clause.ofPredicate] using filter
  · unfold Clause.ofList
    split <;> simp_all
  · simpa [Clause.ofPredicate] using having
  · unfold Clause.ofList
    split
    · simp
    · simp only [List.forall_mem_singleton, List.forall_mem_map]
      intro order h
      have direction : (if order.2 then Keyword.ASC else .DESC) ∈ [Keyword.ASC, .DESC] := by
        cases order.2 <;> simp
      exact ordering order h _ direction
  · cases q.limit <;> cases q.offset <;> simp [limitClauses, Clause.ofCount, count]
  · cases q.forUpdate <;> simp

/-! ## Section 4: Ends of lexemes -/

theorem spaced_clause {c : Clause Value} (h : ∀ ls ∈ c.items, Spaced ls)
    (lock : c.heading = .lock → c.items = []) : Spaced c.lexemes := by
  have body := Spaced.listed h
  obtain ⟨heading, items⟩ := c
  cases heading
  case lock =>
    -- nothing follows the last keyword
    rw [Clause.lexemes, lock rfl]
    have update : Spaced [(.keyword .UPDATE : Lexeme Value)] := Lexeme.spaced_singleton _
    exact (update.cons_word (.keyword .FOR)).cons_closed rfl
  case grouping =>
    exact ((body.cons_word (.keyword .BY)).cons_word (.keyword .GROUP)).cons_closed rfl
  case ordering =>
    exact ((body.cons_word (.keyword .BY)).cons_word (.keyword .ORDER)).cons_closed rfl
  all_goals exact (body.cons_word (.keyword _)).cons_closed rfl

/-- A clause starts with a blank, so it may follow anything. -/
theorem spaced_append_clauses {cs : List (Clause Value)}
    (h : ∀ c ∈ cs, Spaced c.lexemes) {ls : List (Lexeme Value)} (hls : Spaced ls) :
    Spaced (ls ++ cs.flatMap Clause.lexemes) := by
  induction cs generalizing ls with
  | nil => rwa [List.flatMap_nil, List.append_nil]
  | cons c cs ih =>
    obtain ⟨first, rest⟩ := List.forall_mem_cons.mp h
    -- the blank lets it follow `ls`, and the clause lets the others follow it
    obtain ⟨ms, hms⟩ : ∃ ms, c.lexemes = .blank :: ms := by
      obtain ⟨heading, items⟩ := c
      cases heading <;> exact ⟨_, rfl⟩
    have tail := ih rest first
    rw [hms] at tail
    rw [List.flatMap_cons, hms]
    exact hls.append_delimiter tail rfl

theorem items_eq_nil_of_lock {q : Select} {c : Clause Value} (hc : c ∈ q.clauses)
    (h : c.heading = .lock) : c.items = [] := by
  simp only [clauses, laterClauses, List.mem_cons, List.mem_append] at hc
  rcases hc with rfl | rfl | hc | hc | hc | hc | hc | hc
  · cases h
  · cases h
  · obtain ⟨e, -, rfl⟩ := List.mem_map.mp hc
    cases h
  · unfold Clause.ofList at hc
    split at hc <;> simp_all
  · obtain ⟨e, -, rfl⟩ := List.mem_map.mp hc
    cases h
  · unfold Clause.ofList at hc
    split at hc <;> simp_all
  · cases hl : q.limit <;> cases ho : q.offset <;> rw [hl, ho] at hc <;>
      simp only [limitClauses, Clause.ofCount, List.mem_cons, List.not_mem_nil, or_false] at hc
    · subst hc
      cases h
    · rcases hc with rfl | rfl <;> cases h
  · split at hc <;> simp_all

theorem spaced_lexemes (q : Select) : Spaced q.lexemes := by
  have items : ∀ c ∈ q.clauses, ∀ ls ∈ c.items, Spaced ls := by
    apply forall_items
    · exact fun e _ => e.spaced_lexemes
    · intro e _ k _
      exact e.spaced_lexemes.append_blank (Lexeme.spaced_singleton _)
    · exact Lexeme.spaced_singleton _
    · exact fun n => Lexeme.spaced_singleton _
  have clauses : ∀ c ∈ q.clauses, Spaced c.lexemes := by
    intro c hc
    exact spaced_clause (items c hc) (items_eq_nil_of_lock hc)
  -- the first blank is the one thing that is not written
  have all := spaced_append_clauses clauses Lexeme.spaced_nil
  rw [List.nil_append, ← blank_cons_lexemes] at all
  exact all.of_cons

/-! ## Section 5: Which lexemes there are -/

/-- What holds of the lexemes of all trees, and of any other lexeme but a
    function or a place, holds of all lexemes. -/
theorem forall_mem_lexemes_of_trees (q : Select) {Q : Lexeme Value → Prop}
    (tree : ∀ e ∈ q.trees, ∀ l ∈ e.lexemes, Q l)
    (other : ∀ l : Lexeme Value, l.Regular (fun _ => False) → (∀ v, l ≠ .place v) → Q l) :
    ∀ l ∈ q.lexemes, Q l := by
  have blank : Q .blank := other _ trivial (by simp)
  have comma : Q (.symbol .comma) := other _ trivial (by simp)
  have word (k : Keyword) : Q (.keyword k) := other _ trivial (by simp)
  have items : ∀ c ∈ q.clauses, ∀ ls ∈ c.items, ∀ l ∈ ls, Q l := by
    apply forall_items
    · exact tree
    · intro e he k _
      exact List.forall_mem_append.mpr ⟨tree e he, by simp [blank, word]⟩
    · exact List.forall_mem_singleton.mpr (other _ trivial (by simp))
    · intro n
      exact List.forall_mem_singleton.mpr
        (other _ (Lexeme.isNumeral_digits n.toNat) (by simp))
  have all : ∀ l ∈ q.clauses.flatMap Clause.lexemes, Q l := by
    intro l hl
    obtain ⟨c, hc, hl⟩ := List.mem_flatMap.mp hl
    rcases List.mem_append.mp hl with hl | hl
    · have heading : ∀ l ∈ (c.heading.lexemes : List (Lexeme Value)), Q l := by
        cases c.heading <;> simp [Heading.lexemes, Heading.keywords, blank, word]
      exact heading l hl
    · exact Lexeme.forall_mem_listed comma blank (items c hc) l hl
  rw [← blank_cons_lexemes] at all
  exact (List.forall_mem_cons.mp all).2

theorem forall_mem_functions {q : Select} {P : String → Prop} (h : ∀ name ∈ q.functions, P name) :
    ∀ e ∈ q.trees, ∀ name ∈ e.functions, P name := by
  intro e he name hn
  exact h name (List.mem_flatMap.mpr ⟨e, he, hn⟩)

variable {P : String → Prop}

theorem forall_mem_lexemes (q : Select) (h : ∀ name ∈ q.functions, P name) :
    ∀ l ∈ q.lexemes, l.Regular P := by
  apply forall_mem_lexemes_of_trees
  · intro e he l hl
    exact (e.forall_mem_lexemes (forall_mem_functions h e he) l hl).regular
  · intro l regular _
    cases l with
    | function name => exact absurd regular id
    | _ => exact regular

end Select

end TypedQuery

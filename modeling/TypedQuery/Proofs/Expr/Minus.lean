import TypedQuery.Proofs.Statement.Quotation

/-! # Minus signs in a row

    Two minus signs in a row begin a comment, unless they are part of a
    quoted name. A number with a sign is wrapped behind a minus for that
    reason, and everywhere else but in one place something stands between
    two signs:

    * **`clear_append_cons`**: what stands between two parts keeps them
      apart.
    * **`clear_minus_grouped`**: behind a minus, only another negation begins
      with one.
    * **`opensComment_iff`**: two signs meet exactly where a negation is
      negated.
-/

namespace TypedQuery

namespace Quotation

/-! ## Section 1: Signs that meet -/

/-- A minus sign outside quotes. -/
def minus : Mark := (false, '-')

/-- Two minus signs stand in a row outside quotes. -/
def OpensComment (ms : List Mark) : Prop := [minus, minus] <:+: ms

instance (ms : List Mark) : Decidable (OpensComment ms) :=
  inferInstanceAs (Decidable (_ <:+: _))

/-- Two marks are not both a minus sign. -/
def Apart (m n : Mark) : Prop := ¬ (m = minus ∧ n = minus)

instance (m n : Mark) : Decidable (Apart m n) := inferInstanceAs (Decidable (¬ _))

/-- No two minus signs of some lexemes stand in a row. -/
def Clear (ls : List (Lexeme Value)) : Prop := (ls.flatMap marks).IsChain Apart

theorem clear_iff (ls : List (Lexeme Value)) : Clear ls ↔ ¬ OpensComment (ls.flatMap marks) := by
  unfold Clear OpensComment
  rw [List.isChain_iff_forall_rel_of_append_cons_cons]
  constructor
  · intro apart ⟨before, after, split⟩
    rw [List.append_assoc] at split
    exact apart split.symm ⟨rfl, rfl⟩
  · rintro none m n before after split ⟨rfl, rfl⟩
    exact none ⟨before, after, by rw [split]; simp⟩

/-! ## Section 2: Lexemes in a row -/

/-- A name without minus signs. -/
def IsUnsigned (name : String) : Prop := '-' ∉ name.toList

theorem minus_not_mem_marks (l : Lexeme Value) (h : l.Regular IsUnsigned)
    (hl : l ≠ .symbol .minus) : minus ∉ marks l := by
  -- quoted marks aside, a minus is a character of the text
  have outside : '-' ∉ l.text.toList → minus ∉ l.text.toList.map (false, ·) := by
    intro none mem
    obtain ⟨c, hc, e⟩ := List.mem_map.mp mem
    cases e
    exact none hc
  cases l with
  | blank => decide
  | identifier name => simp [marks, minus]
  | keyword k => cases k <;> decide
  | function name => exact outside h
  | numeral digits =>
    apply outside
    intro mem
    rcases h.1 _ mem with digit | point
    · exact absurd digit (by decide)
    · exact absurd point (by decide)
  | symbol s => cases s <;> first | exact absurd rfl hl | decide
  | place v => rw [marks_place]; decide

theorem clear_of_not_mem {ls : List (Lexeme Value)} (h : minus ∉ ls.flatMap marks) : Clear ls := by
  unfold Clear
  rw [List.isChain_iff_forall_rel_of_append_cons_cons]
  rintro m n before after split ⟨rfl, rfl⟩
  exact h (split ▸ by simp)

theorem clear_singleton {l : Lexeme Value} (h : minus ∉ marks l) : Clear [l] :=
  clear_of_not_mem (by simpa using h)

/-- Whether a lexeme keeps apart what stands before it and what stands after
    it. -/
def divides : Lexeme Value → Bool
  | .blank | .keyword _ => true
  | .symbol s => s != .minus
  | .identifier _ | .function _ | .numeral _ | .place _ => false

theorem marks_of_divides {l : Lexeme Value} (h : divides l) :
    marks l ≠ [] ∧ minus ∉ marks l := by
  have regular : l.Regular IsUnsigned := by cases l <;> trivial
  have other : l ≠ .symbol .minus := by
    rintro rfl
    cases h
  refine ⟨?_, minus_not_mem_marks l regular other⟩
  cases l with
  | keyword k => cases k <;> decide
  | symbol s => cases s <;> decide
  | blank => decide
  | _ => cases h

theorem clear_cons {l : Lexeme Value} (h : minus ∉ marks l) (ls : List (Lexeme Value)) :
    Clear (l :: ls) ↔ Clear ls := by
  unfold Clear
  rw [List.flatMap_cons, List.isChain_append]
  have own : (marks l).IsChain Apart := by
    simpa [Clear] using clear_singleton h
  constructor
  · exact fun both => both.2.1
  · intro rest
    refine ⟨own, rest, ?_⟩
    rintro m hm n - ⟨rfl, -⟩
    exact h (List.mem_of_mem_getLast? hm)

theorem clear_cons_of_divides {l : Lexeme Value} (h : divides l) (ls : List (Lexeme Value)) :
    Clear (l :: ls) ↔ Clear ls :=
  clear_cons (marks_of_divides h).2 ls

@[simp] theorem clear_nil : Clear [] := .nil

theorem clear_of_divides {ls : List (Lexeme Value)} (h : ls.all divides) : Clear ls := by
  induction ls with
  | nil => exact clear_nil
  | cons l ls ih =>
    obtain ⟨first, others⟩ : divides l ∧ ls.all divides := by simpa using h
    rw [clear_cons_of_divides first]
    exact ih others

theorem clear_append_cons {l : Lexeme Value} (h : divides l) (ls ms : List (Lexeme Value)) :
    Clear (ls ++ l :: ms) ↔ Clear ls ∧ Clear ms := by
  obtain ⟨some, none⟩ := marks_of_divides h
  rw [← clear_cons none ms]
  unfold Clear
  rw [List.flatMap_append, List.isChain_append]
  constructor
  · exact fun all => ⟨all.1, all.2.1⟩
  · intro ⟨before, after⟩
    refine ⟨before, after, ?_⟩
    rintro m - n hn ⟨-, rfl⟩
    obtain ⟨c, cs, e⟩ := List.exists_cons_of_ne_nil some
    rw [List.flatMap_cons, e, List.cons_append, List.head?_cons] at hn
    cases hn
    exact none (e ▸ List.mem_cons_self)

/-- Lexemes do not begin with a minus if the first is without one and those
    after it do not begin with one. -/
theorem head?_ne_minus {l : Lexeme Value} (h : minus ∉ marks l) {ls : List (Lexeme Value)}
    (rest : (ls.flatMap marks).head? ≠ some minus) :
    ((l :: ls).flatMap marks).head? ≠ some minus := by
  rw [List.flatMap_cons, List.head?_append]
  cases first : (marks l).head? with
  | none => exact rest
  | some m =>
    intro e
    obtain rfl := Option.some.inj e
    exact h (List.mem_of_mem_head? first)

/-- What begins with something else may stand behind a minus. -/
theorem clear_minus_cons {ls : List (Lexeme Value)}
    (h : (ls.flatMap marks).head? ≠ some minus) : Clear (.symbol .minus :: ls) ↔ Clear ls := by
  unfold Clear
  rw [List.flatMap_cons]
  show List.IsChain Apart (minus :: ls.flatMap marks) ↔ _
  rw [List.isChain_cons]
  constructor
  · exact fun both => both.2
  · intro rest
    refine ⟨?_, rest⟩
    rintro m hm ⟨-, rfl⟩
    exact h hm

theorem not_clear_minus_minus (ls : List (Lexeme Value)) :
    ¬ Clear (.symbol .minus :: .symbol .minus :: ls) := by
  rw [clear_iff, not_not]
  exact ⟨[], ls.flatMap marks, rfl⟩

end Quotation

namespace Expr

open Lexeme (grouped)
open Quotation

/-! ## Section 3: Negations of negations -/

/-- Whether an expression is the negative of another one. -/
def isNegation : Expr → Bool
  | .unary .neg _ => true
  | _ => false

mutual

/-- Whether somewhere in what is written of an expression the negative of a
    negative is taken. -/
def negatesNegation : Expr → Bool
  | .column _ | .literal _ | .wildcard => false
  | .binary left _ right => left.negatesNegation || right.negatesNegation
  | .unary op operand => (op == .neg && operand.isNegation) || operand.negatesNegation
  | .isNull operand _ => operand.negatesNegation
  -- nothing is written of a test against an empty list but its outcome
  | .inList _ [] _ => false
  | .inList operand (item :: items) _ =>
    operand.negatesNegation || (item.negatesNegation || anyNegatesNegation items)
  | .between operand low high _ =>
    operand.negatesNegation || (low.negatesNegation || high.negatesNegation)
  | .call _ args _ => anyNegatesNegation args

/-- Whether one of several expressions has the negative of a negative. -/
def anyNegatesNegation : List Expr → Bool
  | [] => false
  | e :: es => e.negatesNegation || anyNegatesNegation es

end

/-! ## Section 4: Signs of expressions -/

theorem clear_grouped (wrap : Bool) (ls : List (Lexeme Value)) :
    Clear (grouped wrap ls) ↔ Clear ls := by
  cases wrap with
  | false => exact Iff.rfl
  | true =>
    show Clear ([] ++ .symbol .lparen :: (ls ++ .symbol .rparen :: [])) ↔ _
    rw [clear_append_cons rfl, clear_append_cons rfl, and_iff_right clear_nil,
      and_iff_left clear_nil]

theorem clear_operator (op : BinaryOp) : Clear [op.lexeme] := by
  cases op <;> unfold Clear <;> decide

/-- A word and the blank after it may be left out. -/
theorem clear_optional (given : Bool) (k : Keyword) (ls : List (Lexeme Value)) :
    Clear ((if given then [.keyword k, .blank] else []) ++ ls) ↔ Clear ls := by
  cases given with
  | false => exact Iff.rfl
  | true =>
    show Clear (.keyword k :: .blank :: ls) ↔ _
    rw [clear_cons_of_divides rfl, clear_cons_of_divides rfl]

theorem hasSign_of_number? {v : Value} {negative : Bool} {digits : String}
    (h : v.number? = some (negative, digits)) : v.hasSign = negative := by
  cases v with
  | int n =>
    obtain ⟨sign, -⟩ : _ ∧ _ := by simpa [Value.number?] using h
    exact sign
  | float x =>
    obtain ⟨-, sign, -⟩ : _ ∧ _ ∧ _ := by simpa [Value.number?] using h
    exact sign
  | _ => simp [Value.number?] at h

theorem minus_not_mem_number {v : Value} {negative : Bool} {digits : String}
    (h : v.number? = some (negative, digits)) : minus ∉ marks (.numeral digits) :=
  minus_not_mem_marks (.numeral digits) (Value.isNumeral_number? h) (by simp)

theorem clear_value (v : Value) : Clear v.lexemes := by
  obtain ⟨-, h⟩ | ⟨b, -, h⟩ | ⟨_, hn, h⟩ | ⟨_, hn, h⟩ | ⟨-, h⟩ := v.lexemes_cases <;> rw [h]
  · exact clear_of_divides rfl
  · exact clear_of_divides rfl
  · have number := minus_not_mem_number hn
    rw [clear_minus_cons (head?_ne_minus number (by simp))]
    exact clear_singleton number
  · exact clear_singleton (minus_not_mem_number hn)
  · exact clear_singleton (minus_not_mem_marks (.place v) trivial (by simp))

/-- An atom without sign does not begin with a minus, and neither does any
    other operand of a minus that is not wrapped, but for a negation. -/
theorem head?_operand_ne_minus {e : Expr} (names : ∀ name ∈ e.functions, IsUnsigned name)
    (atom : ¬ e.precedence < UnaryOp.neg.precedence) (unsigned : e.isSignedLiteral = false)
    (other : e.isNegation = false) : (e.lexemes.flatMap marks).head? ≠ some minus := by
  cases e with
  | column name =>
    exact head?_ne_minus (minus_not_mem_marks (.identifier name) trivial (by simp)) (by simp)
  | literal v =>
    show (v.lexemes.flatMap marks).head? ≠ some minus
    obtain ⟨-, h⟩ | ⟨b, -, h⟩ | ⟨_, hn, -⟩ | ⟨_, hn, h⟩ | ⟨-, h⟩ := v.lexemes_cases
    case inr.inr.inl =>
      have signed : v.hasSign = true := hasSign_of_number? hn
      rw [isSignedLiteral, signed] at unsigned
      cases unsigned
    all_goals rw [h]
    · exact head?_ne_minus (marks_of_divides rfl).2 (by simp)
    · exact head?_ne_minus (marks_of_divides rfl).2 (by simp)
    · exact head?_ne_minus (minus_not_mem_number hn) (by simp)
    · exact head?_ne_minus (minus_not_mem_marks (.place v) trivial (by simp)) (by simp)
  | wildcard => exact head?_ne_minus (marks_of_divides rfl).2 (by simp)
  | binary left op right =>
    have loose : op.precedence < UnaryOp.neg.precedence := by cases op <;> decide
    exact absurd loose atom
  | unary op operand =>
    cases op with
    | not =>
      have loose : UnaryOp.not.precedence < UnaryOp.neg.precedence := by decide
      exact absurd loose atom
    | neg => cases other
  | isNull | inList | between =>
    have loose : comparisonPrecedence < UnaryOp.neg.precedence := by decide
    exact absurd loose atom
  | call name args distinct =>
    have own : IsUnsigned name := names name List.mem_cons_self
    -- a name may be empty, but then a parenthesis comes first
    rw [lexemes]
    apply head?_ne_minus (minus_not_mem_marks (.function name) own (by simp))
    show some (false, '(') ≠ some minus
    decide

/-- **A minus** may stand before any operand but a negation. -/
theorem clear_minus_grouped {e : Expr} (names : ∀ name ∈ e.functions, IsUnsigned name) :
    Clear (.symbol .minus ::
        grouped (e.precedence < UnaryOp.neg.precedence || e.isSignedLiteral) e.lexemes) ↔
      e.isNegation = false ∧ Clear e.lexemes := by
  by_cases negation : e.isNegation = true
  · obtain ⟨operand, rfl⟩ : ∃ operand, e = .unary .neg operand := by
      unfold isNegation at negation
      split at negation
      · exact ⟨_, rfl⟩
      · cases negation
    refine iff_of_false (not_clear_minus_minus _) ?_
    rw [negation]
    exact fun both => Bool.noConfusion both.1
  rw [Bool.not_eq_true] at negation
  rw [and_iff_right negation]
  by_cases wrapped : e.precedence < UnaryOp.neg.precedence ∨ e.isSignedLiteral
  · have wrap : (decide (e.precedence < UnaryOp.neg.precedence) || e.isSignedLiteral) = true := by
      simpa using wrapped
    have inside := clear_grouped true e.lexemes
    rw [wrap, ← inside]
    -- the parenthesis stands between the sign and what is inside
    apply clear_minus_cons
    show some (false, '(') ≠ some minus
    decide
  · obtain ⟨atom, unsigned⟩ := not_or.mp wrapped
    rw [Bool.not_eq_true] at unsigned
    have wrap : (decide (e.precedence < UnaryOp.neg.precedence) || e.isSignedLiteral) = false := by
      simpa [atom] using unsigned
    rw [wrap]
    exact clear_minus_cons (head?_operand_ne_minus names atom unsigned negation)

mutual

theorem clear_lexemes : (e : Expr) → (∀ name ∈ e.functions, IsUnsigned name) →
    (Clear e.lexemes ↔ e.negatesNegation = false)
  | .column name, _ =>
    iff_of_true (clear_singleton (minus_not_mem_marks (.identifier name) trivial (by simp))) rfl
  | .literal v, _ => iff_of_true (clear_value v) rfl
  | .wildcard, _ => iff_of_true (clear_of_divides rfl) rfl
  | .binary left op right, names => by
    simp only [functions, List.forall_mem_append] at names
    show Clear (grouped _ left.lexemes ++ .blank :: ([op.lexeme] ++ .blank ::
      grouped _ right.lexemes)) ↔ _
    rw [clear_append_cons rfl, clear_append_cons rfl, clear_grouped, clear_grouped,
      and_iff_right (clear_operator op), clear_lexemes left names.1, clear_lexemes right names.2,
      negatesNegation, Bool.or_eq_false_iff]
  | .unary .not operand, names => by
    show Clear (.keyword .NOT :: .blank :: grouped _ operand.lexemes) ↔ _
    rw [clear_cons_of_divides rfl, clear_cons_of_divides rfl, clear_grouped,
      clear_lexemes operand names]
    rfl
  | .unary .neg operand, names => by
    show Clear (.symbol .minus :: grouped (_ || operand.isSignedLiteral) operand.lexemes) ↔ _
    rw [clear_minus_grouped (e := operand) names, clear_lexemes operand names, negatesNegation,
      Bool.or_eq_false_iff]
    rfl
  | .isNull operand negated, names => by
    have test : Clear (.keyword .IS :: .blank :: (if negated then
        [.keyword .NOT, .blank, .keyword .NULL] else [.keyword .NULL])) := by
      cases negated <;> exact clear_of_divides rfl
    rw [lexemes, clear_append_cons rfl, and_iff_left test, clear_grouped,
      clear_lexemes operand names, negatesNegation]
  | .inList _ [] negated, _ => iff_of_true (clear_of_divides rfl) rfl
  | .inList operand (item :: items) negated, names => by
    simp only [functions, functionsAll, List.forall_mem_append] at names
    rw [lexemes, clear_append_cons rfl, clear_grouped, clear_optional,
      clear_cons_of_divides rfl, clear_cons_of_divides rfl,
      clear_cons_of_divides rfl, clear_append_cons rfl, and_iff_left clear_nil,
      clear_append_rest items names.2.2,
      clear_lexemes operand names.1, clear_lexemes item names.2.1, negatesNegation,
      Bool.or_eq_false_iff, Bool.or_eq_false_iff]
  | .between operand low high negated, names => by
    simp only [functions, List.forall_mem_append] at names
    rw [lexemes, clear_append_cons rfl, clear_grouped, clear_optional,
      clear_cons_of_divides rfl, clear_cons_of_divides rfl,
      clear_append_cons rfl, clear_grouped, clear_cons_of_divides rfl,
      clear_cons_of_divides rfl, clear_grouped, clear_lexemes operand names.1,
      clear_lexemes low names.2.1, clear_lexemes high names.2.2, negatesNegation,
      Bool.or_eq_false_iff, Bool.or_eq_false_iff]
  | .call name args distinct, names => by
    simp only [functions, List.forall_mem_cons] at names
    rw [lexemes, clear_cons (minus_not_mem_marks (.function name) names.1 (by simp)),
      clear_cons_of_divides rfl, clear_optional, clear_append_cons rfl,
      and_iff_left clear_nil, clear_itemsLexemes args names.2, negatesNegation]

theorem clear_itemsLexemes : (es : List Expr) → (∀ name ∈ functionsAll es, IsUnsigned name) →
    (Clear (itemsLexemes es) ↔ anyNegatesNegation es = false)
  | [], _ => iff_of_true (by simp [Clear, itemsLexemes]) rfl
  | e :: es, names => by
    simp only [functionsAll, List.forall_mem_append] at names
    rw [itemsLexemes, clear_append_rest es names.2, clear_lexemes e names.1, anyNegatesNegation,
      Bool.or_eq_false_iff]

theorem clear_append_rest : (es : List Expr) → (∀ name ∈ functionsAll es, IsUnsigned name) →
    ∀ {ls : List (Lexeme Value)},
      (Clear (ls ++ restLexemes es) ↔ Clear ls ∧ anyNegatesNegation es = false)
  | [], _, ls => by
    rw [restLexemes, List.append_nil]
    exact (and_iff_left rfl).symm
  | e :: es, names, ls => by
    simp only [functionsAll, List.forall_mem_append] at names
    rw [restLexemes, clear_append_cons rfl, clear_cons_of_divides rfl,
      clear_append_rest es names.2, clear_lexemes e names.1, anyNegatesNegation,
      Bool.or_eq_false_iff]

end

/-! ## Section 5: Rendered expressions -/

/-- The characters that an expression is written with, each with whether it
    belongs to a quoted name. -/
def marks (e : Expr) : List Mark := e.lexemes.flatMap Quotation.marks

theorem toList_sql (e : Expr) : e.statement.sql.toList = Lexeme.chars e.lexemes := by
  rw [statement, write_eq_add, Statement.sql_add, Statement.sql_empty, String.empty_append, pieces,
    Lexeme.toList_sql_pieces]

theorem map_marks (e : Expr) : e.marks.map (·.2) = e.statement.sql.toList := by
  rw [toList_sql, marks, List.map_flatMap, Lexeme.chars]
  simp only [Quotation.map_marks]

/-- A database finds the same names between quotes. -/
theorem scan_sql {e : Expr} (names : ∀ name ∈ e.functions, IsUnquoted name) :
    scan false e.statement.sql.toList = (e.marks, false) := by
  rw [toList_sql]
  apply scan_chars e.spaced_lexemes
  intro l hl
  exact (e.forall_mem_lexemes names l hl).regular

/-- **Minus signs in a row**: outside quoted names an expression is written
    with two of them in a row exactly if somewhere in it a negation is negated,
    whatever else is subtracted, negated or has a sign. -/
theorem opensComment_iff (e : Expr) (names : ∀ name ∈ e.functions, '-' ∉ name.toList) :
    e.marks.map (·.2) = e.statement.sql.toList ∧
    ((∀ name ∈ e.functions, '\x60' ∉ name.toList) →
      scan false e.statement.sql.toList = (e.marks, false)) ∧
    (OpensComment e.marks ↔ e.negatesNegation) := by
  refine ⟨e.map_marks, scan_sql, ?_⟩
  have clear := e.clear_lexemes names
  rw [clear_iff] at clear
  rw [← not_iff_not, Bool.not_eq_true]
  exact clear

/-- Numbers with a sign, and a name with two: no signs meet outside it. -/
theorem opensComment_iff_balance :
    let e : Expr := .binary (.call "SUM" [.unary .neg (.literal (.int (-1)))] false) .sub
      (.binary (.unary .neg (.column "--")) .sub (.literal (.float ⟨0x8000000000000000⟩)))
    e.statement.sql = "SUM(-(-1)) - (-\x60--\x60 - -0)" ∧
    (∀ name ∈ e.functions, '-' ∉ name.toList) ∧
    ¬ OpensComment (scan false e.statement.sql.toList).1 := by
  intro e
  have unsigned : ∀ name ∈ e.functions, '-' ∉ name.toList := by decide
  have unquoted : ∀ name ∈ e.functions, '\x60' ∉ name.toList := by decide
  obtain ⟨-, scanned, opens⟩ := opensComment_iff e unsigned
  refine ⟨by decide, unsigned, ?_⟩
  rw [scanned unquoted, opens]
  decide

/-- A number with a sign is wrapped behind a minus, but a negation is not. -/
theorem negated_negation_opens_comment :
    let e : Expr := .unary .neg (.unary .neg (.column "a"))
    e.statement.sql = "--\x60a\x60" ∧ (∀ name ∈ e.functions, '-' ∉ name.toList) ∧
    OpensComment (scan false e.statement.sql.toList).1 := by
  decide

end Expr

end TypedQuery

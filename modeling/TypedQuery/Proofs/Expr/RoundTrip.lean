import TypedQuery.Proofs.Expr.Reader
import TypedQuery.Proofs.Expr.Vocabulary

/-! # The round trip of expressions

    What an expression is written as is read as that expression, at any
    level at which it may stand:

    * **`reads`**: reading an expression that something follows is reading
      on after its term, if what follows binds no tighter than it does.
    * **`read_statement`**: the text and the values of an expression tell
      its term.
-/

namespace TypedQuery

/-! ## Section 1: Without blanks -/

namespace Lexeme

variable {ν : Type}

/-- Whether a lexeme is more than a blank. -/
def isToken : Lexeme ν → Bool
  | .blank => false
  | _ => true

/-- Lexemes without the blanks, which tell nothing to a reader. -/
def compact (ls : List (Lexeme ν)) : List (Lexeme ν) := ls.filter isToken

@[simp] theorem compact_nil : compact ([] : List (Lexeme ν)) = [] := rfl

@[simp] theorem compact_blank (ls : List (Lexeme ν)) : compact (.blank :: ls) = compact ls := rfl

@[simp] theorem compact_keyword (k : Keyword) (ls : List (Lexeme ν)) :
    compact (.keyword k :: ls) = .keyword k :: compact ls := rfl

@[simp] theorem compact_function (name : String) (ls : List (Lexeme ν)) :
    compact (.function name :: ls) = .function name :: compact ls := rfl

@[simp] theorem compact_symbol (s : Symbol) (ls : List (Lexeme ν)) :
    compact (.symbol s :: ls) = .symbol s :: compact ls := rfl

@[simp] theorem compact_operator (op : BinaryOp) (ls : List (Lexeme ν)) :
    compact (op.lexeme :: ls) = op.lexeme :: compact ls := by
  cases op <;> rfl

@[simp] theorem compact_append (ls ms : List (Lexeme ν)) :
    compact (ls ++ ms) = compact ls ++ compact ms :=
  List.filter_append ..

@[simp] theorem compact_grouped (wrap : Bool) (ls : List (Lexeme ν)) :
    compact (grouped wrap ls) = grouped wrap (compact ls) := by
  cases wrap with
  | false => rfl
  | true => simp [grouped]

end Lexeme

open Lexeme (compact grouped)

namespace Expr

/-- The lexemes of an expression without the blanks. -/
def tokens (e : Expr) : List (Lexeme Value) := compact e.lexemes

/-- The lexemes of expressions with a comma before each, without the
    blanks. -/
def restTokens (es : List Expr) : List (Lexeme Value) := compact (restLexemes es)

theorem tokens_binary (left : Expr) (op : BinaryOp) (right : Expr) :
    (binary left op right).tokens =
      grouped (left.precedence < op.precedence) left.tokens ++
        op.lexeme :: grouped (right.precedence ≤ op.precedence) right.tokens := by
  simp [tokens, lexemes]

theorem tokens_not (operand : Expr) :
    (unary .not operand).tokens =
      .keyword .NOT ::
        grouped (operand.precedence < UnaryOp.not.precedence) operand.tokens := by
  have other : (UnaryOp.not == UnaryOp.neg) = false := rfl
  simp [tokens, lexemes, UnaryOp.lexemes, other]

theorem tokens_neg (operand : Expr) :
    (unary .neg operand).tokens =
      .symbol .minus ::
        grouped (operand.precedence < UnaryOp.neg.precedence || operand.isSignedLiteral)
          operand.tokens := by
  simp [tokens, lexemes, UnaryOp.lexemes]

theorem tokens_isNull (operand : Expr) (negated : Bool) :
    (isNull operand negated).tokens =
      grouped (operand.precedence ≤ comparisonPrecedence) operand.tokens ++
        .keyword .IS ::
          (if negated then [.keyword .NOT, .keyword .NULL] else [.keyword .NULL]) := by
  cases negated <;> simp [tokens, lexemes]

theorem tokens_inList (operand item : Expr) (items : List Expr) (negated : Bool) :
    (inList operand (item :: items) negated).tokens =
      grouped (operand.precedence ≤ comparisonPrecedence) operand.tokens ++
        ((if negated then [.keyword .NOT] else []) ++ .keyword .IN :: .symbol .lparen ::
          (item.tokens ++ (restTokens items ++ [.symbol .rparen]))) := by
  cases negated <;> simp [tokens, restTokens, lexemes]

theorem tokens_between (operand low high : Expr) (negated : Bool) :
    (between operand low high negated).tokens =
      grouped (operand.precedence ≤ comparisonPrecedence) operand.tokens ++
        ((if negated then [.keyword .NOT] else []) ++ .keyword .BETWEEN ::
          (grouped (low.precedence ≤ comparisonPrecedence) low.tokens ++ .keyword .AND ::
            grouped (high.precedence ≤ comparisonPrecedence) high.tokens)) := by
  cases negated <;> simp [tokens, lexemes]

theorem restTokens_cons (e : Expr) (es : List Expr) :
    restTokens (e :: es) = .symbol .comma :: (e.tokens ++ restTokens es) := by
  simp [restTokens, restLexemes, tokens]

theorem tokens_call (name : String) (args : List Expr) (distinct : Bool) :
    (call name args distinct).tokens =
      .function name :: .symbol .lparen ::
        ((if distinct then [.keyword .DISTINCT] else []) ++
          (compact (itemsLexemes args) ++ [.symbol .rparen])) := by
  cases distinct <;> simp [tokens, lexemes]

/-! ## Section 2: Where expressions end -/

theorem precedence_pos (e : Expr) : 1 ≤ e.precedence := by
  cases e with
  | binary left op right => exact op.precedence_pos
  | unary op operand =>
    show 1 ≤ op.precedence
    cases op <;> decide
  | _ => exact Nat.le_add_left 1 _

end Expr

open Term (expression operand extend items arguments)

/-- What follows an expression does not bind more tightly than `p`. -/
def Loose (p : Nat) (rest : List (Lexeme Value)) : Prop :=
  ∀ f rest', Sequel.read? rest = some (f, rest') → f.level ≤ p

theorem Loose.mono {p p' : Nat} {rest : List (Lexeme Value)} (h : Loose p rest) (hp : p ≤ p') :
    Loose p' rest := by
  intro f rest' found
  exact (h f rest' found).trans hp

theorem loose_of_none {rest : List (Lexeme Value)} (h : Sequel.read? rest = none) (p : Nat) :
    Loose p rest := by
  intro f rest' found
  rw [h] at found
  cases found

theorem loose_of_some {rest rest' : List (Lexeme Value)} {f : Sequel}
    (h : Sequel.read? rest = some (f, rest')) {p : Nat} (hp : f.level ≤ p) :
    Loose p rest := by
  intro f' rest'' found
  rw [h] at found
  cases found
  exact hp

/-- An expression ends before what binds less tightly. -/
theorem Loose.extend_stop {p level : Nat} {rest : List (Lexeme Value)} (h : Loose p rest)
    (hp : p < level) (t : Term) : extend level t rest = some (t, rest) := by
  apply Term.extend_stop
  intro f rest' found
  have looser := h f rest' found
  omega

/-- After `NOT` the same holds of what binds as tightly, because nothing
    does. -/
theorem Loose.extend_stop_not {rest : List (Lexeme Value)}
    (h : Loose UnaryOp.not.level rest) (t : Term) :
    extend UnaryOp.not.level t rest = some (t, rest) := by
  apply Term.extend_stop
  intro f rest' found
  have looser := h f rest' found
  have other := f.level_ne_not
  omega

/-- After a minus an operand ends. -/
theorem extend_stop_neg (rest : List (Lexeme Value)) (t : Term) :
    extend UnaryOp.neg.level t rest = some (t, rest) := by
  apply Term.extend_stop
  intro f _ _
  exact f.level_lt_neg

/-! ## Section 3: Reading back -/

/-- An expression is read where it may stand: reading goes on after it. -/
def Reads (e : Expr) : Prop :=
  ∀ (level : Nat) (rest : List (Lexeme Value)), level ≤ e.precedence → Loose e.precedence rest →
    expression level (e.tokens ++ rest) = extend level e.term rest

/-- Between parentheses an expression may stand anywhere. -/
theorem Reads.wrapped {e : Expr} (h : Reads e) (wrap : Bool) (level : Nat)
    (rest : List (Lexeme Value))
    (bare : wrap = false → level ≤ e.precedence ∧ Loose e.precedence rest) :
    expression level (grouped wrap e.tokens ++ rest) = extend level e.term rest := by
  cases wrap with
  | false => exact h level rest (bare rfl).1 (bare rfl).2
  | true =>
    -- inside, all levels may be read, up to the closing parenthesis
    have closing : Sequel.read? (.symbol .rparen :: rest) = none := rfl
    have inside := h 1 (.symbol .rparen :: rest) e.precedence_pos (loose_of_none closing _)
    rw [(loose_of_none closing 0).extend_stop Nat.one_pos] at inside
    have shown : Lexeme.grouped true e.tokens ++ rest =
        .symbol .lparen :: (e.tokens ++ .symbol .rparen :: rest) := by
      simp [Lexeme.grouped]
    rw [shown]
    refine Term.expression_of_operand (Term.operand_lparen inside) ?_
    simp only [List.length_cons, List.length_append]
    omega

/-- What is read as an operand is read. -/
theorem reads_of_operand {e : Expr}
    (h : ∀ (level : Nat) (rest : List (Lexeme Value)), level ≤ e.precedence →
      Loose e.precedence rest → operand level (e.tokens ++ rest) = some (e.term, rest)) :
    Reads e := by
  intro level rest hl loose
  refine Term.expression_of_operand (h level rest hl loose) ?_
  rw [List.length_append]
  omega

theorem operand_value (v : Value) (level : Nat) (rest : List (Lexeme Value)) :
    operand level (compact v.lexemes ++ rest) = some (v.term, rest) := by
  obtain ⟨h, ht⟩ | ⟨b, h, ht⟩ | ⟨digits, h, ht⟩ | ⟨digits, h, ht⟩ | ⟨h, ht⟩ := v.term_cases <;>
    rw [h, ht]
  · show operand level (.keyword .NULL :: rest) = _
    rw [operand]
  · cases b
    · show operand level (.keyword .FALSE :: rest) = _
      rw [operand]
    · show operand level (.keyword .TRUE :: rest) = _
      rw [operand]
  · -- a literal with a sign is read as the operator and its operand
    have number : operand UnaryOp.neg.level (.numeral digits :: rest) =
        some (.numeral digits, rest) := by
      rw [operand]
    refine Term.operand_minus ?_
    show expression _ (.numeral digits :: rest) = _
    rw [Term.expression_of_operand number (Nat.le_succ _), extend_stop_neg]
  · show operand level (.numeral digits :: rest) = _
    rw [operand]
  · show operand level (.place v :: rest) = _
    rw [operand]

/-- An item is read up to the comma or the parenthesis after it. -/
theorem Reads.item {e : Expr} (h : Reads e) {l : Lexeme Value} {rest : List (Lexeme Value)}
    (hl : Sequel.read? (l :: rest) = none) :
    expression 1 (e.tokens ++ l :: rest) = some (e.term, l :: rest) := by
  rw [h 1 _ e.precedence_pos (loose_of_none hl _), (loose_of_none hl 0).extend_stop Nat.one_pos]

/-- The operand of a test is read up to the test. -/
theorem Reads.tested {e : Expr} (h : Reads e) {level : Nat} (hl : level ≤ comparisonPrecedence)
    {rest rest' : List (Lexeme Value)} {f : Sequel} (found : Sequel.read? rest = some (f, rest'))
    (hf : f.level ≤ comparisonPrecedence) :
    expression level (grouped (e.precedence ≤ comparisonPrecedence) e.tokens ++ rest) =
      extend level e.term rest := by
  refine h.wrapped _ _ _ fun bare => ?_
  have tighter : comparisonPrecedence < e.precedence := by simpa using bare
  exact ⟨hl.trans tighter.le, loose_of_some found (hf.trans tighter.le)⟩

/-- A bound is read up to what binds no tighter than a test. -/
theorem Reads.bound {e : Expr} (h : Reads e) {rest : List (Lexeme Value)}
    (loose : Loose comparisonPrecedence rest) :
    expression (comparisonPrecedence + 1)
        (grouped (e.precedence ≤ comparisonPrecedence) e.tokens ++ rest) = some (e.term, rest) := by
  rw [h.wrapped _ _ _ fun bare => ?_, loose.extend_stop (Nat.lt_succ_self _)]
  have tighter : comparisonPrecedence < e.precedence := by simpa using bare
  exact ⟨tighter, loose.mono tighter.le⟩

mutual

theorem reads : (e : Expr) → Reads e
  | .column name => by
    refine reads_of_operand fun level rest _ _ => ?_
    show operand level (.identifier name :: rest) = _
    rw [operand]
    rfl
  | .literal v => reads_of_operand fun level rest _ _ => operand_value v level rest
  | .wildcard => by
    refine reads_of_operand fun level rest _ _ => ?_
    show operand level (.symbol .star :: rest) = _
    rw [operand]
    rfl
  | .binary left op right => by
    intro level rest hl loose
    -- the levels of reading are those of writing
    replace hl : level ≤ op.level := op.level_eq ▸ hl
    replace loose : Loose op.level rest := op.level_eq ▸ loose
    -- the right operand is wrapped unless it binds more tightly than `op`
    have second := (reads right).wrapped (right.precedence ≤ op.precedence) (op.level + 1)
      rest fun h => by
        have tighter : op.level < right.precedence := by simpa [op.level_eq] using h
        exact ⟨tighter, loose.mono tighter.le⟩
    rw [loose.extend_stop (Nat.lt_succ_self _)] at second
    rw [Expr.tokens_binary, List.append_assoc, List.cons_append, (reads left).wrapped _ _ _ ?_]
    · refine Term.extend_operator hl second ?_
      rw [List.length_append]
      omega
    · intro h
      -- the left one may bind as tightly, because levels group to the left
      have tighter : op.level ≤ left.precedence := by simpa [op.level_eq] using h
      exact ⟨hl.trans tighter, loose_of_some (Sequel.read?_operator op _) tighter⟩
  | .unary .not e => by
    refine reads_of_operand fun level rest hl loose => ?_
    have inner := (reads e).wrapped (e.precedence < UnaryOp.not.precedence)
      UnaryOp.not.level rest fun h => by
        have tighter : UnaryOp.not.level ≤ e.precedence := by simpa [UnaryOp.level_eq] using h
        exact ⟨tighter, loose.mono tighter⟩
    rw [Loose.extend_stop_not loose] at inner
    rw [Expr.tokens_not]
    exact Term.operand_not hl inner
  | .unary .neg e => by
    refine reads_of_operand fun level rest _ loose => ?_
    have inner := (reads e).wrapped (e.precedence < UnaryOp.neg.precedence || e.isSignedLiteral)
      UnaryOp.neg.level rest fun h => by
        have tighter : UnaryOp.neg.level ≤ e.precedence := by
          simpa [UnaryOp.level_eq] using (Bool.or_eq_false_iff.mp h).1
        exact ⟨tighter, loose.mono tighter⟩
    rw [extend_stop_neg] at inner
    rw [Expr.tokens_neg]
    exact Term.operand_minus inner
  | .isNull e negated => by
    intro level rest (hl : level ≤ comparisonPrecedence) _
    -- the test itself may be followed by anything, for its end is a keyword
    rw [Expr.tokens_isNull, List.append_assoc, List.cons_append,
      (reads e).tested hl (Sequel.read?_isNull negated rest) le_rfl, Term.extend_isNull hl negated]
    rfl
  | .inList _ [] negated => by
    refine reads_of_operand fun level rest _ _ => ?_
    cases negated with
    | false =>
      show operand level (.keyword .FALSE :: rest) = _
      rw [operand]
      rfl
    | true =>
      show operand level (.keyword .TRUE :: rest) = _
      rw [operand]
      rfl
  | .inList e (item :: items) negated => by
    intro level rest (hl : level ≤ comparisonPrecedence) _
    have list := reads_items items (reads item) rest
    have shown : (Expr.inList e (item :: items) negated).tokens ++ rest =
        grouped (e.precedence ≤ comparisonPrecedence) e.tokens ++
          ((if negated then [.keyword .NOT] else []) ++ .keyword .IN :: .symbol .lparen ::
            (item.tokens ++ (Expr.restTokens items ++ .symbol .rparen :: rest))) := by
      simp [Expr.tokens_inList]
    have shorter : rest.length ≤
        (item.tokens ++ (Expr.restTokens items ++ .symbol .rparen :: rest)).length := by
      simp only [List.length_append, List.length_cons]
      omega
    rw [shown, (reads e).tested hl (Sequel.read?_inList negated _) le_rfl,
      Term.extend_inList hl negated list shorter]
    rfl
  | .between e low high negated => by
    intro level rest (hl : level ≤ comparisonPrecedence) (loose : Loose comparisonPrecedence rest)
    have upper := (reads high).bound loose
    -- the `AND` of the test is less tight than its bounds, so it ends the first
    have joined : Sequel.read? (.keyword .AND ::
        (grouped (high.precedence ≤ comparisonPrecedence) high.tokens ++ rest)) =
          some (.operator .and, _) := Sequel.read?_operator .and _
    have lower := (reads low).bound (loose_of_some joined (by decide))
    have shown : (Expr.between e low high negated).tokens ++ rest =
        grouped (e.precedence ≤ comparisonPrecedence) e.tokens ++
          ((if negated then [.keyword .NOT] else []) ++ .keyword .BETWEEN ::
            (grouped (low.precedence ≤ comparisonPrecedence) low.tokens ++ .keyword .AND ::
              (grouped (high.precedence ≤ comparisonPrecedence) high.tokens ++ rest))) := by
      simp [Expr.tokens_between]
    rw [shown, (reads e).tested hl (Sequel.read?_between negated _) le_rfl,
      Term.extend_between hl negated lower upper
        (by simp only [List.length_append, List.length_cons]; omega)
        (by simp only [List.length_append, List.length_cons]; omega)]
    rfl
  | .call name args distinct => by
    refine reads_of_operand fun level rest _ _ => ?_
    have shown : (Expr.call name args distinct).tokens ++ rest =
        .function name :: .symbol .lparen :: ((if distinct then [.keyword .DISTINCT] else []) ++
          (compact (Expr.itemsLexemes args) ++ .symbol .rparen :: rest)) := by
      simp [Expr.tokens_call]
    rw [shown]
    cases args with
    | nil =>
      -- `DISTINCT` is taken first, with or without arguments after it
      have marked : Term.distinct? ((if distinct then [.keyword .DISTINCT] else []) ++
          .symbol .rparen :: rest) = (distinct, .symbol .rparen :: rest) := by
        cases distinct <;> rfl
      exact Term.operand_function marked Term.arguments_rparen
    | cons item items =>
      have list := reads_items items (reads item) rest
      have marked : Term.distinct? ((if distinct then [.keyword .DISTINCT] else []) ++
          (item.tokens ++ (Expr.restTokens items ++ .symbol .rparen :: rest))) =
            (distinct, item.tokens ++ (Expr.restTokens items ++ .symbol .rparen :: rest)) := by
        cases distinct with
        | false => exact Term.distinct?_items list
        | true => rfl
      rw [Expr.itemsLexemes, Lexeme.compact_append, List.append_assoc]
      exact Term.operand_function marked (Term.arguments_items list)

theorem reads_items : (es : List Expr) → ∀ {e : Expr}, Reads e → ∀ rest : List (Lexeme Value),
    items (e.tokens ++ (Expr.restTokens es ++ .symbol .rparen :: rest)) =
      some (e.term :: Expr.terms es, rest)
  | [], e, h, rest => Term.items_rparen (h.item rfl)
  | e' :: es, e, h, rest => by
    have others := reads_items es (reads e') rest
    have shown : Expr.restTokens (e' :: es) ++ .symbol .rparen :: rest =
        .symbol .comma :: (e'.tokens ++ (Expr.restTokens es ++ .symbol .rparen :: rest)) := by
      simp [Expr.restTokens_cons]
    rw [shown]
    refine Term.items_comma (h.item rfl) ?_ others
    simp only [List.length_append, List.length_cons]
    omega

end

/-! ## Section 4: Text and values -/

/-- The term that a text and its values tell. -/
def Term.read (sql : String) (params : List Value) : Option Term := do
  let ls ← Lexer.read sql params
  complete (compact ls)

/-- **Round trip**: the text and the values of an expression tell its term. -/
theorem read_statement (e : Expr) (names : ∀ name ∈ e.functions, Lexer.IsFunctionName name) :
    Term.read e.statement.sql e.statement.params = some e.term := by
  have regular : ∀ l ∈ e.lexemes, l.Regular Lexer.IsFunctionName := by
    intro l hl
    have inExpr := e.forall_mem_lexemes names l hl
    exact inExpr.regular
  -- first the lexemes come back from the text, then the term from these
  have lexed : Lexer.read e.statement.sql e.statement.params = some e.lexemes := by
    have back := Lexer.read_pieces e.spaced_lexemes regular
    rwa [Expr.statement, Expr.write_eq_add, Statement.sql_add, Statement.params_add,
      Statement.sql_empty, Statement.params_empty, String.empty_append, List.nil_append]
  have nothing : Sequel.read? [] = none := rfl
  have whole : expression 1 e.tokens = some (e.term, []) := by
    have := reads e 1 [] e.precedence_pos (loose_of_none nothing _)
    rwa [List.append_nil, (loose_of_none nothing 0).extend_stop Nat.one_pos] at this
  rw [Term.read, lexed]
  show Term.complete e.tokens = _
  rw [Term.complete, whole]

/-- The name of an aggregate is one of those. -/
theorem read_statement_count :
    (∀ name ∈ (Expr.call "COUNT" [.column "a"] true).functions, Lexer.IsFunctionName name) ∧
    Term.read (Expr.call "COUNT" [.column "a"] true).statement.sql
        (Expr.call "COUNT" [.column "a"] true).statement.params =
      some (.call "COUNT" [.column "a"] true) := by
  have names : ∀ name ∈ (Expr.call "COUNT" [.column "a"] true).functions,
      Lexer.IsFunctionName name := by
    intro name h
    obtain rfl : name = "COUNT" := List.mem_singleton.mp h
    decide
  exact ⟨names, read_statement (.call "COUNT" [.column "a"] true) names⟩

end TypedQuery

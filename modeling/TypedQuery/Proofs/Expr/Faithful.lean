import TypedQuery.Proofs.Expr.Sentence
import TypedQuery.Proofs.Expr.Skeleton

/-! # Which expressions are faithful

    The parts of an expression are where the parts of any phrase are that
    stands for the same term: both tell the same lexemes but for the
    parentheses, and no part has a parenthesis without the other. So an
    expression that is a phrase for its term is one part by part, and a
    `LIKE` in it has operands that may stand beside it.

    * **`fits_of_derives`**: an expression is no tighter phrase than its
      stratum, and each `LIKE` fits.
    * **`faithful_iff_likesFit`**: which expressions are read as they are
      meant, and as nothing else.
-/

namespace TypedQuery.Expr

open Stratum
open Lexeme (compact grouped Nested)
open Grammar (Derives joined)

/-! ## Section 1: Parts -/

variable {inCall : Bool} {s : Nat} {left right operand low high item : Expr} {items : List Expr}
  {wrap negated distinct : Bool} {op : BinaryOp} {t : Term}
  {l l' : Lexeme Value} {ls ms rest rest' : List (Lexeme Value)}

theorem append_cons_ne_parens (e : Expr) (nested : Nested true ms) :
    grouped wrap e.tokens ++ l :: rest ≠ .symbol .lparen :: (ms ++ [.symbol .rparen]) := by
  refine Nested.append_cons_ne_parens (nested_grouped wrap e.nested_tokens) ?_ nested
  intro empty
  have told := e.skeleton_tokens
  rw [← Lexeme.skeleton_grouped wrap, empty] at told
  exact e.term.skeleton_ne_nil told.symm

/-- What stands for an expression and is followed by something is that
    expression. -/
theorem eq_of_derives {e : Expr} (h : Derives inCall s ls e.term)
    (split : grouped wrap e.tokens ++ l :: rest = ls ++ l' :: rest') (hl : l.isPlain)
    (hl' : l'.isPlain) : grouped wrap e.tokens = ls ∧ l = l' ∧ rest = rest' := by
  refine Lexeme.append_cons_inj split hl hl' ?_
  rw [Lexeme.skeleton_grouped, h.skeleton_eq, e.skeleton_tokens]

theorem eq_of_derives_test {e : Expr} {k : Keyword} (h : Derives inCall s ls e.term)
    (split : grouped wrap e.tokens ++
        ((if negated then [.keyword .NOT] else []) ++ .keyword k :: rest) =
      ls ++ ((if negated then [.keyword .NOT] else []) ++ .keyword k :: rest')) :
    grouped wrap e.tokens = ls ∧ rest = rest' := by
  cases negated with
  | false =>
    obtain ⟨first, -, others⟩ := eq_of_derives h split rfl rfl
    exact ⟨first, others⟩
  | true =>
    obtain ⟨first, -, others⟩ := eq_of_derives h split rfl rfl
    injection others with _ others
    exact ⟨first, others⟩

/-- Between commas likewise. -/
theorem eq_phrases_of_derives {es : List Expr} {found : List (List (Lexeme Value) × Term)}
    (h : ∀ i ∈ found, Derives inCall s i.1 i.2)
    (split : joined (es.map tokens) = joined (found.map Prod.fst))
    (told : terms es = found.map Prod.snd) : found = phrases es := by
  have skeletons :
      (es.map tokens).map Lexeme.skeleton = (found.map Prod.fst).map Lexeme.skeleton := by
    rw [skeletons_tokens, told, Term.skeletons_eq_map, List.map_map, List.map_map]
    exact (List.map_congr_left fun i hi => (h i hi).skeleton_eq).symm
  have lexemes := joined_inj split skeletons
  rw [List.zip_of_prod lexemes.symm told.symm,
    List.zip_of_prod (map_fst_phrases es) (map_snd_phrases es)]

/-- Between parentheses there is a phrase for the same term. -/
theorem derives_inside (h : Derives inCall s (.symbol .lparen :: (ls ++ [.symbol .rparen])) t)
    (nested : Nested true ls) : Derives inCall disjunction ls t := by
  generalize whole : .symbol .lparen :: (ls ++ [.symbol .rparen]) = lexemes at h
  cases h with
  | parens _ h =>
    injection whole with _ inside
    rwa [List.append_cancel_right inside]
  | operator op _ h _ => exact absurd whole.symm (h.nested.append_cons_ne_parens h.ne_nil nested)
  | isNull negated _ h =>
    exact absurd whole.symm (h.nested.append_cons_ne_parens h.ne_nil nested)
  | inList negated _ h _ _ =>
    cases negated <;>
      exact absurd whole.symm (h.nested.append_cons_ne_parens h.ne_nil nested)
  | between negated _ h _ _ =>
    cases negated <;>
      exact absurd whole.symm (h.nested.append_cons_ne_parens h.ne_nil nested)
  | atom _ h => exact absurd (congrArg List.length whole) (by simp)
  | not _ _ | minus _ _ | call _ _ _ _ => cases whole

theorem parts_binary (h : Derives inCall s (binary left op right).tokens
      (.binary left.term op right.term)) :
    s ≤ op.stratum ∧
      Derives inCall op.leftStratum (grouped (left.precedence < op.precedence) left.tokens)
        left.term ∧
      Derives inCall op.rightStratum (grouped (right.precedence ≤ op.precedence) right.tokens)
        right.term := by
  rw [tokens_binary] at h
  generalize split : grouped _ left.tokens ++ op.lexeme :: grouped _ right.tokens = whole at h
  cases h with
  | operator op hs h h' =>
    obtain ⟨rfl, -, rfl⟩ := eq_of_derives h split (Lexeme.isPlain_operator op)
      (Lexeme.isPlain_operator op)
    exact ⟨hs, h, h'⟩
  | parens _ h => exact absurd split (append_cons_ne_parens left h.nested.mono)
  | atom _ h => exact absurd (Grammar.of_atom? h).1 Bool.false_ne_true

theorem parts_not (h : Derives inCall s (unary .not operand).tokens
      (.unary .not operand.term)) :
    s ≤ negation ∧
      Derives inCall negation (grouped (operand.precedence < UnaryOp.not.precedence) operand.tokens)
        operand.term := by
  rw [tokens_not] at h
  generalize split : .keyword .NOT :: grouped _ operand.tokens = whole at h
  cases h with
  | not hs h =>
    injection split with _ inner
    exact ⟨hs, inner ▸ h⟩
  | parens _ _ => cases split
  | atom _ h => exact absurd (Grammar.of_atom? h).1 Bool.false_ne_true

theorem parts_neg (h : Derives inCall s (unary .neg operand).tokens
      (.unary .neg operand.term)) :
    s ≤ simple ∧
      Derives inCall simple
        (grouped (operand.precedence < UnaryOp.neg.precedence || operand.isSignedLiteral)
          operand.tokens)
        operand.term := by
  rw [tokens_neg] at h
  generalize split : .symbol .minus :: grouped _ operand.tokens = whole at h
  cases h with
  | minus hs h =>
    injection split with _ inner
    exact ⟨hs, inner ▸ h⟩
  | parens _ _ => cases split
  | atom _ h => exact absurd (Grammar.of_atom? h).1 Bool.false_ne_true

theorem parts_isNull
    (h : Derives inCall s (isNull operand negated).tokens (.isNull operand.term negated)) :
    s ≤ primary ∧
      Derives inCall primary (grouped (operand.precedence ≤ comparisonPrecedence) operand.tokens)
        operand.term := by
  rw [tokens_isNull] at h
  generalize split : grouped _ operand.tokens ++ .keyword .IS :: _ = whole at h
  cases h with
  | isNull negated hs h =>
    obtain ⟨rfl, -, -⟩ := eq_of_derives h split rfl rfl
    exact ⟨hs, h⟩
  | parens _ h => exact absurd split (append_cons_ne_parens operand h.nested.mono)
  | atom _ h => exact absurd (Grammar.of_atom? h).1 Bool.false_ne_true

theorem parts_between
    (h : Derives inCall s (between operand low high negated).tokens
      (.between operand.term low.term high.term negated)) :
    s ≤ predicate ∧
      Derives inCall bit (grouped (operand.precedence ≤ comparisonPrecedence) operand.tokens)
        operand.term ∧
      Derives inCall bit (grouped (low.precedence ≤ comparisonPrecedence) low.tokens) low.term ∧
      Derives inCall predicate (grouped (high.precedence ≤ comparisonPrecedence) high.tokens)
        high.term := by
  rw [tokens_between] at h
  generalize split : grouped _ operand.tokens ++ _ = whole at h
  cases h with
  | between negated hs h h' h'' =>
    obtain ⟨rfl, bounds⟩ := eq_of_derives_test h split
    obtain ⟨rfl, -, rfl⟩ := eq_of_derives h' bounds rfl rfl
    exact ⟨hs, h, h', h''⟩
  | parens _ h =>
    cases negated <;> exact absurd split (append_cons_ne_parens operand h.nested.mono)
  | atom _ h => exact absurd (Grammar.of_atom? h).1 Bool.false_ne_true

theorem parts_inList
    (h : Derives inCall s (inList operand (item :: items) negated).tokens
      (.inList operand.term (terms (item :: items)) negated)) :
    s ≤ predicate ∧
      Derives inCall bit (grouped (operand.precedence ≤ comparisonPrecedence) operand.tokens)
        operand.term ∧
      ∀ i ∈ phrases (item :: items), Derives inCall disjunction i.1 i.2 := by
  rw [tokens_inList, ← List.append_assoc item.tokens, ← joined_tokens] at h
  generalize split : grouped _ operand.tokens ++ _ = whole at h
  generalize told : terms (item :: items) = ts at h
  cases h with
  | inList negated hs h nonempty h' =>
    obtain ⟨rfl, list⟩ := eq_of_derives_test h split
    injection list with _ list
    rw [eq_phrases_of_derives h' (List.append_cancel_right list) told] at h'
    exact ⟨hs, h, h'⟩
  | parens _ h =>
    cases negated <;> exact absurd split (append_cons_ne_parens operand h.nested.mono)
  | atom _ h => exact absurd (Grammar.of_atom? h).1 Bool.false_ne_true

theorem parts_call {name : String}
    (h : Derives inCall s (call name items distinct).tokens (.call name (terms items) distinct)) :
    s ≤ simple ∧ ∀ i ∈ phrases items, Derives true disjunction i.1 i.2 := by
  rw [tokens_call, compact_itemsLexemes] at h
  generalize split : Lexeme.function name :: .symbol .lparen :: _ = whole at h
  generalize told : terms items = ts at h
  cases h with
  | call name distinct hs h =>
    injection split with _ split
    injection split with _ split
    have list := List.append_cancel_right (List.append_cancel_left split)
    rw [eq_phrases_of_derives h list told] at h
    exact ⟨hs, h⟩
  | parens _ _ => cases split
  | atom _ h => exact absurd (Grammar.of_atom? h).1 Bool.false_ne_true

/-! ## Section 2: What a phrase asks for -/

theorem le_simple_of_derives (h : Derives inCall s ls t) : s ≤ simple := by
  have least : negation ≤ simple ∧ primary ≤ simple ∧ predicate ≤ simple := by decide
  cases h with
  | operator op hs _ _ =>
    have asked := op.stratum_lt_rightStratum
    have most := op.rightStratum_le_simple
    omega
  | not hs _ => exact hs.trans least.1
  | isNull _ hs _ => exact hs.trans least.2.1
  | inList _ hs _ _ _ => exact hs.trans least.2.2
  | between _ hs _ _ _ => exact hs.trans least.2.2
  | minus hs _ | parens hs _ | atom hs _ | call _ _ hs _ => exact hs

/-- An operand that is a phrase fits on its own, and it is tight enough
    unless it is wrapped. -/
theorem fits_of_grouped {e : Expr} (h : Derives inCall s (grouped wrap e.tokens) e.term)
    (fits : ∀ s, Derives inCall s e.tokens e.term → s ≤ e.stratum ∧ e.likesFit) :
    e.likesFit ∧ (wrap = false → s ≤ e.stratum) := by
  cases wrap with
  | false =>
    obtain ⟨hs, likes⟩ := fits s h
    exact ⟨likes, fun _ => hs⟩
  | true =>
    obtain ⟨-, likes⟩ := fits disjunction (derives_inside h e.nested_tokens.mono)
    exact ⟨likes, fun bare => absurd bare (by decide)⟩

mutual

theorem fits_of_derives : (e : Expr) → ∀ (inCall : Bool) (s : Nat),
    Derives inCall s e.tokens e.term → s ≤ e.stratum ∧ e.likesFit
  | .column _, _, _, h => ⟨le_simple_of_derives h, rfl⟩
  | .literal _, _, _, h => ⟨le_simple_of_derives h, rfl⟩
  | .wildcard, _, _, h => ⟨le_simple_of_derives h, rfl⟩
  | .binary left op right, inCall, s, h => by
    obtain ⟨hs, first, second⟩ := parts_binary h
    obtain ⟨fitsLeft, before⟩ := fits_of_grouped first (fits_of_derives left inCall)
    obtain ⟨fitsRight, after⟩ := fits_of_grouped second (fits_of_derives right inCall)
    refine ⟨hs, ?_⟩
    simp only [likesFit, Bool.and_eq_true, Bool.or_eq_true, bne_iff_ne]
    refine ⟨?_, fitsLeft, fitsRight⟩
    by_cases like : op = .like
    · subst like
      refine .inr ⟨left.fitsBeforeLike_iff.mpr fun tight => before ?_,
        right.fitsAfterLike_iff.mpr fun tight => after ?_⟩
      · exact decide_eq_false (Nat.not_lt.mpr tight)
      · exact decide_eq_false (Nat.not_le.mpr tight)
    · exact .inl like
  | .unary .not operand, inCall, s, h => by
    obtain ⟨hs, inner⟩ := parts_not h
    exact ⟨hs, (fits_of_grouped inner (fits_of_derives operand inCall)).1⟩
  | .unary .neg operand, inCall, s, h => by
    obtain ⟨hs, inner⟩ := parts_neg h
    exact ⟨hs, (fits_of_grouped inner (fits_of_derives operand inCall)).1⟩
  | .isNull operand negated, inCall, s, h => by
    obtain ⟨hs, inner⟩ := parts_isNull h
    exact ⟨hs, (fits_of_grouped inner (fits_of_derives operand inCall)).1⟩
  | .inList _ [] _, _, _, h => ⟨le_simple_of_derives h, rfl⟩
  | .inList operand (item :: items) negated, inCall, s, h => by
    obtain ⟨hs, inner, list⟩ := parts_inList h
    have fits := (fits_of_grouped inner (fits_of_derives operand inCall)).1
    have all := fits_of_phrases (item :: items) inCall list
    simp only [allLikesFit, Bool.and_eq_true] at all
    simp only [likesFit, Bool.and_eq_true]
    exact ⟨hs, fits, all⟩
  | .between operand low high negated, inCall, s, h => by
    obtain ⟨hs, inner, lower, upper⟩ := parts_between h
    simp only [likesFit, Bool.and_eq_true]
    exact ⟨hs, (fits_of_grouped inner (fits_of_derives operand inCall)).1,
      (fits_of_grouped lower (fits_of_derives low inCall)).1,
      (fits_of_grouped upper (fits_of_derives high inCall)).1⟩
  | .call name args distinct, inCall, s, h => by
    obtain ⟨hs, list⟩ := parts_call h
    exact ⟨hs, fits_of_phrases args true list⟩

theorem fits_of_phrases : (es : List Expr) → ∀ (inCall : Bool),
    (∀ i ∈ phrases es, Derives inCall disjunction i.1 i.2) → allLikesFit es
  | [], _, _ => rfl
  | e :: es, inCall, h => by
    obtain ⟨first, others⟩ := List.forall_mem_cons.mp h
    simp only [allLikesFit, Bool.and_eq_true]
    exact ⟨(fits_of_derives e inCall disjunction first).2, fits_of_phrases es inCall others⟩

end

/-! ## Section 3: Text and values -/

open Grammar (Parses)

/-- The lexemes come back from the text and the values. -/
theorem lexer_read_statement (e : Expr)
    (names : ∀ name ∈ e.functions, Lexer.IsFunctionName name) :
    Lexer.read e.statement.sql e.statement.params = some e.lexemes := by
  have regular : ∀ l ∈ e.lexemes, l.Regular Lexer.IsFunctionName := by
    intro l hl
    exact (e.forall_mem_lexemes names l hl).regular
  have back := Lexer.read_pieces e.spaced_lexemes regular
  rwa [statement, write_eq_add, Statement.sql_add, Statement.params_add, Statement.sql_empty,
    Statement.params_empty, String.empty_append, List.nil_append]

theorem parses_iff_derives (e : Expr)
    (names : ∀ name ∈ e.functions, Lexer.IsFunctionName name) (t : Term) :
    Parses e.statement.sql e.statement.params t ↔ Derives false disjunction e.tokens t := by
  unfold Parses
  rw [e.lexer_read_statement names]
  constructor
  · rintro ⟨ls, found, h⟩
    cases found
    exact h
  · intro h
    exact ⟨e.lexemes, rfl, h⟩

/-- **Faithfulness**: the text and the values of an expression are a sentence
    for its term and for no other, if and only if each `LIKE` that is written
    has operands that may stand beside it. -/
theorem faithful_iff_likesFit (e : Expr)
    (names : ∀ name ∈ e.functions, Lexer.IsFunctionName name) (stars : e.isStarFree) :
    (∀ t, Parses e.statement.sql e.statement.params t ↔ t = e.term) ↔ e.likesFit := by
  constructor
  · intro faithful
    have meant := (e.parses_iff_derives names e.term).mp ((faithful e.term).mpr rfl)
    exact (fits_of_derives e false disjunction meant).2
  · intro fits t
    have meant := (derives e false (fun _ => stars) fits).loosen e.disjunction_le_stratum
    rw [e.parses_iff_derives names]
    constructor
    · intro h
      exact h.unique meant
    · rintro rfl
      exact meant

-- a sum on the right of `LIKE` would have to be wrapped as well
example :
    (binary (.column "a") .like (.binary (.column "b") .add (.column "c"))).likesFit = false :=
  rfl

/-- `COUNT(*) > 0 AND NOT a = (b LIKE 'x%')`. -/
def guardedPattern : Expr :=
  .binary (.binary (.call "COUNT" [.wildcard] false) .gt (.literal (.int 0))) .and
    (.unary .not (.binary (.column "a") .eq
      (.binary (.column "b") .like (.literal (.text "x%")))))

/-- A pattern on the right of a comparison is wrapped, and that is right. -/
theorem faithful_iff_likesFit_guardedPattern :
    (∀ name ∈ guardedPattern.functions, Lexer.IsFunctionName name) ∧ guardedPattern.isStarFree ∧
      ∀ t, Parses guardedPattern.statement.sql guardedPattern.statement.params t ↔
        t = guardedPattern.term := by
  have names : ∀ name ∈ guardedPattern.functions, Lexer.IsFunctionName name := by
    intro name h
    obtain rfl : name = "COUNT" := List.mem_singleton.mp h
    decide
  exact ⟨names, rfl, (faithful_iff_likesFit guardedPattern names rfl).mpr rfl⟩

/-- `(a = b) LIKE c`. -/
def comparedPattern : Expr :=
  .binary (.binary (.column "a") .eq (.column "b")) .like (.column "c")

/-- A comparison on the left of `LIKE` is not wrapped, and its right operand
    is taken from it. -/
theorem comparedPattern_regrouped :
    (∀ name ∈ comparedPattern.functions, Lexer.IsFunctionName name) ∧ comparedPattern.isStarFree ∧
      (∀ t, Parses comparedPattern.statement.sql comparedPattern.statement.params t ↔
        t = .binary (.column "a") .eq (.binary (.column "b") .like (.column "c"))) ∧
      comparedPattern.term ≠
        .binary (.column "a") .eq (.binary (.column "b") .like (.column "c")) := by
  have names : ∀ name ∈ comparedPattern.functions, Lexer.IsFunctionName name := by
    intro name h
    exact absurd h List.not_mem_nil
  have pattern : Derives false predicate
      ([.identifier "b"] ++ BinaryOp.like.lexeme :: [.identifier "c"])
      (.binary (.column "b") .like (.column "c")) :=
    .operator .like le_rfl (.atom (by decide) rfl) (.atom (by decide) rfl)
  have regrouped : Derives false disjunction
      ([.identifier "a"] ++ BinaryOp.eq.lexeme ::
        ([.identifier "b"] ++ BinaryOp.like.lexeme :: [.identifier "c"]))
      (.binary (.column "a") .eq (.binary (.column "b") .like (.column "c"))) :=
    .operator .eq (by decide) (.atom (by decide) rfl) pattern
  refine ⟨names, rfl, ?_, ?_⟩
  · intro t
    rw [comparedPattern.parses_iff_derives names]
    constructor
    · intro h
      exact h.unique regrouped
    · rintro rfl
      exact regrouped
  · intro same
    injection same with _ other _
    cases other

end TypedQuery.Expr

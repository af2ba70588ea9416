import TypedQuery.Proofs.Expr.Lexemes
import TypedQuery.Proofs.Lexeme.Nesting

/-! # The vocabulary of expressions

    Which lexemes an expression is written with, and that a reader can tell
    one from the next.

    * **`spaced_lexemes`**: none of them runs into the next one.
    * **`forall_mem_lexemes`**: which lexemes there are.
    * **`nested_lexemes`**: commas stand inside parentheses only.
-/

namespace TypedQuery

theorem Value.isNumeral_number? {v : Value} {negative : Bool} {digits : String}
    (h : v.number? = some (negative, digits)) : Lexeme.IsNumeral digits := by
  cases v with
  | int n =>
    obtain ⟨-, rfl⟩ : _ ∧ _ = digits := by simpa [number?] using h
    exact Lexeme.isNumeral_digits _
  | float x =>
    obtain ⟨-, -, rfl⟩ : _ ∧ _ ∧ _ = digits := by simpa [number?] using h
    exact Lexeme.isNumeral_positional _
  | _ => simp [number?] at h

namespace Expr

open Lexeme (Spaced grouped)

/-! ## Section 1: Ends of lexemes -/

theorem spaced_value (v : Value) : Spaced v.lexemes := by
  obtain ⟨-, h⟩ | ⟨_, -, h⟩ | ⟨_, -, h⟩ | ⟨_, -, h⟩ | ⟨-, h⟩ := v.lexemes_cases <;> rw [h]
  case inr.inr.inl => exact (Lexeme.spaced_singleton _).cons_closed rfl
  all_goals exact Lexeme.spaced_singleton _

theorem spaced_grouped (wrap : Bool) {ls : List (Lexeme Value)} (h : Spaced ls) :
    Spaced (grouped wrap ls) := by
  cases wrap with
  | false => exact h
  | true => exact h.parens

mutual

theorem spaced_lexemes : (e : Expr) → Spaced e.lexemes
  | .column _ => Lexeme.spaced_singleton _
  | .literal v => spaced_value v
  | .wildcard => Lexeme.spaced_singleton _
  | .binary left op right => by
    have hl := spaced_grouped (left.precedence < op.precedence) (spaced_lexemes left)
    have hr := spaced_grouped (right.precedence ≤ op.precedence) (spaced_lexemes right)
    exact hl.append_blank (hr.cons_word _)
  | .unary op operand => by
    have h := spaced_grouped (operand.precedence < op.precedence ||
      (op == .neg && operand.isSignedLiteral)) (spaced_lexemes operand)
    cases op with
    | not => exact h.cons_word _
    | neg => exact h.cons_closed rfl
  | .isNull operand negated => by
    have h := spaced_grouped (operand.precedence ≤ comparisonPrecedence) (spaced_lexemes operand)
    have null := Lexeme.spaced_singleton (ν := Value) (.keyword .NULL)
    cases negated with
    | false => exact h.append_blank (null.cons_word _)
    | true => exact h.append_blank ((null.cons_word _).cons_word _)
  | .inList _ [] negated => Lexeme.spaced_singleton _
  | .inList operand (item :: items) negated => by
    have h := spaced_grouped (operand.precedence ≤ comparisonPrecedence) (spaced_lexemes operand)
    have hi := spaced_append_rest items (spaced_lexemes item)
    have test := hi.parens.cons_word (.keyword .IN)
    exact h.append_blank (test.optional negated _)
  | .between operand low high negated => by
    have h := spaced_grouped (operand.precedence ≤ comparisonPrecedence) (spaced_lexemes operand)
    have hl := spaced_grouped (low.precedence ≤ comparisonPrecedence) (spaced_lexemes low)
    have hh := spaced_grouped (high.precedence ≤ comparisonPrecedence) (spaced_lexemes high)
    have test := (hl.append_blank (hh.cons_word (.keyword .AND))).cons_word (.keyword .BETWEEN)
    exact h.append_blank (test.optional negated _)
  | .call name args distinct => by
    have list := (spaced_itemsLexemes args).append_delimiter
      (Lexeme.spaced_singleton (.symbol .rparen)) rfl
    have body := list.optional distinct (.keyword .DISTINCT)
    exact (body.cons_closed rfl).cons_delimiter rfl

theorem spaced_itemsLexemes : (es : List Expr) → Spaced (itemsLexemes es)
  | [] => Lexeme.spaced_nil
  | e :: es => spaced_append_rest es (spaced_lexemes e)

theorem spaced_append_rest : (es : List Expr) → ∀ {ls : List (Lexeme Value)}, Spaced ls →
    Spaced (ls ++ restLexemes es)
  | [], ls, h => by rwa [restLexemes, List.append_nil]
  | e :: es, ls, h => by
    have hr := spaced_append_rest es (spaced_lexemes e)
    exact h.append_delimiter (hr.cons_word _) rfl

end

/-! ## Section 2: Which lexemes there are -/

mutual

/-- The names of the functions that an expression calls, at any depth. -/
def functions : Expr → List String
  | .column _ | .literal _ | .wildcard => []
  | .binary left _ right => left.functions ++ right.functions
  | .unary _ operand | .isNull operand _ => operand.functions
  | .inList operand items _ => operand.functions ++ functionsAll items
  | .between operand low high _ => operand.functions ++ (low.functions ++ high.functions)
  | .call name args _ => name :: functionsAll args

/-- The names of the functions that some of the expressions call. -/
def functionsAll : List Expr → List String
  | [] => []
  | e :: es => e.functions ++ functionsAll es

end

open Lexeme (InExpr Regular)

variable {P : String → Prop}

theorem forall_mem_value (v : Value) : ∀ l ∈ v.lexemes, InExpr P l := by
  obtain ⟨-, h⟩ | ⟨b, -, h⟩ | ⟨_, hn, h⟩ | ⟨_, hn, h⟩ | ⟨bound, h⟩ := v.lexemes_cases <;> rw [h]
  · simp [InExpr, Regular, Lexeme.IsOperatorWord]
  · cases b <;> simp [InExpr, Regular, Lexeme.IsOperatorWord]
  · simp [InExpr, Regular, Value.isNumeral_number? hn]
  · simp [InExpr, Regular, Value.isNumeral_number? hn]
  · simp [InExpr, bound]

theorem forall_mem_grouped (wrap : Bool) {ls : List (Lexeme Value)} (h : ∀ l ∈ ls, InExpr P l) :
    ∀ l ∈ grouped wrap ls, InExpr P l := by
  cases wrap with
  | false => exact h
  | true =>
    -- a parenthesis is in every vocabulary
    simpa [grouped, InExpr, Regular, or_imp, forall_and] using h

theorem forall_mem_optional (optional : Bool) {k : Keyword} (h : Lexeme.IsOperatorWord k) :
    ∀ l ∈ (if optional then [.keyword k, .blank] else [] : List (Lexeme Value)), InExpr P l := by
  cases optional <;> simp [InExpr, Regular, h]

mutual

theorem forall_mem_lexemes : (e : Expr) → (∀ name ∈ e.functions, P name) →
    ∀ l ∈ e.lexemes, InExpr P l
  | .column _, _ => by simp [lexemes, InExpr, Regular]
  | .literal v, _ => forall_mem_value v
  | .wildcard, _ => by simp [lexemes, InExpr, Regular]
  | .binary left op right, h => by
    simp only [functions, List.forall_mem_append] at h
    have hl := forall_mem_grouped (left.precedence < op.precedence) (forall_mem_lexemes left h.1)
    have hr := forall_mem_grouped (right.precedence ≤ op.precedence) (forall_mem_lexemes right h.2)
    have ho : InExpr P (op.lexeme : Lexeme Value) := by
      cases op <;> simp [BinaryOp.lexeme, InExpr, Regular, Lexeme.IsOperatorWord]
    simp only [lexemes, List.forall_mem_append, List.forall_mem_cons]
    exact ⟨hl, trivial, ho, trivial, hr⟩
  | .unary op operand, h => by
    have hg := forall_mem_grouped (operand.precedence < op.precedence ||
      (op == .neg && operand.isSignedLiteral)) (forall_mem_lexemes operand h)
    have ho : ∀ l ∈ (op.lexemes : List (Lexeme Value)), InExpr P l := by
      cases op <;> simp [UnaryOp.lexemes, InExpr, Regular, Lexeme.IsOperatorWord]
    exact List.forall_mem_append.mpr ⟨ho, hg⟩
  | .isNull operand negated, h => by
    have hg := forall_mem_grouped (operand.precedence ≤ comparisonPrecedence)
      (forall_mem_lexemes operand h)
    refine List.forall_mem_append.mpr ⟨hg, ?_⟩
    cases negated <;> simp [InExpr, Regular, Lexeme.IsOperatorWord]
  | .inList _ [] negated, _ => by
    cases negated <;> simp [lexemes, InExpr, Regular, Lexeme.IsOperatorWord]
  | .inList operand (item :: items) negated, h => by
    simp only [functions, functionsAll, List.forall_mem_append] at h
    have hg := forall_mem_grouped (operand.precedence ≤ comparisonPrecedence)
      (forall_mem_lexemes operand h.1)
    have hi := forall_mem_lexemes item h.2.1
    have hr := forall_mem_restLexemes items h.2.2
    refine List.forall_mem_append.mpr ⟨hg, ?_⟩
    simp only [List.forall_mem_cons, List.forall_mem_append]
    have word : Lexeme.IsOperatorWord .IN := by decide
    exact ⟨trivial, forall_mem_optional _ (by decide), word, trivial, trivial, ⟨hi, hr⟩, trivial,
      by simp⟩
  | .between operand low high negated, h => by
    simp only [functions, List.forall_mem_append] at h
    have hg := forall_mem_grouped (operand.precedence ≤ comparisonPrecedence)
      (forall_mem_lexemes operand h.1)
    have hl := forall_mem_grouped (low.precedence ≤ comparisonPrecedence)
      (forall_mem_lexemes low h.2.1)
    have hh := forall_mem_grouped (high.precedence ≤ comparisonPrecedence)
      (forall_mem_lexemes high h.2.2)
    refine List.forall_mem_append.mpr ⟨hg, ?_⟩
    simp only [List.forall_mem_cons, List.forall_mem_append]
    have word : Lexeme.IsOperatorWord .BETWEEN := by decide
    have word' : Lexeme.IsOperatorWord .AND := by decide
    exact ⟨trivial, forall_mem_optional _ (by decide), word, trivial, hl, trivial, word', trivial,
      hh⟩
  | .call name args distinct, h => by
    simp only [functions, List.forall_mem_cons] at h
    have ha := forall_mem_itemsLexemes args h.2
    simp only [lexemes, List.forall_mem_cons, List.forall_mem_append]
    exact ⟨h.1, trivial, forall_mem_optional _ (by decide), ha, trivial, by simp⟩

theorem forall_mem_itemsLexemes : (es : List Expr) → (∀ name ∈ functionsAll es, P name) →
    ∀ l ∈ itemsLexemes es, InExpr P l
  | [], _ => by simp [itemsLexemes]
  | e :: es, h => by
    simp only [functionsAll, List.forall_mem_append] at h
    exact List.forall_mem_append.mpr
      ⟨forall_mem_lexemes e h.1, forall_mem_restLexemes es h.2⟩

theorem forall_mem_restLexemes : (es : List Expr) → (∀ name ∈ functionsAll es, P name) →
    ∀ l ∈ restLexemes es, InExpr P l
  | [], _ => by simp [restLexemes]
  | e :: es, h => by
    simp only [functionsAll, List.forall_mem_append] at h
    simp only [restLexemes, List.forall_mem_cons, List.forall_mem_append]
    exact ⟨trivial, trivial, forall_mem_lexemes e h.1, forall_mem_restLexemes es h.2⟩

end

/-! ## Section 3: Parentheses -/

open Lexeme (Nested)

theorem lexemes_ne_nil (e : Expr) : e.lexemes ≠ [] := by
  cases e with
  | literal v =>
    show v.lexemes ≠ []
    obtain ⟨-, h⟩ | ⟨_, -, h⟩ | ⟨_, -, h⟩ | ⟨_, -, h⟩ | ⟨-, h⟩ := v.lexemes_cases <;> simp [h]
  | unary op operand => cases op <;> simp [lexemes, UnaryOp.lexemes]
  | inList operand items negated => cases items <;> simp [lexemes]
  | _ => simp [lexemes]

theorem nested_grouped (wrap : Bool) {ls : List (Lexeme Value)} (h : Nested false ls) :
    Nested false (grouped wrap ls) := by
  cases wrap with
  | false => exact h
  | true => exact h.mono.parens

theorem nested_optional {commas : Bool} (optional : Bool) (k : Keyword) {ls : List (Lexeme Value)}
    (h : Nested commas ls) :
    Nested commas ((if optional then [.keyword k, .blank] else []) ++ ls) := by
  cases optional with
  | false => exact h
  | true => exact .cons rfl (.cons rfl h)

mutual

theorem nested_lexemes : (e : Expr) → Nested false e.lexemes
  | .column _ => .single rfl
  | .literal v => by
    show Nested false v.lexemes
    obtain ⟨-, h⟩ | ⟨_, -, h⟩ | ⟨_, -, h⟩ | ⟨_, -, h⟩ | ⟨-, h⟩ := v.lexemes_cases <;> rw [h]
    case inr.inr.inl => exact .cons rfl (.single rfl)
    all_goals exact .single rfl
  | .wildcard => .single rfl
  | .binary left op right => by
    have hl := nested_grouped (left.precedence < op.precedence) (nested_lexemes left)
    have hr := nested_grouped (right.precedence ≤ op.precedence) (nested_lexemes right)
    exact hl.append (.cons rfl (.cons (Lexeme.isFlat_operator op) (.cons rfl hr)))
  | .unary op operand => by
    have h := nested_grouped (operand.precedence < op.precedence ||
      (op == .neg && operand.isSignedLiteral)) (nested_lexemes operand)
    cases op with
    | not => exact .cons rfl (.cons rfl h)
    | neg => exact .cons rfl h
  | .isNull operand negated => by
    have h := nested_grouped (operand.precedence ≤ comparisonPrecedence) (nested_lexemes operand)
    cases negated with
    | false => exact h.append (.cons rfl (.cons rfl (.cons rfl (.single rfl))))
    | true =>
      exact h.append (.cons rfl (.cons rfl (.cons rfl (.cons rfl (.cons rfl (.single rfl))))))
  | .inList _ [] negated => .single rfl
  | .inList operand (item :: items) negated => by
    have h := nested_grouped (operand.precedence ≤ comparisonPrecedence) (nested_lexemes operand)
    -- the commas between the items are inside the parentheses of the list
    have list := (nested_lexemes item).mono.append (nested_restLexemes items)
    exact h.append (.cons rfl (nested_optional negated .NOT (.cons rfl (.cons rfl list.parens))))
  | .between operand low high negated => by
    have h := nested_grouped (operand.precedence ≤ comparisonPrecedence) (nested_lexemes operand)
    have hl := nested_grouped (low.precedence ≤ comparisonPrecedence) (nested_lexemes low)
    have hh := nested_grouped (high.precedence ≤ comparisonPrecedence) (nested_lexemes high)
    exact h.append (.cons rfl (nested_optional negated .NOT (.cons rfl (.cons rfl
      (hl.append (.cons rfl (.cons rfl (.cons rfl hh))))))))
  | .call name args distinct => by
    have body := nested_optional distinct .DISTINCT (nested_itemsLexemes args)
    -- `DISTINCT` and the arguments are inside one pair of parentheses
    rw [lexemes, ← List.append_assoc]
    exact .cons rfl body.parens

theorem nested_itemsLexemes : (es : List Expr) → Nested true (itemsLexemes es)
  | [] => .nil
  | e :: es => (nested_lexemes e).mono.append (nested_restLexemes es)

theorem nested_restLexemes : (es : List Expr) → Nested true (restLexemes es)
  | [] => .nil
  | e :: es => by
    have rest := (nested_lexemes e).mono.append (nested_restLexemes es)
    exact Nested.comma.append (.cons rfl rest)

end

end Expr

end TypedQuery

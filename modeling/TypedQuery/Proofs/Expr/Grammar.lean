import TypedQuery.Proofs.Expr.RoundTrip

/-! # The grammar of expressions

    The database reads expressions by strata. Its grammar has more of them
    than there are precedences: what the table of precedences keeps at one
    level, the grammar keeps on two, and `LIKE`, `IN` and `BETWEEN` take
    operands that are tighter than themselves on both sides.

    * **`Derives`**: the phrases of a stratum and the terms they stand for.
    * **`Parses`**: a text and its values are a sentence for a term.
-/

namespace TypedQuery

/-! ## Section 1: Strata -/

namespace Stratum

/-- Phrases with `OR`, and thereby all. -/
def disjunction : Nat := 1

/-- Phrases with `AND`. -/
def conjunction : Nat := 2

/-- Phrases that may begin with `NOT`. -/
def negation : Nat := 3

/-- Phrases with comparisons and `IS NULL`. -/
def primary : Nat := 4

/-- Phrases with at most one of `IN`, `BETWEEN` and `LIKE`. -/
def predicate : Nat := 5

/-- Phrases with `|` and what binds more tightly: four strata of operators. -/
def bit : Nat := 6

/-- Phrases that need no parentheses anywhere. -/
def simple : Nat := 10

end Stratum

open Stratum

namespace BinaryOp

/-- The stratum of the phrases that an operator joins two phrases to. -/
def stratum : BinaryOp → Nat
  | .or => disjunction
  | .and => conjunction
  | .eq | .ne | .lt | .le | .gt | .ge => primary
  | .like => predicate
  | .bitOr => bit
  | .bitAnd => bit + 1
  | .add | .sub => bit + 2
  | .mul | .div | .mod => bit + 3

/-- What an operator asks of the phrase before it. -/
def leftStratum : BinaryOp → Nat
  | .like => bit
  | op => op.stratum

/-- What an operator asks of the phrase after it. -/
def rightStratum : BinaryOp → Nat
  | .like => simple
  | op => op.stratum + 1

end BinaryOp

/-! ## Section 2: Phrases -/

namespace Grammar

/-- Phrases with commas between. -/
def joined (phrases : List (List (Lexeme Value))) : List (Lexeme Value) :=
  [.symbol .comma].intercalate phrases

@[simp] theorem joined_nil : joined [] = [] := rfl

@[simp] theorem joined_singleton (ls : List (Lexeme Value)) : joined [ls] = ls :=
  List.intercalate_singleton

theorem joined_cons_cons (ls ms : List (Lexeme Value)) (phrases : List (List (Lexeme Value))) :
    joined (ls :: ms :: phrases) = ls ++ .symbol .comma :: joined (ms :: phrases) := by
  rw [joined, List.intercalate_cons_cons, List.append_assoc]
  rfl

/-- The term of a lexeme that is a phrase on its own. A star is one only
    among the arguments of a function. -/
def atom? : Bool → Lexeme Value → Option Term
  | _, .identifier name => some (.column name)
  | _, .keyword .NULL => some .null
  | _, .keyword .TRUE => some (.truth true)
  | _, .keyword .FALSE => some (.truth false)
  | _, .numeral digits => some (.numeral digits)
  | _, .place v => some (.bound v)
  | true, .symbol .star => some .wildcard
  | _, _ => none

/-- `Derives inCall s ls t`: the lexemes `ls` are a phrase of stratum `s` or
    of a tighter one, among the arguments of a function or not, and stand for
    the term `t`. -/
inductive Derives : Bool → Nat → List (Lexeme Value) → Term → Prop where
  /-- An operator between two phrases, each as tight as it asks for. -/
  | operator {inCall : Bool} {s : Nat} {ls ms : List (Lexeme Value)} {left right : Term}
    (op : BinaryOp) (hs : s ≤ op.stratum) (h : Derives inCall op.leftStratum ls left)
    (h' : Derives inCall op.rightStratum ms right) :
    Derives inCall s (ls ++ op.lexeme :: ms) (.binary left op right)
  /-- `NOT negation` is a negation. -/
  | not {inCall : Bool} {s : Nat} {ls : List (Lexeme Value)} {t : Term} (hs : s ≤ negation)
    (h : Derives inCall negation ls t) :
    Derives inCall s (.keyword .NOT :: ls) (.unary .not t)
  /-- `primary IS [NOT] NULL` is a primary. -/
  | isNull {inCall : Bool} {s : Nat} {ls : List (Lexeme Value)} {t : Term} (negated : Bool)
    (hs : s ≤ primary) (h : Derives inCall primary ls t) :
    Derives inCall s
      (ls ++ .keyword .IS ::
        (if negated then [.keyword .NOT, .keyword .NULL] else [.keyword .NULL]))
      (.isNull t negated)
  /-- `bit [NOT] IN (list)` is a predicate. -/
  | inList {inCall : Bool} {s : Nat} {ls : List (Lexeme Value)} {t : Term}
    {items : List (List (Lexeme Value) × Term)} (negated : Bool) (hs : s ≤ predicate)
    (h : Derives inCall bit ls t) (nonempty : items ≠ [])
    (h' : ∀ i ∈ items, Derives inCall disjunction i.1 i.2) :
    Derives inCall s
      (ls ++ ((if negated then [.keyword .NOT] else []) ++ .keyword .IN :: .symbol .lparen ::
        (joined (items.map Prod.fst) ++ [.symbol .rparen])))
      (.inList t (items.map Prod.snd) negated)
  /-- `bit [NOT] BETWEEN bit AND predicate` is a predicate. -/
  | between {inCall : Bool} {s : Nat} {ls ls' ls'' : List (Lexeme Value)} {t low high : Term}
    (negated : Bool) (hs : s ≤ predicate) (h : Derives inCall bit ls t)
    (h' : Derives inCall bit ls' low) (h'' : Derives inCall predicate ls'' high) :
    Derives inCall s
      (ls ++ ((if negated then [.keyword .NOT] else []) ++ .keyword .BETWEEN ::
        (ls' ++ .keyword .AND :: ls'')))
      (.between t low high negated)
  /-- `- simple` is simple. -/
  | minus {inCall : Bool} {s : Nat} {ls : List (Lexeme Value)} {t : Term} (hs : s ≤ simple)
    (h : Derives inCall simple ls t) :
    Derives inCall s (.symbol .minus :: ls) (.unary .neg t)
  /-- Any phrase between parentheses is simple. -/
  | parens {inCall : Bool} {s : Nat} {ls : List (Lexeme Value)} {t : Term} (hs : s ≤ simple)
    (h : Derives inCall disjunction ls t) :
    Derives inCall s (.symbol .lparen :: (ls ++ [.symbol .rparen])) t
  | atom {inCall : Bool} {s : Nat} {l : Lexeme Value} {t : Term} (hs : s ≤ simple)
    (h : atom? inCall l = some t) : Derives inCall s [l] t
  /-- A call is simple, with or without arguments and `DISTINCT`. -/
  | call {inCall : Bool} {s : Nat} {items : List (List (Lexeme Value) × Term)} (name : String)
    (distinct : Bool) (hs : s ≤ simple) (h : ∀ i ∈ items, Derives true disjunction i.1 i.2) :
    Derives inCall s
      (.function name :: .symbol .lparen ::
        ((if distinct then [.keyword .DISTINCT] else []) ++
          (joined (items.map Prod.fst) ++ [.symbol .rparen])))
      (.call name (items.map Prod.snd) distinct)

/-- A phrase may stand where a looser one is asked for. -/
theorem Derives.loosen {inCall : Bool} {s s' : Nat} {ls : List (Lexeme Value)} {t : Term}
    (h : Derives inCall s' ls t) (hs : s ≤ s') : Derives inCall s ls t := by
  cases h with
  | operator op hs' h h' => exact .operator op (hs.trans hs') h h'
  | not hs' h => exact .not (hs.trans hs') h
  | isNull negated hs' h => exact .isNull negated (hs.trans hs') h
  | inList negated hs' h nonempty h' => exact .inList negated (hs.trans hs') h nonempty h'
  | between negated hs' h h' h'' => exact .between negated (hs.trans hs') h h' h''
  | minus hs' h => exact .minus (hs.trans hs') h
  | parens hs' h => exact .parens (hs.trans hs') h
  | atom hs' h => exact .atom (hs.trans hs') h
  | call name distinct hs' h => exact .call name distinct (hs.trans hs') h

/-- The text and its values are a sentence that stands for the term. -/
def Parses (sql : String) (params : List Value) (t : Term) : Prop :=
  ∃ ls, Lexer.read sql params = some ls ∧ Derives false disjunction (Lexeme.compact ls) t

end Grammar

/-! ## Section 3: Lists of expressions -/

namespace Expr

open Grammar (joined)
open Lexeme (compact)

theorem joined_tokens (e : Expr) (es : List Expr) :
    joined ((e :: es).map tokens) = e.tokens ++ restTokens es := by
  induction es generalizing e with
  | nil => simp [restTokens, restLexemes]
  | cons e' es ih =>
    rw [List.map_cons, List.map_cons, Grammar.joined_cons_cons, ← List.map_cons, ih e',
      restTokens_cons]

theorem compact_itemsLexemes (es : List Expr) :
    compact (itemsLexemes es) = joined (es.map tokens) := by
  cases es with
  | nil => rfl
  | cons e es =>
    rw [joined_tokens, itemsLexemes, Lexeme.compact_append]
    rfl

theorem terms_eq_map (es : List Expr) : terms es = es.map term := by
  induction es with
  | nil => rfl
  | cons e es ih => rw [terms, ih, List.map_cons]

/-- Expressions as phrases with their terms. -/
def phrases (es : List Expr) : List (List (Lexeme Value) × Term) :=
  es.map fun e => (e.tokens, e.term)

theorem map_fst_phrases (es : List Expr) : (phrases es).map Prod.fst = es.map tokens := by
  rw [phrases, List.map_map]
  rfl

theorem map_snd_phrases (es : List Expr) : (phrases es).map Prod.snd = terms es := by
  rw [phrases, List.map_map, terms_eq_map]
  rfl

end Expr

end TypedQuery

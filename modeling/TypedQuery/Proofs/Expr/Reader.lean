import TypedQuery.Proofs.Expr.Term
import TypedQuery.Proofs.Lexeme.Lexer

/-! # Reading expressions

    A reader of expressions by the levels of operators. It takes an operand
    and then extends it, as long as what follows binds at least as tightly
    as it was asked to read: at level 1 everything, at level 5 no `AND` and
    no `OR`, and so on. Operators of one level group to the left.

    * **`extend_operator`**, **`extend_isNull`**, **`extend_inList`**,
      **`extend_between`**: what may follow an operand.
    * **`extend_stop`**: where an expression ends.
-/

namespace TypedQuery

/-! ## Section 1: Levels

    The reader has the levels of the language. That expressions are written
    by the same ones is a fact about how they are written. -/

/-- The level of an operator between two operands. -/
def BinaryOp.level : BinaryOp → Nat
  | .or => 1
  | .and => 3
  | .eq | .ne | .lt | .le | .gt | .ge | .like => 5
  | .bitOr => 6
  | .bitAnd => 7
  | .add | .sub => 9
  | .mul | .div | .mod => 10

/-- The level of an operator before one operand. -/
def UnaryOp.level : UnaryOp → Nat
  | .not => 4
  | .neg => 12

/-- The level of the tests `IS NULL`, `IN` and `BETWEEN`. -/
def testLevel : Nat := 5

theorem BinaryOp.level_eq (op : BinaryOp) : op.level = op.precedence := by
  cases op <;> rfl

theorem UnaryOp.level_eq (op : UnaryOp) : op.level = op.precedence := by
  cases op <;> rfl

/-! ## Section 2: What follows an operand -/

/-- The operator between two operands that a lexeme is. -/
def BinaryOp.ofLexeme? : Lexeme Value → Option BinaryOp
  | .symbol .plus => some .add
  | .symbol .minus => some .sub
  | .symbol .star => some .mul
  | .symbol .slash => some .div
  | .symbol .percent => some .mod
  | .symbol .eq => some .eq
  | .symbol .ne => some .ne
  | .symbol .lt => some .lt
  | .symbol .le => some .le
  | .symbol .gt => some .gt
  | .symbol .ge => some .ge
  | .symbol .amp => some .bitAnd
  | .symbol .bar => some .bitOr
  | .keyword .LIKE => some .like
  | .keyword .AND => some .and
  | .keyword .OR => some .or
  | _ => none

/-- How an expression goes on after an operand. -/
inductive Sequel where
  | operator (op : BinaryOp)
  /-- `IS NULL` or `IS NOT NULL`, to the end. -/
  | isNull (negated : Bool)
  /-- `IN` or `NOT IN`, with the opening parenthesis. -/
  | inList (negated : Bool)
  /-- `BETWEEN` or `NOT BETWEEN`. -/
  | between (negated : Bool)
  deriving DecidableEq, Repr

namespace Sequel

/-- The level of a sequel. -/
def level : Sequel → Nat
  | .operator op => op.level
  | .isNull _ | .inList _ | .between _ => testLevel

/-- The sequel at the front of lexemes, and what is left of them. -/
def read? : List (Lexeme Value) → Option (Sequel × List (Lexeme Value))
  | .keyword .IS :: .keyword .NULL :: ls => some (.isNull false, ls)
  | .keyword .IS :: .keyword .NOT :: .keyword .NULL :: ls => some (.isNull true, ls)
  | .keyword .IN :: .symbol .lparen :: ls => some (.inList false, ls)
  | .keyword .NOT :: .keyword .IN :: .symbol .lparen :: ls => some (.inList true, ls)
  | .keyword .BETWEEN :: ls => some (.between false, ls)
  | .keyword .NOT :: .keyword .BETWEEN :: ls => some (.between true, ls)
  | l :: ls => (BinaryOp.ofLexeme? l).map fun op => (.operator op, ls)
  | [] => none

theorem length_read? {ls rest : List (Lexeme Value)} {f : Sequel} (h : read? ls = some (f, rest)) :
    rest.length < ls.length := by
  unfold read? at h
  split at h
  case h_7 =>
    obtain ⟨op, -, e⟩ := Option.map_eq_some_iff.mp h
    cases e
    simp
  all_goals cases h <;> simp only [List.length_cons] <;> omega

theorem read?_operator (op : BinaryOp) (ls : List (Lexeme Value)) :
    read? (op.lexeme :: ls) = some (.operator op, ls) := by
  cases op <;> rfl

theorem read?_isNull (negated : Bool) (ls : List (Lexeme Value)) :
    read? (.keyword .IS ::
        ((if negated then [.keyword .NOT, .keyword .NULL] else [.keyword .NULL]) ++ ls)) =
      some (.isNull negated, ls) := by
  cases negated <;> rfl

theorem read?_inList (negated : Bool) (ls : List (Lexeme Value)) :
    read? ((if negated then [.keyword .NOT] else []) ++ .keyword .IN :: .symbol .lparen :: ls) =
      some (.inList negated, ls) := by
  cases negated <;> rfl

theorem read?_between (negated : Bool) (ls : List (Lexeme Value)) :
    read? ((if negated then [.keyword .NOT] else []) ++ .keyword .BETWEEN :: ls) =
      some (.between negated, ls) := by
  cases negated <;> rfl

/-- The minus before an operand binds tighter than anything after it. -/
theorem level_lt_neg (f : Sequel) : f.level < UnaryOp.neg.level := by
  cases f with
  | operator op => cases op <;> decide
  | _ =>
    show testLevel < _
    decide

/-- Nothing binds as tightly as `NOT`. -/
theorem level_ne_not (f : Sequel) : f.level ≠ UnaryOp.not.level := by
  cases f with
  | operator op => cases op <;> decide
  | _ =>
    show testLevel ≠ _
    decide

end Sequel

/-! ## Section 3: Reading -/

namespace Term

/-- What is read, and what is left. -/
abbrev Reading (α : Type) : Type := Option (α × List (Lexeme Value))

/-- Whether `DISTINCT` stands before the arguments, and what follows it. -/
def distinct? : List (Lexeme Value) → Bool × List (Lexeme Value)
  | .keyword .DISTINCT :: ls => (true, ls)
  | ls => (false, ls)

theorem length_distinct? (ls : List (Lexeme Value)) : (distinct? ls).2.length ≤ ls.length := by
  unfold distinct?
  split <;> simp

mutual

/-- Reads an expression that binds at least as tightly as `level`. -/
def expression (level : Nat) (ls : List (Lexeme Value)) : Reading Term :=
  match operand level ls with
  | none => none
  | some (left, rest) =>
    if _h : rest.length ≤ ls.length then extend level left rest else none
termination_by (ls.length, 1)
decreasing_by
  · exact Prod.Lex.right _ Nat.one_pos
  · exact Prod.Lex.right' _ _h Nat.one_pos

/-- Reads an operand. -/
def operand (level : Nat) : List (Lexeme Value) → Reading Term
  | .identifier name :: ls => some (.column name, ls)
  | .keyword .NULL :: ls => some (.null, ls)
  | .keyword .TRUE :: ls => some (.truth true, ls)
  | .keyword .FALSE :: ls => some (.truth false, ls)
  | .numeral digits :: ls => some (.numeral digits, ls)
  | .place v :: ls => some (.bound v, ls)
  | .symbol .star :: ls => some (.wildcard, ls)
  -- a minus is read at any level, since nothing binds more tightly
  | .symbol .minus :: ls =>
    (expression UnaryOp.neg.level ls).map fun (t, rest) => (.unary .neg t, rest)
  -- `NOT` stands where what it denies may be as loose as `NOT` itself
  | .keyword .NOT :: ls =>
    if level ≤ UnaryOp.not.level then
      (expression UnaryOp.not.level ls).map fun (t, rest) => (.unary .not t, rest)
    else none
  | .symbol .lparen :: ls =>
    match expression 1 ls with
    | some (t, .symbol .rparen :: rest) => some (t, rest)
    | _ => none
  | .function name :: .symbol .lparen :: ls =>
    have _h := length_distinct? ls
    (arguments (distinct? ls).2).map fun (ts, rest) => (.call name ts (distinct? ls).1, rest)
  | _ => none
termination_by ls => (ls.length, 0)

/-- Reads on after an operand. -/
def extend (level : Nat) (left : Term) (ls : List (Lexeme Value)) : Reading Term :=
  match _found : Sequel.read? ls with
  | none => some (left, ls)
  | some (f, rest) => if f.level < level then some (left, ls) else resume level left f rest
termination_by (ls.length, 0)
decreasing_by exact Prod.Lex.left _ _ (Sequel.length_read? _found)

/-- Reads on after an operand and the beginning of its sequel. -/
def resume (level : Nat) (left : Term) : Sequel → List (Lexeme Value) → Reading Term
  | .operator op, ls =>
    -- one level up: a second operator of this level ends the right operand
    match expression (op.level + 1) ls with
    | none => none
    | some (right, rest) =>
      if _h : rest.length ≤ ls.length then extend level (.binary left op right) rest else none
  | .isNull negated, ls => extend level (.isNull left negated) ls
  | .inList negated, ls =>
    match items ls with
    | none => none
    | some (ts, rest) =>
      if _h : rest.length ≤ ls.length then extend level (.inList left ts negated) rest else none
  | .between negated, ls =>
    -- the bounds are tighter than any `AND`, so the first one is that of the test
    match expression (testLevel + 1) ls with
    | some (low, .keyword .AND :: middle) =>
      if _h : middle.length ≤ ls.length then
        match expression (testLevel + 1) middle with
        | none => none
        | some (high, rest) =>
          if _h : rest.length ≤ ls.length then extend level (.between left low high negated) rest
          else none
      else none
    | _ => none
termination_by _ ls => (ls.length, 3)
decreasing_by
  all_goals exact Prod.Lex.right' _ (by omega) (by decide)

/-- Reads expressions with commas between, up to the closing parenthesis. -/
def items (ls : List (Lexeme Value)) : Reading (List Term) :=
  match expression 1 ls with
  | some (t, .symbol .rparen :: rest) => some ([t], rest)
  | some (t, .symbol .comma :: rest) =>
    if _h : rest.length < ls.length then (items rest).map fun (ts, rest) => (t :: ts, rest)
    else none
  | _ => none
termination_by (ls.length, 2)

/-- Reads the arguments of a call, of which there may be none. -/
def arguments : List (Lexeme Value) → Reading (List Term)
  | .symbol .rparen :: ls => some ([], ls)
  | ls => items ls
termination_by ls => (ls.length, 3)

end

/-- Reads an expression to the end. -/
def complete (ls : List (Lexeme Value)) : Option Term :=
  match expression 1 ls with
  | some (t, []) => some t
  | _ => none

/-! ## Section 4: Steps of the reader

    One equation for each way on. Where a part has been read, no more is left
    than there was, which the reader makes sure of to end at all. -/

variable {level : Nat} {left right t : Term} {ls rest : List (Lexeme Value)}

theorem expression_of_operand (h : operand level ls = some (left, rest))
    (shorter : rest.length ≤ ls.length) : expression level ls = extend level left rest := by
  rw [expression, h]
  exact dif_pos shorter

theorem operand_lparen (h : expression 1 ls = some (t, .symbol .rparen :: rest)) :
    operand level (.symbol .lparen :: ls) = some (t, rest) := by
  rw [operand, h]

theorem operand_minus (h : expression UnaryOp.neg.level ls = some (t, rest)) :
    operand level (.symbol .minus :: ls) = some (.unary .neg t, rest) := by
  rw [operand, h]
  rfl

theorem operand_not (hl : level ≤ UnaryOp.not.level)
    (h : expression UnaryOp.not.level ls = some (t, rest)) :
    operand level (.keyword .NOT :: ls) = some (.unary .not t, rest) := by
  rw [operand, if_pos hl, h]
  rfl

theorem operand_function {name : String} {distinct : Bool} {ls' : List (Lexeme Value)}
    {ts : List Term} (hd : distinct? ls = (distinct, ls')) (h : arguments ls' = some (ts, rest)) :
    operand level (.function name :: .symbol .lparen :: ls) =
      some (.call name ts distinct, rest) := by
  rw [operand, hd, h]
  rfl

/-- An expression ends where nothing follows that binds tightly enough. -/
theorem extend_stop (h : ∀ f rest, Sequel.read? ls = some (f, rest) → f.level < level) :
    extend level left ls = some (left, ls) := by
  rw [extend]
  split
  · rfl
  · next f rest found => exact if_pos (h f rest found)

theorem extend_of_read? {f : Sequel} (found : Sequel.read? ls = some (f, rest))
    (hl : level ≤ f.level) : extend level left ls = resume level left f rest := by
  rw [extend]
  split
  · next other =>
    rw [found] at other
    cases other
  · next f' rest' other =>
    rw [found] at other
    cases other
    exact if_neg (Nat.not_lt.mpr hl)

theorem extend_operator {op : BinaryOp} (hl : level ≤ op.level)
    (h : expression (op.level + 1) ls = some (right, rest))
    (shorter : rest.length ≤ ls.length) :
    extend level left (op.lexeme :: ls) = extend level (.binary left op right) rest := by
  rw [extend_of_read? (Sequel.read?_operator op ls) hl, resume, h]
  exact dif_pos shorter

theorem extend_isNull (hl : level ≤ testLevel) (negated : Bool) :
    extend level left (.keyword .IS ::
        ((if negated then [.keyword .NOT, .keyword .NULL] else [.keyword .NULL]) ++ rest)) =
      extend level (.isNull left negated) rest := by
  rw [extend_of_read? (Sequel.read?_isNull negated rest) hl, resume]

theorem extend_inList {ts : List Term} (hl : level ≤ testLevel) (negated : Bool)
    (h : items ls = some (ts, rest)) (shorter : rest.length ≤ ls.length) :
    extend level left ((if negated then [.keyword .NOT] else []) ++
        .keyword .IN :: .symbol .lparen :: ls) =
      extend level (.inList left ts negated) rest := by
  rw [extend_of_read? (Sequel.read?_inList negated ls) hl, resume, h]
  exact dif_pos shorter

theorem extend_between {low high : Term} {middle : List (Lexeme Value)}
    (hl : level ≤ testLevel) (negated : Bool)
    (h : expression (testLevel + 1) ls = some (low, .keyword .AND :: middle))
    (h' : expression (testLevel + 1) middle = some (high, rest))
    (shorter : middle.length ≤ ls.length) (shorter' : rest.length ≤ ls.length) :
    extend level left ((if negated then [.keyword .NOT] else []) ++ .keyword .BETWEEN :: ls) =
      extend level (.between left low high negated) rest := by
  rw [extend_of_read? (Sequel.read?_between negated ls) hl, resume, h]
  simp only [shorter, dif_pos, h', shorter']

theorem items_rparen (h : expression 1 ls = some (t, .symbol .rparen :: rest)) :
    items ls = some ([t], rest) := by
  rw [items, h]

theorem items_comma {ts : List Term} {middle : List (Lexeme Value)}
    (h : expression 1 ls = some (t, .symbol .comma :: middle))
    (shorter : middle.length < ls.length) (h' : items middle = some (ts, rest)) :
    items ls = some (t :: ts, rest) := by
  rw [items, h]
  simp only [shorter, dif_pos, h']
  rfl

/-- Nothing that is read begins with `)` or `DISTINCT`. -/
theorem head_of_items {ts : List Term} (h : items ls = some (ts, rest)) :
    (∀ ls', ls ≠ .symbol .rparen :: ls') ∧ ∀ ls', ls ≠ .keyword .DISTINCT :: ls' := by
  constructor <;>
    · rintro ls' rfl
      -- an item is an expression, which starts with an operand
      rw [items, expression, operand] at h
      · cases h
      all_goals simp

theorem arguments_rparen : arguments (.symbol .rparen :: rest) = some ([], rest) := by
  rw [arguments]

theorem arguments_items {ts : List Term} (h : items ls = some (ts, rest)) :
    arguments ls = some (ts, rest) := by
  rw [arguments]
  · exact h
  · exact (head_of_items h).1

theorem distinct?_items {ts : List Term} (h : items ls = some (ts, rest)) :
    distinct? ls = (false, ls) := by
  rw [distinct?]
  exact (head_of_items h).2

end Term

end TypedQuery

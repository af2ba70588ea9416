import Mathlib.Data.List.Chain
import TypedQuery.Expr.Operator
import TypedQuery.Proofs.Statement.Piece

/-! # Lexemes

    The text of a statement is a sequence of lexemes: blanks, quoted
    identifiers, keywords, names of functions, numerals, symbols, and places
    for values. A place carries what is known of its value: the value itself
    where a statement is written, nothing where a text is read.

    * **`Before`**: the first of two lexemes ends where the second begins,
      so that a reader does not take them for one.
-/

namespace TypedQuery

/-! ## Section 1: Keywords and symbols -/

/-- The words that have a meaning in a statement. -/
inductive Keyword where
  | OR | AND | NOT | LIKE | IS | NULL | IN | BETWEEN | TRUE | FALSE | DISTINCT
  | SELECT | FROM | WHERE | GROUP | BY | HAVING | ORDER | ASC | DESC | LIMIT | OFFSET | FOR | UPDATE
  deriving DecidableEq, Repr

namespace Keyword

/-- The text of a keyword. -/
def text : Keyword → String
  | OR => "OR"
  | AND => "AND"
  | NOT => "NOT"
  | LIKE => "LIKE"
  | IS => "IS"
  | NULL => "NULL"
  | IN => "IN"
  | BETWEEN => "BETWEEN"
  | TRUE => "TRUE"
  | FALSE => "FALSE"
  | DISTINCT => "DISTINCT"
  | SELECT => "SELECT"
  | FROM => "FROM"
  | WHERE => "WHERE"
  | GROUP => "GROUP"
  | BY => "BY"
  | HAVING => "HAVING"
  | ORDER => "ORDER"
  | ASC => "ASC"
  | DESC => "DESC"
  | LIMIT => "LIMIT"
  | OFFSET => "OFFSET"
  | FOR => "FOR"
  | UPDATE => "UPDATE"

/-- All keywords. -/
def all : List Keyword :=
  [OR, AND, NOT, LIKE, IS, NULL, IN, BETWEEN, TRUE, FALSE, DISTINCT, SELECT, FROM, WHERE, GROUP,
    BY, HAVING, ORDER, ASC, DESC, LIMIT, OFFSET, FOR, UPDATE]

/-- The keyword that a word is, in letters of either case. -/
def ofWord? (word : List Char) : Option Keyword :=
  all.find? fun k => k.text.toList == word.map Char.toUpper

theorem ofWord?_text (k : Keyword) : ofWord? k.text.toList = some k := by
  cases k <;> decide

end Keyword

/-- The characters and pairs of characters between words. -/
inductive Symbol where
  | lparen | rparen | comma
  | plus | minus | star | slash | percent
  | eq | ne | lt | le | gt | ge | amp | bar
  deriving DecidableEq, Repr

/-- The text of a symbol. -/
def Symbol.text : Symbol → String
  | .lparen => "("
  | .rparen => ")"
  | .comma => ","
  | .plus => "+"
  | .minus => "-"
  | .star => "*"
  | .slash => "/"
  | .percent => "%"
  | .eq => "="
  | .ne => "!="
  | .lt => "<"
  | .le => "<="
  | .gt => ">"
  | .ge => ">="
  | .amp => "&"
  | .bar => "|"

/-! ## Section 2: Lexemes -/

/-- A lexeme, in which a place carries a `ν`. -/
inductive Lexeme (ν : Type) where
  | blank
  /-- A quoted identifier. -/
  | identifier (name : String)
  | keyword (k : Keyword)
  /-- The name of a function. -/
  | function (name : String)
  /-- A number without sign. -/
  | numeral (digits : String)
  | symbol (s : Symbol)
  /-- A place for a value. -/
  | place (v : ν)
  deriving DecidableEq, Repr

namespace Lexeme

variable {ν μ : Type}

/-- The text of a lexeme. -/
def text : Lexeme ν → String
  | .blank => " "
  | .identifier name => Dialect.mysql.quoted name
  | .keyword k => k.text
  | .function name => name
  | .numeral digits => digits
  | .symbol s => s.text
  | .place _ => Dialect.mysql.placeholder

/-- The lexeme with something else in its place. -/
def map (f : ν → μ) : Lexeme ν → Lexeme μ
  | .blank => .blank
  | .identifier name => .identifier name
  | .keyword k => .keyword k
  | .function name => .function name
  | .numeral digits => .numeral digits
  | .symbol s => .symbol s
  | .place v => .place (f v)

/-- The lexeme as a reader finds it, without its value. -/
def bare (l : Lexeme ν) : Lexeme Unit := l.map fun _ => ()

/-- The piece of a statement that a lexeme is. -/
def piece : Lexeme Value → Piece
  | .place v => .value v
  | l => .text l.text

@[simp] theorem piece_blank : piece .blank = .text " " := rfl

@[simp] theorem piece_identifier (name : String) :
    piece (.identifier name) = .text (Dialect.mysql.quoted name) := rfl

@[simp] theorem piece_keyword (k : Keyword) : piece (.keyword k) = .text k.text := rfl

@[simp] theorem piece_function (name : String) : piece (.function name) = .text name := rfl

@[simp] theorem piece_numeral (digits : String) : piece (.numeral digits) = .text digits := rfl

@[simp] theorem piece_symbol (s : Symbol) : piece (.symbol s) = .text s.text := rfl

@[simp] theorem piece_place (v : Value) : piece (.place v) = .value v := rfl

@[simp] theorem text_map (f : ν → μ) (l : Lexeme ν) : (l.map f).text = l.text := by
  cases l <;> rfl

@[simp] theorem text_bare (l : Lexeme ν) : l.bare.text = l.text := text_map _ l

/-- The characters of lexemes one after the other. -/
def chars (ls : List (Lexeme ν)) : List Char := ls.flatMap fun l => l.text.toList

@[simp] theorem chars_nil : chars ([] : List (Lexeme ν)) = [] := rfl

@[simp] theorem chars_cons (l : Lexeme ν) (ls : List (Lexeme ν)) :
    chars (l :: ls) = l.text.toList ++ chars ls := rfl

@[simp] theorem chars_append (ls ms : List (Lexeme ν)) :
    chars (ls ++ ms) = chars ls ++ chars ms := by
  simp [chars]

theorem chars_map_bare (ls : List (Lexeme ν)) : chars (ls.map bare) = chars ls := by
  simp [chars, List.flatMap_map]

/-- The pieces of a sequence of lexemes. -/
def pieces (ls : List (Lexeme Value)) : List Piece := ls.map piece

@[simp] theorem pieces_nil : pieces [] = [] := rfl

@[simp] theorem pieces_cons (l : Lexeme Value) (ls : List (Lexeme Value)) :
    pieces (l :: ls) = l.piece :: pieces ls := rfl

@[simp] theorem pieces_append (ls ms : List (Lexeme Value)) :
    pieces (ls ++ ms) = pieces ls ++ pieces ms := by
  simp [pieces]

/-- The values in the places of lexemes. -/
def values (ls : List (Lexeme Value)) : List Value := Piece.values (pieces ls)

@[simp] theorem values_append (ls ms : List (Lexeme Value)) :
    values (ls ++ ms) = values ls ++ values ms := by
  simp [values]

theorem toList_sql_pieces (ls : List (Lexeme Value)) :
    (Piece.sql (pieces ls)).toList = chars ls := by
  induction ls with
  | nil => rfl
  | cons l ls ih =>
    simp only [Piece.sql] at ih
    -- a place and its value both show as the placeholder
    cases l <;> simp [Piece.sql, pieces, piece, Piece.concat, text] at ih ⊢ <;> exact ih

/-! ## Section 3: Words and numerals -/

/-- A number without sign: digits, among them perhaps a point. -/
def IsNumeral (digits : String) : Prop :=
  (∀ c ∈ digits.toList, c.isDigit ∨ c = '.') ∧ ∃ c ∈ digits.toList.head?, c.isDigit

theorem isNumeral_digits (n : Nat) : IsNumeral (String.ofList (Number.digits n)) := by
  have digit : ∀ c ∈ Number.digits n, c.isDigit := fun c hc => Number.isDigit_of_mem_digits hc
  rw [IsNumeral, String.toList_ofList]
  refine ⟨fun c hc => .inl (digit c hc), ?_⟩
  cases h : Number.digits n with
  | nil => exact absurd h Nat.toDigits_ne_nil
  | cons c cs => exact ⟨c, rfl, digit c (h ▸ List.mem_cons_self)⟩

/-- Before the point stand the digits of a whole number, so there is one at
    the front. -/
theorem isNumeral_positional (d : Number.Decimal) : IsNumeral (String.ofList d.positional) := by
  rw [Number.Decimal.positional]
  split
  · exact isNumeral_digits _
  · have whole := isNumeral_digits (d.coefficient / Nat.pow 10 (-d.exponent).toNat)
    rw [IsNumeral, String.toList_ofList] at whole ⊢
    obtain ⟨chars, c, hc, digit⟩ := whole
    constructor
    · intro c hc
      rcases List.mem_append.mp hc with hc | hc
      · exact chars c hc
      · rcases List.mem_cons.mp hc with rfl | hc
        · exact .inr rfl
        · exact .inl (Number.isDigit_of_mem_fixed hc)
    · refine ⟨c, ?_, digit⟩
      rw [List.head?_append_of_ne_nil _ (List.ne_nil_of_mem (List.mem_of_mem_head? hc))]
      exact hc

/-- The keywords of expressions; the others begin clauses or belong to them. -/
def IsOperatorWord (k : Keyword) : Prop :=
  k ∈ [Keyword.OR, .AND, .NOT, .LIKE, .IS, .NULL, .IN, .BETWEEN, .TRUE, .FALSE, .DISTINCT]

instance (k : Keyword) : Decidable (IsOperatorWord k) := inferInstanceAs (Decidable (k ∈ _))

variable {ν : Type}

/-- The text of a lexeme is one of its kind, where the names of functions
    have the property `P`. -/
def Regular (P : String → Prop) : Lexeme ν → Prop
  | .function name => P name
  | .numeral digits => IsNumeral digits
  | .blank | .identifier _ | .keyword _ | .symbol _ | .place _ => True

theorem Regular.mono {P Q : String → Prop} {l : Lexeme ν} (h : l.Regular P)
    (imp : ∀ name, P name → Q name) : l.Regular Q := by
  cases l with
  | function name => exact imp name h
  | _ => exact h

/-- The lexemes of expressions whose functions have names with the property
    `P`: no keyword of a clause is one, and a place is for a value that is
    not written into the text. -/
def InExpr (P : String → Prop) : Lexeme Value → Prop
  | .keyword k => IsOperatorWord k
  | .place v => v.isInline = false
  | l => l.Regular P

theorem InExpr.regular {P : String → Prop} {l : Lexeme Value} (h : l.InExpr P) :
    l.Regular P := by
  cases l with
  | keyword k => trivial
  | place v => trivial
  | _ => exact h

/-! ## Section 4: Ends of lexemes -/

/-- Whether a lexeme ends with its text, whatever follows it. Of a place
    this is not asked, for the literal that may stand there does not. -/
def isClosed : Lexeme ν → Bool
  | .blank => true
  | .symbol s => s != .lt && s != .gt
  | .identifier _ | .keyword _ | .function _ | .numeral _ | .place _ => false

/-- Whether a lexeme ends any other before it. -/
def isDelimiter : Lexeme ν → Bool
  | .blank | .symbol .lparen | .symbol .rparen | .symbol .comma => true
  | _ => false

/-- The first of two lexemes ends where the second begins. -/
def Before (l m : Lexeme ν) : Prop := l.isClosed ∨ m.isDelimiter

/-- Lexemes each of which ends where the next begins. -/
def Spaced (ls : List (Lexeme ν)) : Prop := ls.IsChain Before

@[simp] theorem spaced_nil : Spaced ([] : List (Lexeme ν)) := .nil

@[simp] theorem spaced_singleton (l : Lexeme ν) : Spaced [l] := .singleton l

theorem Spaced.cons_closed {l : Lexeme ν} {ls : List (Lexeme ν)} (h : Spaced ls)
    (hl : l.isClosed) : Spaced (l :: ls) := by
  cases ls with
  | nil => exact .singleton l
  | cons m ls => exact .cons_cons (.inl hl) h

theorem Spaced.cons_delimiter {l m : Lexeme ν} {ls : List (Lexeme ν)} (h : Spaced (m :: ls))
    (hm : m.isDelimiter) : Spaced (l :: m :: ls) :=
  .cons_cons (.inr hm) h

/-- What ends with any lexeme at all may be followed by a delimiter. -/
theorem Spaced.append_delimiter {ls : List (Lexeme ν)} {m : Lexeme ν} {ms : List (Lexeme ν)}
    (h : Spaced ls) (h' : Spaced (m :: ms)) (hm : m.isDelimiter) : Spaced (ls ++ m :: ms) := by
  refine List.IsChain.append h h' ?_
  intro x _ y hy
  obtain rfl : m = y := by simpa using hy
  exact .inr hm

/-- A blank may follow anything, and anything may follow it. -/
theorem Spaced.append_blank {ls ms : List (Lexeme ν)} (h : Spaced ls) (h' : Spaced ms) :
    Spaced (ls ++ .blank :: ms) :=
  h.append_delimiter (h'.cons_closed rfl) rfl

theorem Spaced.cons_word {ls : List (Lexeme ν)} (h : Spaced ls) (l : Lexeme ν) :
    Spaced (l :: .blank :: ls) :=
  (h.cons_closed rfl).cons_delimiter rfl

/-- A word may be left out where it may stand. -/
theorem Spaced.optional {ls : List (Lexeme ν)} (h : Spaced ls) (given : Bool) (l : Lexeme ν) :
    Spaced ((if given then [l, .blank] else []) ++ ls) := by
  cases given with
  | false => exact h
  | true => exact h.cons_word l

theorem Spaced.parens {ls : List (Lexeme ν)} (h : Spaced ls) :
    Spaced (.symbol .lparen :: (ls ++ [.symbol .rparen])) :=
  (h.append_delimiter (spaced_singleton _) rfl).cons_closed rfl

end Lexeme

end TypedQuery

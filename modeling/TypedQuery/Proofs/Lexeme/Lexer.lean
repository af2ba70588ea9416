import TypedQuery.Proofs.Lexeme.Basic
import TypedQuery.Proofs.Text.Literal

/-! # Reading lexemes

    A reader of the text of a statement: it takes one lexeme after the other
    from the front of the text, and then puts the bound values in turn where
    it has found places.

    * **`lexeme?_text`**: a lexeme is read where it ends before what follows.
    * **`lex_chars`**: lexemes that are spaced are read from their text.
    * **`assign_bare`**: the values come back to the places they had.
-/

namespace TypedQuery

namespace Lexer

/-! ## Section 1: Words -/

/-- The characters of words: those of names that need no quotes. -/
def isWordChar (c : Char) : Bool := c.isAlphanum || c == '_' || c == '$' || 128 ≤ c.toNat

/-- The characters of numerals. -/
def isNumeralChar (c : Char) : Bool := c.isDigit || c == '.'

/-- What a word is: a keyword, or else the name of a function. -/
def word (cs : List Char) : Lexeme Unit :=
  match Keyword.ofWord? cs with
  | some k => .keyword k
  | none => .function (String.ofList cs)

/-- A name that can stand without quotes. -/
def IsWord (name : String) : Prop :=
  (∀ c ∈ name.toList, isWordChar c) ∧ ∃ c ∈ name.toList.head?, ¬ c.isDigit

instance (name : String) : Decidable (IsWord name) :=
  decidable_of_iff
    ((name.toList.all isWordChar && name.toList.head?.any fun c => !c.isDigit) = true) (by
      rw [IsWord, Bool.and_eq_true, List.all_eq_true]
      cases name.toList <;> simp)

/-- A name that a reader takes for that of a function. -/
def IsFunctionName (name : String) : Prop :=
  IsWord name ∧ Keyword.ofWord? name.toList = none

instance (name : String) : Decidable (IsFunctionName name) :=
  inferInstanceAs (Decidable (_ ∧ _))

theorem isWord_keyword (k : Keyword) : IsWord k.text := by
  cases k <;> decide

/-! ## Section 2: One lexeme -/

/-- The symbol that starts with a character, the longer one of two. -/
def symbol? : Char → List Char → Option (Symbol × List Char)
  | '(', cs => some (.lparen, cs)
  | ')', cs => some (.rparen, cs)
  | ',', cs => some (.comma, cs)
  | '+', cs => some (.plus, cs)
  | '-', cs => some (.minus, cs)
  | '*', cs => some (.star, cs)
  | '/', cs => some (.slash, cs)
  | '%', cs => some (.percent, cs)
  | '=', cs => some (.eq, cs)
  | '&', cs => some (.amp, cs)
  | '|', cs => some (.bar, cs)
  | '!', '=' :: cs => some (.ne, cs)
  | '<', '=' :: cs => some (.le, cs)
  | '<', cs => some (.lt, cs)
  | '>', '=' :: cs => some (.ge, cs)
  | '>', cs => some (.gt, cs)
  | _, _ => none

/-- The lexeme at the front of a text, and what follows. -/
def lexeme? : List Char → Option (Lexeme Unit × List Char)
  | [] => none
  | c :: cs =>
    if c = ' ' then some (.blank, cs)
    else if c = '?' then some (.place (), cs)
    else if c = '\x60' then
      (Text.unquote '\x60' cs).map fun (name, rest) => (.identifier (String.ofList name), rest)
    -- before words, which have digits too but do not begin with one
    else if c.isDigit then
      some (.numeral (String.ofList (c :: cs.takeWhile isNumeralChar)), cs.dropWhile isNumeralChar)
    else if isWordChar c then
      some (word (c :: cs.takeWhile isWordChar), cs.dropWhile isWordChar)
    else (symbol? c cs).map fun (s, rest) => (.symbol s, rest)

theorem length_symbol? {c : Char} {cs rest : List Char} {s : Symbol}
    (h : symbol? c cs = some (s, rest)) : rest.length ≤ cs.length := by
  unfold symbol? at h
  split at h <;> cases h <;> simp

/-- A lexeme takes something of the text. -/
theorem length_lexeme? {cs rest : List Char} {l : Lexeme Unit}
    (h : lexeme? cs = some (l, rest)) : rest.length < cs.length := by
  cases cs with
  | nil => cases h
  | cons c cs =>
    rw [List.length_cons, Nat.lt_succ_iff]
    simp only [lexeme?] at h
    split_ifs at h
    · cases h
      exact le_rfl
    · cases h
      exact le_rfl
    · obtain ⟨⟨name, rest'⟩, shorter, e⟩ := Option.map_eq_some_iff.mp h
      cases e
      exact Text.length_unquote_le '\x60' shorter
    · cases h
      exact (List.dropWhile_suffix _).length_le
    · cases h
      exact (List.dropWhile_suffix _).length_le
    · obtain ⟨⟨s, rest'⟩, shorter, e⟩ := Option.map_eq_some_iff.mp h
      cases e
      exact length_symbol? shorter

/-! ## Section 3: What is read

    A lexeme that does not end with its own text is followed by a delimiter,
    or by nothing. -/

/-- The text ends here, or the next character is one that ends any lexeme. -/
def Ends (rest : List Char) : Prop := ∀ c ∈ rest.head?, c ∈ [' ', '(', ')', ',']

/-- A run of characters of one kind, up to a character of another kind. -/
theorem span_append {p : Char → Bool} {cs rest : List Char} (hcs : ∀ c ∈ cs, p c)
    (hrest : ∀ c ∈ rest.head?, p c = false) :
    (cs ++ rest).takeWhile p = cs ∧ (cs ++ rest).dropWhile p = rest := by
  rw [List.takeWhile_append_of_pos hcs, List.dropWhile_append_of_pos hcs]
  cases rest with
  | nil => exact ⟨List.append_nil _, rfl⟩
  | cons c rest =>
    have : p c = false := hrest c rfl
    simp [this]

theorem Ends.not_mem {rest : List Char} (h : Ends rest) {p : Char → Bool}
    (hp : [' ', '(', ')', ','].all fun c => !p c) : ∀ c ∈ rest.head?, p c = false := by
  intro c hc
  have := List.all_eq_true.mp hp c (h c hc)
  simpa using this

theorem lexeme?_word {name : String} (h : IsWord name) {rest : List Char} (hr : Ends rest) :
    lexeme? (name.toList ++ rest) = some (word name.toList, rest) := by
  obtain ⟨chars, c, hc, hd⟩ := h
  cases hn : name.toList with
  | nil => simp [hn] at hc
  | cons c' cs =>
    obtain rfl : c' = c := by simpa [hn] using hc
    rw [hn] at chars
    obtain ⟨first, others⟩ := List.forall_mem_cons.mp chars
    have run := span_append others (hr.not_mem rfl)
    -- none of the characters that are tried before is one of words
    have blank : c' ≠ ' ' := by rintro rfl; exact absurd first (by decide)
    have place : c' ≠ '?' := by rintro rfl; exact absurd first (by decide)
    have quote : c' ≠ '\x60' := by rintro rfl; exact absurd first (by decide)
    simp only [List.cons_append, lexeme?, blank, place, quote, hd, first, run, if_true, if_false]
    rfl

theorem lexeme?_numeral {digits : String} (h : Lexeme.IsNumeral digits) {rest : List Char}
    (hr : Ends rest) : lexeme? (digits.toList ++ rest) = some (.numeral digits, rest) := by
  obtain ⟨chars, c, hc, hd⟩ := h
  cases hn : digits.toList with
  | nil => simp [hn] at hc
  | cons c' cs =>
    obtain rfl : c' = c := by simpa [hn] using hc
    have others : ∀ c ∈ cs, isNumeralChar c := by
      intro c hc
      have := chars c (hn ▸ List.mem_cons_of_mem _ hc)
      simpa [isNumeralChar] using this
    have run := span_append others (hr.not_mem rfl)
    have blank : c' ≠ ' ' := by rintro rfl; exact absurd hd (by decide)
    have place : c' ≠ '?' := by rintro rfl; exact absurd hd (by decide)
    have quote : c' ≠ '\x60' := by rintro rfl; exact absurd hd (by decide)
    have whole : String.ofList (c' :: cs) = digits := by rw [← hn, String.ofList_toList]
    simp only [List.cons_append, lexeme?, blank, place, quote, hd, run, if_true, if_false, whole]

theorem lexeme?_symbol (s : Symbol) {rest : List Char}
    (h : (Lexeme.symbol s : Lexeme Unit).isClosed ∨ Ends rest) :
    lexeme? (s.text.toList ++ rest) = some (.symbol s, rest) := by
  -- what follows does not turn `<` or `>` into a longer symbol
  have equals (open_ : (Lexeme.symbol s : Lexeme Unit).isClosed = false) :
      ∀ cs, rest ≠ '=' :: cs := by
    rintro cs rfl
    rcases h with h | h
    · rw [open_] at h
      cases h
    · exact absurd (h '=' rfl) (by decide)
  cases s
  case lt =>
    have : symbol? '<' rest = some (.lt, rest) := by
      rw [symbol?]
      exact equals rfl
    simp [Symbol.text, lexeme?, isWordChar, this]
  case gt =>
    have : symbol? '>' rest = some (.gt, rest) := by
      rw [symbol?]
      exact equals rfl
    simp [Symbol.text, lexeme?, isWordChar, this]
  all_goals rfl

/-- **One lexeme** is read from its text and whatever follows, if it ends
    before that. -/
theorem lexeme?_text {ν : Type} {l : Lexeme ν} (hl : l.Regular IsFunctionName) {rest : List Char}
    (h : l.isClosed ∨ Ends rest) : lexeme? (l.text.toList ++ rest) = some (l.bare, rest) := by
  cases l with
  | blank => simp [Lexeme.text, lexeme?, Lexeme.bare, Lexeme.map]
  | identifier name =>
    -- a quote after the closing one would be taken for part of the name
    have ends : Ends rest := h.resolve_left Bool.false_ne_true
    have closed : rest.head? ≠ some '\x60' := fun e => absurd (ends _ e) (by decide)
    have read := Text.unquote_doubled '\x60' name.toList closed
    have quoted : (Lexeme.identifier name : Lexeme ν).text.toList ++ rest =
        '\x60' :: (Text.doubled '\x60' name.toList ++ '\x60' :: rest) := by
      simp [Lexeme.text, Dialect.quoted, Dialect.mysql]
    rw [quoted]
    show (Text.unquote '\x60' _).map _ = _
    rw [read]
    simp [Lexeme.bare, Lexeme.map]
  | keyword k =>
    have read := lexeme?_word (isWord_keyword k) (h.resolve_left Bool.false_ne_true)
    rwa [word, Keyword.ofWord?_text] at read
  | function name =>
    have read := lexeme?_word hl.1 (h.resolve_left Bool.false_ne_true)
    rwa [word, hl.2, String.ofList_toList] at read
  | numeral digits => exact lexeme?_numeral hl (h.resolve_left Bool.false_ne_true)
  | symbol s => exact lexeme?_symbol s h
  | place v => simp [Lexeme.text, Dialect.mysql, lexeme?, Lexeme.bare, Lexeme.map]

/-! ## Section 4: All lexemes -/

/-- The lexemes of a text. There are none if the text is not made of
    lexemes. -/
def lex : List Char → Option (List (Lexeme Unit))
  | [] => some []
  | c :: cs =>
    match _h : lexeme? (c :: cs) with
    | none => none
    | some (l, rest) => (lex rest).map (l :: ·)
termination_by cs => cs.length
decreasing_by exact length_lexeme? _h

theorem lex_of_lexeme? {cs rest : List Char} {l : Lexeme Unit} (h : lexeme? cs = some (l, rest)) :
    lex cs = (lex rest).map (l :: ·) := by
  cases cs with
  | nil => cases h
  | cons c cs =>
    rw [lex]
    split
    · next other =>
      rw [h] at other
      cases other
    · next l' rest' other =>
      rw [h] at other
      cases other
      rfl

/-- What follows a delimiter's beginning ends whatever came before. -/
theorem ends_of_isDelimiter {ν : Type} {l : Lexeme ν} (h : l.isDelimiter) (rest : List Char) :
    Ends (l.text.toList ++ rest) := by
  cases l with
  | blank => simp [Ends, Lexeme.text]
  | symbol s =>
    cases s with
    | lparen | rparen | comma => simp [Ends, Lexeme.text, Symbol.text]
    | _ => cases h
  | _ => cases h

/-- **All lexemes** are read from their text, if each ends where the next
    begins. -/
theorem lex_chars {ν : Type} {ls : List (Lexeme ν)} (spaced : Lexeme.Spaced ls)
    (regular : ∀ l ∈ ls, l.Regular IsFunctionName) :
    lex (Lexeme.chars ls) = some (ls.map Lexeme.bare) := by
  induction ls with
  | nil => rw [Lexeme.chars_nil, lex, List.map_nil]
  | cons l ls ih =>
    obtain ⟨first, others⟩ := List.forall_mem_cons.mp regular
    -- either the lexeme is closed, or a delimiter or nothing comes next
    have ends : l.isClosed ∨ Ends (Lexeme.chars ls) := by
      cases ls with
      | nil => exact .inr fun c hc => absurd hc (by simp)
      | cons m ms =>
        rcases spaced.rel with h | h
        · exact .inl h
        · exact .inr (ends_of_isDelimiter h _)
    rw [Lexeme.chars_cons, lex_of_lexeme? (lexeme?_text first ends), ih spaced.of_cons others]
    rfl

/-! ## Section 5: Values -/

/-- A lexeme as it was before it was read. A place takes the first of the
    values. -/
def assignOne : Lexeme Unit → List Value → Option (Lexeme Value × List Value)
  | .blank, vs => some (.blank, vs)
  | .identifier name, vs => some (.identifier name, vs)
  | .keyword k, vs => some (.keyword k, vs)
  | .function name, vs => some (.function name, vs)
  | .numeral digits, vs => some (.numeral digits, vs)
  | .symbol s, vs => some (.symbol s, vs)
  | .place _, v :: vs => some (.place v, vs)
  | .place _, [] => none

/-- The lexemes with the first value in the first place and so on. All
    values must have places. -/
def assign : List (Lexeme Unit) → List Value → Option (List (Lexeme Value))
  | [], [] => some []
  | [], _ :: _ => none
  | l :: ls, vs => do
    let (m, vs) ← assignOne l vs
    let ms ← assign ls vs
    return m :: ms

theorem assign_bare (ls : List (Lexeme Value)) :
    assign (ls.map Lexeme.bare) (Lexeme.values ls) = some ls := by
  induction ls with
  | nil => rfl
  | cons l ls ih =>
    rw [Lexeme.values] at ih
    cases l <;>
      simp [assign, assignOne, Lexeme.bare, Lexeme.map, Lexeme.values, Piece.values, ih]

/-- The lexemes of a text with its values. -/
def read (sql : String) (params : List Value) : Option (List (Lexeme Value)) := do
  assign (← lex sql.toList) params

/-- A statement made of lexemes is read back. -/
theorem read_pieces {ls : List (Lexeme Value)} (spaced : Lexeme.Spaced ls)
    (regular : ∀ l ∈ ls, l.Regular IsFunctionName) :
    read (Piece.sql (Lexeme.pieces ls)) (Piece.values (Lexeme.pieces ls)) = some ls := by
  rw [read, Lexeme.toList_sql_pieces, lex_chars spaced regular]
  exact assign_bare ls

end Lexer

end TypedQuery

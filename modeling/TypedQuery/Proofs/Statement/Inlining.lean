import TypedQuery.Proofs.Lexeme.Lexer
import TypedQuery.Proofs.Statement.Quotation
import TypedQuery.Proofs.Text.Literal

/-! # Literals in their places

    A statement can be shown with a literal in each place. Whoever reads
    that text, knowing only how names, text and bytes are quoted, finds the
    tokens of the statement with a literal for each placeholder:

    * **`token?_literal`**: the literal of a bound value is read as one
      token, which tells the value.
    * **`exists_tokens`**: any other lexeme is read as the same tokens,
      whatever follows it.
    * **`fill_tokens`**: so the tokens of the two texts differ in the places
      only.
-/

namespace TypedQuery

namespace Inlining

open Lexer (lexeme? isWordChar isNumeralChar Ends)
open Quotation (IsAlphanumeric)

/-! ## Section 1: Tokens -/

/-- A token of a text with literals. -/
inductive Token where
  /-- A lexeme of statements, such as a placeholder. -/
  | lexeme (l : Lexeme Unit)
  /-- Text between `'`, as it was before its quotes were doubled. -/
  | text (s : String)
  /-- Bytes between `X'` and `'`. -/
  | bytes (b : List UInt8)
  deriving DecidableEq, Repr

/-- The token at the front of a text, and what follows. An `X` that a quote
    follows is not the beginning of a word. -/
def token? : List Char → Option (Token × List Char)
  | '\'' :: cs => (Text.unquote '\'' cs).map fun (s, rest) => (.text (String.ofList s), rest)
  | 'X' :: '\'' :: cs | 'x' :: '\'' :: cs =>
    (Text.unhex cs).map fun (b, rest) => (.bytes b, rest)
  | cs => (lexeme? cs).map fun (l, rest) => (.lexeme l, rest)

theorem length_token? {cs rest : List Char} {t : Token} (h : token? cs = some (t, rest)) :
    rest.length < cs.length := by
  unfold token? at h
  split at h <;> obtain ⟨⟨x, rest'⟩, read, e⟩ := Option.map_eq_some_iff.mp h <;> cases e
  · have := Text.length_unquote_le _ read
    simp only [List.length_cons]
    omega
  · have := Text.length_unhex_le read
    simp only [List.length_cons]
    omega
  · have := Text.length_unhex_le read
    simp only [List.length_cons]
    omega
  · exact Lexer.length_lexeme? read

/-- The tokens of a text. There are none if the text is not made of
    tokens. -/
def tokens : List Char → Option (List Token)
  | [] => some []
  | c :: cs =>
    match _h : token? (c :: cs) with
    | none => none
    | some (t, rest) => (tokens rest).map (t :: ·)
termination_by cs => cs.length
decreasing_by exact length_token? _h

theorem tokens_of_token? {cs rest : List Char} {t : Token} (h : token? cs = some (t, rest)) :
    tokens cs = (tokens rest).map (t :: ·) := by
  cases cs with
  | nil => cases h
  | cons c cs =>
    rw [tokens]
    split
    · next other =>
      rw [h] at other
      cases other
    · next t' rest' other =>
      rw [h] at other
      cases other
      rfl

/-- Where no literal begins, a lexeme is read. -/
theorem token?_of_lexeme? {c : Char} {cs rest : List Char} {l : Lexeme Unit}
    (h : lexeme? (c :: cs) = some (l, rest)) (quote : c ≠ '\'')
    (hex : c = 'X' ∨ c = 'x' → cs.head? ≠ some '\'') :
    token? (c :: cs) = some (.lexeme l, rest) := by
  rw [token?, h]
  · rfl
  · intro _ e
    exact quote (List.cons.inj e).1
  · intro _ e
    obtain ⟨rfl, rfl⟩ := List.cons.inj e
    exact hex (.inl rfl) rfl
  · intro _ e
    obtain ⟨rfl, rfl⟩ := List.cons.inj e
    exact hex (.inr rfl) rfl

/-! ## Section 2: Values -/

/-- The token of the literal of a bound value. -/
def valueToken? : Value → Option Token
  | .text s => some (.text s)
  | .bytes b => some (.bytes b)
  | .timestamp t => some (.text t.text)
  | .float x => if x.isFinite then none else some (.lexeme (.keyword .NULL))
  | .null | .bool _ | .int _ => none

theorem head?_ne_quote {rest : List Char} (ends : Ends rest) : rest.head? ≠ some '\'' := by
  intro h
  exact absurd (ends _ h) (by decide)

theorem token?_enclose (s : String) {rest : List Char} (ends : Ends rest) :
    token? ((Text.enclose '\'' s).toList ++ rest) = some (.text s, rest) := by
  have read := Text.unquote_doubled '\'' s.toList (head?_ne_quote ends)
  rw [Text.toList_enclose, List.cons_append, List.append_assoc]
  show (Text.unquote _ (_ ++ '\'' :: rest)).map _ = _
  rw [read]
  simp

/-- **Literals**: the literal of a bound value is one token, if what follows
    does not begin with a quote. -/
theorem token?_literal {v : Value} (bound : v.isInline = false) :
    ∃ t, valueToken? v = some t ∧
      ∀ rest, Ends rest → token? (v.literal.toList ++ rest) = some (t, rest) := by
  cases v with
  | null | bool | int => cases bound
  | float x =>
    have infinite : x.isFinite = false := bound
    refine ⟨.lexeme (.keyword .NULL), by simp [valueToken?, infinite], ?_⟩
    intro rest ends
    have word := Lexer.lexeme?_word (Lexer.isWord_keyword .NULL) ends
    have shown : (Value.float x).literal.toList ++ rest = 'N' :: 'U' :: 'L' :: 'L' :: rest := by
      simp [Value.literal, infinite]
    rw [shown]
    exact token?_of_lexeme? word (by decide) fun h => absurd h (by decide)
  | text s => exact ⟨.text s, rfl, fun rest ends => token?_enclose s ends⟩
  | timestamp t => exact ⟨.text t.text, rfl, fun rest ends => token?_enclose t.text ends⟩
  | bytes b =>
    refine ⟨.bytes b, rfl, ?_⟩
    intro rest ends
    -- hexadecimal digits have no quotes to double
    have plain := Text.doubled_eq_self '\'' (Text.quote_not_mem_hexByte b)
    have shown : (Value.bytes b).literal.toList ++ rest =
        'X' :: '\'' :: (b.flatMap Text.hexByte ++ '\'' :: rest) := by
      simp [Value.literal, plain]
    rw [shown]
    show (Text.unhex _).map _ = _
    rw [Text.unhex_hexByte]
    rfl

/-! ## Section 3: Places -/

/-- Whether a token is a placeholder. -/
def Token.isPlace : Token → Bool
  | .lexeme (.place _) => true
  | _ => false

/-- The tokens with the literal of the first value for the first placeholder,
    and so on. Every placeholder must have a bound value, and every value a
    placeholder. -/
def fill : List Token → List Value → Option (List Token)
  | [], [] => some []
  | [], _ :: _ => none
  | .lexeme (.place _) :: _, [] => none
  | .lexeme (.place _) :: ts, v :: vs => do
    let t ← valueToken? v
    let ts ← fill ts vs
    return t :: ts
  | t :: ts, vs => (fill ts vs).map (t :: ·)

theorem fill_append {ts : List Token} (h : ∀ t ∈ ts, t.isPlace = false) (us : List Token)
    (vs : List Value) : fill (ts ++ us) vs = (fill us vs).map (ts ++ ·) := by
  induction ts with
  | nil => simp
  | cons t ts ih =>
    obtain ⟨first, others⟩ := List.forall_mem_cons.mp h
    have other : ∀ v, t ≠ .lexeme (.place v) := by
      intro v e
      rw [e] at first
      cases first
    have step : fill (t :: (ts ++ us)) vs = (fill (ts ++ us) vs).map (t :: ·) := by
      rw [fill]
      · exact fun v _ => other v
      · exact fun v _ _ _ => other v
    rw [List.cons_append, step, ih others, Option.map_map]
    rfl

/-! ## Section 4: Lexemes -/

/-- The beginning of a run is the same, whatever follows that does not go on
    with it. -/
theorem span_append_of_stop {p : Char → Bool} (cs : List Char) {rest : List Char}
    (stop : ∀ c ∈ rest.head?, p c = false) :
    (cs ++ rest).takeWhile p = cs.takeWhile p ∧
      (cs ++ rest).dropWhile p = cs.dropWhile p ++ rest := by
  induction cs with
  | nil => exact Lexer.span_append (by simp) stop
  | cons c cs ih =>
    by_cases hc : p c
    · simp [hc, ih]
    · simp [hc]

theorem ne_quote_of_isAlphanum {c : Char} (h : c.isAlphanum) : c ≠ '\'' := by
  rintro rfl
  exact absurd h (by decide)

/-- A name of letters and digits is read as a word, or as a number before
    one, if it does not begin with a letter. -/
theorem exists_tokens_name (cs : List Char) (name : ∀ c ∈ cs, c.isAlphanum) :
    ∃ ts : List Token, (∀ t ∈ ts, t.isPlace = false) ∧
      ∀ rest, Ends rest → tokens (cs ++ rest) = (tokens rest).map (ts ++ ·) := by
  match cs with
  | [] =>
    refine ⟨[], by simp, ?_⟩
    intro rest _
    simp
  | c :: cs =>
    obtain ⟨first, others⟩ := List.forall_mem_cons.mp name
    have quote := ne_quote_of_isAlphanum first
    have blank : c ≠ ' ' := by rintro rfl; exact absurd first (by decide)
    have place : c ≠ '?' := by rintro rfl; exact absurd first (by decide)
    have backtick : c ≠ '\x60' := by rintro rfl; exact absurd first (by decide)
    have hex {rest : List Char} (ends : Ends rest) : (cs ++ rest).head? ≠ some '\'' := by
      cases cs with
      | nil => exact head?_ne_quote ends
      | cons d cs =>
        have := ne_quote_of_isAlphanum (others d List.mem_cons_self)
        simpa using this
    by_cases digit : c.isDigit
    · -- the digits are a number, and the rest of the name is shorter
      have shorter : (cs.dropWhile isNumeralChar).length < (c :: cs).length :=
        Nat.lt_succ_of_le (List.dropWhile_suffix _).length_le
      obtain ⟨ts, plain, read⟩ := exists_tokens_name (cs.dropWhile isNumeralChar) fun d hd =>
        others d ((List.dropWhile_suffix _).subset hd)
      refine ⟨.lexeme (.numeral (String.ofList (c :: cs.takeWhile isNumeralChar))) :: ts,
        List.forall_mem_cons.mpr ⟨rfl, plain⟩, ?_⟩
      intro rest ends
      have run := span_append_of_stop cs (ends.not_mem (p := isNumeralChar) rfl)
      have number : lexeme? (c :: (cs ++ rest)) =
          some (.numeral (String.ofList (c :: cs.takeWhile isNumeralChar)),
            cs.dropWhile isNumeralChar ++ rest) := by
        simp only [lexeme?, blank, place, backtick, digit, run, if_true, if_false]
      rw [List.cons_append, tokens_of_token? (token?_of_lexeme? number quote fun _ => hex ends),
        read rest ends, Option.map_map]
      rfl
    · have letters : ∀ d ∈ c :: cs, isWordChar d := by
        intro d hd
        have := name d hd
        simp [isWordChar, this]
      have isWord : Lexer.IsWord (String.ofList (c :: cs)) := by
        rw [Lexer.IsWord, String.toList_ofList]
        exact ⟨letters, c, rfl, digit⟩
      refine ⟨[.lexeme (Lexer.word (c :: cs))], ?_, ?_⟩
      · rw [List.forall_mem_singleton]
        unfold Lexer.word
        split <;> rfl
      · intro rest ends
        have word := Lexer.lexeme?_word isWord ends
        rw [String.toList_ofList] at word
        exact tokens_of_token? (token?_of_lexeme? word quote fun _ => hex ends)
termination_by cs.length
decreasing_by exact shorter

/-- No lexeme but a function begins like a literal. -/
theorem exists_head {l : Lexeme Value} (regular : l.Regular IsAlphanumeric)
    (other : ∀ name, l ≠ .function name) :
    ∃ c cs, l.text.toList = c :: cs ∧ c ∉ ['\'', 'X', 'x'] := by
  cases l with
  | function name => exact absurd rfl (other name)
  | blank => exact ⟨' ', [], rfl, by decide⟩
  | place v => exact ⟨'?', [], by simp [Lexeme.text, Dialect.mysql], by decide⟩
  | identifier name =>
    exact ⟨'\x60', _, Text.toList_enclose '\x60' name, by decide⟩
  | keyword k => cases k <;> exact ⟨_, _, rfl, by decide⟩
  | symbol s => cases s <;> exact ⟨_, _, rfl, by decide⟩
  | numeral digits =>
    obtain ⟨-, c, hc, digit⟩ := regular
    obtain ⟨cs, hcs⟩ := List.head?_eq_some_iff.mp hc
    refine ⟨c, cs, hcs, ?_⟩
    intro h
    rcases List.mem_cons.mp h with rfl | h
    · exact absurd digit (by decide)
    · rcases List.mem_cons.mp h with rfl | h
      · exact absurd digit (by decide)
      · obtain rfl := List.mem_singleton.mp h
        exact absurd digit (by decide)

/-- **Lexemes**: a lexeme other than a place is read as the same tokens,
    whatever follows it, if it ends before that. -/
theorem exists_tokens {l : Lexeme Value} (regular : l.Regular IsAlphanumeric)
    (other : ∀ v, l ≠ .place v) :
    ∃ ts : List Token, (∀ t ∈ ts, t.isPlace = false) ∧
      ∀ rest, l.isClosed ∨ Ends rest →
        tokens (l.text.toList ++ rest) = (tokens rest).map (ts ++ ·) := by
  by_cases function : ∃ name, l = .function name
  · obtain ⟨name, rfl⟩ := function
    obtain ⟨ts, plain, read⟩ := exists_tokens_name name.toList regular
    refine ⟨ts, plain, ?_⟩
    intro rest ends
    exact read rest (ends.resolve_left Bool.false_ne_true)
  · have named : ∀ name, l ≠ .function name := fun name e => function ⟨name, e⟩
    have regular' : l.Regular Lexer.IsFunctionName := by
      cases l with
      | function name => exact absurd rfl (named name)
      | _ => exact regular
    obtain ⟨c, cs, text, head⟩ := exists_head regular named
    simp only [List.mem_cons, List.not_mem_nil, or_false, not_or] at head
    refine ⟨[.lexeme l.bare], ?_, ?_⟩
    · rw [List.forall_mem_singleton]
      cases l with
      | place v => exact absurd rfl (other v)
      | _ => rfl
    · intro rest ends
      have read := Lexer.lexeme?_text regular' ends
      rw [text, List.cons_append] at read ⊢
      exact tokens_of_token? (token?_of_lexeme? read head.1 fun hex =>
        absurd hex (not_or.mpr head.2))

/-! ## Section 5: Statements -/

/-- The characters of lexemes with a literal in each place. -/
def literalChars (ls : List (Lexeme Value)) : List Char :=
  (Piece.concat Value.literal (Lexeme.pieces ls)).toList

theorem literalChars_place (v : Value) (ls : List (Lexeme Value)) :
    literalChars (.place v :: ls) = v.literal.toList ++ literalChars ls := by
  simp [literalChars, Piece.concat]

theorem literalChars_cons {l : Lexeme Value} (other : ∀ v, l ≠ .place v)
    (ls : List (Lexeme Value)) : literalChars (l :: ls) = l.text.toList ++ literalChars ls := by
  cases l with
  | place v => exact absurd rfl (other v)
  | _ => simp [literalChars, Piece.concat, Lexeme.text]

/-- The next lexeme ends a place, with its placeholder or with its literal. -/
theorem ends_of_spaced {l : Lexeme Value} {ls : List (Lexeme Value)}
    (spaced : Lexeme.Spaced (l :: ls)) :
    (l.isClosed ∨ Ends (Lexeme.chars ls)) ∧ (l.isClosed ∨ Ends (literalChars ls)) := by
  cases ls with
  | nil =>
    have nothing : Ends [] := fun c hc => absurd hc (by simp)
    exact ⟨.inr nothing, .inr nothing⟩
  | cons m ms =>
    rcases spaced.rel with closed | delimiter
    · exact ⟨.inl closed, .inl closed⟩
    · have other : ∀ v, m ≠ .place v := by
        rintro v rfl
        cases delimiter
      rw [Lexeme.chars_cons, literalChars_cons other]
      exact ⟨.inr (Lexer.ends_of_isDelimiter delimiter _),
        .inr (Lexer.ends_of_isDelimiter delimiter _)⟩

/-- **Places**: the tokens of the two texts of lexemes differ in the places
    only, where one has a literal for each placeholder of the other. -/
theorem fill_tokens {ls : List (Lexeme Value)} (spaced : Lexeme.Spaced ls)
    (regular : ∀ l ∈ ls, l.Regular IsAlphanumeric)
    (bound : ∀ v, .place v ∈ ls → v.isInline = false) :
    ∃ ts us, tokens (Lexeme.chars ls) = some ts ∧ fill ts (Lexeme.values ls) = some us ∧
      tokens (literalChars ls) = some us := by
  induction ls with
  | nil => exact ⟨[], [], by simp [tokens], rfl, by simp [tokens, literalChars, Piece.concat]⟩
  | cons l ls ih =>
    obtain ⟨first, others⟩ := List.forall_mem_cons.mp regular
    obtain ⟨ts, us, sql, filled, inlined⟩ := ih spaced.of_cons others fun v hv =>
      bound v (List.mem_cons_of_mem l hv)
    obtain ⟨ends, ends'⟩ := ends_of_spaced spaced
    by_cases place : ∃ v, l = .place v
    · obtain ⟨v, rfl⟩ := place
      obtain ⟨t, token, read⟩ := token?_literal (bound v List.mem_cons_self)
      refine ⟨.lexeme (.place ()) :: ts, t :: us, ?_, ?_, ?_⟩
      · have placeholder : token? ('?' :: Lexeme.chars ls) =
            some (.lexeme (.place ()), Lexeme.chars ls) := rfl
        have shown : Lexeme.chars (.place v :: ls) = '?' :: Lexeme.chars ls := by
          simp [Lexeme.text, Dialect.mysql]
        rw [shown, tokens_of_token? placeholder, sql]
        rfl
      · show fill _ (v :: Lexeme.values ls) = _
        simp only [fill, token, filled, Option.bind_eq_bind, Option.bind_some, Option.pure_def]
      · have literal := read _ (ends'.resolve_left Bool.false_ne_true)
        rw [literalChars_place, tokens_of_token? literal, inlined]
        rfl
    · have other : ∀ v, l ≠ .place v := fun v e => place ⟨v, e⟩
      obtain ⟨ts', plain, read⟩ := exists_tokens first other
      refine ⟨ts' ++ ts, ts' ++ us, ?_, ?_, ?_⟩
      · rw [Lexeme.chars_cons, read _ ends, sql]
        rfl
      · have values : Lexeme.values (l :: ls) = Lexeme.values ls := by
          cases l with
          | place v => exact absurd rfl (other v)
          | _ => rfl
        rw [values, fill_append plain, filled]
        rfl
      · rw [literalChars_cons other, read _ ends', inlined]
        rfl

/-- The text with literals has the tokens of the text with placeholders, with
    the literal of each value for its placeholder. -/
def TokensKept (s : Statement) : Prop :=
  ∃ ts us, tokens s.sql.toList = some ts ∧ fill ts s.params = some us ∧
    tokens s.inlined.toList = some us

theorem tokensKept_add {ls : List (Lexeme Value)} (spaced : Lexeme.Spaced ls)
    (regular : ∀ l ∈ ls, l.Regular IsAlphanumeric)
    (bound : ∀ v, .place v ∈ ls → v.isInline = false) :
    TokensKept (Statement.empty.add (Lexeme.pieces ls)) := by
  obtain ⟨ts, us, sql, filled, inlined⟩ := fill_tokens spaced regular bound
  refine ⟨ts, us, ?_, ?_, ?_⟩
  · rw [Statement.sql_add, Statement.sql_empty, String.empty_append, Lexeme.toList_sql_pieces, sql]
  · rw [Statement.params_add, Statement.params_empty, List.nil_append]
    exact filled
  · rw [Statement.inlined_add]
    exact inlined

/-- **Rendered text keeps its tokens** when it is shown with literals,
    whatever names and values it mentions. -/
theorem tokens_of_inlined :
    (∀ e : Expr, (∀ name ∈ e.functions, IsAlphanumeric name) → TokensKept e.statement) ∧
    (∀ q : Select, q.validate = .ok () → (∀ name ∈ q.functions, IsAlphanumeric name) →
      ∃ s, q.build = .ok s ∧ TokensKept s) := by
  constructor
  · intro e names
    have inExpr := e.forall_mem_lexemes names
    rw [Expr.statement, Expr.write_eq_add]
    apply tokensKept_add e.spaced_lexemes
    · intro l hl
      exact (inExpr l hl).regular
    · intro v hv
      exact inExpr _ hv
  · intro q valid names
    have bound : ∀ l ∈ q.lexemes, ∀ v, l = .place v → v.isInline = false := by
      refine q.forall_mem_lexemes_of_trees ?_ ?_
      · rintro e he _ hl v rfl
        exact e.forall_mem_lexemes (Select.forall_mem_functions names e he) _ hl
      · intro l _ other v e
        exact absurd e (other v)
    refine ⟨_, Select.build_of_validate valid, ?_⟩
    apply tokensKept_add q.spaced_lexemes (q.forall_mem_lexemes names)
    intro v hv
    exact bound _ hv v rfl

/-- Quotes of all kinds in a name and a text, and bytes in a call of a
    function whose name is that of their literals. -/
theorem tokens_of_inlined_quotes :
    TokensKept (Expr.binary (.column "'?") .like (.literal (.text "it's \x60?\x60"))).statement ∧
    ∃ s, (Select.ofSlice ⟨⟨"t"⟩, [⟨.call "X" [.literal (.bytes [0xAB])] false, .blob, false⟩]⟩
      none).build = .ok s ∧ TokensKept s := by
  constructor
  · apply tokens_of_inlined.1 (.binary (.column "'?") .like (.literal (.text "it's \x60?\x60")))
    intro name h
    exact absurd h List.not_mem_nil
  · apply tokens_of_inlined.2 (.ofSlice
      ⟨⟨"t"⟩, [⟨.call "X" [.literal (.bytes [0xAB])] false, .blob, false⟩]⟩ none) rfl
    intro name h
    obtain rfl : name = "X" := List.mem_singleton.mp h
    exact List.all_eq_true.mp rfl

end Inlining

end TypedQuery

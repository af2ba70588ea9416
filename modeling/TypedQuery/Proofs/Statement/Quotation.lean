import TypedQuery.Proofs.Select.Lexemes

/-! # Quotation

    A database takes what stands between backticks for a name, and each `?`
    elsewhere for a place. This module scans a text as the database does,
    knowing nothing of how it was made:

    * **`scan_chars`**: exactly the identifiers are found between quotes.
    * **`safe_add`**: a statement made of regular lexemes is safe.
    * **`rendered_safe`**: every expression and every valid SELECT statement
      is, whatever its names and values are.
-/

namespace TypedQuery

/-! ## Section 1: Scanning -/

namespace Quotation

/-- A character, and whether it belongs to a quoted identifier, quotes
    included. -/
abbrev Mark : Type := Bool × Char

/-- Marks the characters of a text, of which the first is inside quotes if
    `quoted` says so, and tells whether the text ends inside quotes. A quote
    written twice stays inside. -/
def scan : Bool → List Char → List Mark × Bool
  | quoted, [] => ([], quoted)
  | false, c :: cs =>
    if c = '\x60' then
      let (marks, last) := scan true cs
      ((true, c) :: marks, last)
    else
      let (marks, last) := scan false cs
      ((false, c) :: marks, last)
  -- both quotes stand for one that is part of the name
  | true, '\x60' :: '\x60' :: cs =>
    let (marks, last) := scan true cs
    ((true, '\x60') :: (true, '\x60') :: marks, last)
  | true, '\x60' :: cs =>
    let (marks, last) := scan false cs
    ((true, '\x60') :: marks, last)
  | true, c :: cs =>
    let (marks, last) := scan true cs
    ((true, c) :: marks, last)

/-- Whether a mark is a `?` outside quotes. -/
def isPlace (m : Mark) : Bool := !m.1 && m.2 == '?'

/-- How many bytes come before each `?` outside quotes. -/
def places : Nat → List Mark → List Nat
  | _, [] => []
  | start, m :: marks =>
    (if isPlace m then [start] else []) ++ places (start + m.2.utf8Size) marks

/-- The text with the literal of the first value for the first `?` outside
    quotes, and so on. -/
def fill : List Mark → List Value → List Char
  | [], _ => []
  | m :: marks, [] => m.2 :: fill marks []
  | m :: marks, v :: vs =>
    if isPlace m then v.literal.toList ++ fill marks vs else m.2 :: fill marks (v :: vs)

/-- The characters that may stand outside quotes. -/
def isPlain (c : Char) : Bool := c.isAlphanum || " .,()+-*/%=!<>&|?".toList.contains c

/-- The code points of the letters and digits, in three ranges. -/
theorem toNat_of_isAlphanum {c : Char} (h : c.isAlphanum) :
    (65 ≤ c.toNat ∧ c.toNat ≤ 90) ∨ (97 ≤ c.toNat ∧ c.toNat ≤ 122) ∨
      (48 ≤ c.toNat ∧ c.toNat ≤ 57) := by
  rcases Bool.or_eq_true_iff.mp h with letter | digit
  · rcases Bool.or_eq_true_iff.mp letter with upper | lower
    · exact .inl (of_decide_eq_true upper)
    · obtain ⟨low, high⟩ := Bool.and_eq_true_iff.mp lower
      exact .inr (.inl ⟨of_decide_eq_true low, of_decide_eq_true high⟩)
  · exact .inr (.inr (Char.isDigit_iff_toNat.mp digit))

/-- None of these can end a quotation, a statement or a line. -/
theorem not_plain {c : Char} (h : isPlain c) :
    c ∉ ['\'', '"', '\x60', ';', '\\', '#'] ∧ 32 ≤ c.toNat ∧ c.toNat < 127 := by
  constructor
  · have none : ['\'', '"', '\x60', ';', '\\', '#'].all fun c => !isPlain c := rfl
    intro hc
    -- a character of the list would be plain and not plain
    have := List.all_eq_true.mp none c hc
    rw [h] at this
    cases this
  · rcases Bool.or_eq_true_iff.mp h with h | h
    · have := toNat_of_isAlphanum h
      omega
    · have printable : " .,()+-*/%=!<>&|?".toList.all fun c => 32 ≤ c.toNat && c.toNat < 127 := rfl
      have := List.all_eq_true.mp printable c (List.contains_iff_mem.mp h)
      simpa using this

theorem scan_doubled (name : List Char) {rest : List Char} (h : rest.head? ≠ some '\x60') :
    scan true (Text.doubled '\x60' name ++ '\x60' :: rest) =
      ((Text.doubled '\x60' name ++ ['\x60']).map (true, ·) ++ (scan false rest).1,
        (scan false rest).2) := by
  induction name with
  | nil =>
    rw [Text.doubled_nil, List.nil_append, scan]
    · rfl
    · rintro cs rfl
      exact h rfl
  | cons c name ih =>
    by_cases hc : c = '\x60'
    · subst hc
      simp [scan, ih]
    · rw [Text.doubled_cons_of_ne hc, List.cons_append, scan, ih]
      · rfl
      · intro cs e _
        exact hc e
      · intro e
        exact hc e

/-- An identifier is quoted from end to end. -/
theorem scan_quoted (name : String) {rest : List Char} (h : rest.head? ≠ some '\x60') :
    scan false ((Dialect.mysql.quoted name).toList ++ rest) =
      ((Dialect.mysql.quoted name).toList.map (true, ·) ++ (scan false rest).1,
        (scan false rest).2) := by
  have inside := scan_doubled name.toList h
  simp [Dialect.quoted, Dialect.mysql, scan, inside]

/-- Text without quotes is outside from end to end. -/
theorem scan_unquoted {cs : List Char} (h : '\x60' ∉ cs) (rest : List Char) :
    scan false (cs ++ rest) = (cs.map (false, ·) ++ (scan false rest).1, (scan false rest).2) := by
  induction cs with
  | nil => rfl
  | cons c cs ih =>
    have first : c ≠ '\x60' := fun e => h (e ▸ List.mem_cons_self)
    have others : '\x60' ∉ cs := fun hc => h (List.mem_cons_of_mem c hc)
    rw [List.cons_append, scan, if_neg first, ih others]
    rfl

/-! ## Section 2: Lexemes -/

/-- A name of letters and digits. -/
def IsAlphanumeric (name : String) : Prop := ∀ c ∈ name.toList, c.isAlphanum

/-- The marks of a lexeme. -/
def marks (l : Lexeme Value) : List Mark :=
  match l with
  | .identifier _ => l.text.toList.map (true, ·)
  | l => l.text.toList.map (false, ·)

theorem plain_of_isAlphanum {c : Char} (h : c.isAlphanum) : isPlain c ∧ c ≠ '?' := by
  refine ⟨by simp [isPlain, h], ?_⟩
  rintro rfl
  exact absurd h (by decide)

/-- What a lexeme other than an identifier is written with. A `?` is found
    nowhere but in a place. -/
theorem plain_text {l : Lexeme Value} (h : l.Regular IsAlphanumeric)
    (hl : ∀ name, l ≠ .identifier name) :
    ∀ c ∈ l.text.toList, isPlain c ∧ (c ≠ '?' ∨ ∃ v, l = .place v) := by
  intro c hc
  cases l with
  | blank =>
    obtain rfl : c = ' ' := by simpa [Lexeme.text] using hc
    exact ⟨rfl, .inl (by decide)⟩
  | identifier name => exact absurd rfl (hl name)
  | keyword k =>
    have letters : k.text.toList.all Char.isAlphanum := by cases k <;> rfl
    exact (plain_of_isAlphanum (List.all_eq_true.mp letters c hc)).imp_right .inl
  | function name => exact (plain_of_isAlphanum (h c hc)).imp_right .inl
  | numeral digits =>
    rcases h.1 c hc with digit | rfl
    · have : c.isAlphanum := Bool.or_eq_true_iff.mpr (.inr digit)
      exact (plain_of_isAlphanum this).imp_right .inl
    · exact ⟨by decide, .inl (by decide)⟩
  | symbol s =>
    have symbols : s.text.toList.all fun c => isPlain c && c != '?' := by cases s <;> rfl
    have := List.all_eq_true.mp symbols c hc
    simp only [Bool.and_eq_true, bne_iff_ne] at this
    exact this.imp_right .inl
  | place v =>
    obtain rfl : c = '?' := by simpa [Lexeme.text, Dialect.mysql] using hc
    exact ⟨rfl, .inr ⟨v, rfl⟩⟩

/-- The quotes of an identifier are not found to go on after it. -/
theorem head?_chars_ne_quote {l : Lexeme Value} {ls : List (Lexeme Value)}
    (spaced : Lexeme.Spaced (l :: ls)) (open_ : l.isClosed = false) :
    (Lexeme.chars ls).head? ≠ some '\x60' := by
  cases ls with
  | nil => simp
  | cons m ms =>
    have delimiter : m.isDelimiter := by
      rcases spaced.rel with h | h
      · rw [open_] at h
        cases h
      · exact h
    cases m with
    | blank => simp [Lexeme.text]
    | symbol s =>
      cases s with
      | lparen | rparen | comma => simp [Lexeme.text, Symbol.text]
      | _ => cases delimiter
    | _ => cases delimiter

/-- A name in which no quotation begins. -/
def IsUnquoted (name : String) : Prop := '\x60' ∉ name.toList

theorem isUnquoted_of_isAlphanumeric {name : String} (h : IsAlphanumeric name) :
    IsUnquoted name := by
  intro quote
  exact absurd (h _ quote) (by decide)

/-- No quotation begins in a lexeme other than an identifier. -/
theorem quote_not_mem_text {l : Lexeme Value} (h : l.Regular IsUnquoted)
    (hl : ∀ name, l ≠ .identifier name) : '\x60' ∉ l.text.toList := by
  cases l with
  | identifier name => exact absurd rfl (hl name)
  | function name => exact h
  | blank | keyword _ | numeral _ | symbol _ | place _ =>
    -- whatever names functions have, these are as they are
    have plain := plain_text (by exact h) hl
    intro quote
    exact (not_plain (plain _ quote).1).1 (by decide)

/-- Exactly the identifiers are found between quotes. -/
theorem scan_chars {ls : List (Lexeme Value)} (spaced : Lexeme.Spaced ls)
    (regular : ∀ l ∈ ls, l.Regular IsUnquoted) :
    scan false (Lexeme.chars ls) = (ls.flatMap marks, false) := by
  induction ls with
  | nil => rfl
  | cons l ls ih =>
    obtain ⟨first, others⟩ := List.forall_mem_cons.mp regular
    have rest := ih spaced.of_cons others
    rw [Lexeme.chars_cons, List.flatMap_cons]
    cases l with
    | identifier name =>
      have scanned := scan_quoted name (head?_chars_ne_quote spaced rfl)
      rw [rest] at scanned
      exact scanned
    | _ =>
      have unquoted := scan_unquoted (quote_not_mem_text first (by simp)) (Lexeme.chars ls)
      rw [rest] at unquoted
      exact unquoted

/-! ## Section 3: Places -/

theorem places_append (start : Nat) (ms ns : List Mark) :
    places start (ms ++ ns) =
      places start ms ++ places (start + (String.ofList (ms.map (·.2))).utf8ByteSize) ns := by
  induction ms generalizing start with
  | nil => simp [places]
  | cons m ms ih =>
    have size : (String.ofList ((m :: ms).map (·.2))).utf8ByteSize =
        m.2.utf8Size + (String.ofList (ms.map (·.2))).utf8ByteSize := by
      rw [List.map_cons, String.ofList_cons, String.utf8ByteSize_append,
        String.utf8ByteSize_singleton]
    rw [List.cons_append, places, places, ih, size, List.append_assoc, Nat.add_assoc]

theorem places_eq_nil {ms : List Mark} (h : ∀ m ∈ ms, isPlace m = false) (start : Nat) :
    places start ms = [] := by
  induction ms generalizing start with
  | nil => rfl
  | cons m ms ih =>
    obtain ⟨first, others⟩ := List.forall_mem_cons.mp h
    rw [places, first, ih others]
    rfl

theorem fill_append {ms : List Mark} (h : ∀ m ∈ ms, isPlace m = false) (ns : List Mark)
    (vs : List Value) : fill (ms ++ ns) vs = ms.map (·.2) ++ fill ns vs := by
  induction ms with
  | nil => rfl
  | cons m ms ih =>
    obtain ⟨first, others⟩ := List.forall_mem_cons.mp h
    cases vs with
    | nil => rw [List.cons_append, fill, ih others, List.map_cons, List.cons_append]
    | cons v vs =>
      rw [List.cons_append, fill, first, ih others, List.map_cons, List.cons_append]
      rfl

theorem map_marks (l : Lexeme Value) : (marks l).map (·.2) = l.text.toList := by
  cases l <;> simp [marks, Function.comp_def]

theorem marks_place (v : Value) : marks (.place v) = [(false, '?')] := by
  simp [marks, Lexeme.text, Dialect.mysql]

/-- A lexeme that holds no place is text, without a `?` outside quotes. -/
theorem not_isPlace {l : Lexeme Value} (h : l.Regular IsAlphanumeric)
    (hl : ∀ v, l ≠ .place v) : l.piece = .text l.text ∧ ∀ m ∈ marks l, isPlace m = false := by
  cases l with
  | identifier name => simp [marks, isPlace, Lexeme.text]
  | place v => exact absurd rfl (hl v)
  | _ =>
    refine ⟨rfl, ?_⟩
    intro m hm
    obtain ⟨c, hc, rfl⟩ := List.mem_map.mp hm
    rcases (plain_text h (by simp) c hc).2 with other | ⟨v, e⟩
    · simp [isPlace, other]
    · cases e

/-- The places found are those where the values were bound. -/
theorem places_marks {ls : List (Lexeme Value)} (regular : ∀ l ∈ ls, l.Regular IsAlphanumeric)
    (start : Nat) :
    places start (ls.flatMap marks) = Piece.offsets start (Lexeme.pieces ls) := by
  -- the number of bytes passed is the same for the marks and for the pieces
  induction ls generalizing start with
  | nil => rfl
  | cons l ls ih =>
    obtain ⟨first, others⟩ := List.forall_mem_cons.mp regular
    rw [List.flatMap_cons, places_append, map_marks, String.ofList_toList, ih others,
      Lexeme.pieces_cons]
    by_cases hl : ∃ v, l = .place v
    · obtain ⟨v, rfl⟩ := hl
      rw [marks_place]
      rfl
    · obtain ⟨text, none⟩ := not_isPlace first fun v e => hl ⟨v, e⟩
      rw [text, places_eq_nil none, List.nil_append, Piece.offsets]

/-- Each value belongs to the place found for it. -/
theorem fill_marks {ls : List (Lexeme Value)} (regular : ∀ l ∈ ls, l.Regular IsAlphanumeric) :
    fill (ls.flatMap marks) (Lexeme.values ls) =
      (Piece.concat Value.literal (Lexeme.pieces ls)).toList := by
  induction ls with
  | nil => rfl
  | cons l ls ih =>
    obtain ⟨first, others⟩ := List.forall_mem_cons.mp regular
    have rest := ih others
    rw [Lexeme.values] at rest ⊢
    rw [List.flatMap_cons, Lexeme.pieces_cons]
    by_cases hl : ∃ v, l = .place v
    · obtain ⟨v, rfl⟩ := hl
      rw [Lexeme.piece_place, Piece.values, Piece.concat, String.toList_append, ← rest,
        marks_place]
      rfl
    · obtain ⟨text, none⟩ := not_isPlace first fun v e => hl ⟨v, e⟩
      rw [text, Piece.values, Piece.concat, String.toList_append, fill_append none, map_marks, rest]

/-! ## Section 4: Statements -/

theorem length_places (start : Nat) (ms : List Mark) :
    (places start ms).length = (ms.filter isPlace).length := by
  induction ms generalizing start with
  | nil => rfl
  | cons m ms ih => cases h : isPlace m <;> simp [places, h, ih]

/-- A database finds in the text of a statement what was put there. -/
structure Safe (s : Statement) : Prop where
  /-- The text ends outside quotes. -/
  closed : (scan false s.sql.toList).2 = false
  /-- Each `?` outside quotes is where a value was bound. -/
  places_eq : places 0 (scan false s.sql.toList).1 = s.places
  /-- There are as many of them as values. -/
  count_eq : ((scan false s.sql.toList).1.filter isPlace).length = s.params.length
  /-- The first one belongs to the first value, and so on. -/
  fill_eq : fill (scan false s.sql.toList).1 s.params = s.inlined.toList
  /-- Nothing else outside quotes has a meaning of its own. -/
  plain : ∀ c, (false, c) ∈ (scan false s.sql.toList).1 →
    isPlain c ∧ c ∉ ['\'', '"', '\x60', ';', '\\', '#'] ∧ 32 ≤ c.toNat ∧ c.toNat < 127

/-- A statement made of regular lexemes is safe. -/
theorem safe_add {ls : List (Lexeme Value)} (spaced : Lexeme.Spaced ls)
    (regular : ∀ l ∈ ls, l.Regular IsAlphanumeric) :
    Safe (Statement.empty.add (Lexeme.pieces ls)) := by
  have scanned : scan false (Statement.empty.add (Lexeme.pieces ls)).sql.toList =
      (ls.flatMap marks, false) := by
    have unquoted : ∀ l ∈ ls, l.Regular IsUnquoted := fun l hl =>
      (regular l hl).mono fun _ => isUnquoted_of_isAlphanumeric
    rw [Statement.sql_add, Statement.sql_empty, String.empty_append, Lexeme.toList_sql_pieces,
      scan_chars spaced unquoted]
  have params : (Statement.empty.add (Lexeme.pieces ls)).params = Lexeme.values ls := by
    rw [Statement.params_add]
    rfl
  have marked := places_marks regular 0
  -- with the marks known, each part is a lemma about them
  constructor
  · rw [scanned]
  · rw [scanned, marked, Statement.places_add]
    rfl
  · rw [scanned, params, ← length_places 0, marked, Piece.length_offsets]
    rfl
  · rw [scanned, params, fill_marks regular, Statement.inlined_add]
  · intro c hc
    rw [scanned] at hc
    obtain ⟨l, hl, hc⟩ := List.mem_flatMap.mp hc
    cases l with
    | identifier name => simp [marks] at hc
    | _ =>
      obtain ⟨c', hc', e⟩ := List.mem_map.mp hc
      cases e
      have plain := (plain_text (regular _ hl) (by simp) c hc').1
      exact ⟨plain, not_plain plain⟩

/-- **Rendered text is safe**, whatever names and values it mentions. -/
theorem rendered_safe :
    (∀ e : Expr, (∀ name ∈ e.functions, IsAlphanumeric name) → Safe e.statement) ∧
    (∀ q : Select, q.validate = .ok () → (∀ name ∈ q.functions, IsAlphanumeric name) →
      ∃ s, q.build = .ok s ∧ Safe s) := by
  constructor
  · intro e names
    have regular : ∀ l ∈ e.lexemes, l.Regular IsAlphanumeric := by
      intro l hl
      exact (e.forall_mem_lexemes names l hl).regular
    rw [Expr.statement, Expr.write_eq_add]
    exact safe_add e.spaced_lexemes regular
  · intro q valid names
    have safe := safe_add q.spaced_lexemes (q.forall_mem_lexemes names)
    exact ⟨_, Select.build_of_validate valid, safe⟩

/-- Names and values that would end a quotation or hold a place. -/
theorem rendered_safe_names :
    Safe (Expr.binary (.column "\x60?") .eq (.literal (.text "'; --"))).statement ∧
    ∃ s, (Select.ofSlice ⟨⟨"\x60 -- ?"⟩, [⟨.call "COUNT" [.wildcard] false, .long, false⟩]⟩
      none).build = .ok s ∧ Safe s := by
  constructor
  · apply rendered_safe.1 (.binary (.column "\x60?") .eq (.literal (.text "'; --")))
    intro name h
    exact absurd h List.not_mem_nil
  · apply rendered_safe.2 (.ofSlice
      ⟨⟨"\x60 -- ?"⟩, [⟨.call "COUNT" [.wildcard] false, .long, false⟩]⟩ none) rfl
    intro name h
    obtain rfl : name = "COUNT" := List.mem_singleton.mp h
    exact List.all_eq_true.mp rfl

end Quotation

end TypedQuery

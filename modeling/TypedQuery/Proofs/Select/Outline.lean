import TypedQuery.Proofs.Lexeme.Lexer
import TypedQuery.Proofs.Select.Lexemes

/-! # The outline of SELECT statements

    A reader that knows only quotes, parentheses, commas and the keywords of
    clauses finds the clauses of a statement in its text, and the items of
    each clause.

    * **`split_flatMap`**: clauses are split where they begin.
    * **`outline?_sql`**: the items found are the texts of the expressions
      that the statement holds.
    * **`shape_eq_of_outline`**: statements in which the same is found agree
      clause by clause.
-/

namespace TypedQuery

open Lexeme (Nested listed afterBlank)

variable {ν : Type}

/-! ## Section 1: Finding clauses -/

namespace Lexeme

/-- Whether a lexeme is the first keyword of a clause. -/
def opensClause : Lexeme ν → Bool
  | .keyword k =>
    [Keyword.SELECT, .FROM, .WHERE, .GROUP, .HAVING, .ORDER, .LIMIT, .OFFSET, .FOR].contains k
  | _ => false

theorem opensClause_map {μ : Type} (f : ν → μ) (l : Lexeme ν) :
    (l.map f).opensClause = l.opensClause := by
  cases l <;> rfl

end Lexeme

namespace Heading

/-- All headings, in the order of the clauses. -/
def all : List Heading :=
  [.fields, .source, .filter, .grouping, .having, .ordering, .limit, .offset, .lock]

/-- The heading whose keywords stand at the front of lexemes, and what
    follows. -/
def keywords? : List (Lexeme ν) → Option (Heading × List (Lexeme ν))
  | .keyword .SELECT :: ls => some (.fields, ls)
  | .keyword .FROM :: ls => some (.source, ls)
  | .keyword .WHERE :: ls => some (.filter, ls)
  | .keyword .GROUP :: .blank :: .keyword .BY :: ls => some (.grouping, ls)
  | .keyword .HAVING :: ls => some (.having, ls)
  | .keyword .ORDER :: .blank :: .keyword .BY :: ls => some (.ordering, ls)
  | .keyword .LIMIT :: ls => some (.limit, ls)
  | .keyword .OFFSET :: ls => some (.offset, ls)
  | .keyword .FOR :: .blank :: .keyword .UPDATE :: ls => some (.lock, ls)
  | _ => none

/-- The same with the blanks around the heading, if there are any. -/
def read? (ls : List (Lexeme ν)) : Option (Heading × List (Lexeme ν)) :=
  (keywords? (afterBlank ls)).map fun (h, rest) =>
    (h, if h = .lock then rest else afterBlank rest)

theorem length_keywords? {ls rest : List (Lexeme ν)} {h : Heading}
    (found : keywords? ls = some (h, rest)) : rest.length < ls.length := by
  unfold keywords? at found
  split at found <;> cases found <;> simp only [List.length_cons] <;> omega

theorem length_read? {ls rest : List (Lexeme ν)} {h : Heading}
    (found : read? ls = some (h, rest)) : rest.length < ls.length := by
  obtain ⟨⟨h', rest'⟩, inner, e⟩ := Option.map_eq_some_iff.mp found
  have shorter := length_keywords? inner
  have before := Lexeme.length_afterBlank ls
  have after := Lexeme.length_afterBlank rest'
  cases e
  split <;> omega

theorem read?_lexemes (h : Heading) (rest : List (Lexeme ν)) :
    read? (h.lexemes ++ rest) = some (h, rest) := by
  cases h <;> rfl

theorem keywords?_eq_none {l : Lexeme ν} (h : l.opensClause = false) (ls : List (Lexeme ν)) :
    keywords? (l :: ls) = none := by
  unfold keywords?
  split <;> simp_all [Lexeme.opensClause]

/-- No heading begins with a lexeme, or with the next one after a blank,
    that is not the first keyword of a clause. -/
theorem read?_eq_none {l : Lexeme ν} {ls : List (Lexeme ν)} (h : l.opensClause = false)
    (h' : ∀ m ∈ ls.head?, m.opensClause = false) : read? (l :: ls) = none := by
  rw [read?, Option.map_eq_none_iff]
  cases l with
  | blank =>
    -- a heading may begin with the blank before its keyword
    cases ls with
    | nil => rfl
    | cons m ms => exact keywords?_eq_none (h' m rfl) ms
  | _ => exact keywords?_eq_none h ls

end Heading

namespace Clause

/-- The lexemes before the first heading outside parentheses, and from there
    on each heading with the lexemes up to the next. -/
def split (d : Nat) : List (Lexeme ν) → List (Lexeme ν) × List (Heading × List (Lexeme ν))
  | [] => ([], [])
  | l :: ls =>
    -- a keyword inside parentheses opens no clause of this statement
    match _found : if d = 0 then Heading.read? (l :: ls) else none with
    | some (h, rest) =>
      let (body, others) := split 0 rest
      ([], (h, body) :: others)
    | none =>
      let (body, others) := split (l.depth d) ls
      (l :: body, others)
termination_by ls => ls.length
decreasing_by
  · split at _found
    · exact Heading.length_read? _found
    · cases _found
  · exact Nat.lt_succ_self _

theorem split_of_read? {ls rest : List (Lexeme ν)} {h : Heading}
    (found : Heading.read? ls = some (h, rest)) :
    split 0 ls = ([], (h, (split 0 rest).1) :: (split 0 rest).2) := by
  cases ls with
  | nil => cases found
  | cons l ls =>
    rw [split]
    split
    · next other =>
      rw [if_pos rfl, found] at other
      cases other
      rfl
    · next other =>
      rw [if_pos rfl, found] at other
      cases other

theorem split_cons {d : Nat} {l : Lexeme ν} {ls : List (Lexeme ν)}
    (h : d = 0 → Heading.read? (l :: ls) = none) :
    split d (l :: ls) = (l :: (split (l.depth d) ls).1, (split (l.depth d) ls).2) := by
  have none_found : (if d = 0 then Heading.read? (l :: ls) else none) = none := by
    split
    · next hd => exact h hd
    · rfl
  rw [split]
  split
  · next other =>
    rw [none_found] at other
    cases other
  · rfl

/-- None of the lexemes is the first keyword of a clause. -/
def Quiet (ls : List (Lexeme ν)) : Prop := ∀ l ∈ ls, l.opensClause = false

theorem Quiet.head {ls rest : List (Lexeme ν)} (h : Quiet ls)
    (hr : ∀ l ∈ rest.head?, l.opensClause = false) :
    ∀ l ∈ (ls ++ rest).head?, l.opensClause = false := by
  cases ls with
  | nil => exact hr
  | cons m ms =>
    intro l hl
    obtain rfl : m = l := by simpa using hl
    exact h m List.mem_cons_self

/-- What is nested and has no keywords of clauses is passed over. -/
theorem split_append {commas : Bool} {ls : List (Lexeme ν)} (h : Nested commas ls)
    (quiet : Quiet ls) (d : Nat) {rest : List (Lexeme ν)}
    (hr : ∀ l ∈ rest.head?, l.opensClause = false) :
    split d (ls ++ rest) = (ls ++ (split d rest).1, (split d rest).2) := by
  induction h generalizing d rest with
  | nil => rfl
  | @single commas l h =>
    have none_found := Heading.read?_eq_none (quiet l List.mem_cons_self) hr
    rw [List.singleton_append, split_cons fun _ => none_found, Lexeme.depth_of_isFlat h]
    rfl
  | comma =>
    have none_found : Heading.read? (.symbol .comma :: rest) = none :=
      Heading.read?_eq_none rfl hr
    rw [List.singleton_append, split_cons fun _ => none_found]
    rfl
  | @append commas ls ms _ _ ih ih' =>
    obtain ⟨first, second⟩ := List.forall_mem_append.mp quiet
    rw [List.append_assoc, ih first d (Quiet.head second hr), ih' second d hr, List.append_assoc]
  | @parens commas ls _ ih =>
    have body : Quiet ls := (List.forall_mem_append.mp (List.forall_mem_cons.mp quiet).2).1
    have bracket : ∀ l ∈ (Lexeme.symbol Symbol.rparen :: rest).head?,
        l.opensClause = false := by
      rintro l ⟨⟩
      rfl
    have inside := ih body (d + 1) bracket
    -- what is inside is passed over one level deeper
    have closed : split (d + 1) (.symbol .rparen :: rest) =
        (.symbol .rparen :: (split d rest).1, (split d rest).2) :=
      split_cons fun e => absurd e (Nat.succ_ne_zero d)
    have opened : split d (.symbol .lparen :: (ls ++ .symbol .rparen :: rest)) =
        (.symbol .lparen :: (split (d + 1) (ls ++ .symbol .rparen :: rest)).1,
          (split (d + 1) (ls ++ .symbol .rparen :: rest)).2) :=
      split_cons fun _ => Heading.read?_eq_none rfl (Quiet.head body bracket)
    rw [inside, closed] at opened
    rw [List.cons_append, List.append_assoc, List.singleton_append, opened, List.cons_append,
      List.append_assoc, List.singleton_append]

/-- A clause whose items a reader can tell from each other and from the next
    clause. -/
structure Separate (c : Clause ν) : Prop where
  nested : ∀ ls ∈ c.items, Nested false ls
  quiet : ∀ ls ∈ c.items, Quiet ls
  nonempty : ∀ ls ∈ c.items, ls ≠ []

theorem head?_flatMap (cs : List (Clause ν)) :
    ∀ l ∈ (cs.flatMap Clause.lexemes).head?, l.opensClause = false := by
  cases cs with
  | nil =>
    intro l hl
    cases hl
  | cons c cs =>
    -- every heading starts with a blank
    obtain ⟨heading, items⟩ := c
    cases heading <;>
      · rintro l ⟨⟩
        rfl

/-- **Clauses**: the text of clauses is split where they begin. -/
theorem split_flatMap {cs : List (Clause ν)} (h : ∀ c ∈ cs, c.Separate) :
    split 0 (cs.flatMap Clause.lexemes) = ([], cs.map fun c => (c.heading, listed c.items)) := by
  induction cs with
  | nil =>
    rw [List.flatMap_nil, split]
    rfl
  | cons c cs ih =>
    obtain ⟨first, others⟩ := List.forall_mem_cons.mp h
    have nested : Nested true (listed c.items) := .listed fun ls hls => (first.nested ls hls).mono
    have quiet : Quiet (listed c.items) :=
      Lexeme.forall_mem_listed (P := fun l => l.opensClause = false) rfl rfl first.quiet
    have body := split_append nested quiet 0 (head?_flatMap cs)
    rw [ih others, List.append_nil] at body
    rw [List.flatMap_cons, Clause.lexemes, List.append_assoc,
      split_of_read? (Heading.read?_lexemes _ _), body]
    rfl

/-- The clauses that lexemes consist of, if they begin with one. -/
def read (ls : List (Lexeme ν)) : Option (List (Clause ν)) :=
  match split 0 ls with
  | ([], found) => some (found.map fun (h, body) => ⟨h, Lexeme.items body⟩)
  | _ => none

theorem read_flatMap {cs : List (Clause ν)} (h : ∀ c ∈ cs, c.Separate) :
    read (cs.flatMap Clause.lexemes) = some cs := by
  -- the items are found again in each clause
  have same : ∀ c ∈ cs, (⟨c.heading, Lexeme.items (listed c.items)⟩ : Clause ν) = c := by
    intro c hc
    rw [Lexeme.items_listed (h c hc).nested (h c hc).nonempty]
  rw [read, split_flatMap h]
  show some ((cs.map fun c => (c.heading, listed c.items)).map _) = _
  rw [List.map_map]
  exact congrArg some ((List.map_congr_left same).trans (List.map_id cs))

/-- The clause as a reader finds it, without its values. -/
def bare (c : Clause Value) : Clause Unit := ⟨c.heading, c.items.map (·.map Lexeme.bare)⟩

theorem map_bare_lexemes (c : Clause Value) : c.lexemes.map Lexeme.bare = c.bare.lexemes := by
  have heading : (c.heading.lexemes : List (Lexeme Value)).map Lexeme.bare =
      c.heading.lexemes := by
    cases c.heading <;> rfl
  have body := Lexeme.map_listed Lexeme.bare rfl rfl c.items
  rw [Clause.lexemes, List.map_append, heading, body]
  rfl

theorem Separate.bare {c : Clause Value} (h : c.Separate) : c.bare.Separate where
  nested := by
    rintro ls hls
    obtain ⟨ms, hms, rfl⟩ := List.mem_map.mp hls
    exact (h.nested ms hms).map _
  quiet := by
    rintro ls hls l hl
    obtain ⟨ms, hms, rfl⟩ := List.mem_map.mp hls
    obtain ⟨m, hm, rfl⟩ := List.mem_map.mp hl
    exact (Lexeme.opensClause_map _ m).trans (h.quiet ms hms m hm)
  nonempty := by
    rintro ls hls e
    obtain ⟨ms, hms, rfl⟩ := List.mem_map.mp hls
    exact h.nonempty ms hms (List.map_eq_nil_iff.mp e)

/-- The text of each item of a clause. -/
def texts (c : Clause ν) : List String := c.items.map fun ls => String.ofList (Lexeme.chars ls)

theorem texts_bare (c : Clause Value) : c.bare.texts = c.texts := by
  simp [texts, bare, Lexeme.chars_map_bare, Function.comp_def]

end Clause

/-! ## Section 2: Outlines -/

namespace Select

theorem quiet_of_inExpr {ls : List (Lexeme Value)}
    (h : ∀ l ∈ ls, l.InExpr fun _ => True) : Clause.Quiet ls := by
  intro l hl
  have inExpr := h l hl
  cases l with
  | keyword k =>
    have word : Lexeme.IsOperatorWord k := inExpr
    cases k <;> first | rfl | exact absurd word (by decide)
  | _ => rfl

theorem separate_clauses (q : Select) : ∀ c ∈ q.clauses, c.Separate := by
  have quiet (e : Expr) : Clause.Quiet e.lexemes :=
    quiet_of_inExpr (e.forall_mem_lexemes fun _ _ => trivial)
  -- all three are properties of one item, and so follow kind by kind
  have all : ∀ c ∈ q.clauses, ∀ ls ∈ c.items,
      Nested false ls ∧ Clause.Quiet ls ∧ ls ≠ [] := by
    apply forall_items
    · intro e _
      exact ⟨e.nested_lexemes, quiet e, e.lexemes_ne_nil⟩
    · intro e _ k hk
      -- neither `ASC` nor `DESC` opens a clause
      refine ⟨e.nested_lexemes.append (.cons rfl (.single rfl)), ?_, by simp⟩
      refine List.forall_mem_append.mpr ⟨quiet e, ?_⟩
      rcases List.mem_pair.mp hk with rfl | rfl <;> simp [Lexeme.opensClause]
    · exact ⟨.single rfl, by simp [Clause.Quiet, Lexeme.opensClause], by simp⟩
    · intro n
      exact ⟨.single rfl, by simp [Clause.Quiet, Lexeme.opensClause], by simp⟩
  intro c hc
  constructor
  · intro ls hls
    exact (all c hc ls hls).1
  · intro ls hls
    exact (all c hc ls hls).2.1
  · intro ls hls
    exact (all c hc ls hls).2.2

/-- The headings of a text, each with the items of its clause. -/
def outline? (sql : String) : Option (List (Heading × List String)) := do
  let ls ← Lexer.lex sql.toList
  let cs ← Clause.read ls
  return cs.map fun c => (c.heading, c.texts)

/-- The texts of a direction. -/
def direction (ascending : Bool) : String := if ascending then " ASC" else " DESC"

/-- The items of each clause, if it is set. -/
def texts? (q : Select) : Heading → Option (List String)
  | .fields => some (q.fields.map (·.tree.statement.sql))
  | .source => some [Dialect.mysql.quoted q.source.name]
  | .filter => q.filter.map fun e => [e.statement.sql]
  | .grouping => if q.grouping = [] then none else some (q.grouping.map (·.tree.statement.sql))
  | .having => q.having.map fun e => [e.statement.sql]
  | .ordering =>
    if q.ordering = [] then none
    else some (q.ordering.map fun o => o.1.tree.statement.sql ++ direction o.2)
  | .limit => q.limit.map fun n => [Number.naturalText n.toNat]
  | .offset => q.offset.map fun n => [Number.naturalText n.toNat]
  | .lock => if q.forUpdate then some [] else none

/-- The clauses that are set, in the order of the headings, with the items
    of each. -/
def outline (q : Select) : List (Heading × List String) :=
  Heading.all.filterMap fun h => (q.texts? h).map (h, ·)

theorem text_lexemes (e : Expr) : String.ofList (Lexeme.chars e.lexemes) = e.statement.sql := by
  rw [Expr.statement, Expr.write_eq_add, Statement.sql_add, Statement.sql_empty,
    String.empty_append, ← Lexeme.toList_sql_pieces, String.ofList_toList]
  rfl

theorem text_order (order : Field × Bool) :
    String.ofList (Lexeme.chars (orderLexemes order)) =
      order.1.tree.statement.sql ++ direction order.2 := by
  rw [orderLexemes, Lexeme.chars_append, String.ofList_append, text_lexemes]
  cases order.2 <;> rfl

/-- A valid statement has no offset without a limit. -/
theorem offset_of_validate {q : Select} (h : q.validate = .ok ()) (none_given : q.limit = none) :
    q.offset = none := by
  by_contra given
  -- the check for fields comes first, and either fault rejects the statement
  have rejected : q.rejection? = some .offsetWithoutLimit ∨
      ∃ t, q.rejection? = some (.noFields t) := by
    simp only [rejection?, none_given]
    split
    · exact .inr ⟨_, rfl⟩
    · exact .inl (by simp [Option.isSome_iff_ne_none, given])
  rw [validate] at h
  rcases rejected with e | ⟨t, e⟩ <;> rw [e] at h <;> cases h

theorem map_texts_ofPredicate (h : Heading) (e : Option Expression) :
    (Clause.ofPredicate h e).map (fun c => (c.heading, c.texts)) =
      ((e.map fun e => [e.statement.sql]).map (h, ·)).toList := by
  cases e with
  | none => rfl
  | some e => simp [Clause.ofPredicate, Clause.texts, text_lexemes, Expression.statement]

theorem map_texts_ofList {α : Type} (h : Heading) (xs : List α) (lexemes : α → List (Lexeme Value))
    (text : α → String) (same : ∀ x, String.ofList (Lexeme.chars (lexemes x)) = text x) :
    (Clause.ofList h (xs.map lexemes)).map (fun c => (c.heading, c.texts)) =
      ((if xs = [] then none else some (xs.map text)).map (h, ·)).toList := by
  cases xs with
  | nil => rfl
  | cons x xs => simp [Clause.ofList, Clause.texts, same, Function.comp_def]

theorem map_texts_limitClauses {limit offset : Option UInt64} (h : limit = none → offset = none) :
    (limitClauses limit offset).map (fun c => (c.heading, c.texts)) =
      ((limit.map fun n => [Number.naturalText n.toNat]).map (.limit, ·)).toList ++
        ((offset.map fun n => [Number.naturalText n.toNat]).map (.offset, ·)).toList := by
  cases limit with
  | none =>
    rw [h rfl]
    rfl
  | some n =>
    cases offset <;>
      simp [limitClauses, Clause.ofCount, Clause.texts, Lexeme.text, Number.naturalText]

theorem map_texts_clauses {q : Select} (h : q.validate = .ok ()) :
    q.clauses.map (fun c => (c.heading, c.texts)) = q.outline := by
  rw [clauses, laterClauses, outline, Heading.all, List.filterMap_eq_flatMap_toList]
  simp only [List.map_cons, List.map_append, map_texts_ofPredicate,
    map_texts_ofList _ q.grouping _ _ fun f => text_lexemes f.tree,
    map_texts_ofList _ q.ordering _ _ text_order, map_texts_limitClauses (offset_of_validate h),
    List.append_assoc, List.flatMap_cons, texts?]
  cases q.forUpdate <;> simp [Clause.texts, text_lexemes, Lexeme.text]

theorem outline?_sql {q : Select} (valid : q.validate = .ok ())
    (names : ∀ name ∈ q.functions, Lexer.IsFunctionName name) :
    outline? (Statement.empty.add (Lexeme.pieces q.lexemes)).sql = some q.outline := by
  have lexed : Lexer.lex (Statement.empty.add (Lexeme.pieces q.lexemes)).sql.toList =
      some (q.lexemes.map Lexeme.bare) := by
    rw [Statement.sql_add, Statement.sql_empty, String.empty_append, Lexeme.toList_sql_pieces]
    exact Lexer.lex_chars q.spaced_lexemes (q.forall_mem_lexemes names)
  have bare : (.blank :: q.lexemes).map Lexeme.bare =
      (q.clauses.map Clause.bare).flatMap Clause.lexemes := by
    rw [blank_cons_lexemes, List.map_flatMap, List.flatMap_map]
    exact List.flatMap_congr fun c _ => c.map_bare_lexemes
  have separate : ∀ c ∈ q.clauses.map Clause.bare, c.Separate := by
    intro c' hc'
    obtain ⟨c, hc, rfl⟩ := List.mem_map.mp hc'
    exact (q.separate_clauses c hc).bare
  -- the first heading has no blank before it, which makes no difference
  have first : Clause.read (q.lexemes.map Lexeme.bare) =
      Clause.read ((.blank :: q.lexemes).map Lexeme.bare) := by
    have found : Heading.read? (q.lexemes.map Lexeme.bare) = some (.fields, _) := rfl
    have found' : Heading.read? ((.blank :: q.lexemes).map Lexeme.bare) = some (.fields, _) := rfl
    rw [Clause.read, Clause.read, Clause.split_of_read? found, Clause.split_of_read? found']
  rw [outline?, lexed]
  show (Clause.read (q.lexemes.map Lexeme.bare) >>= _) = _
  rw [first, bare, Clause.read_flatMap separate]
  show some ((q.clauses.map Clause.bare).map _) = _
  rw [List.map_map, ← map_texts_clauses valid]
  refine congrArg some (List.map_congr_left fun c _ => ?_)
  exact congrArg (c.heading, ·) c.texts_bare

/-! ## Section 3: Parameters -/

/-- The parameters of each clause: those of its expressions on their own. -/
def paramLists (q : Select) : List (List Value) :=
  [q.fields.flatMap (·.tree.statement.params),
    q.filter.toList.flatMap (·.statement.params),
    q.grouping.flatMap (·.tree.statement.params),
    q.having.toList.flatMap (·.statement.params),
    q.ordering.flatMap (·.1.tree.statement.params)]

theorem values_lexemes (e : Expr) : Lexeme.values e.lexemes = e.statement.params := by
  rw [Expr.statement, Expr.write_eq_add, Statement.params_add]
  rfl

/-- The parameters of some clauses, which are those of their items. -/
theorem values_flatMap (cs : List (Clause Value)) :
    Lexeme.values (cs.flatMap Clause.lexemes) =
      cs.flatMap fun c => c.items.flatMap Lexeme.values := by
  induction cs with
  | nil => rfl
  | cons c cs ih =>
    have heading : Lexeme.values (c.heading.lexemes : List (Lexeme Value)) = [] := by
      cases c.heading <;> rfl
    rw [List.flatMap_cons, Lexeme.values_append, Clause.lexemes, Lexeme.values_append, heading,
      List.nil_append, Lexeme.values_listed, ih, List.flatMap_cons]

theorem values_ofPredicate (h : Heading) (e : Option Expression) :
    ((Clause.ofPredicate h e).flatMap fun c => c.items.flatMap Lexeme.values) =
      e.toList.flatMap (·.statement.params) := by
  cases e with
  | none => rfl
  | some e => simp [Clause.ofPredicate, values_lexemes, Expression.statement]

theorem values_ofList {α : Type} (h : Heading) (xs : List α) (lexemes : α → List (Lexeme Value)) :
    ((Clause.ofList h (xs.map lexemes)).flatMap fun c => c.items.flatMap Lexeme.values) =
      xs.flatMap fun x => Lexeme.values (lexemes x) := by
  cases xs with
  | nil => rfl
  | cons x xs => simp [Clause.ofList, List.flatMap_map]

theorem values_select (q : Select) : Lexeme.values q.lexemes = q.paramLists.flatten := by
  have whole : Lexeme.values q.lexemes = Lexeme.values (.blank :: q.lexemes) := rfl
  have order (o : Field × Bool) : Lexeme.values (orderLexemes o) = o.1.tree.statement.params := by
    rw [orderLexemes, Lexeme.values_append, values_lexemes]
    exact List.append_nil _
  have limits : ((limitClauses q.limit q.offset).flatMap fun c =>
      c.items.flatMap Lexeme.values) = [] := by
    cases q.limit <;> cases q.offset <;> rfl
  have lock : ((if q.forUpdate then [⟨.lock, []⟩] else [] : List (Clause Value)).flatMap fun c =>
      c.items.flatMap Lexeme.values) = [] := by
    cases q.forUpdate <;> rfl
  have source : Lexeme.values [(.identifier q.source.name : Lexeme Value)] = [] := rfl
  rw [whole, blank_cons_lexemes, values_flatMap, clauses, laterClauses, paramLists]
  simp only [List.flatMap_cons, List.flatMap_append, values_ofPredicate, values_ofList, limits,
    lock, order, values_lexemes, source, List.flatMap_map, List.flatMap_nil, List.append_nil,
    List.nil_append, List.flatten_cons, List.flatten_nil]

/-! ## Section 4: Shapes -/

/-- What a text tells of a statement, clause by clause. -/
structure Shape where
  fields : List String
  source : String
  filter : Option String
  grouping : List String
  having : Option String
  ordering : List (String × Bool)
  limit : Option UInt64
  offset : Option UInt64
  forUpdate : Bool
  deriving DecidableEq, Repr

/-- The shape of a statement. -/
def shape (q : Select) : Shape where
  fields := q.fields.map (·.tree.statement.sql)
  source := q.source.name
  filter := q.filter.map (·.statement.sql)
  grouping := q.grouping.map (·.tree.statement.sql)
  having := q.having.map (·.statement.sql)
  ordering := q.ordering.map fun o => (o.1.tree.statement.sql, o.2)
  limit := q.limit
  offset := q.offset
  forUpdate := q.forUpdate

/-- Each clause is found once. -/
theorem lookup_filterMap {α : Type} (f : Heading → Option α) (h : Heading) (hs : List Heading) :
    (hs.filterMap fun h => (f h).map (h, ·)).lookup h = if h ∈ hs then f h else none := by
  induction hs with
  | nil => rfl
  | cons g hs ih =>
    cases hg : f g with
    | none =>
      rw [List.filterMap_cons_none (by rw [hg]; rfl), ih]
      by_cases e : h = g
      · subst e
        simp [hg]
      · simp [e]
    | some a =>
      rw [List.filterMap_cons_some (by rw [hg]; rfl), List.lookup_cons, ih]
      by_cases e : h = g
      · subst e
        simp [hg]
      · simp [e, beq_eq_false_iff_ne.mpr e]

theorem texts?_eq_of_outline {q q' : Select} (h : q.outline = q'.outline) (c : Heading) :
    q.texts? c = q'.texts? c := by
  have member : c ∈ Heading.all := by cases c <;> decide
  have found (q : Select) : q.outline.lookup c = q.texts? c := by
    rw [outline, lookup_filterMap, if_pos member]
  rw [← found, ← found, h]

theorem quoted_inj {name name' : String}
    (h : Dialect.mysql.quoted name = Dialect.mysql.quoted name') : name = name' := by
  -- what is read back after the opening quote is the name
  have read (name : String) : Text.unquote '\x60' ((Dialect.mysql.quoted name).toList.tail) =
      some (name.toList, []) := by
    have ends : ([] : List Char).head? ≠ some '\x60' := by simp
    have := Text.unquote_doubled '\x60' name.toList ends
    simpa [Dialect.quoted, Dialect.mysql] using this
  have same : some (name.toList, ([] : List Char)) = some (name'.toList, []) := by
    rw [← read, ← read, h]
  exact String.toList_inj.mp (Prod.mk.inj (Option.some.inj same)).1

/-- The directions end in different letters, so a text tells which it has. -/
theorem direction_inj {s t : String} {a b : Bool} (h : s ++ direction a = t ++ direction b) :
    s = t ∧ a = b := by
  have chars : s.toList ++ (direction a).toList = t.toList ++ (direction b).toList := by
    rw [← String.toList_append, h, String.toList_append]
  cases a <;> cases b
  · exact ⟨String.toList_inj.mp (List.append_cancel_right chars), rfl⟩
  · have := congrArg List.reverse chars
    simp [direction] at this
  · have := congrArg List.reverse chars
    simp [direction] at this
  · exact ⟨String.toList_inj.mp (List.append_cancel_right chars), rfl⟩

theorem map_eq_of_list {α β : Type} {xs ys : List α} {f : α → β}
    (h : (if xs = [] then none else some (xs.map f)) = if ys = [] then none else some (ys.map f)) :
    xs.map f = ys.map f := by
  cases xs <;> cases ys <;> simp_all

theorem shape_eq_of_outline {q q' : Select} (h : q.outline = q'.outline) : q.shape = q'.shape := by
  have same := texts?_eq_of_outline h
  have single (s t : String) (e : [s] = [t]) : s = t := List.singleton_inj.mp e
  have predicate {e e' : Option Expression}
      (h : (e.map fun e => [e.statement.sql]) = e'.map fun e => [e.statement.sql]) :
      e.map (·.statement.sql) = e'.map (·.statement.sql) := by
    cases e <;> cases e' <;> simp_all
  have count {n n' : Option UInt64}
      (h : (n.map fun n => [Number.naturalText n.toNat]) =
        n'.map fun n => [Number.naturalText n.toNat]) : n = n' := by
    refine Option.map_injective (fun a b e => ?_) h
    exact UInt64.toNat_inj.mp (Number.naturalText_inj (single _ _ e))
  -- the text of an item to order by tells the expression and the direction
  have ordering : q.ordering.map (fun o => (o.1.tree.statement.sql, o.2)) =
      q'.ordering.map fun o => (o.1.tree.statement.sql, o.2) := by
    have joined := map_eq_of_list (same .ordering)
    have split : Function.Injective fun p : String × Bool => p.1 ++ direction p.2 := by
      intro p p' e
      obtain ⟨texts, directions⟩ := direction_inj e
      exact Prod.ext texts directions
    refine List.map_injective_iff.mpr split ?_
    simpa [Function.comp_def] using joined
  have lock : q.forUpdate = q'.forUpdate := by
    have := same .lock
    cases h : q.forUpdate <;> cases h' : q'.forUpdate <;> simp_all [texts?]
  have fields := Option.some.inj (same .fields)
  have source := quoted_inj (single _ _ (Option.some.inj (same .source)))
  have grouping := map_eq_of_list (same .grouping)
  simp only [shape, Shape.mk.injEq]
  exact ⟨fields, source, predicate (same .filter), grouping, predicate (same .having), ordering,
    count (same .limit), count (same .offset), lock⟩

/-! ## Section 5: Statements -/

theorem validate_of_build {q : Select} {s : Statement} (h : q.build = .ok s) :
    q.validate = .ok () := by
  rw [build, write_eq_map] at h
  cases hv : q.validate with
  | error r =>
    rw [hv] at h
    cases h
  | ok u => rfl

/-- **Clauses**: from the text of a valid statement a reader recovers its
    clauses and their items, the parameters are those of the clauses in
    turn, and statements with the same text have the same shape. -/
theorem clauses_of_sql :
    (∀ q : Select, q.validate = .ok () →
      (∀ name ∈ q.functions, Lexer.IsFunctionName name) →
      ∃ s, q.build = .ok s ∧ outline? s.sql = some q.outline ∧
        s.params = q.paramLists.flatten) ∧
    (∀ (q q' : Select) (s s' : Statement), q.build = .ok s → q'.build = .ok s' →
      (∀ name ∈ q.functions, Lexer.IsFunctionName name) →
      (∀ name ∈ q'.functions, Lexer.IsFunctionName name) →
      s.sql = s'.sql → q.shape = q'.shape) := by
  constructor
  · intro q valid names
    refine ⟨_, build_of_validate valid, outline?_sql valid names, ?_⟩
    rw [Statement.params_add, Statement.params_empty, List.nil_append]
    exact q.values_select
  · intro q q' s s' built built' names names' same
    have valid := validate_of_build built
    have valid' := validate_of_build built'
    have read := outline?_sql valid names
    have read' := outline?_sql valid' names'
    -- both outlines are read from one text
    obtain rfl := Except.ok.inj (built.symm.trans (build_of_validate valid))
    obtain rfl := Except.ok.inj (built'.symm.trans (build_of_validate valid'))
    rw [same, read'] at read
    exact shape_eq_of_outline (Option.some.inj read).symm

/-- A name that looks like clauses, and fields that differ in their kind. -/
theorem clauses_of_sql_kinds :
    (∃ s, (ofSlice ⟨⟨"t, FROM"⟩, [⟨.column "a", .integer, false⟩]⟩ none).build = .ok s ∧
      outline? s.sql = some [(.fields, ["\x60a\x60"]), (.source, ["\x60t, FROM\x60"])]) ∧
    (ofSlice ⟨⟨"t"⟩, [⟨.column "a", .integer, false⟩]⟩ none).shape =
      (ofSlice ⟨⟨"t"⟩, [⟨.column "a", .long, true⟩]⟩ none).shape := by
  have names (name : String) (h : name ∈ ([] : List String)) : Lexer.IsFunctionName name :=
    absurd h List.not_mem_nil
  constructor
  · obtain ⟨s, built, read, -⟩ := clauses_of_sql.1
      (ofSlice ⟨⟨"t, FROM"⟩, [⟨.column "a", .integer, false⟩]⟩ none) rfl names
    exact ⟨s, built, read.trans (by decide)⟩
  · exact clauses_of_sql.2 (ofSlice ⟨⟨"t"⟩, [⟨.column "a", .integer, false⟩]⟩ none)
      (ofSlice ⟨⟨"t"⟩, [⟨.column "a", .long, true⟩]⟩ none) _ _ rfl rfl names names rfl

end Select

end TypedQuery

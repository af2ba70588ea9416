import TypedQuery.Proofs.Expr.Grammar

/-! # Reading by the grammar

    A phrase is read by its strata: an operand, and then what follows, as
    long as this gives a phrase of the stratum that was asked for and what
    stands before it is tight enough for it. Because `LIKE`, `IN` and
    `BETWEEN` ask for more than they give, a reader has to know how tight the
    phrase is that it has got so far.

    * **`isRead_of_derives`**: each phrase is read as the term it stands for,
      up to where it ends.
    * **`Derives.unique`**: a phrase stands for one term.
-/

namespace TypedQuery

open Stratum

/-! ## Section 1: What follows a phrase -/

namespace Sequel

/-- The stratum of a phrase with a sequel. -/
def stratum : Sequel → Nat
  | .operator op => op.stratum
  | .isNull _ => primary
  | .inList _ | .between _ => predicate

/-- What a sequel asks of the phrase before it. -/
def leftStratum : Sequel → Nat
  | .operator op => op.leftStratum
  | .isNull _ => primary
  | .inList _ | .between _ => bit

theorem stratum_le_leftStratum (f : Sequel) : f.stratum ≤ f.leftStratum := by
  cases f with
  | operator op => cases op <;> decide
  | isNull _ => exact le_rfl
  | inList _ | between _ => exact Nat.le_succ _

theorem stratum_lt_simple (f : Sequel) : f.stratum < simple := by
  cases f with
  | operator op => cases op <;> decide
  | _ =>
    simp only [stratum]
    decide

/-- `NOT` stands before a phrase and never after it. -/
theorem stratum_ne_negation (f : Sequel) : f.stratum ≠ negation := by
  cases f with
  | operator op => cases op <;> decide
  | _ =>
    simp only [stratum]
    decide

/-- After a predicate there is no other. -/
theorem stratum_lt_predicate {f : Sequel} (h : f.leftStratum ≤ predicate) :
    f.stratum < predicate := by
  cases f with
  | operator op => cases op <;> revert h <;> decide
  | isNull _ => exact Nat.lt_succ_self _
  | inList _ | between _ =>
    have narrower : bit ≤ predicate := h
    exact absurd narrower (by decide)

end Sequel

theorem BinaryOp.stratum_lt_rightStratum (op : BinaryOp) : op.stratum < op.rightStratum := by
  cases op <;> decide

namespace Grammar

open Term (Reading distinct? length_distinct?)

/-! ## Section 2: Reading -/

mutual

/-- Reads a phrase of at least the stratum `s`. -/
def phrase (inCall : Bool) (s : Nat) (ls : List (Lexeme Value)) : Reading Term :=
  match operand inCall s ls with
  | none => none
  | some ((left, s'), rest) =>
    if _h : rest.length ≤ ls.length then extend inCall s s' left rest else none
termination_by (ls.length, 1)
decreasing_by
  · exact Prod.Lex.right _ Nat.one_pos
  · exact Prod.Lex.right' _ _h Nat.one_pos

/-- Reads the first operand of a phrase, with its stratum. -/
def operand (inCall : Bool) (s : Nat) : List (Lexeme Value) → Reading (Term × Nat)
  | .keyword .NOT :: ls =>
    if s ≤ negation then
      (phrase inCall negation ls).map fun (t, rest) => ((.unary .not t, negation), rest)
    else none
  | .symbol .minus :: ls =>
    (phrase inCall simple ls).map fun (t, rest) => ((.unary .neg t, simple), rest)
  | .symbol .lparen :: ls =>
    match phrase inCall disjunction ls with
    | some (t, .symbol .rparen :: rest) => some ((t, simple), rest)
    | _ => none
  | .function name :: .symbol .lparen :: ls =>
    have _h := length_distinct? ls
    (arguments (distinct? ls).2).map fun (ts, rest) =>
      ((.call name ts (distinct? ls).1, simple), rest)
  | l :: ls => (atom? inCall l).map fun t => ((t, simple), ls)
  | [] => none
termination_by ls => (ls.length, 0)

/-- Reads on after a phrase of stratum `s'`. -/
def extend (inCall : Bool) (s s' : Nat) (left : Term) (ls : List (Lexeme Value)) : Reading Term :=
  match _found : Sequel.read? ls with
  | none => some (left, ls)
  | some (f, rest) =>
    if s ≤ f.stratum ∧ f.leftStratum ≤ s' then resume inCall s left f rest else some (left, ls)
termination_by (ls.length, 0)
decreasing_by exact Prod.Lex.left _ _ (Sequel.length_read? _found)

/-- Reads on after a phrase and the beginning of its sequel. -/
def resume (inCall : Bool) (s : Nat) (left : Term) : Sequel → List (Lexeme Value) → Reading Term
  | .operator op, ls =>
    match phrase inCall op.rightStratum ls with
    | none => none
    | some (right, rest) =>
      if _h : rest.length ≤ ls.length then
        extend inCall s op.stratum (.binary left op right) rest
      else none
  | .isNull negated, ls => extend inCall s primary (.isNull left negated) ls
  | .inList negated, ls =>
    match items inCall ls with
    | none => none
    | some (ts, rest) =>
      if _h : rest.length ≤ ls.length then
        extend inCall s predicate (.inList left ts negated) rest
      else none
  | .between negated, ls =>
    match phrase inCall bit ls with
    | some (low, .keyword .AND :: middle) =>
      if _h : middle.length ≤ ls.length then
        match phrase inCall predicate middle with
        | none => none
        | some (high, rest) =>
          if _h : rest.length ≤ ls.length then
            extend inCall s predicate (.between left low high negated) rest
          else none
      else none
    | _ => none
termination_by _ ls => (ls.length, 3)
decreasing_by
  all_goals exact Prod.Lex.right' _ (by omega) (by decide)

/-- Reads phrases with commas between, up to the closing parenthesis. -/
def items (inCall : Bool) (ls : List (Lexeme Value)) : Reading (List Term) :=
  match phrase inCall disjunction ls with
  | some (t, .symbol .rparen :: rest) => some ([t], rest)
  | some (t, .symbol .comma :: rest) =>
    if _h : rest.length < ls.length then (items inCall rest).map fun (ts, rest) => (t :: ts, rest)
    else none
  | _ => none
termination_by (ls.length, 2)

/-- Reads the arguments of a call, of which there may be none. -/
def arguments : List (Lexeme Value) → Reading (List Term)
  | .symbol .rparen :: ls => some ([], ls)
  | ls => items true ls
termination_by ls => (ls.length, 3)

end

variable {inCall : Bool} {s s' n : Nat} {left right t : Term} {ls ms rest : List (Lexeme Value)}

theorem phrase_of_operand (h : operand inCall s ls = some ((left, s'), rest))
    (shorter : rest.length ≤ ls.length) : phrase inCall s ls = extend inCall s s' left rest := by
  rw [phrase, h]
  exact dif_pos shorter

theorem operand_atom {l : Lexeme Value} (h : atom? inCall l = some t) :
    operand inCall s (l :: ls) = some ((t, simple), ls) := by
  -- a lexeme that is a phrase begins no other
  rw [operand, h]
  · rfl
  all_goals
    intros
    subst_vars
    cases h

theorem operand_function {name : String} {distinct : Bool} {ts : List Term}
    (hd : distinct? ls = (distinct, ms)) (h : arguments ms = some (ts, rest)) :
    operand inCall s (.function name :: .symbol .lparen :: ls) =
      some ((.call name ts distinct, simple), rest) := by
  rw [operand, hd, h]
  rfl

/-- A phrase ends where what follows gives a looser one. -/
theorem extend_stop (h : ∀ f rest, Sequel.read? ls = some (f, rest) → f.stratum < s) :
    extend inCall s s' left ls = some (left, ls) := by
  rw [extend]
  split
  · rfl
  · next f rest found =>
    refine if_neg fun ⟨hs, _⟩ => ?_
    have looser := h f rest found
    omega

theorem extend_of_read? {f : Sequel} (found : Sequel.read? ls = some (f, rest))
    (hs : s ≤ f.stratum) (hs' : f.leftStratum ≤ s') :
    extend inCall s s' left ls = resume inCall s left f rest := by
  rw [extend]
  split
  · next other =>
    rw [found] at other
    cases other
  · next f' rest' other =>
    rw [found] at other
    cases other
    exact if_pos ⟨hs, hs'⟩

/-! ## Section 3: Where phrases end -/

/-- What follows asks for no more than a phrase of stratum `s`. -/
def Follows (s : Nat) (rest : List (Lexeme Value)) : Prop :=
  ∀ f rest', Sequel.read? rest = some (f, rest') → f.leftStratum ≤ s

theorem Follows.mono (h : Follows s rest) (hs : s ≤ s') : Follows s' rest := by
  intro f rest' found
  exact (h f rest' found).trans hs

theorem follows_of_none (h : Sequel.read? rest = none) (s : Nat) : Follows s rest := by
  intro f rest' found
  rw [h] at found
  cases found

theorem follows_of_some {f : Sequel} (h : Sequel.read? rest = some (f, ms))
    (hs : f.leftStratum ≤ s) : Follows s rest := by
  intro f' rest' found
  rw [h] at found
  cases found
  exact hs

theorem extend_of_none (h : Sequel.read? rest = none) :
    extend inCall n s t rest = some (t, rest) := by
  apply extend_stop
  intro f rest' found
  rw [h] at found
  cases found

/-- After a simple phrase nothing gives another. -/
theorem extend_simple : extend inCall simple s t rest = some (t, rest) := by
  apply extend_stop
  intro f _ _
  exact f.stratum_lt_simple

/-- The phrase after an operator ends where something follows the whole. -/
theorem Follows.extend_right {op : BinaryOp} (h : Follows op.stratum rest) :
    extend inCall op.rightStratum s t rest = some (t, rest) := by
  apply extend_stop
  intro f rest' found
  have asked := h f rest' found
  have less := f.stratum_le_leftStratum
  have step := op.stratum_lt_rightStratum
  omega

theorem Follows.extend_negation (h : Follows negation rest) :
    extend inCall negation s t rest = some (t, rest) := by
  apply extend_stop
  intro f rest' found
  have asked := h f rest' found
  have less := f.stratum_le_leftStratum
  have other := f.stratum_ne_negation
  omega

theorem Follows.extend_predicate (h : Follows predicate rest) :
    extend inCall predicate s t rest = some (t, rest) := by
  apply extend_stop
  intro f rest' found
  exact Sequel.stratum_lt_predicate (h f rest' found)

/-! ## Section 4: Phrases are read -/

/-- The phrase `ls` of stratum `s` is read as the term `t`. It may be tighter
    than it has to be, and then it may be read by that. -/
def IsRead (inCall : Bool) (s : Nat) (ls : List (Lexeme Value)) (t : Term) : Prop :=
  ∃ s', s ≤ s' ∧ ∀ n ≤ s', ∀ rest, Follows s' rest →
    phrase inCall n (ls ++ rest) = extend inCall n s' t rest

namespace IsRead

theorem of_operand (hs : s ≤ s') (h : ∀ n ≤ s', ∀ rest, Follows s' rest →
    operand inCall n (ls ++ rest) = some ((t, s'), rest)) : IsRead inCall s ls t := by
  refine ⟨s', hs, ?_⟩
  intro n hn rest follows
  refine phrase_of_operand (h n hn rest follows) ?_
  rw [List.length_append]
  omega

/-- A phrase is read up to what ends it. -/
theorem upTo (h : IsRead inCall s ls t) (hn : n ≤ s) (follows : Follows s rest)
    (stop : ∀ s', extend inCall n s' t rest = some (t, rest)) :
    phrase inCall n (ls ++ rest) = some (t, rest) := by
  obtain ⟨s', hs, h⟩ := h
  rw [h n (hn.trans hs) rest (follows.mono hs), stop]

/-- A phrase is read up to a lexeme that is no sequel. -/
theorem upTo_none (h : IsRead inCall s ls t) (hn : n ≤ s) (rest : List (Lexeme Value))
    (none : Sequel.read? rest = none) :
    phrase inCall n (ls ++ rest) = some (t, rest) :=
  h.upTo hn (follows_of_none none s) fun _ => extend_of_none none

/-- A phrase is read on with its sequel. -/
theorem before {f : Sequel} (h : IsRead inCall f.leftStratum ls t) (hn : n ≤ f.stratum)
    (found : Sequel.read? rest = some (f, ms)) :
    phrase inCall n (ls ++ rest) = resume inCall n t f ms := by
  obtain ⟨s', hs, h⟩ := h
  have loose : n ≤ s' := (hn.trans f.stratum_le_leftStratum).trans hs
  rw [h n loose rest (follows_of_some found hs), extend_of_read? found hn hs]

end IsRead

/-- Phrases with commas between are read up to the closing parenthesis. -/
theorem items_joined {phrases : List (List (Lexeme Value) × Term)} (nonempty : phrases ≠ [])
    (h : ∀ i ∈ phrases, IsRead inCall disjunction i.1 i.2) (rest : List (Lexeme Value)) :
    items inCall (joined (phrases.map Prod.fst) ++ .symbol .rparen :: rest) =
      some (phrases.map Prod.snd, rest) := by
  induction phrases with
  | nil => exact absurd rfl nonempty
  | cons i phrases ih =>
    obtain ⟨first, others⟩ := List.forall_mem_cons.mp h
    cases phrases with
    | nil =>
      have read := first.upTo_none le_rfl (.symbol .rparen :: rest) rfl
      show items inCall (joined [i.1] ++ _) = _
      rw [joined_singleton, items, read]
      rfl
    | cons i' phrases =>
      have tail := ih (List.cons_ne_nil _ _) others
      have read := first.upTo_none le_rfl (.symbol .comma ::
        (joined ((i' :: phrases).map Prod.fst) ++ .symbol .rparen :: rest)) rfl
      rw [List.map_cons, List.map_cons, joined_cons_cons, ← List.map_cons, List.append_assoc,
        List.cons_append, items, read]
      have shorter : (joined ((i' :: phrases).map Prod.fst) ++ .symbol .rparen :: rest).length <
          (i.1 ++ .symbol .comma ::
            (joined ((i' :: phrases).map Prod.fst) ++ .symbol .rparen :: rest)).length := by
        simp only [List.length_append, List.length_cons]
        omega
      simp only [shorter, dif_pos, tail]
      rfl

/-- No phrase begins with `)` or `DISTINCT`. -/
theorem head_of_items {ts : List Term} (h : items inCall ls = some (ts, rest)) :
    (∀ ls', ls ≠ .symbol .rparen :: ls') ∧ ∀ ls', ls ≠ .keyword .DISTINCT :: ls' := by
  constructor <;>
    · rintro ls' rfl
      -- an item is a phrase, which starts with an operand
      rw [items, phrase, operand] at h
      · cases h
      all_goals simp

/-- The arguments of a call are read, with `DISTINCT` before them or not. -/
theorem operand_call (inCall : Bool) (n : Nat) {phrases : List (List (Lexeme Value) × Term)}
    (h : ∀ i ∈ phrases, IsRead true disjunction i.1 i.2) (name : String) (distinct : Bool)
    (rest : List (Lexeme Value)) :
    operand inCall n (.function name :: .symbol .lparen ::
        ((if distinct then [.keyword .DISTINCT] else []) ++
          (joined (phrases.map Prod.fst) ++ .symbol .rparen :: rest))) =
      some ((.call name (phrases.map Prod.snd) distinct, simple), rest) := by
  by_cases empty : phrases = []
  · subst empty
    have marked : distinct? ((if distinct then [.keyword .DISTINCT] else []) ++
        .symbol .rparen :: rest) = (distinct, .symbol .rparen :: rest) := by
      cases distinct <;> rfl
    refine operand_function marked ?_
    rw [arguments]
    rfl
  · have list := items_joined empty h rest
    obtain ⟨noParen, noDistinct⟩ := head_of_items list
    have marked : distinct? ((if distinct then [.keyword .DISTINCT] else []) ++
        (joined (phrases.map Prod.fst) ++ .symbol .rparen :: rest)) =
          (distinct, joined (phrases.map Prod.fst) ++ .symbol .rparen :: rest) := by
      cases distinct with
      | false =>
        show distinct? (joined (phrases.map Prod.fst) ++ .symbol .rparen :: rest) = _
        rw [distinct?]
        exact noDistinct
      | true => rfl
    refine operand_function marked ?_
    rw [arguments]
    · exact list
    · exact noParen

/-- **Completeness of reading**: each phrase is read as the term it stands
    for. The induction is on how it is derived; it holds of whatever may
    follow, since a phrase ends where its sequel begins. -/
theorem isRead_of_derives (h : Derives inCall s ls t) : IsRead inCall s ls t := by
  induction h with
  | @operator inCall s ls ms left right op hs _ _ ih ih' =>
    refine ⟨op.stratum, hs, ?_⟩
    intro n hn rest follows
    have looser : op.stratum ≤ op.rightStratum := op.stratum_lt_rightStratum.le
    have second := ih'.upTo le_rfl (follows.mono looser) fun _ => follows.extend_right
    have shorter : rest.length ≤ (ms ++ rest).length := by
      rw [List.length_append]
      omega
    rw [List.append_assoc, List.cons_append,
      IsRead.before (f := .operator op) ih hn (Sequel.read?_operator op _), resume, second]
    exact dif_pos shorter
  | not hs _ ih =>
    apply IsRead.of_operand hs
    intro n hn rest follows
    have read := ih.upTo le_rfl follows fun _ => follows.extend_negation
    rw [List.cons_append, operand, if_pos hn, read]
    rfl
  | isNull negated hs _ ih =>
    refine ⟨primary, hs, ?_⟩
    intro n hn rest _
    rw [List.append_assoc, List.cons_append,
      IsRead.before (f := .isNull negated) ih hn (Sequel.read?_isNull negated rest), resume]
  | @inList inCall s ls t phrases negated hs _ nonempty _ ih ih' =>
    refine ⟨predicate, hs, ?_⟩
    intro n hn rest _
    have list := items_joined nonempty ih' rest
    have shorter : rest.length ≤
        (joined (phrases.map Prod.fst) ++ .symbol .rparen :: rest).length := by
      simp only [List.length_append, List.length_cons]
      omega
    have shown : ls ++ ((if negated then [.keyword .NOT] else []) ++ .keyword .IN ::
        .symbol .lparen :: (joined (phrases.map Prod.fst) ++ [.symbol .rparen])) ++ rest =
          ls ++ ((if negated then [.keyword .NOT] else []) ++ .keyword .IN ::
            .symbol .lparen :: (joined (phrases.map Prod.fst) ++ .symbol .rparen :: rest)) := by
      simp
    rw [shown, IsRead.before (f := .inList negated) ih hn (Sequel.read?_inList negated _), resume,
      list]
    exact dif_pos shorter
  | @between inCall s ls ls' ls'' t low high negated hs _ _ _ ih ih' ih'' =>
    refine ⟨predicate, hs, ?_⟩
    intro n hn rest follows
    have upper := ih''.upTo le_rfl follows fun _ => follows.extend_predicate
    -- `AND` is looser than the lower bound, so it ends that
    have joint : Sequel.read? (.keyword .AND :: (ls'' ++ rest)) = some (.operator .and, _) :=
      Sequel.read?_operator .and _
    have lower := ih'.upTo le_rfl (follows_of_some joint (by decide)) fun s' => by
      apply extend_stop
      intro f rest' found
      rw [joint] at found
      cases found
      decide
    have shown : ls ++ ((if negated then [.keyword .NOT] else []) ++ .keyword .BETWEEN ::
        (ls' ++ .keyword .AND :: ls'')) ++ rest =
          ls ++ ((if negated then [.keyword .NOT] else []) ++ .keyword .BETWEEN ::
            (ls' ++ .keyword .AND :: (ls'' ++ rest))) := by
      simp
    have shorter : (ls'' ++ rest).length ≤ (ls' ++ .keyword .AND :: (ls'' ++ rest)).length := by
      simp only [List.length_append, List.length_cons]
      omega
    have shorter' : rest.length ≤ (ls' ++ .keyword .AND :: (ls'' ++ rest)).length := by
      simp only [List.length_append, List.length_cons]
      omega
    rw [shown, IsRead.before (f := .between negated) ih hn (Sequel.read?_between negated _), resume,
      lower]
    simp only [shorter, dif_pos, upper, shorter']
  | minus hs _ ih =>
    apply IsRead.of_operand hs
    intro n _ rest follows
    have read := ih.upTo le_rfl follows fun _ => extend_simple
    rw [List.cons_append, operand, read]
    rfl
  | parens hs _ ih =>
    apply IsRead.of_operand hs
    intro n _ rest _
    have read := ih.upTo_none le_rfl (.symbol .rparen :: rest) rfl
    rw [List.cons_append, List.append_assoc, List.singleton_append, operand, read]
  | atom hs h =>
    apply IsRead.of_operand hs
    intro n _ rest _
    exact operand_atom h
  | @call inCall s phrases name distinct hs _ ih =>
    apply IsRead.of_operand hs
    intro n _ rest _
    have read := operand_call inCall n ih name distinct rest
    simpa using read

/-- **Unambiguity**: a phrase stands for one term. -/
theorem Derives.unique {t' : Term} (h : Derives inCall disjunction ls t)
    (h' : Derives inCall disjunction ls t') : t = t' := by
  have read := (isRead_of_derives h).upTo_none le_rfl [] rfl
  have read' := (isRead_of_derives h').upTo_none le_rfl [] rfl
  rw [read] at read'
  cases read'
  rfl

end Grammar

end TypedQuery

import TypedQuery.Proofs.Expr.Grammar

/-! # What phrases are made of

    A term tells its phrases but for the parentheses, and parentheses are
    paired in a phrase. Both together tell where the parts of a phrase meet:
    two phrases for the same term that begin the same lexemes are the same.

    * **`Nested.append_cons_ne_parens`**: no part of a phrase has a
      parenthesis without the other.
    * **`Derives.skeleton_eq`**: the lexemes of a phrase without parentheses.
    * **`append_cons_inj`**: where two parts of a phrase meet.
-/

namespace TypedQuery

/-! ## Section 1: Parentheses -/

namespace Lexeme

variable {ν : Type} {commas : Bool} {l l' : Lexeme ν} {ls ms rest rest' : List (Lexeme ν)}

/-- How many parentheses are open after a lexeme, more than before it. -/
def delta : Lexeme ν → Int
  | .symbol .lparen => 1
  | .symbol .rparen => -1
  | _ => 0

/-- How many parentheses are open after some lexemes, more than before
    them. -/
def net : List (Lexeme ν) → Int
  | [] => 0
  | l :: ls => l.delta + net ls

@[simp] theorem net_nil : net ([] : List (Lexeme ν)) = 0 := rfl

@[simp] theorem net_cons (l : Lexeme ν) (ls : List (Lexeme ν)) :
    net (l :: ls) = l.delta + net ls := rfl

@[simp] theorem net_append (ls ms : List (Lexeme ν)) : net (ls ++ ms) = net ls + net ms := by
  induction ls with
  | nil => simp
  | cons l ls ih =>
    rw [List.cons_append, net_cons, net_cons, ih]
    omega

@[simp] theorem delta_lparen : delta (.symbol .lparen : Lexeme ν) = 1 := rfl

@[simp] theorem delta_rparen : delta (.symbol .rparen : Lexeme ν) = -1 := rfl

@[simp] theorem delta_comma : delta (.symbol .comma : Lexeme ν) = 0 := rfl

theorem delta_of_isFlat (h : l.isFlat) : l.delta = 0 := by
  cases l with
  | symbol s => cases s <;> first | rfl | cases h
  | _ => rfl

/-- As many parentheses are closed as opened. -/
theorem Nested.net_eq (h : Nested commas ls) : net ls = 0 := by
  induction h with
  | nil => rfl
  | single h => simp [delta_of_isFlat h]
  | comma => rfl
  | append _ _ ih ih' => rw [net_append, ih, ih', Int.add_zero]
  | parens _ ih => simp [ih]

/-- Nowhere more parentheses have been closed than opened. -/
theorem Nested.net_nonneg (h : Nested commas ls) : ∀ ms, ms <+: ls → 0 ≤ net ms := by
  induction h with
  | nil =>
    intro ms before
    rw [List.prefix_nil.mp before]
    exact Int.le_refl _
  | single h =>
    intro ms before
    rcases List.prefix_cons_iff.mp before with rfl | ⟨tail, rfl, after⟩
    · exact Int.le_refl _
    · simp [List.prefix_nil.mp after, delta_of_isFlat h]
  | comma =>
    intro ms before
    rcases List.prefix_cons_iff.mp before with rfl | ⟨tail, rfl, after⟩
    · exact Int.le_refl _
    · simp [List.prefix_nil.mp after]
  | @append _ ls ms' h _ ih ih' =>
    intro ms before
    rcases List.prefix_or_prefix_of_prefix before (List.prefix_append ls ms') with inside | beyond
    · exact ih ms inside
    · obtain ⟨tail, rfl⟩ := beyond
      have after := ih' tail ((List.prefix_append_right_inj ls).mp before)
      rw [net_append, h.net_eq]
      omega
  | @parens _ ls h ih =>
    intro ms before
    rcases List.prefix_cons_iff.mp before with rfl | ⟨tail, rfl, after⟩
    · exact Int.le_refl _
    · rcases List.prefix_concat_iff.mp after with rfl | inside
      · simp [h.net_eq]
      · have opened := ih tail inside
        rw [net_cons, delta_lparen]
        omega

/-- What is between parentheses does not begin with less that is nested. -/
theorem Nested.append_cons_ne_parens (h : Nested commas ls) (nonempty : ls ≠ [])
    (h' : Nested true ms) :
    ls ++ l :: rest ≠ .symbol .lparen :: (ms ++ [.symbol .rparen]) := by
  intro split
  cases ls with
  | nil => exact nonempty rfl
  | cons first ls =>
    injection split with begins split
    subst begins
    have before : ls <+: ms ++ [.symbol .rparen] := ⟨l :: rest, split⟩
    have balanced := h.net_eq
    rcases List.prefix_concat_iff.mp before with rfl | inside
    · exact absurd (congrArg List.length split) (by simp)
    · have opened := h'.net_nonneg ls inside
      rw [net_cons, delta_lparen] at balanced
      omega

/-! ## Section 2: Where parts meet -/

/-- Whether a lexeme is no parenthesis. -/
def isPlain : Lexeme ν → Bool
  | .symbol .lparen | .symbol .rparen => false
  | _ => true

/-- The lexemes that are no parentheses. -/
def skeleton (ls : List (Lexeme ν)) : List (Lexeme ν) := ls.filter isPlain

@[simp] theorem skeleton_nil : skeleton ([] : List (Lexeme ν)) = [] := rfl

@[simp] theorem skeleton_append (ls ms : List (Lexeme ν)) :
    skeleton (ls ++ ms) = skeleton ls ++ skeleton ms :=
  List.filter_append ..

@[simp] theorem skeleton_lparen (ls : List (Lexeme ν)) :
    skeleton (.symbol .lparen :: ls) = skeleton ls := rfl

@[simp] theorem skeleton_rparen (ls : List (Lexeme ν)) :
    skeleton (.symbol .rparen :: ls) = skeleton ls := rfl

theorem skeleton_cons (h : l.isPlain) (ls : List (Lexeme ν)) :
    skeleton (l :: ls) = l :: skeleton ls :=
  List.filter_cons_of_pos h

@[simp] theorem skeleton_comma (ls : List (Lexeme ν)) :
    skeleton (.symbol .comma :: ls) = .symbol .comma :: skeleton ls := rfl

@[simp] theorem skeleton_minus (ls : List (Lexeme ν)) :
    skeleton (.symbol .minus :: ls) = .symbol .minus :: skeleton ls := rfl

@[simp] theorem skeleton_keyword (k : Keyword) (ls : List (Lexeme ν)) :
    skeleton (.keyword k :: ls) = .keyword k :: skeleton ls := rfl

@[simp] theorem skeleton_function (name : String) (ls : List (Lexeme ν)) :
    skeleton (.function name :: ls) = .function name :: skeleton ls := rfl

@[simp] theorem skeleton_operator (op : BinaryOp) (ls : List (Lexeme ν)) :
    skeleton (op.lexeme :: ls) = op.lexeme :: skeleton ls := by
  cases op <;> rfl

/-- Words may be left out. -/
@[simp] theorem skeleton_ite (given : Bool) (ls ms : List (Lexeme ν)) :
    skeleton (if given then ls else ms) = if given then skeleton ls else skeleton ms := by
  cases given <;> rfl

@[simp] theorem skeleton_grouped (wrap : Bool) (ls : List (Lexeme ν)) :
    skeleton (grouped wrap ls) = skeleton ls := by
  cases wrap with
  | false => rfl
  | true => simp [grouped]

theorem isPlain_operator (op : BinaryOp) : (op.lexeme : Lexeme ν).isPlain := by
  cases op <;> rfl

/-- Where the lexemes before a plain one are told but for parentheses, it is
    told where it stands. -/
theorem append_cons_inj (h : ls ++ l :: rest = ms ++ l' :: rest') (hl : l.isPlain)
    (hl' : l'.isPlain) (hs : skeleton ls = skeleton ms) : ls = ms ∧ l = l' ∧ rest = rest' := by
  -- one of the parts goes on after the other, and a plain lexeme would count
  rcases List.append_eq_append_iff.mp h with ⟨tail, hms, after⟩ | ⟨tail, hls, after⟩
  · cases tail with
    | nil =>
      obtain ⟨rfl, rfl⟩ := List.cons.inj after
      exact ⟨by simpa using hms.symm, rfl, rfl⟩
    | cons first tail =>
      obtain ⟨rfl, -⟩ := List.cons.inj after
      rw [hms, skeleton_append, skeleton_cons hl] at hs
      exact absurd (congrArg List.length hs) (by simp)
  · cases tail with
    | nil =>
      obtain ⟨rfl, rfl⟩ := List.cons.inj after
      exact ⟨by simpa using hls, rfl, rfl⟩
    | cons first tail =>
      obtain ⟨rfl, -⟩ := List.cons.inj after
      rw [hls, skeleton_append, skeleton_cons hl'] at hs
      exact absurd (congrArg List.length hs) (by simp)

end Lexeme

open Lexeme (skeleton skeleton_cons Nested)
open Grammar (joined joined_cons_cons)

/-- Where the phrases between commas are told but for parentheses, it is
    told where the commas stand. -/
theorem joined_inj {xs ys : List (List (Lexeme Value))} (h : joined xs = joined ys)
    (hs : xs.map skeleton = ys.map skeleton) : xs = ys := by
  induction xs generalizing ys with
  | nil =>
    cases ys with
    | nil => rfl
    | cons y ys => cases hs
  | cons x xs ih =>
    cases ys with
    | nil => cases hs
    | cons y ys =>
      obtain ⟨first, others⟩ := List.cons.inj hs
      cases xs with
      | nil =>
        cases ys with
        | nil => simpa using h
        | cons y' ys => cases others
      | cons x' xs =>
        cases ys with
        | nil => cases others
        | cons y' ys =>
          rw [joined_cons_cons, joined_cons_cons] at h
          obtain ⟨rfl, -, rest⟩ := Lexeme.append_cons_inj h rfl rfl first
          rw [ih rest others]

theorem skeleton_joined (phrases : List (List (Lexeme Value))) :
    skeleton (joined phrases) = joined (phrases.map skeleton) := by
  induction phrases with
  | nil => rfl
  | cons ls phrases ih =>
    cases phrases with
    | nil => simp
    | cons ms phrases =>
      rw [joined_cons_cons, Lexeme.skeleton_append, Lexeme.skeleton_comma, ih]
      simp only [List.map_cons, joined_cons_cons]

theorem nested_joined {phrases : List (List (Lexeme Value))}
    (h : ∀ ls ∈ phrases, Nested true ls) : Nested true (joined phrases) := by
  induction phrases with
  | nil => exact .nil
  | cons ls phrases ih =>
    obtain ⟨first, others⟩ := List.forall_mem_cons.mp h
    cases phrases with
    | nil => rwa [Grammar.joined_singleton]
    | cons ms phrases =>
      rw [joined_cons_cons]
      exact first.append (Nested.comma.append (ih others))

/-! ## Section 3: The skeleton of a term -/

namespace Term

/-- Whether a term has a single lexeme. -/
def isAtom : Term → Bool
  | .column _ | .null | .truth _ | .numeral _ | .bound _ | .wildcard => true
  | _ => false

mutual

/-- The lexemes of the phrases for a term, without parentheses. -/
def skeleton : Term → List (Lexeme Value)
  | .column name => [.identifier name]
  | .null => [.keyword .NULL]
  | .truth b => [.keyword (if b then .TRUE else .FALSE)]
  | .numeral digits => [.numeral digits]
  | .bound v => [.place v]
  | .wildcard => [.symbol .star]
  | .binary left op right => left.skeleton ++ op.lexeme :: right.skeleton
  | .unary .not t => .keyword .NOT :: t.skeleton
  | .unary .neg t => .symbol .minus :: t.skeleton
  | .isNull t negated =>
    t.skeleton ++ .keyword .IS ::
      (if negated then [.keyword .NOT, .keyword .NULL] else [.keyword .NULL])
  | .inList t ts negated =>
    t.skeleton ++ ((if negated then [.keyword .NOT] else []) ++ .keyword .IN ::
      joined (skeletons ts))
  | .between t low high negated =>
    t.skeleton ++ ((if negated then [.keyword .NOT] else []) ++ .keyword .BETWEEN ::
      (low.skeleton ++ .keyword .AND :: high.skeleton))
  | .call name ts distinct =>
    .function name :: ((if distinct then [.keyword .DISTINCT] else []) ++ joined (skeletons ts))

/-- The lexemes of the phrases for some terms. -/
def skeletons : List Term → List (List (Lexeme Value))
  | [] => []
  | t :: ts => t.skeleton :: skeletons ts

end

theorem skeleton_ne_nil (t : Term) : t.skeleton ≠ [] := by
  cases t with
  | unary op t => cases op <;> simp [skeleton]
  | _ => simp [skeleton]

theorem skeletons_eq_map (ts : List Term) : skeletons ts = ts.map skeleton := by
  induction ts with
  | nil => rfl
  | cons t ts ih => rw [skeletons, ih, List.map_cons]

end Term

namespace Grammar

variable {inCall : Bool} {s : Nat} {l : Lexeme Value} {ls : List (Lexeme Value)} {t : Term}

theorem of_atom? (h : atom? inCall l = some t) :
    t.isAtom ∧ l.isFlat ∧ skeleton [l] = t.skeleton := by
  unfold atom? at h
  split at h <;> cases h <;> exact ⟨rfl, rfl, rfl⟩

theorem skeleton_phrases {phrases : List (List (Lexeme Value) × Term)}
    (h : ∀ i ∈ phrases, skeleton i.1 = i.2.skeleton) :
    skeleton (joined (phrases.map Prod.fst)) = joined (Term.skeletons (phrases.map Prod.snd)) := by
  rw [skeleton_joined, Term.skeletons_eq_map, List.map_map, List.map_map]
  exact congrArg joined (List.map_congr_left h)

/-- But for its parentheses, a phrase is told by its term. -/
theorem Derives.skeleton_eq (h : Derives inCall s ls t) : skeleton ls = t.skeleton := by
  induction h with
  | operator op _ _ _ ih ih' => simp [Term.skeleton, ih, ih']
  | not _ _ ih => simp [Term.skeleton, ih]
  | isNull negated _ _ ih => simp [Term.skeleton, ih]
  | inList negated _ _ _ _ ih ih' => simp [Term.skeleton, ih, skeleton_phrases ih']
  | between negated _ _ _ _ ih ih' ih'' => simp [Term.skeleton, ih, ih', ih'']
  | minus _ _ ih => simp [Term.skeleton, ih]
  | parens _ _ ih => simpa using ih
  | atom _ h => exact (of_atom? h).2.2
  | call name distinct _ _ ih => simp [Term.skeleton, skeleton_phrases ih]

theorem nested_optional (given : Bool) (k : Keyword) {commas : Bool}
    (h : Nested commas ls) :
    Nested commas ((if given then [.keyword k] else []) ++ ls) := by
  cases given with
  | false => exact h
  | true => exact .cons rfl h

/-- The parentheses of a phrase are paired, with all commas between them. -/
theorem Derives.nested (h : Derives inCall s ls t) : Nested false ls := by
  induction h with
  | operator op _ _ _ ih ih' => exact ih.append (.cons (Lexeme.isFlat_operator op) ih')
  | not _ _ ih => exact .cons rfl ih
  | isNull negated _ _ ih =>
    cases negated with
    | false => exact ih.append (.cons rfl (.single rfl))
    | true => exact ih.append (.cons rfl (.cons rfl (.single rfl)))
  | inList negated _ _ _ _ ih ih' =>
    have list := nested_joined (List.forall_mem_map.mpr fun i hi => (ih' i hi).mono)
    exact ih.append (nested_optional negated .NOT (.cons rfl list.parens))
  | between negated _ _ _ _ ih ih' ih'' =>
    exact ih.append (nested_optional negated .NOT (.cons rfl (ih'.append (.cons rfl ih''))))
  | minus _ _ ih => exact .cons rfl ih
  | parens _ _ ih => exact ih.mono.parens
  | atom _ h => exact .single (of_atom? h).2.1
  | call name distinct _ _ ih =>
    have list := nested_joined (List.forall_mem_map.mpr fun i hi => (ih i hi).mono)
    have body := nested_optional distinct .DISTINCT list
    rw [← List.append_assoc]
    exact .cons rfl body.parens

theorem Derives.ne_nil (h : Derives inCall s ls t) : ls ≠ [] := by
  cases h <;> simp

end Grammar

/-! ## Section 4: Expressions -/

theorem nested_compact {commas : Bool} {ls : List (Lexeme Value)} (h : Nested commas ls) :
    Nested commas (Lexeme.compact ls) := by
  induction h with
  | nil => exact .nil
  | @single _ l h =>
    cases l with
    | blank => exact .nil
    | _ => exact .single h
  | comma => exact .comma
  | append _ _ ih ih' =>
    rw [Lexeme.compact_append]
    exact ih.append ih'
  | parens _ ih =>
    rw [Lexeme.compact_symbol, Lexeme.compact_append]
    exact ih.parens

namespace Expr

theorem nested_tokens (e : Expr) : Nested false e.tokens :=
  nested_compact e.nested_lexemes

theorem skeleton_value (v : Value) :
    skeleton (Lexeme.compact v.lexemes) = v.term.skeleton := by
  obtain ⟨h, ht⟩ | ⟨b, h, ht⟩ | ⟨digits, h, ht⟩ | ⟨digits, h, ht⟩ | ⟨h, ht⟩ := v.term_cases <;>
    rw [h, ht]
  · rfl
  · cases b <;> rfl
  · rfl
  · rfl
  · rfl

mutual

/-- But for its parentheses, what is written of an expression is told by its
    term. -/
theorem skeleton_tokens : (e : Expr) → skeleton e.tokens = e.term.skeleton
  | .column _ => rfl
  | .literal v => skeleton_value v
  | .wildcard => rfl
  | .binary left op right => by
    simp [tokens_binary, term, Term.skeleton, skeleton_tokens left, skeleton_tokens right]
  | .unary .not operand => by simp [tokens_not, term, Term.skeleton, skeleton_tokens operand]
  | .unary .neg operand => by simp [tokens_neg, term, Term.skeleton, skeleton_tokens operand]
  | .isNull operand negated => by
    simp [tokens_isNull, term, Term.skeleton, skeleton_tokens operand]
  | .inList _ [] negated => by cases negated <;> rfl
  | .inList operand (item :: items) negated => by
    have list := skeleton_joined ((item :: items).map tokens)
    rw [skeletons_tokens (item :: items), joined_tokens, Lexeme.skeleton_append, terms] at list
    simp [tokens_inList, term, Term.skeleton, skeleton_tokens operand, ← list]
  | .between operand low high negated => by
    simp [tokens_between, term, Term.skeleton, skeleton_tokens operand, skeleton_tokens low,
      skeleton_tokens high]
  | .call name args distinct => by
    simp [tokens_call, compact_itemsLexemes, skeleton_joined, skeletons_tokens args, term,
      Term.skeleton]

theorem skeletons_tokens : (es : List Expr) →
    (es.map tokens).map skeleton = Term.skeletons (terms es)
  | [] => rfl
  | e :: es => by
    rw [List.map_cons, List.map_cons, skeleton_tokens e, skeletons_tokens es, terms,
      Term.skeletons]

end

end Expr

end TypedQuery

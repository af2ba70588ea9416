import TypedQuery.Proofs.Expr.Descent

/-! # Expressions as sentences

    The grammar and the precedences that expressions are written by agree on
    all operators but `LIKE`, which the writer takes for a comparison like
    the others.

    * **`derives`**: an expression is written as a phrase of its stratum.
-/

namespace TypedQuery

open Stratum
open Lexeme (compact grouped)
open Grammar (Derives joined)

/-! ## Section 1: Precedences and strata -/

namespace Stratum

/-- For each stratum, from `disjunction` on, the least precedence that is
    tighter than the strata before it. No precedence tells a predicate from
    other comparisons, so its stratum starts together with the next one. -/
def starts : List Nat := [1, 2, 4, 5, 6, 6, 7, 8, 10, 11]

/-- The stratum that a precedence warrants. -/
def ofPrecedence (p : Nat) : Nat := starts.countP (· ≤ p)

theorem ofPrecedence_mono {p q : Nat} (h : p ≤ q) : ofPrecedence p ≤ ofPrecedence q := by
  apply List.countP_mono_left
  intro start _ reached
  simp only [decide_eq_true_eq] at reached ⊢
  omega

end Stratum

namespace BinaryOp

variable {op : BinaryOp}

theorem leftStratum_eq (h : op ≠ .like) : op.leftStratum = ofPrecedence op.precedence := by
  cases op <;> first | rfl | exact absurd rfl h

theorem rightStratum_le (h : op ≠ .like) :
    op.rightStratum ≤ ofPrecedence (op.precedence + 1) := by
  cases op <;> first | decide | exact absurd rfl h

theorem leftStratum_le_simple (op : BinaryOp) : op.leftStratum ≤ simple := by
  cases op <;> decide

theorem rightStratum_le_simple (op : BinaryOp) : op.rightStratum ≤ simple := by
  cases op <;> decide

end BinaryOp

namespace Expr

/-- The stratum of the phrase that an expression is written as. -/
def stratum : Expr → Nat
  | .binary _ op _ => op.stratum
  | .unary .not _ => negation
  | .isNull .. => primary
  | .inList _ (_ :: _) _ | .between .. => predicate
  | .unary .neg _ | .inList _ [] _ | .column _ | .literal _ | .wildcard | .call .. => simple

theorem ofPrecedence_le_stratum (e : Expr) : ofPrecedence e.precedence ≤ e.stratum := by
  cases e with
  | binary left op right =>
    show ofPrecedence op.precedence ≤ op.stratum
    cases op <;> decide
  | unary op operand =>
    cases op
    · show ofPrecedence UnaryOp.not.precedence ≤ negation
      decide
    · show ofPrecedence UnaryOp.neg.precedence ≤ simple
      decide
  | isNull operand negated =>
    show ofPrecedence comparisonPrecedence ≤ primary
    decide
  | inList operand items negated =>
    cases items
    · show ofPrecedence comparisonPrecedence ≤ simple
      decide
    · show ofPrecedence comparisonPrecedence ≤ predicate
      decide
  | between operand low high negated =>
    show ofPrecedence comparisonPrecedence ≤ predicate
    decide
  | _ =>
    show ofPrecedence atomPrecedence ≤ simple
    decide

/-- What binds more tightly than comparisons is a phrase of bits. -/
theorem bit_le_stratum {e : Expr} (h : comparisonPrecedence < e.precedence) : bit ≤ e.stratum :=
  (ofPrecedence_mono h).trans e.ofPrecedence_le_stratum

theorem disjunction_le_stratum (e : Expr) : disjunction ≤ e.stratum :=
  (ofPrecedence_mono e.precedence_pos).trans e.ofPrecedence_le_stratum

/-! ## Section 2: The operands of `LIKE` -/

/-- Whether an expression is a phrase that may stand before `LIKE`, as it is
    written there: no comparison and no test. -/
def fitsBeforeLike : Expr → Bool
  | .inList _ [] _ => true
  | e => e.precedence != comparisonPrecedence

/-- Whether an expression is a phrase that may stand after `LIKE`, as it is
    written there: nothing with an operator between two operands, unless it
    is wrapped. -/
def fitsAfterLike (e : Expr) : Bool :=
  e.precedence ≤ comparisonPrecedence || UnaryOp.neg.precedence ≤ e.precedence

mutual

/-- Whether each `LIKE` that is written has operands that may stand beside
    it. -/
def likesFit : Expr → Bool
  | .column _ | .literal _ | .wildcard => true
  | .binary left op right =>
    (op != .like || (left.fitsBeforeLike && right.fitsAfterLike)) &&
      (left.likesFit && right.likesFit)
  | .unary _ operand | .isNull operand _ => operand.likesFit
  -- what is tested against an empty list is not written
  | .inList _ [] _ => true
  | .inList operand (item :: items) _ => operand.likesFit && (item.likesFit && allLikesFit items)
  | .between operand low high _ => operand.likesFit && (low.likesFit && high.likesFit)
  | .call _ args _ => allLikesFit args

/-- Whether this holds of all of the expressions. -/
def allLikesFit : List Expr → Bool
  | [] => true
  | e :: es => e.likesFit && allLikesFit es

end

mutual

/-- Whether `*` stands in an expression only among the arguments of
    functions. -/
def isStarFree : Expr → Bool
  | .wildcard => false
  | .column _ | .literal _ | .call .. => true
  | .binary left _ right => left.isStarFree && right.isStarFree
  | .unary _ operand | .isNull operand _ => operand.isStarFree
  | .inList operand items _ => operand.isStarFree && allStarFree items
  | .between operand low high _ => operand.isStarFree && (low.isStarFree && high.isStarFree)

/-- Whether this holds of all of the expressions. -/
def allStarFree : List Expr → Bool
  | [] => true
  | e :: es => e.isStarFree && allStarFree es

end

/-- The condition on the left, by strata. -/
theorem fitsBeforeLike_iff (e : Expr) :
    e.fitsBeforeLike ↔ (comparisonPrecedence ≤ e.precedence → bit ≤ e.stratum) := by
  cases e with
  | binary left op right =>
    show (op.precedence != comparisonPrecedence) = true ↔
      (comparisonPrecedence ≤ op.precedence → bit ≤ op.stratum)
    cases op <;> decide
  | unary op operand =>
    cases op <;> simp [fitsBeforeLike, precedence, UnaryOp.precedence, comparisonPrecedence,
      stratum, bit, simple]
  | inList operand items negated =>
    cases items <;> simp [fitsBeforeLike, precedence, stratum, bit, predicate, simple]
  | _ =>
    simp [fitsBeforeLike, precedence, atomPrecedence, comparisonPrecedence, stratum, bit, primary,
      predicate, simple]

/-- The condition on the right, by strata. -/
theorem fitsAfterLike_iff (e : Expr) :
    e.fitsAfterLike ↔ (comparisonPrecedence < e.precedence → simple ≤ e.stratum) := by
  cases e with
  | binary left op right =>
    show (decide (op.precedence ≤ comparisonPrecedence) ||
      decide (UnaryOp.neg.precedence ≤ op.precedence)) = true ↔
        (comparisonPrecedence < op.precedence → simple ≤ op.stratum)
    cases op <;> decide
  | unary op operand =>
    cases op <;> simp [fitsAfterLike, precedence, UnaryOp.precedence, comparisonPrecedence, stratum]
  | _ =>
    simp [fitsAfterLike, precedence, UnaryOp.precedence, atomPrecedence, comparisonPrecedence,
      stratum]

/-! ## Section 3: Expressions are phrases -/

variable {inCall : Bool} {s : Nat}

/-- Between parentheses an expression may stand anywhere. -/
theorem derives_grouped {e : Expr} (h : Derives inCall e.stratum e.tokens e.term) (wrap : Bool)
    (hs : s ≤ simple) (bare : wrap = false → s ≤ e.stratum) :
    Derives inCall s (grouped wrap e.tokens) e.term := by
  cases wrap with
  | false => exact h.loosen (bare rfl)
  | true => exact .parens hs (h.loosen e.disjunction_le_stratum)

/-- The operand of a test is a phrase of bits. -/
theorem derives_tested {e : Expr} (h : Derives inCall e.stratum e.tokens e.term) (hs : s ≤ bit) :
    Derives inCall s (grouped (e.precedence ≤ comparisonPrecedence) e.tokens) e.term := by
  refine derives_grouped h _ (hs.trans (by decide)) ?_
  intro bare
  have tighter : comparisonPrecedence < e.precedence := by simpa using bare
  exact hs.trans (bit_le_stratum tighter)

theorem derives_value (v : Value) (inCall : Bool) :
    Derives inCall simple (compact v.lexemes) v.term := by
  obtain ⟨h, ht⟩ | ⟨b, h, ht⟩ | ⟨digits, h, ht⟩ | ⟨digits, h, ht⟩ | ⟨h, ht⟩ := v.term_cases <;>
    rw [h, ht]
  · exact .atom le_rfl rfl
  · cases b <;> exact .atom le_rfl rfl
  · exact .minus le_rfl (.atom le_rfl rfl)
  · exact .atom le_rfl rfl
  · exact .atom le_rfl rfl

/-- The left operand of an operator is a phrase that may stand there. -/
theorem derives_left {left : Expr} {op : BinaryOp}
    (h : Derives inCall left.stratum left.tokens left.term)
    (fits : op = .like → left.fitsBeforeLike) :
    Derives inCall op.leftStratum (grouped (left.precedence < op.precedence) left.tokens)
      left.term := by
  refine derives_grouped h _ op.leftStratum_le_simple ?_
  intro bare
  have tight : op.precedence ≤ left.precedence := by simpa using bare
  by_cases like : op = .like
  · subst like
    exact left.fitsBeforeLike_iff.mp (fits rfl) tight
  · rw [BinaryOp.leftStratum_eq like]
    exact (ofPrecedence_mono tight).trans left.ofPrecedence_le_stratum

/-- So is the right operand. -/
theorem derives_right {right : Expr} {op : BinaryOp}
    (h : Derives inCall right.stratum right.tokens right.term)
    (fits : op = .like → right.fitsAfterLike) :
    Derives inCall op.rightStratum (grouped (right.precedence ≤ op.precedence) right.tokens)
      right.term := by
  refine derives_grouped h _ op.rightStratum_le_simple ?_
  intro bare
  have tight : op.precedence < right.precedence := by simpa using bare
  by_cases like : op = .like
  · subst like
    exact right.fitsAfterLike_iff.mp (fits rfl) tight
  · exact (BinaryOp.rightStratum_le like).trans
      ((ofPrecedence_mono tight).trans right.ofPrecedence_le_stratum)

mutual

theorem derives : (e : Expr) → (inCall : Bool) → (inCall = false → e.isStarFree) → e.likesFit →
    Derives inCall e.stratum e.tokens e.term
  | .column _, _, _, _ => .atom le_rfl rfl
  | .literal v, inCall, _, _ => derives_value v inCall
  | .wildcard, inCall, stars, _ => by
    cases inCall with
    | false => exact absurd (stars rfl) (by decide)
    | true => exact .atom le_rfl rfl
  | .binary left op right, inCall, stars, fits => by
    simp only [isStarFree, Bool.and_eq_true] at stars
    simp only [likesFit, Bool.and_eq_true, Bool.or_eq_true, bne_iff_ne] at fits
    obtain ⟨beside, fitsLeft, fitsRight⟩ := fits
    have first := derives left inCall (fun h => (stars h).1) fitsLeft
    have second := derives right inCall (fun h => (stars h).2) fitsRight
    rw [tokens_binary]
    refine .operator op le_rfl (derives_left first ?_) (derives_right second ?_)
    · intro like
      exact (beside.resolve_left fun other => other like).1
    · intro like
      exact (beside.resolve_left fun other => other like).2
  | .unary .not operand, inCall, stars, fits => by
    have inner := derives operand inCall stars fits
    rw [tokens_not]
    refine .not le_rfl (derives_grouped inner _ (by decide) ?_)
    intro bare
    have tight : UnaryOp.not.precedence ≤ operand.precedence := by simpa using bare
    exact (ofPrecedence_mono tight).trans operand.ofPrecedence_le_stratum
  | .unary .neg operand, inCall, stars, fits => by
    have inner := derives operand inCall stars fits
    rw [tokens_neg]
    refine .minus le_rfl (derives_grouped inner _ le_rfl ?_)
    intro bare
    have tight : UnaryOp.neg.precedence ≤ operand.precedence := by
      simpa using (Bool.or_eq_false_iff.mp bare).1
    exact (ofPrecedence_mono tight).trans operand.ofPrecedence_le_stratum
  | .isNull operand negated, inCall, stars, fits => by
    have inner := derives operand inCall stars fits
    rw [tokens_isNull]
    exact .isNull negated le_rfl (derives_tested inner (by decide))
  | .inList _ [] negated, _, _, _ => by
    cases negated <;> exact .atom le_rfl rfl
  | .inList operand (item :: items) negated, inCall, stars, fits => by
    simp only [isStarFree, Bool.and_eq_true] at stars
    simp only [likesFit, Bool.and_eq_true] at fits
    have inner := derives operand inCall (fun h => (stars h).1) fits.1
    have list : ∀ i ∈ phrases (item :: items), Derives inCall disjunction i.1 i.2 := by
      refine derives_phrases (item :: items) inCall (fun h => (stars h).2) ?_
      simp only [allLikesFit, Bool.and_eq_true]
      exact fits.2
    have nonempty : phrases (item :: items) ≠ [] := List.cons_ne_nil _ _
    have test := Derives.inList negated le_rfl (derives_tested inner le_rfl) nonempty list
    rw [map_fst_phrases, joined_tokens, map_snd_phrases, List.append_assoc] at test
    rw [tokens_inList]
    exact test
  | .between operand low high negated, inCall, stars, fits => by
    simp only [isStarFree, Bool.and_eq_true] at stars
    simp only [likesFit, Bool.and_eq_true] at fits
    have inner := derives operand inCall (fun h => (stars h).1) fits.1
    have lower := derives low inCall (fun h => (stars h).2.1) fits.2.1
    have upper := derives high inCall (fun h => (stars h).2.2) fits.2.2
    rw [tokens_between]
    exact .between negated le_rfl (derives_tested inner le_rfl) (derives_tested lower le_rfl)
      (derives_tested upper (by decide))
  | .call name args distinct, inCall, _, fits => by
    have list := derives_phrases args true (fun h => absurd h (by decide)) fits
    have whole : Derives inCall simple _ _ := .call name distinct le_rfl list
    rw [map_fst_phrases, map_snd_phrases] at whole
    rw [tokens_call, compact_itemsLexemes]
    exact whole

theorem derives_phrases : (es : List Expr) → (inCall : Bool) →
    (inCall = false → allStarFree es) → allLikesFit es →
      ∀ i ∈ phrases es, Derives inCall disjunction i.1 i.2
  | [], _, _, _ => by
    intro i hi
    cases hi
  | e :: es, inCall, stars, fits => by
    simp only [allStarFree, Bool.and_eq_true] at stars
    simp only [allLikesFit, Bool.and_eq_true] at fits
    have first := derives e inCall (fun h => (stars h).1) fits.1
    have others := derives_phrases es inCall (fun h => (stars h).2) fits.2
    exact List.forall_mem_cons.mpr ⟨first.loosen e.disjunction_le_stratum, others⟩

end

end Expr

end TypedQuery

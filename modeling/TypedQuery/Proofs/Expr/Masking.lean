import Mathlib.Data.List.NodupEquivFin
import TypedQuery.Expr.Rendering

/-! # Masked values

    Text, bytes and timestamps may hold anything that a user gives. A value
    of these kinds is masked where all that is left of it is that there is
    one, and a tree or a statement where each of its values is.

    * **`write_masked`**: a masked tree adds to a masked statement what the
      tree adds to the statement, masked. So nothing but the parameters can
      depend on a value that is masked.
    * **`params_statement`**: the parameters are literals of the tree, in
      its order.
    * **`Indistinct.of_masked`**: trees that are alike when masked are told
      apart by their parameters at most, and those by their literals.
-/

namespace TypedQuery

/-! ## Section 1: Values -/

namespace Value

/-- Whether a value is of a kind that may hold anything. -/
def isPayload : Value → Bool
  | .text _ | .bytes _ | .timestamp _ => true
  | .null | .bool _ | .int _ | .float _ => false

/-- The value without what it holds, if that may be anything. -/
def masked : Value → Value
  | .text _ | .bytes _ | .timestamp _ => .text ""
  | v => v

@[simp] theorem isInline_masked (v : Value) : v.masked.isInline = v.isInline := by
  cases v <;> rfl

@[simp] theorem hasSign_masked (v : Value) : v.masked.hasSign = v.hasSign := by
  cases v <;> rfl

theorem literal_masked {v : Value} (h : v.isInline) : v.masked.literal = v.literal := by
  cases v with
  | text _ | bytes _ | timestamp _ => cases h
  | null | bool _ | int _ | float _ => rfl

/-- Only values that may hold anything are lost. -/
theorem eq_or_isPayload_of_masked_eq {v w : Value} (h : v.masked = w.masked) :
    v = w ∨ v.isPayload ∧ w.isPayload := by
  cases v <;> cases w <;> simp_all [masked, isPayload]

end Value

/-! ## Section 2: Statements -/

namespace Statement

/-- The statement with its parameters masked. -/
def masked (s : Statement) : Statement := { s with params := s.params.map Value.masked }

@[simp] theorem masked_empty : empty.masked = empty := rfl

@[simp] theorem masked_text (t : String) (s : Statement) : (s.text t).masked = s.masked.text t := rfl

theorem masked_value (v : Value) (s : Statement) : s.masked.value v.masked = (s.value v).masked := by
  by_cases h : v.isInline
  · simp [value, h, Value.literal_masked h]
  · simp [value, h, bind, masked]

theorem masked_grouped (wrap : Bool) {body body' : Statement → Statement}
    (h : ∀ s : Statement, body' s.masked = (body s).masked) (s : Statement) :
    s.masked.grouped wrap body' = (s.grouped wrap body).masked := by
  cases wrap with
  | false => exact h s
  | true =>
    show (body' (s.text "(").masked).text ")" = ((body (s.text "(")).text ")").masked
    rw [h, masked_text]

theorem masked_separated {α : Type} {separator : String} {write : α → Statement → Statement}
    {mask : α → α} (h : ∀ x s, write (mask x) s.masked = (write x s).masked)
    (xs : List α) (s : Statement) :
    s.masked.separated separator write (xs.map mask) = (s.separated separator write xs).masked := by
  cases xs with
  | nil => rfl
  | cons x xs =>
    rw [List.map_cons, separated, separated, h]
    generalize write x s = s
    induction xs generalizing s with
    | nil => rfl
    | cons y ys ih => rw [List.map_cons, List.foldl_cons, List.foldl_cons, ← masked_text, h, ih]

end Statement

/-! ## Section 3: Trees -/

namespace Expr

mutual

/-- The tree with its literals masked. -/
def masked : Expr → Expr
  | .column name => .column name
  | .literal v => .literal v.masked
  | .wildcard => .wildcard
  | .binary left op right => .binary left.masked op right.masked
  | .unary op operand => .unary op operand.masked
  | .isNull operand negated => .isNull operand.masked negated
  | .inList operand items negated => .inList operand.masked (maskedAll items) negated
  | .between operand low high negated => .between operand.masked low.masked high.masked negated
  | .call name args distinct => .call name (maskedAll args) distinct

/-- Trees with their literals masked. -/
def maskedAll : List Expr → List Expr
  | [] => []
  | e :: es => e.masked :: maskedAll es

end

@[simp] theorem precedence_masked (e : Expr) : e.masked.precedence = e.precedence := by
  cases e <;> rfl

@[simp] theorem isSignedLiteral_masked (e : Expr) :
    e.masked.isSignedLiteral = e.isSignedLiteral := by
  cases e with
  | literal v => exact v.hasSign_masked
  | _ => rfl

open Statement (masked_text masked_value masked_grouped)

mutual

/-- What a tree adds, it adds masked if it is masked itself. No part of the
    text looks into a value that is bound: not the parentheses, which ask for
    a sign at most. -/
theorem write_masked : (e : Expr) → ∀ s : Statement, e.masked.write s.masked = (e.write s).masked
  | .column name, s => rfl
  | .literal v, s => masked_value v s
  | .wildcard, s => rfl
  | .binary left op right, s => by
    simp only [masked, write, precedence_masked, masked_grouped _ left.write_masked,
      ← masked_text, masked_grouped _ right.write_masked]
  | .unary op operand, s => by
    simp only [masked, write, precedence_masked, isSignedLiteral_masked, ← masked_text,
      masked_grouped _ operand.write_masked]
  | .isNull operand negated, s => by
    simp only [masked, write, precedence_masked, masked_grouped _ operand.write_masked,
      ← masked_text]
  | .inList operand [] negated, s => by
    simp only [masked, maskedAll, write]
    exact masked_value (.bool negated) s
  | .inList operand (item :: items) negated, s => by
    simp only [masked, maskedAll, write, precedence_masked,
      masked_grouped _ operand.write_masked, ← masked_text, item.write_masked,
      writeRest_masked items]
  | .between operand low high negated, s => by
    simp only [masked, write, precedence_masked, masked_grouped _ operand.write_masked,
      ← masked_text, masked_grouped _ low.write_masked, masked_grouped _ high.write_masked]
  | .call name args distinct, s => by
    let opened := (s.text name).text "("
    cases distinct with
    | false => exact congrArg (Statement.text ")") (writeItems_masked args opened)
    | true => exact congrArg (Statement.text ")") (writeItems_masked args (opened.text "DISTINCT "))

theorem writeItems_masked : (es : List Expr) → ∀ s : Statement,
    writeItems (maskedAll es) s.masked = (writeItems es s).masked
  | [], s => rfl
  | e :: es, s => by
    simp only [maskedAll, writeItems, e.write_masked, writeRest_masked es]

theorem writeRest_masked : (es : List Expr) → ∀ s : Statement,
    writeRest (maskedAll es) s.masked = (writeRest es s).masked
  | [], s => rfl
  | e :: es, s => by
    simp only [maskedAll, writeRest, ← masked_text, e.write_masked, writeRest_masked es]

end

theorem statement_masked (e : Expr) : e.masked.statement = e.statement.masked :=
  e.write_masked .empty

end Expr

/-! ## Section 4: Literals -/

/-- A literal of a tree, and whether the text holds a place for it. -/
structure Occurrence where
  value : Value
  isBound : Bool

namespace Occurrence

/-- The literal where its operand is left out of the text. -/
def leftOut (o : Occurrence) : Occurrence := { o with isBound := false }

/-- The literal with its value masked. -/
def masked (o : Occurrence) : Occurrence := { o with value := o.value.masked }

/-- The values of literals. -/
def values (os : List Occurrence) : List Value := os.map (·.value)

/-- The values that have places. -/
def placed (os : List Occurrence) : List Value := values (os.filter (·.isBound))

@[simp] theorem placed_append (os os' : List Occurrence) :
    placed (os ++ os') = placed os ++ placed os' := by
  simp [placed, values]

theorem placed_flatMap {α : Type} (f : α → List Occurrence) (xs : List α) :
    placed (xs.flatMap f) = xs.flatMap fun x => placed (f x) := by
  simp [placed, values, List.filter_flatMap, List.map_flatMap]

@[simp] theorem placed_leftOut (os : List Occurrence) : placed (os.map leftOut) = [] := by
  simp [placed, values, leftOut]

/-- Where literals are alike when masked, those in places are paired as they
    are among all. -/
theorem zip_placed_sublist {os os' : List Occurrence} (h : os.map masked = os'.map masked) :
    ((placed os).zip (placed os')).Sublist ((values os).zip (values os')) := by
  induction os generalizing os' with
  | nil =>
    cases List.map_eq_nil_iff.mp h.symm
    exact List.Sublist.refl _
  | cons o os ih =>
    cases os' with
    | nil => cases h
    | cons o' os' =>
      obtain ⟨head, tail⟩ := List.cons.inj h
      have bound : o.isBound = o'.isBound := by
        simpa [masked] using congrArg Occurrence.isBound head
      by_cases place : o'.isBound
      · have here : placed (o :: os) = o.value :: placed os := by simp [placed, values, bound, place]
        have there : placed (o' :: os') = o'.value :: placed os' := by simp [placed, values, place]
        rw [here, there]
        exact (ih tail).cons_cons _
      · have here : placed (o :: os) = placed os := by simp [placed, values, bound, place]
        have there : placed (o' :: os') = placed os' := by simp [placed, values, place]
        rw [here, there]
        exact (ih tail).cons _

end Occurrence

namespace Statement

open Occurrence (placed)

theorem params_value (v : Value) (s : Statement) :
    (s.value v).params = s.params ++ placed [⟨v, !v.isInline⟩] := by
  by_cases h : v.isInline <;> simp [value, h, placed, Occurrence.values]

theorem params_grouped (wrap : Bool) {body : Statement → Statement} {vs : List Value}
    (h : ∀ s : Statement, (body s).params = s.params ++ vs) (s : Statement) :
    (s.grouped wrap body).params = s.params ++ vs := by
  cases wrap with
  | false => exact h s
  | true => exact h (s.text "(")

end Statement

namespace Expr

open Occurrence (placed values)
open Statement (params_text params_value params_grouped)

mutual

/-- The literals of a tree, in its order. Those of an operand that is tested
    against an empty list are left out with it. -/
def occurrences : Expr → List Occurrence
  | .column _ | .wildcard => []
  | .literal v => [⟨v, !v.isInline⟩]
  | .binary left _ right => left.occurrences ++ right.occurrences
  | .unary _ operand | .isNull operand _ => operand.occurrences
  | .inList operand [] _ => operand.occurrences.map Occurrence.leftOut
  | .inList operand (item :: items) _ =>
    operand.occurrences ++ (item.occurrences ++ occurrencesAll items)
  | .between operand low high _ => operand.occurrences ++ (low.occurrences ++ high.occurrences)
  | .call _ args _ => occurrencesAll args

/-- The literals of trees, one tree after the other. -/
def occurrencesAll : List Expr → List Occurrence
  | [] => []
  | e :: es => e.occurrences ++ occurrencesAll es

end

/-- The values of all literals of a tree, in its order. -/
def literals (e : Expr) : List Value := values e.occurrences

mutual

theorem params_write : (e : Expr) → ∀ s : Statement,
    (e.write s).params = s.params ++ placed e.occurrences
  | .column name, s => (List.append_nil _).symm
  | .literal v, s => params_value v s
  | .wildcard, s => (List.append_nil _).symm
  | .binary left op right, s => by
    simp only [write, occurrences, params_grouped _ left.params_write, params_text,
      params_grouped _ right.params_write, Occurrence.placed_append, List.append_assoc]
  | .unary op operand, s => params_grouped _ operand.params_write _
  | .isNull operand negated, s => params_grouped _ operand.params_write s
  | .inList operand [] negated, s => by
    rw [write, occurrences, Occurrence.placed_leftOut]
    exact params_value (.bool negated) s
  | .inList operand (item :: items) negated, s => by
    simp only [write, occurrences, params_grouped _ operand.params_write, params_text,
      item.params_write, params_writeRest items, Occurrence.placed_append, List.append_assoc]
  | .between operand low high negated, s => by
    simp only [write, occurrences, params_grouped _ operand.params_write, params_text,
      params_grouped _ low.params_write, params_grouped _ high.params_write,
      Occurrence.placed_append, List.append_assoc]
  | .call name args distinct, s => by
    cases distinct with
    | false => exact params_writeItems args _
    | true => exact params_writeItems args _

theorem params_writeItems : (es : List Expr) → ∀ s : Statement,
    (writeItems es s).params = s.params ++ placed (occurrencesAll es)
  | [], s => (List.append_nil _).symm
  | e :: es, s => by
    rw [writeItems, params_writeRest es, e.params_write, occurrencesAll, Occurrence.placed_append,
      List.append_assoc]

theorem params_writeRest : (es : List Expr) → ∀ s : Statement,
    (writeRest es s).params = s.params ++ placed (occurrencesAll es)
  | [], s => (List.append_nil _).symm
  | e :: es, s => by
    rw [writeRest, params_writeRest es, e.params_write, occurrencesAll, Occurrence.placed_append,
      List.append_assoc, params_text]

end

theorem params_statement (e : Expr) : e.statement.params = placed e.occurrences :=
  e.params_write .empty

mutual

theorem occurrences_masked : (e : Expr) →
    e.masked.occurrences = e.occurrences.map Occurrence.masked
  | .column _ => rfl
  | .literal v => by simp [masked, occurrences, Occurrence.masked]
  | .wildcard => rfl
  | .binary left _ right => by
    rw [masked, occurrences, occurrences, left.occurrences_masked, right.occurrences_masked,
      List.map_append]
  | .unary _ operand => operand.occurrences_masked
  | .isNull operand _ => operand.occurrences_masked
  | .inList operand [] _ => by
    rw [masked, maskedAll, occurrences, occurrences, operand.occurrences_masked, List.map_map,
      List.map_map]
    rfl
  | .inList operand (item :: items) _ => by
    rw [masked, maskedAll, occurrences, occurrences, operand.occurrences_masked,
      item.occurrences_masked, occurrencesAll_masked items, List.map_append, List.map_append]
  | .between operand low high _ => by
    rw [masked, occurrences, occurrences, operand.occurrences_masked, low.occurrences_masked,
      high.occurrences_masked, List.map_append, List.map_append]
  | .call _ args _ => occurrencesAll_masked args

theorem occurrencesAll_masked : (es : List Expr) →
    occurrencesAll (maskedAll es) = (occurrencesAll es).map Occurrence.masked
  | [] => rfl
  | e :: es => by
    rw [maskedAll, occurrencesAll, occurrencesAll, e.occurrences_masked, occurrencesAll_masked es,
      List.map_append]

end

end Expr

/-! ## Section 5: Two runs -/

/-- What two statements have in common whose literals, in the lists given,
    differ in values that are masked. -/
structure Indistinct (s₁ s₂ : Statement) (ls₁ ls₂ : List Value) : Prop where
  sql : s₁.sql = s₂.sql
  places : s₁.places = s₂.places
  params : s₁.params.length = s₂.params.length
  literals : ls₁.length = ls₂.length
  /-- Each parameter is a literal, in one position for both statements. -/
  origin : ∃ position : ℕ ↪o ℕ, ∀ k,
    s₁.params[k]? = ls₁[position k]? ∧ s₂.params[k]? = ls₂[position k]?
  /-- Parameters that differ may both hold anything. -/
  payload : ∀ (k : ℕ) (v w : Value), s₁.params[k]? = some v → s₂.params[k]? = some w →
    v ≠ w → v.isPayload ∧ w.isPayload

theorem Indistinct.of_masked {s₁ s₂ : Statement} {os₁ os₂ : List Occurrence}
    (same : s₁.masked = s₂.masked) (alike : os₁.map Occurrence.masked = os₂.map Occurrence.masked)
    (params₁ : s₁.params = Occurrence.placed os₁) (params₂ : s₂.params = Occurrence.placed os₂) :
    Indistinct s₁ s₂ (Occurrence.values os₁) (Occurrence.values os₂) := by
  have masks : s₁.params.map Value.masked = s₂.params.map Value.masked :=
    congrArg Statement.params same
  have params : s₁.params.length = s₂.params.length := by
    simpa using congrArg List.length masks
  have literals : (Occurrence.values os₁).length = (Occurrence.values os₂).length := by
    simpa [Occurrence.values] using congrArg List.length alike
  refine ⟨congrArg (·.sql) same, congrArg (·.places) same, params, literals, ?_, ?_⟩
  · have pairs := Occurrence.zip_placed_sublist alike
    rw [← params₁, ← params₂] at pairs
    obtain ⟨position, found⟩ := List.sublist_iff_exists_orderEmbedding_getElem?_eq.mp pairs
    refine ⟨position, fun k => ⟨?_, ?_⟩⟩
    · have first := congrArg (Option.map Prod.fst) (found k)
      rwa [← List.getElem?_map, ← List.getElem?_map, List.map_fst_zip params.le,
        List.map_fst_zip literals.le] at first
    · have second := congrArg (Option.map Prod.snd) (found k)
      rwa [← List.getElem?_map, ← List.getElem?_map, List.map_snd_zip params.ge,
        List.map_snd_zip literals.ge] at second
  · intro k v w first second differ
    have mask : v.masked = w.masked := by
      have := congrArg (·[k]?) masks
      simpa [first, second] using this
    exact (Value.eq_or_isPayload_of_masked_eq mask).resolve_left differ

end TypedQuery

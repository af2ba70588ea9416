import TypedQuery.Proofs.Expr.Lexemes

/-! # Lists and parentheses

    Lists stand with commas between their items, and the items may have
    lists of their own between parentheses. A reader that splits a list goes
    by the parentheses it has passed.

    * **`Nested`**: parentheses are paired, and commas stand inside them.
    * **`splitItems_listed`**: a list is split into its items.
-/

namespace TypedQuery

namespace Lexeme

variable {ν μ : Type}

/-! ## Section 1: Lists -/

/-- Items with commas between. -/
def listed (items : List (List (Lexeme ν))) : List (Lexeme ν) :=
  [.symbol .comma, .blank].intercalate items

@[simp] theorem listed_nil : listed ([] : List (List (Lexeme ν))) = [] := rfl

@[simp] theorem listed_singleton (ls : List (Lexeme ν)) : listed [ls] = ls :=
  List.intercalate_singleton

theorem listed_cons_cons (ls ms : List (Lexeme ν)) (items : List (List (Lexeme ν))) :
    listed (ls :: ms :: items) = ls ++ .symbol .comma :: .blank :: listed (ms :: items) := by
  rw [listed, List.intercalate_cons_cons, List.append_assoc]
  rfl

/-- What holds of commas, blanks and all items holds of the list. -/
theorem forall_mem_listed {P : Lexeme ν → Prop} (comma : P (.symbol .comma)) (blank : P .blank)
    {items : List (List (Lexeme ν))} (h : ∀ ls ∈ items, ∀ l ∈ ls, P l) :
    ∀ l ∈ listed items, P l := by
  induction items with
  | nil =>
    intro l hl
    exact absurd hl List.not_mem_nil
  | cons ls items ih =>
    obtain ⟨first, others⟩ := List.forall_mem_cons.mp h
    cases items with
    | nil => rwa [listed_singleton]
    | cons ms items =>
      have rest := ih others
      rw [listed_cons_cons, List.forall_mem_append, List.forall_mem_cons, List.forall_mem_cons]
      exact ⟨first, comma, blank, rest⟩

/-- A comma may follow any item, and a blank comes before the next one. -/
theorem Spaced.listed {items : List (List (Lexeme ν))} (h : ∀ ls ∈ items, Spaced ls) :
    Spaced (Lexeme.listed items) := by
  induction items with
  | nil => exact spaced_nil
  | cons ls items ih =>
    obtain ⟨first, others⟩ := List.forall_mem_cons.mp h
    cases items with
    | nil => rwa [listed_singleton]
    | cons ms items =>
      rw [listed_cons_cons]
      exact first.append_delimiter ((ih others).cons_word _) rfl

theorem map_listed (f : Lexeme ν → Lexeme μ) (comma : f (.symbol .comma) = .symbol .comma)
    (blank : f .blank = .blank) (items : List (List (Lexeme ν))) :
    (listed items).map f = listed (items.map (·.map f)) := by
  induction items with
  | nil => rfl
  | cons ls items ih =>
    cases items with
    | nil => simp
    | cons ms items =>
      rw [listed_cons_cons, List.map_cons, List.map_cons, listed_cons_cons, ← List.map_cons, ← ih,
        List.map_append, List.map_cons, List.map_cons, comma, blank]

theorem values_listed (items : List (List (Lexeme Value))) :
    values (listed items) = items.flatMap values := by
  induction items with
  | nil => rfl
  | cons ls items ih =>
    cases items with
    | nil => simp
    | cons ms items =>
      rw [listed_cons_cons, values_append, List.flatMap_cons, ← ih]
      rfl

/-! ## Section 2: Parentheses -/

/-- How deep a reader is inside parentheses after a lexeme. -/
def depth (l : Lexeme ν) (d : Nat) : Nat :=
  match l with
  | .symbol .lparen => d + 1
  | .symbol .rparen => d - 1
  | _ => d

/-- Whether a lexeme is neither a parenthesis nor a comma. -/
def isFlat : Lexeme ν → Bool
  | .symbol .lparen | .symbol .rparen | .symbol .comma => false
  | _ => true

theorem depth_of_isFlat {l : Lexeme ν} (h : l.isFlat) (d : Nat) : l.depth d = d := by
  cases l with
  | symbol s => cases s <;> first | rfl | cases h
  | _ => rfl

theorem isFlat_map (f : ν → μ) (l : Lexeme ν) : (l.map f).isFlat = l.isFlat := by
  cases l with
  | symbol s => cases s <;> rfl
  | _ => rfl

theorem isFlat_operator (op : BinaryOp) : (op.lexeme : Lexeme ν).isFlat := by
  cases op <;> rfl

/-- Lexemes in which parentheses are paired. Outside of them there are
    commas only if `commas` says so. -/
inductive Nested : Bool → List (Lexeme ν) → Prop where
  | nil {commas : Bool} : Nested commas []
  | single {commas : Bool} {l : Lexeme ν} (h : l.isFlat) : Nested commas [l]
  | comma : Nested true [.symbol .comma]
  | append {commas : Bool} {ls ms : List (Lexeme ν)} (h : Nested commas ls)
    (h' : Nested commas ms) : Nested commas (ls ++ ms)
  | parens {commas : Bool} {ls : List (Lexeme ν)} (h : Nested true ls) :
    Nested commas (.symbol .lparen :: (ls ++ [.symbol .rparen]))

namespace Nested

variable {commas : Bool} {l : Lexeme ν} {ls ms : List (Lexeme ν)}

theorem cons (h : l.isFlat) (h' : Nested commas ls) : Nested commas (l :: ls) :=
  (single h).append h'

theorem mono (h : Nested commas ls) : Nested true ls := by
  induction h with
  | nil => exact nil
  | single h => exact single h
  | comma => exact comma
  | append _ _ ih ih' => exact ih.append ih'
  | parens h _ => exact parens h

theorem listed {items : List (List (Lexeme ν))} (h : ∀ ls ∈ items, Nested true ls) :
    Nested true (Lexeme.listed items) := by
  induction items with
  | nil => exact nil
  | cons ls items ih =>
    obtain ⟨first, others⟩ := List.forall_mem_cons.mp h
    cases items with
    | nil => rwa [listed_singleton]
    | cons ms items =>
      rw [listed_cons_cons]
      exact first.append (comma.append (cons rfl (ih others)))

theorem map (f : ν → μ) (h : Nested commas ls) : Nested commas (ls.map (Lexeme.map f)) := by
  induction h with
  | nil => exact nil
  | single h => exact single ((isFlat_map f _).trans h)
  | comma => exact comma
  | append _ _ ih ih' =>
    rw [List.map_append]
    exact ih.append ih'
  | parens _ ih =>
    rw [List.map_cons, List.map_append]
    exact ih.parens

end Nested

/-! ## Section 3: Splitting -/

/-- Whether a lexeme is a comma. -/
def isComma : Lexeme ν → Bool
  | .symbol .comma => true
  | _ => false

/-- Lexemes after one blank that may be there. -/
def afterBlank : List (Lexeme ν) → List (Lexeme ν)
  | .blank :: ls => ls
  | ls => ls

theorem length_afterBlank (ls : List (Lexeme ν)) : (afterBlank ls).length ≤ ls.length := by
  unfold afterBlank
  split <;> simp

/-- The first item up to a comma that is not inside more parentheses, and
    the other items. -/
def splitItems (d : Nat) : List (Lexeme ν) → List (Lexeme ν) × List (List (Lexeme ν))
  | [] => ([], [])
  | l :: ls =>
    -- a comma inside parentheses belongs to the item
    if d = 0 ∧ l.isComma then
      have _h := length_afterBlank ls
      let (item, items) := splitItems 0 (afterBlank ls)
      ([], item :: items)
    else
      let (item, items) := splitItems (l.depth d) ls
      (l :: item, items)
termination_by ls => ls.length

theorem splitItems_cons {d : Nat} {l : Lexeme ν} (h : d = 0 → l.isComma = false)
    (ls : List (Lexeme ν)) :
    splitItems d (l :: ls) =
      (l :: (splitItems (l.depth d) ls).1, (splitItems (l.depth d) ls).2) := by
  rw [splitItems, if_neg]
  rintro ⟨hd, hl⟩
  rw [h hd] at hl
  cases hl

theorem splitItems_comma (ls : List (Lexeme ν)) :
    splitItems 0 (.symbol .comma :: .blank :: ls) =
      ([], (splitItems 0 ls).1 :: (splitItems 0 ls).2) := by
  rw [splitItems, if_pos ⟨rfl, rfl⟩]
  rfl

/-- What is nested is passed over, as long as its commas are inside
    parentheses. -/
theorem splitItems_append {commas : Bool} {ls : List (Lexeme ν)} (h : Nested commas ls) {d : Nat}
    (hd : commas = true → 0 < d) (rest : List (Lexeme ν)) :
    splitItems d (ls ++ rest) = (ls ++ (splitItems d rest).1, (splitItems d rest).2) := by
  induction h generalizing d rest with
  | nil => rfl
  | @single commas l h =>
    have other : l.isComma = false := by
      cases l with
      | symbol s => cases s <;> first | rfl | cases h
      | _ => rfl
    rw [List.singleton_append, splitItems_cons fun _ => other, depth_of_isFlat h]
    rfl
  | comma =>
    rw [List.singleton_append, splitItems_cons fun e => absurd e (hd rfl).ne']
    rfl
  | append _ _ ih ih' => rw [List.append_assoc, ih hd, ih' hd, List.append_assoc]
  | @parens commas ls _ ih =>
    -- inside, commas are passed over at any depth
    have inside := ih (fun _ => Nat.succ_pos d) (.symbol .rparen :: rest)
    have closed : splitItems (d + 1) (.symbol .rparen :: rest) =
        (.symbol .rparen :: (splitItems d rest).1, (splitItems d rest).2) :=
      splitItems_cons (fun e => absurd e (Nat.succ_ne_zero d)) rest
    have opened : splitItems d (.symbol .lparen :: (ls ++ .symbol .rparen :: rest)) =
        (.symbol .lparen :: (splitItems (d + 1) (ls ++ .symbol .rparen :: rest)).1,
          (splitItems (d + 1) (ls ++ .symbol .rparen :: rest)).2) :=
      splitItems_cons (fun _ => rfl) _
    rw [inside, closed] at opened
    rw [List.cons_append, List.append_assoc]
    rw [List.singleton_append, opened, List.cons_append, List.append_assoc, List.singleton_append]

theorem splitItems_listed {ls : List (Lexeme ν)} {items : List (List (Lexeme ν))}
    (h : ∀ ms ∈ ls :: items, Nested false ms) :
    splitItems 0 (listed (ls :: items)) = (ls, items) := by
  induction items generalizing ls with
  | nil =>
    have whole := splitItems_append (h ls List.mem_cons_self) (d := 0) Bool.noConfusion []
    rw [splitItems, List.append_nil] at whole
    rw [listed_singleton]
    exact whole
  | cons ms items ih =>
    obtain ⟨first, others⟩ := List.forall_mem_cons.mp h
    rw [listed_cons_cons, splitItems_append first Bool.noConfusion, splitItems_comma, ih others,
      List.append_nil]

/-- The items of a list, of which an empty list has none. -/
def items (ls : List (Lexeme ν)) : List (List (Lexeme ν)) :=
  if ls.isEmpty then []
  else
    let (item, items) := splitItems 0 ls
    item :: items

/-- **Splitting**: a list is split into its items. -/
theorem items_listed {is : List (List (Lexeme ν))} (nested : ∀ ls ∈ is, Nested false ls)
    (nonempty : ∀ ls ∈ is, ls ≠ []) : items (listed is) = is := by
  cases is with
  | nil => rfl
  | cons ls is =>
    have shown : (listed (ls :: is)).isEmpty = false := by
      rw [List.isEmpty_eq_false_iff]
      cases is with
      | nil =>
        rw [listed_singleton]
        exact nonempty ls List.mem_cons_self
      | cons ms is => simp [listed_cons_cons]
    rw [items, shown, splitItems_listed nested]
    rfl

end Lexeme

end TypedQuery

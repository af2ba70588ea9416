import TypedQuery.Proofs.Expr.Evaluation
import TypedQuery.Proofs.Typed.Formation

/-! # Whether an expression may be `NULL`

    Each operation computes the flag of its expression from those of its
    operands. The flag of what operations make is to be trusted except where
    numbers are divided:

    * **`value_ne_none_of_unflagged`**: an expression without the flag is
      `NULL` only where its value depends on a division by zero.
    * **`quotient_by_zero_unflagged`**: there it is, and without the flag.

    A plain `none` that is given for a type with two optional layers is `NULL`
    and has no flag of its own. It stands only to the right of an operand of
    that type, which has the flag, so that the whole has it too.

    A literal that is not a finite number counts as a datum here
    (`Interpretation.constant`), though a database may have none for it.
-/

namespace TypedQuery

variable {δ : Type} {m : Interpretation δ} {row : Row δ}

/-! ## Section 1: Soundness of operations -/

namespace Expression

/-- Without the flag there is a datum, unless a number is divided by zero. -/
def Sound (m : Interpretation δ) (row : Row δ) (e : Expression) : Prop :=
  e.nullable = false → m.dividesByZero row e.tree = false → m.value row e.tree ≠ none

/-- Flags are joined from left to right, so that the flag of a later operand
    matters only if the first has none. -/
theorem Sound.binary {e left right : Expression} {op : BinaryOp}
    (tree : e.tree = .binary left.tree op right.tree)
    (flag : e.nullable = (left.nullable || right.nullable)) (hl : Sound m row left)
    (hr : left.nullable = false → Sound m row right) : Sound m row e := by
  intro unflagged undivided
  rw [flag, Bool.or_eq_false_iff] at unflagged
  rw [tree, Interpretation.dividesByZero, Bool.or_eq_false_iff, Bool.or_eq_false_iff] at undivided
  obtain ⟨fl, fr⟩ := unflagged
  obtain ⟨⟨dl, dr⟩, nonzero⟩ := undivided
  rw [tree, Interpretation.value]
  exact Interpretation.binary_ne_none (hl fl dl) (hr fl fr dr) nonzero

theorem Sound.unary {e operand : Expression} {op : UnaryOp}
    (tree : e.tree = .unary op operand.tree) (flag : e.nullable = operand.nullable)
    (h : Sound m row operand) : Sound m row e := by
  intro unflagged undivided
  rw [flag] at unflagged
  rw [tree, Interpretation.dividesByZero] at undivided
  rw [tree, Interpretation.value]
  exact Interpretation.unary_ne_none op (h unflagged undivided)

theorem Sound.inList {operand : Expression} {items : List Expression} (negated : Bool)
    (h : Sound m row operand)
    (hi : operand.nullable = false → ∀ item ∈ items, Sound m row item) :
    Sound m row (operand.inList items negated) := by
  intro unflagged undivided
  simp only [Expression.inList, predicate, Bool.or_eq_false_iff, List.any_eq_false] at unflagged
  simp only [Expression.inList, predicate, Interpretation.dividesByZero, Bool.or_eq_false_iff,
    Interpretation.anyDividesByZero_eq_any, List.any_eq_false, List.forall_mem_map] at undivided
  obtain ⟨fo, fi⟩ := unflagged
  obtain ⟨dv, di⟩ := undivided
  unfold Expression.inList predicate
  rw [Interpretation.value, Interpretation.values_eq_map]
  apply Interpretation.verdict_ne_none
  apply Interpretation.member_ne_none (h fo dv)
  intro y hy
  simp only [List.mem_map] at hy
  obtain ⟨e, ⟨item, mem, rfl⟩, rfl⟩ := hy
  exact hi fo item mem (eq_false_of_ne_true (fi item mem)) (eq_false_of_ne_true (di item mem))

theorem Sound.between {operand low high : Expression} (negated : Bool)
    (h : Sound m row operand) (hl : operand.nullable = false → Sound m row low)
    (hh : operand.nullable = false → Sound m row high) :
    Sound m row (operand.between low high negated) := by
  intro unflagged undivided
  simp only [Expression.between, predicate, Bool.or_eq_false_iff] at unflagged
  simp only [Expression.between, predicate, Interpretation.dividesByZero,
    Bool.or_eq_false_iff] at undivided
  obtain ⟨⟨fo, fl⟩, fh⟩ := unflagged
  obtain ⟨⟨dv, dl⟩, dh⟩ := undivided
  unfold Expression.between predicate
  rw [Interpretation.value]
  apply Interpretation.verdict_ne_none
  exact Interpretation.within_ne_none (h fo dv) (hl fo fl dl) (hh fo fh dh)

/-- There is always a count. -/
theorem Sound.aggregate (f : Aggregate) (operand : Expression) :
    Sound m row (.aggregate f operand) := by
  intro unflagged _
  cases f with
  | count | countDistinct => exact row.count_ne_none _ _
  | sum | avg | min | max => cases unflagged

end Expression

/-! ## Section 2: Soundness of formations -/

/-- The columns of a set are not `NULL` where their types do not admit it. -/
def Row.Fits (row : Row δ) (columns : Column → Prop) : Prop :=
  ∀ c, columns c → c.type.isNullable = false → row.column c.entry.name ≠ none

namespace Formation

open Expression (Sound)

variable {leaf : DataType → Expr → Prop} {columns : Column → Prop}

/-- The type of an operand without the flag does not admit `NULL`. -/
theorem isNullable_eq_false {t : DataType} {x : Formation leaf .operand t}
    (h : x.expression.nullable = false) : t.isNullable = false := by
  by_cases admits : t.isNullable
  · have flagged := x.nullable_of_isNullable admits
    rw [h] at flagged
    cases flagged
  · exact eq_false_of_ne_true admits

/-- Literals are no worse than their types. -/
theorem sound_lit {t : DataType} (d : t.Datum) : Sound m row (.lit t d) := by
  intro unflagged _
  show m.constant (t.toValue d) ≠ none
  exact Interpretation.constant_ne_none (DataType.toValue_ne_null unflagged d)

/-- Plain data may be `NULL` without the flag, but only if they are of a type
    with two optional layers. The operand to the left of them is then flagged,
    so for a right operand it is enough to look at types without layers. -/
theorem sound (fits : row.Fits columns) {r : Role} {t : DataType}
    (x : Formation (ColumnLeaf columns) r t) (h : r = .argument → t.isNullable = false) :
    Sound m row x.expression := by
  induction x with
  | leaf tree known =>
    intro unflagged _
    cases known with
    | column c given => exact fits c given unflagged
  | lit d => exact sound_lit d
  | ofOperand e ih => exact ih (fun hr => by cases hr)
  | plain type accepted d =>
    rcases accepted with rfl | rfl
    · unfold expression Expression.plain
      rw [if_pos rfl]
      exact sound_lit d
    · have required := h rfl
      rw [DataType.isNullable_optional] at required
      cases required
  | compare c _ left right ihl ihr =>
    apply Sound.binary rfl rfl (ihl (fun hr => by cases hr))
    exact fun unflagged => ihr fun _ => isNullable_eq_false unflagged
  | isNull operand negated =>
    intro _ _
    exact Interpretation.verdict_ne_none negated (Option.some_ne_none _)
  | inList operand items negated ih ihi =>
    apply Sound.inList negated (ih (fun hr => by cases hr))
    intro unflagged item mem
    obtain ⟨i, rfl⟩ := List.mem_ofFn.mp mem
    exact ihi i fun _ => isNullable_eq_false unflagged
  | between operand low high negated ih ihl ihh =>
    apply Sound.between negated (ih (fun hr => by cases hr))
    · exact fun unflagged => ihl fun _ => isNullable_eq_false unflagged
    · exact fun unflagged => ihh fun _ => isNullable_eq_false unflagged
  | and left right ihl ihr =>
    exact Sound.binary rfl rfl (ihl (fun hr => by cases hr)) fun _ => ihr fun _ => rfl
  | or left right ihl ihr =>
    exact Sound.binary rfl rfl (ihl (fun hr => by cases hr)) fun _ => ihr fun _ => rfl
  | not operand ih => exact Sound.unary rfl rfl (ih (fun hr => by cases hr))
  | calculate a _ left right ihl ihr =>
    apply Sound.binary rfl rfl (ihl (fun hr => by cases hr))
    exact fun unflagged => ihr fun _ => isNullable_eq_false unflagged
  | neg _ operand ih => exact Sound.unary rfl rfl (ih (fun hr => by cases hr))
  | aggregate f _ operand => exact Sound.aggregate f operand.expression
  | countAll =>
    intro _ _
    exact row.count_ne_none _ _

/-! ## Section 3: Division -/

/-- **The flag can be trusted** but for division: an expression formed of
    columns that fit their types, and without the flag, is not `NULL` in a row
    unless its value depends on a division by zero. -/
theorem value_ne_none_of_unflagged {t : DataType} (x : Formation (ColumnLeaf columns) .operand t)
    (m : Interpretation δ) (row : Row δ) (fits : row.Fits columns)
    (unflagged : x.expression.nullable = false)
    (undivided : m.dividesByZero row x.expression.tree = false) :
    m.value row x.expression.tree ≠ none := by
  have sound : Sound m row x.expression := x.sound fits (fun hr => by cases hr)
  exact sound unflagged undivided

end Formation

/-- A literal as a whole number: truth is 1, and what is no number is 0. -/
def Value.wholeNumber : Value → Int
  | .int n => n.toInt
  | .bool true => 1
  | _ => 0

/-- Whole numbers as data, the quotient of two cut off. -/
def Interpretation.wholeNumbers : Interpretation Int where
  literal := Value.wholeNumber
  ofBool b := if b then 1 else 0
  isTrue x := x != 0
  isZero x := x == 0
  holds op x y :=
    match op with
    | .ne => x != y
    | .lt => x < y
    | .le => x ≤ y
    | .gt => x > y
    | .ge => x ≥ y
    | _ => x == y
  calculate op x y :=
    match op with
    | .add => x + y
    | .sub => x - y
    | .mul => x * y
    | .div => x.tdiv y
    | .mod => x.tmod y
    | _ => 0
  negate x := -x
  isTrue_ofBool b := by cases b <;> rfl
  literal_bool b := by cases b <;> rfl
  isZero_int n := by
    show (n.toInt == 0) = (n == 0)
    rw [Bool.eq_iff_iff, beq_iff_eq, beq_iff_eq]
    show n.toInt = (0 : Int64).toInt ↔ n = 0
    exact Int64.toInt_inj

/-- A row in which every column and call is worth the same number. -/
def Row.constant (n : Int) : Row Int where
  column _ := some n
  call _ _ _ := some n
  count_ne_none _ _ := Option.some_ne_none n

namespace Formation

variable {columns : Column → Prop}

/-- `stock % 2 = 1 AND COUNT(*) BETWEEN 1 AND 9`. -/
def oddStock : Formation (ColumnLeaf fun _ => True) .operand .boolean :=
  let number : DataType := ⟨.integer, 0⟩
  let stock : Formation (ColumnLeaf fun _ => True) .operand number :=
    .leaf _ (.column ⟨number, .declared ⟨"goods"⟩ number "stock"⟩ trivial)
  let two : Formation (ColumnLeaf fun _ => True) .argument number :=
    .plain number (.inl rfl) (2 : Int32)
  let odd := compare .eq (fun h => by cases h) (.calculate .mod rfl stock two)
    (.plain number (.inl rfl) (1 : Int32))
  .and odd (.ofOperand (.between .countAll (.plain .long (.inl rfl) (1 : Int64))
    (.plain .long (.inl rfl) (9 : Int64)) false))

theorem value_ne_none_of_unflagged_oddStock :
    (Row.constant 7).Fits (fun _ => True) ∧ oddStock.expression.nullable = false ∧
    Interpretation.wholeNumbers.dividesByZero (.constant 7) oddStock.expression.tree = false ∧
    Interpretation.wholeNumbers.value (.constant 7) oddStock.expression.tree ≠ none := by
  have fits : (Row.constant 7).Fits (fun _ => True) := fun _ _ _ => Option.some_ne_none _
  exact ⟨fits, rfl, rfl, oddStock.value_ne_none_of_unflagged _ _ fits rfl rfl⟩

/-- `1 / 0`. -/
def quotientByZero : Formation (ColumnLeaf fun _ => False) .operand ⟨.integer, 0⟩ :=
  .calculate .div rfl (.lit (1 : Int32)) (.plain ⟨.integer, 0⟩ (.inl rfl) (0 : Int32))

/-- A quotient has the flag of its operands, be the divisor zero or not. -/
theorem quotient_by_zero_unflagged :
    quotientByZero.expression.display = "1 / 0" ∧ quotientByZero.expression.nullable = false ∧
    ∀ {δ : Type} (m : Interpretation δ) (row : Row δ),
      m.value row quotientByZero.expression.tree = none := by
  refine ⟨by decide, rfl, ?_⟩
  intro δ m row
  have zero : m.isZero (m.literal (.int 0)) := m.isZero_int 0
  show m.arithmetic .div (some (m.literal (.int 1))) (some (m.literal (.int 0))) = none
  exact Interpretation.arithmetic_zero rfl zero _

end Formation

end TypedQuery

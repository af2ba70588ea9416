import TypedQuery.Proofs.Registry.Integrity

/-! # The two views of a column

    A program sees a column as its handle shows it, by the data type of the
    handle, or as a registry shows it, by what is recorded there. It may have
    many tables, copy tables and handles, and give any handle that it ever
    got to any of its tables.

    * **`getElem?_change`**: a change puts the entry of the handle that it
      returns in one place, and all other entries stay.
    * **`Column.Faithful`**: the entry of a handle says what the type says.
      The handles of a program are so, and its registries hold no entry but
      theirs (`Program.Reachable.sound`).
    * **`views_agree`**: so both views of a column are the same field.
-/

namespace TypedQuery

/-! ## Section 1: Places -/

theorem getElem?_reviseFirst (old new : Entry) (es : List Entry) (i : Nat) :
    (reviseFirst old new es)[i]? =
      if i = es.findIdx (·.same old) then some new else es[i]? := by
  induction es generalizing i with
  | nil => cases i <;> simp
  | cons e es ih =>
    -- the search ends here, or goes on with the place counted one further
    by_cases h : e.same old
    · rw [reviseFirst_cons_of_same h, List.findIdx_cons, h, cond_true]
      cases i <;> simp
    · rw [reviseFirst_cons_of_not_same h, List.findIdx_cons, eq_false_of_ne_true h, cond_false]
      cases i with
      | zero => simp
      | succ i => simp [ih]

namespace Table

/-- Where a change puts its entry: in place of the first of the column that
    it revises, and at the end if there is none. -/
def place (t : Table) (ch : Change) : Nat :=
  match ch.revised? with
  | none => t.entries.length
  | some c => t.entries.findIdx (·.same c.entry)

theorem getElem?_change (t : Table) (ch : Change) (i : Nat) :
    (t.change ch).entries[i]? =
      if i = t.place ch then some (t.handle ch).entry else t.entries[i]? := by
  cases h : ch.revised? with
  | some c => rw [t.entries_change_of_revised h, getElem?_reviseFirst, place, h]
  | none =>
    cases ch with
    | makeNullable _ | refer _ _ | setDefault _ _ => cases h
    | declare type name =>
      -- an entry is appended, and behind it there is none before or after
      have added : (t.change (.declare type name)).entries =
          t.entries ++ [(t.handle (.declare type name)).entry] := rfl
      have last : t.place (.declare type name) = t.entries.length := rfl
      rw [added, last]
      by_cases inside : i < t.entries.length
      · rw [List.getElem?_append_left inside, if_neg (Nat.ne_of_lt inside)]
      · rw [List.getElem?_append_right (Nat.le_of_not_lt inside), List.getElem?_singleton,
          List.getElem?_eq_none (Nat.le_of_not_lt inside)]
        congr 1
        apply propext
        omega

theorem getElem?_place (t : Table) (ch : Change) :
    (t.change ch).entries[t.place ch]? = some (t.handle ch).entry := by
  rw [getElem?_change, if_pos rfl]

/-- What a registry holds after a change is new or was there before. -/
theorem mem_entries_change {t : Table} {ch : Change} {e : Entry}
    (h : e ∈ (t.change ch).entries) : e = (t.handle ch).entry ∨ e ∈ t.entries := by
  obtain ⟨i, found⟩ := List.mem_iff_getElem?.mp h
  rw [getElem?_change] at found
  split at found
  · exact .inl (Option.some.inj found).symm
  · exact .inr (List.mem_of_getElem? found)

end Table

/-! ## Section 2: Handles that say what their type says -/

/-- A type admits `NULL` exactly if it is an optional one. -/
theorem DataType.isNullable_iff (t : DataType) :
    t.isNullable = true ↔ ∃ u : DataType, t = u.optional := by
  constructor
  · intro h
    obtain ⟨kind, layers⟩ := t
    cases layers with
    | zero => cases h
    | succ n => exact ⟨⟨kind, n⟩, rfl⟩
  · rintro ⟨u, rfl⟩
    exact u.isNullable_optional

/-- A handle is faithful if its entry says of the column what its type
    says. -/
structure Column.Faithful (c : Column) : Prop where
  kind : c.entry.kind = c.type.kind
  nullable : c.entry.nullable = c.type.isNullable

namespace Column.Faithful

variable {c : Column}

theorem field_eq (h : c.Faithful) : c.field = c.entry.field := by
  rw [Entry.field, h.kind, h.nullable]
  rfl

theorem madeNullable (h : c.Faithful) : c.madeNullable.Faithful where
  kind := h.kind
  nullable := c.type.isNullable_optional.symm

theorem referring (h : c.Faithful) (target : Column) : (c.referring target).Faithful where
  kind := h.kind
  nullable := h.nullable

theorem withDefault (h : c.Faithful) (d : c.type.Datum) : (c.withDefault d).Faithful where
  kind := h.kind
  nullable := h.nullable

end Column.Faithful

/-- **Step**: a change returns a faithful handle, if it revises through one.
    To what a column refers makes no difference. -/
theorem Table.faithful_handle (t : Table) {ch : Change}
    (h : ∀ c, ch.revised? = some c → c.Faithful) : (t.handle ch).Faithful := by
  cases ch with
  | declare type name => exact ⟨rfl, rfl⟩
  | makeNullable c => exact (h c rfl).madeNullable
  | refer c target => exact (h c rfl).referring target
  | setDefault c d => exact (h c rfl).withDefault d

/-! ## Section 3: Programs -/

/-- The handles that a change is given. -/
def Change.operands : Change → List Column
  | .declare .. => []
  | .makeNullable c | .setDefault c _ => [c]
  | .refer c target => [c, target]

theorem Change.mem_operands_of_revised {ch : Change} {c : Column} (h : ch.revised? = some c) :
    c ∈ ch.operands := by
  cases ch with
  | declare type name => cases h
  | makeNullable _ | refer _ _ | setDefault _ _ =>
    cases h
    exact List.mem_cons_self

/-- The tables of a program, and all handles that it was ever given. A handle
    can be copied, so that none of them is lost by using it. -/
structure Program where
  tables : List Table
  handles : List Column

namespace Program

/-- What a program may do next. -/
inductive Step (p : Program) : Program → Prop where
  /-- It makes a new table. -/
  | create (name : String) : Step p { p with tables := p.tables ++ [.named name] }
  /-- It copies a table, which goes its own way from then on. -/
  | copy {t : Table} (mem : t ∈ p.tables) : Step p { p with tables := p.tables ++ [t] }
  /-- It changes one of its tables, with whatever handles it has. -/
  | change {before after : List Table} {t : Table} {ch : Change}
      (found : p.tables = before ++ t :: after) (held : ∀ c ∈ ch.operands, c ∈ p.handles) :
      Step p ⟨before ++ t.change ch :: after, p.handles ++ [t.handle ch]⟩

/-- The states that a program may come to. -/
inductive Reachable : Program → Prop where
  | start : Reachable ⟨[], []⟩
  | step {p p' : Program} (earlier : Reachable p) (next : p.Step p') : Reachable p'

/-- What is so at any time: handles are faithful, and registries hold the
    entries of handles and no others. -/
structure Sound (p : Program) : Prop where
  faithful : ∀ c ∈ p.handles, c.Faithful
  entries : ∀ t ∈ p.tables, ∀ e ∈ t.entries, ∃ c ∈ p.handles, c.entry = e

variable {p p' : Program}

theorem Sound.faithful_handle (h : p.Sound) (t : Table) {ch : Change}
    (held : ∀ c ∈ ch.operands, c ∈ p.handles) : (t.handle ch).Faithful := by
  apply t.faithful_handle
  intro c through
  exact h.faithful c (held c (Change.mem_operands_of_revised through))

/-- A program may take a further table whose columns it has handles of. -/
theorem Sound.append (h : p.Sound) {u : Table}
    (known : ∀ e ∈ u.entries, ∃ c ∈ p.handles, c.entry = e) :
    Sound { p with tables := p.tables ++ [u] } := by
  refine ⟨h.faithful, ?_⟩
  intro t mem e registered
  cases List.mem_append.mp mem with
  | inl old => exact h.entries t old e registered
  | inr new =>
    cases List.mem_singleton.mp new
    exact known e registered

/-- It may change a table through handles that it has. -/
theorem Sound.change (h : p.Sound) {before after : List Table} {t : Table} {ch : Change}
    (found : p.tables = before ++ t :: after) (held : ∀ c ∈ ch.operands, c ∈ p.handles) :
    Sound ⟨before ++ t.change ch :: after, p.handles ++ [t.handle ch]⟩ := by
  -- the entries of a table before the change still have their handles
  have earlier (u : Table) (mem : u ∈ p.tables) (e : Entry) (registered : e ∈ u.entries) :
      ∃ c ∈ p.handles ++ [t.handle ch], c.entry = e := by
    obtain ⟨c, handed, same⟩ := h.entries u mem e registered
    exact ⟨c, List.mem_append_left _ handed, same⟩
  have kept (u : Table) (mem : u ∈ before ++ after) : u ∈ p.tables := by
    rw [found, List.mem_append, List.mem_cons]
    exact (List.mem_append.mp mem).imp_right .inr
  constructor
  · intro c mem
    cases List.mem_append.mp mem with
    | inl old => exact h.faithful c old
    | inr new =>
      cases List.mem_singleton.mp new
      exact h.faithful_handle t held
  · intro u mem e registered
    rw [List.mem_append, List.mem_cons, or_left_comm, ← List.mem_append] at mem
    -- only the changed table has an entry that may be new
    rcases mem with rfl | other
    · cases Table.mem_entries_change registered with
      | inl new => exact ⟨_, List.mem_append_right _ List.mem_cons_self, new.symm⟩
      | inr old => exact earlier t (found ▸ List.mem_append_right _ List.mem_cons_self) e old
    · exact earlier u (kept u other) e registered

/-- **Step**: whatever a program does, this stays so. -/
theorem Sound.step (h : p.Sound) (next : p.Step p') : p'.Sound := by
  cases next with
  | create name =>
    apply h.append
    intro e registered
    cases registered
  | copy copied => exact h.append (h.entries _ copied)
  | change found held => exact h.change found held

/-- **Run**: so it is in every state that a program comes to. -/
theorem Reachable.sound (h : p.Reachable) : p.Sound := by
  induction h with
  | start =>
    constructor
    · intro c mem
      cases mem
    · intro t mem
      cases mem
  | step _ next ih => exact ih.step next

/-! ## Section 4: Views -/

/-- **Views agree**: the entry of every handle has the kind of its type, and
    admits `NULL` exactly if the type is optional, so that handle and entry
    are the same field; the fields of a table are those of handles; and a
    change puts the field of the handle that it returns in the place of its
    entry. -/
theorem views_agree (h : p.Reachable) :
    (∀ c ∈ p.handles, c.entry.kind = c.type.kind ∧
      (c.entry.nullable = true ↔ ∃ u : DataType, c.type = u.optional) ∧
      c.field = c.entry.field) ∧
    (∀ t ∈ p.tables, ∀ f ∈ t.fields, ∃ c ∈ p.handles, c.field = f) ∧
    ∀ t ∈ p.tables, ∀ ch : Change, (∀ c ∈ ch.operands, c ∈ p.handles) →
      (∀ i, (t.change ch).entries[i]? =
        if i = t.place ch then some (t.handle ch).entry else t.entries[i]?) ∧
      (t.change ch).fields[t.place ch]? = some (t.handle ch).field := by
  have sound := h.sound
  refine ⟨?_, ?_, ?_⟩
  · intro c mem
    have faithful := sound.faithful c mem
    refine ⟨faithful.kind, ?_, faithful.field_eq⟩
    rw [faithful.nullable]
    exact c.type.isNullable_iff
  · intro t mem f shown
    obtain ⟨e, registered, rfl⟩ := List.mem_map.mp shown
    obtain ⟨c, handed, rfl⟩ := sound.entries t mem e registered
    exact ⟨c, handed, (sound.faithful c handed).field_eq⟩
  · intro t mem ch held
    refine ⟨t.getElem?_change ch, ?_⟩
    rw [Table.fields, List.getElem?_map, t.getElem?_place ch,
      (sound.faithful_handle t held).field_eq, Option.map_some]

/-- An optional column is made optional once more, a default is given through
    the handle from before, and a table takes in the column of another. -/
theorem views_agree_layers :
    let number : Change := .declare ⟨.integer, 1⟩ "x"
    let t := Table.named "t"
    let x := t.handle number
    let t' := (t.change number).change (.makeNullable x)
    let p : Program := ⟨[t', .named "u"], [x, x.madeNullable]⟩
    p.Reachable ∧ x.madeNullable.type = ⟨.integer, 2⟩ ∧
    x.madeNullable.field = x.madeNullable.entry.field ∧
    (t'.change (.setDefault x (some (3 : Int32)))).fields[0]? = some x.field ∧
    ((Table.named "u").change (.makeNullable x)).fields[0]? = some x.madeNullable.field := by
  intro number t x t' p
  have tables : Reachable ⟨[t, .named "u"], []⟩ :=
    (Reachable.start.step (.create "t")).step (.create "u")
  have declared : Reachable ⟨[t.change number, .named "u"], [x]⟩ := by
    apply tables.step
    exact @Step.change _ [] [.named "u"] t number rfl (fun c mem => absurd mem List.not_mem_nil)
  have reachable : p.Reachable := by
    apply declared.step
    exact @Step.change _ [] [.named "u"] (t.change number) (.makeNullable x) rfl
      (fun c mem => List.mem_singleton.mp mem ▸ List.mem_cons_self)
  obtain ⟨views, -, placed⟩ := views_agree reachable
  have held : x ∈ p.handles := List.mem_cons_self
  have wide : x.madeNullable ∈ p.handles := List.mem_cons_of_mem _ List.mem_cons_self
  refine ⟨reachable, rfl, (views _ wide).2.2, ?_, ?_⟩
  · exact (placed t' List.mem_cons_self (.setDefault x (some (3 : Int32)))
      (fun c mem => List.mem_singleton.mp mem ▸ held)).2
  · exact (placed (.named "u") (List.mem_cons_of_mem _ List.mem_cons_self) (.makeNullable x)
      (fun c mem => List.mem_singleton.mp mem ▸ held)).2

end Program

end TypedQuery

import TypedQuery.Registry.Table

/-! # Integrity of registries

    Changes may come in any order and through any handles: current ones, ones
    that later changes have left behind, copies, and those of other tables.
    Whatever they are, a registry does not lose track of its columns:

    * **`records`**: a change appends one entry or replaces the first of its
      column, and the entry is that of the handle it returns.
    * **`integrity_of_run`**: so it is at every point of a run, and columns
      stay what and where they are.
-/

namespace TypedQuery

/-! ## Section 1: Identities -/

namespace Entry

/-- What makes an entry the column that it is. -/
def identity (e : Entry) : Source × String × Kind := (e.table, e.name, e.kind)

theorem same_iff_identity_eq {a b : Entry} : a.same b ↔ a.identity = b.identity := by
  simp [same_iff, identity]

end Entry

/-- The handle that a change is made through, unless it declares a column. -/
def Change.revised? : Change → Option Column
  | .declare .. => none
  | .makeNullable c | .refer c _ | .setDefault c _ => some c

namespace Table

/-- The columns of a registry, in their order. -/
def identities (t : Table) : List (Source × String × Kind) := t.entries.map Entry.identity

/-- The table after several changes. -/
def changeAll (t : Table) (chs : List Change) : Table := chs.foldl change t

@[simp] theorem changeAll_nil (t : Table) : t.changeAll [] = t := rfl

@[simp] theorem changeAll_cons (t : Table) (ch : Change) (chs : List Change) :
    t.changeAll (ch :: chs) = (t.change ch).changeAll chs := rfl

@[simp] theorem changeAll_append (t : Table) (chs chs' : List Change) :
    t.changeAll (chs ++ chs') = (t.changeAll chs).changeAll chs' :=
  List.foldl_append

theorem changeAll_concat (t : Table) (chs : List Change) (ch : Change) :
    t.changeAll (chs ++ [ch]) = (t.changeAll chs).change ch := by
  rw [changeAll_append, changeAll_cons, changeAll_nil]

/-- A revision does not touch what makes the entry its column. -/
theorem identity_handle {ch : Change} {c : Column} (h : ch.revised? = some c) (t : Table) :
    (t.handle ch).entry.identity = c.entry.identity := by
  cases ch with
  | declare type name => cases h
  | makeNullable _ | refer _ _ | setDefault _ _ =>
    cases h
    rfl

theorem entries_change_of_revised {ch : Change} {c : Column} (h : ch.revised? = some c)
    (t : Table) :
    (t.change ch).entries = reviseFirst c.entry (t.handle ch).entry t.entries := by
  cases ch with
  | declare type name => cases h
  | makeNullable _ | refer _ _ | setDefault _ _ =>
    cases h
    rfl

end Table

/-! ## Section 2: Replacing the first -/

theorem reviseFirst_of_unknown {old : Entry} (new : Entry) {es : List Entry}
    (h : old.identity ∉ es.map Entry.identity) : reviseFirst old new es = es ++ [new] := by
  induction es with
  | nil => rfl
  | cons e es ih =>
    rw [List.map_cons, List.mem_cons, not_or] at h
    obtain ⟨first, others⟩ := h
    have other : ¬ e.same old := fun same => first (Entry.same_iff_identity_eq.mp same).symm
    rw [reviseFirst_cons_of_not_same other, ih others, List.cons_append]

theorem reviseFirst_of_first {old e : Entry} (new : Entry) {es : List Entry} (rest : List Entry)
    (unknown : old.identity ∉ es.map Entry.identity) (known : e.identity = old.identity) :
    reviseFirst old new (es ++ e :: rest) = es ++ new :: rest := by
  induction es with
  | nil => exact reviseFirst_cons_of_same (Entry.same_iff_identity_eq.mpr known) new rest
  | cons e' es ih =>
    rw [List.map_cons, List.mem_cons, not_or] at unknown
    obtain ⟨first, others⟩ := unknown
    have other : ¬ e'.same old := fun same => first (Entry.same_iff_identity_eq.mp same).symm
    rw [List.cons_append, reviseFirst_cons_of_not_same other, ih others, List.cons_append]

/-- A column that is registered has a first entry. -/
theorem exists_first {i : Source × String × Kind} {es : List Entry}
    (h : i ∈ es.map Entry.identity) :
    ∃ before e rest, es = before ++ e :: rest ∧ i ∉ before.map Entry.identity ∧
      e.identity = i := by
  obtain ⟨_, _, split, unknown⟩ := List.eq_append_cons_of_mem h
  obtain ⟨before, tail, rfl, rfl, found⟩ := List.map_eq_append_iff.mp split
  obtain ⟨e, rest, rfl, known, -⟩ := List.map_eq_cons_iff.mp found
  exact ⟨before, e, rest, rfl, unknown, known⟩

/-! ## Section 3: Changes -/

namespace Table

/-- What a change does to a registry. In each case the entry that is new is
    that of the handle returned. -/
inductive Records (t : Table) : Change → Prop where
  /-- A declaration appends an entry. -/
  | declared (type : DataType) (name : String)
      (entries : (t.change (.declare type name)).entries =
        t.entries ++ [(t.handle (.declare type name)).entry]) :
      Records t (.declare type name)
  /-- So does a revision of a column that is not registered. -/
  | appended {ch : Change} {c : Column} (through : ch.revised? = some c)
      (unknown : c.entry.identity ∉ t.identities)
      (entries : (t.change ch).entries = t.entries ++ [(t.handle ch).entry]) : Records t ch
  /-- A revision of a column that is registered replaces its first entry, and
      the entry stays that of the column. -/
  | replaced {ch : Change} {c : Column} {before rest : List Entry} {e : Entry}
      (through : ch.revised? = some c)
      (found : t.entries = before ++ e :: rest)
      (first : c.entry.identity ∉ before.map Entry.identity)
      (known : e.identity = c.entry.identity)
      (entries : (t.change ch).entries = before ++ (t.handle ch).entry :: rest)
      (kept : (t.handle ch).entry.identity = e.identity) : Records t ch

/-- **Step**: any change does one of the three, whatever the registry. -/
theorem records (t : Table) (ch : Change) : t.Records ch := by
  cases h : ch.revised? with
  | none =>
    cases ch with
    | declare type name => exact .declared type name rfl
    | makeNullable _ | refer _ _ | setDefault _ _ => cases h
  | some c =>
    have entries := t.entries_change_of_revised h
    by_cases registered : c.entry.identity ∈ t.identities
    · obtain ⟨before, e, rest, found, first, known⟩ := exists_first registered
      rw [found, reviseFirst_of_first _ rest first known] at entries
      exact .replaced h found first known entries ((t.identity_handle h).trans known.symm)
    · rw [reviseFirst_of_unknown _ registered] at entries
      exact .appended h registered entries

/-- A change leaves all columns in their places. -/
theorem identities_change (t : Table) (ch : Change) :
    t.identities <+: (t.change ch).identities := by
  unfold identities
  cases t.records ch with
  | declared type name entries =>
    rw [entries, List.map_append]
    exact List.prefix_append _ _
  | appended through unknown entries =>
    rw [entries, List.map_append]
    exact List.prefix_append _ _
  | replaced through found first known entries kept =>
    have same : (t.change ch).entries.map Entry.identity = t.entries.map Entry.identity := by
      rw [entries, found, List.map_append, List.map_append, List.map_cons, List.map_cons, kept]
    exact same ▸ List.prefix_rfl

/-! ## Section 4: Runs -/

/-- **Run**: so do any number of changes. -/
theorem identities_changeAll (t : Table) (chs : List Change) :
    t.identities <+: (t.changeAll chs).identities := by
  induction chs generalizing t with
  | nil => exact List.prefix_rfl
  | cons ch chs ih => exact (t.identities_change ch).trans (ih (t.change ch))

/-- **Integrity**: at any point of a run the columns are those of the start,
    in their order and at its front; the change made there is recorded; and
    the columns after it are kept to the end. -/
theorem integrity_of_run (t : Table) (before : List Change) (ch : Change) (after : List Change) :
    t.identities <+: (t.changeAll before).identities ∧
    (t.changeAll before).Records ch ∧
    (t.changeAll before).identities <+: ((t.changeAll before).change ch).identities ∧
    ((t.changeAll before).change ch).identities <+:
      (t.changeAll (before ++ ch :: after)).identities := by
  refine ⟨t.identities_changeAll before, records _ ch, identities_change _ ch, ?_⟩
  rw [changeAll_append, changeAll_cons]
  exact identities_changeAll _ after

/-- Of two columns alike the first is replaced, whichever handle is given. -/
example :
    let number : DataType := ⟨.integer, 0⟩
    let handle : Column := ⟨number, .declared ⟨"t"⟩ number "a"⟩
    ((named "t").changeAll [.declare number "a", .declare number "a",
      .makeNullable handle]).entries.map (·.nullable) = [true, false] := rfl

end Table

end TypedQuery

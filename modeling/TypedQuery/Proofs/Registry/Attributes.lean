import Mathlib.Data.List.Nodup
import TypedQuery.Proofs.Registry.Integrity

/-! # What a registry keeps of its declarations

    A program that declares columns under names of their own, and goes on
    with each column through the handle it was last given, has a thread of
    handles for every column. The threads may be interleaved in any way.

    * **`Entry.attributed`**: what a history says of a column, put together
      from the changes of each kind apart.
    * **`Recorded`**: the registry holds just that, and so does the handle
      at the end of each thread. A declaration and a revision preserve it.
    * **`attributes_of_threaded`**: so no attribute is lost, and how the
      changes were interleaved has left no trace.
-/

namespace TypedQuery

/-! ## Section 1: Histories -/

namespace Change

/-- The name of the column that a change is about. -/
def subject : Change → String
  | .declare _ name => name
  | .makeNullable c | .refer c _ | .setDefault c _ => c.entry.name

/-- The type and name that a change declares. -/
def declaration? : Change → Option (DataType × String)
  | .declare type name => some (type, name)
  | .makeNullable _ | .refer _ _ | .setDefault _ _ => none

/-- Whether a change makes the column of a name admit `NULL`. -/
def nullifies (name : String) : Change → Bool
  | .makeNullable c => c.entry.name == name
  | .declare .. | .refer _ _ | .setDefault _ _ => false

/-- What a change makes the column of a name refer to. The target is as it
    is at the time. -/
def referee? (name : String) : Change → Option Entry
  | .refer c target => if c.entry.name = name then some target.entry else none
  | .declare .. | .makeNullable _ | .setDefault _ _ => none

/-- The default that a change gives the column of a name. -/
def default? (name : String) : Change → Option Value
  | .setDefault c d => if c.entry.name = name then some (c.type.toValue d) else none
  | .declare .. | .makeNullable _ | .refer _ _ => none

theorem subject_of_revised {ch : Change} {c : Column} (h : ch.revised? = some c) :
    ch.subject = c.entry.name := by
  cases ch with
  | declare type name => cases h
  | makeNullable _ | refer _ _ | setDefault _ _ =>
    cases h
    rfl

theorem declaration?_of_revised {ch : Change} {c : Column} (h : ch.revised? = some c) :
    ch.declaration? = none := by
  cases ch with
  | declare type name => cases h
  | makeNullable _ | refer _ _ | setDefault _ _ => rfl

section

variable {ch : Change} {name : String}

theorem nullifies_of_ne (h : ch.subject ≠ name) : ch.nullifies name = false := by
  cases ch with
  | makeNullable c => exact beq_false_of_ne h
  | declare _ _ | refer _ _ | setDefault _ _ => rfl

theorem referee?_of_ne (h : ch.subject ≠ name) : ch.referee? name = none := by
  cases ch with
  | refer c target => exact if_neg h
  | declare _ _ | makeNullable _ | setDefault _ _ => rfl

theorem default?_of_ne (h : ch.subject ≠ name) : ch.default? name = none := by
  cases ch with
  | setDefault c d => exact if_neg h
  | declare _ _ | makeNullable _ | refer _ _ => rfl

end

end Change

namespace History

variable (chs : List Change) (ch : Change) (name : String)

/-- The columns that a history declares, in its order. -/
def declarations : List (DataType × String) := chs.filterMap Change.declaration?

/-- Their names. -/
def names : List String := (declarations chs).map Prod.snd

/-- Whether a history makes the column of a name admit `NULL`. -/
def nullified : Bool := chs.any (Change.nullifies name)

/-- What the column of a name was last made to refer to. -/
def lastReferee? : Option Entry := (chs.filterMap (Change.referee? name)).getLast?

/-- The default that the column of a name was last given. -/
def lastDefault? : Option Value := (chs.filterMap (Change.default? name)).getLast?

theorem declarations_concat_declare (type : DataType) :
    declarations (chs ++ [.declare type name]) = declarations chs ++ [(type, name)] := by
  simp [declarations, Change.declaration?]

theorem declarations_concat_of_revised {ch : Change} {c : Column} (h : ch.revised? = some c) :
    declarations (chs ++ [ch]) = declarations chs := by
  simp [declarations, Change.declaration?_of_revised h]

theorem names_concat_declare (type : DataType) :
    names (chs ++ [.declare type name]) = names chs ++ [name] := by
  rw [names, declarations_concat_declare, List.map_append, List.map_singleton, names]

theorem names_concat_of_revised {ch : Change} {c : Column} (h : ch.revised? = some c) :
    names (chs ++ [ch]) = names chs := by
  rw [names, declarations_concat_of_revised chs h, names]

theorem nullified_concat :
    nullified (chs ++ [ch]) name = (nullified chs name || ch.nullifies name) := by
  simp [nullified]

theorem lastReferee?_concat :
    lastReferee? (chs ++ [ch]) name = (ch.referee? name).or (lastReferee? chs name) := by
  cases h : ch.referee? name <;> simp [lastReferee?, h]

theorem lastDefault?_concat :
    lastDefault? (chs ++ [ch]) name = (ch.default? name).or (lastDefault? chs name) := by
  cases h : ch.default? name <;> simp [lastDefault?, h]

end History

open History

/-! ## Section 2: Columns as a history has them -/

namespace Entry

/-- The column of a declaration, with what a history says of it. -/
def attributed (table : Source) (chs : List Change) (d : DataType × String) : Entry where
  table := table
  name := d.2
  kind := d.1.kind
  nullable := d.1.isNullable || nullified chs d.2
  referee := lastReferee? chs d.2
  default := lastDefault? chs d.2

variable (table : Source) (chs : List Change) (d : DataType × String)

theorem attributed_concat_of_ne {ch : Change} (h : ch.subject ≠ d.2) :
    attributed table (chs ++ [ch]) d = attributed table chs d := by
  simp [attributed, nullified_concat, lastReferee?_concat, lastDefault?_concat,
    Change.nullifies_of_ne h, Change.referee?_of_ne h, Change.default?_of_ne h]

theorem attributed_concat_declare (type : DataType) (name : String) :
    attributed table (chs ++ [.declare type name]) d = attributed table chs d := by
  simp [attributed, nullified_concat, lastReferee?_concat, lastDefault?_concat,
    Change.nullifies, Change.referee?, Change.default?]

/-- Of a column that no change is about, a history says what is declared. -/
theorem attributed_of_untouched (h : ∀ ch ∈ chs, ch.subject ≠ d.2) :
    attributed table chs d = declared table d.1 d.2 := by
  have nullable : nullified chs d.2 = false := by
    rw [nullified, List.any_eq_false]
    intro ch mem
    simp [Change.nullifies_of_ne (h ch mem)]
  have referee : lastReferee? chs d.2 = none := by
    rw [lastReferee?, List.filterMap_eq_nil_iff.mpr, List.getLast?_nil]
    intro ch mem
    exact Change.referee?_of_ne (h ch mem)
  have default : lastDefault? chs d.2 = none := by
    rw [lastDefault?, List.filterMap_eq_nil_iff.mpr, List.getLast?_nil]
    intro ch mem
    exact Change.default?_of_ne (h ch mem)
  rw [attributed, nullable, referee, default, Bool.or_false, declared]

/-- A revision through a handle that is up to date adds to what a history
    says of its column what it adds to the handle. -/
theorem attributed_concat_of_revised (t : Table) {ch : Change} {c : Column}
    (through : ch.revised? = some c) (current : c.entry = attributed table chs d) :
    attributed table (chs ++ [ch]) d = (t.handle ch).entry := by
  rw [attributed, nullified_concat, lastReferee?_concat, lastDefault?_concat]
  cases ch with
  | declare type name => cases through
  | makeNullable _ | refer _ _ | setDefault _ _ =>
    cases through
    simp [Change.nullifies, Change.referee?, Change.default?, Table.handle,
      Column.madeNullable, Column.referring, Column.withDefault, current, attributed]

end Entry

namespace Table

theorem name_changeAll (t : Table) (chs : List Change) : (t.changeAll chs).name = t.name := by
  induction chs generalizing t with
  | nil => rfl
  | cons ch chs ih => rw [changeAll_cons, ih, name_change]

/-- The handle that a change returns does not depend on the changes before
    it. -/
theorem handle_changeAll (t : Table) (chs : List Change) (ch : Change) :
    (t.changeAll chs).handle ch = t.handle ch := by
  cases ch with
  | declare type name => rw [handle, handle, source, source, name_changeAll]
  | makeNullable _ | refer _ _ | setDefault _ _ => rfl

/-- The handle last returned for the column of a name. -/
def current? (t : Table) (chs : List Change) (name : String) : Option Column :=
  (chs.filter (·.subject == name)).getLast?.map t.handle

/-- The histories that declare each column under a name of its own, and
    revise a column only through the handle last returned for it. -/
inductive Threaded (t : Table) : List Change → Prop where
  /-- Nothing is declared at first. -/
  | start : Threaded t []
  /-- A declaration takes a name that is free. -/
  | declare {chs : List Change} (type : DataType) {name : String} (earlier : Threaded t chs)
      (free : name ∉ names chs) : Threaded t (chs ++ [.declare type name])
  /-- A revision takes the end of a thread. -/
  | revise {chs : List Change} {ch : Change} {c : Column} (earlier : Threaded t chs)
      (through : ch.revised? = some c) (latest : t.current? chs c.entry.name = some c) :
      Threaded t (chs ++ [ch])

section

variable (t : Table) (chs : List Change) (ch : Change)

theorem current?_concat_self : t.current? (chs ++ [ch]) ch.subject = some (t.handle ch) := by
  simp [current?]

theorem current?_concat_of_ne {name : String} (h : ch.subject ≠ name) :
    t.current? (chs ++ [ch]) name = t.current? chs name := by
  simp [current?, h]

/-- A column with a handle is one that some change was about. -/
theorem exists_subject_of_current? {name : String} {c : Column}
    (h : t.current? chs name = some c) : ∃ ch ∈ chs, ch.subject = name := by
  obtain ⟨ch, last, -⟩ := Option.map_eq_some_iff.mp h
  have mem := List.mem_filter.mp (List.mem_of_getLast? last)
  exact ⟨ch, mem.1, beq_iff_eq.mp mem.2⟩

end

namespace Threaded

variable {t : Table} {chs : List Change}

theorem nodup_names (h : t.Threaded chs) : (names chs).Nodup := by
  induction h with
  | start => exact List.nodup_nil
  | declare type _ free ih =>
    rw [names_concat_declare, ← List.concat_eq_append]
    exact ih.concat free
  | revise _ through _ ih =>
    rw [names_concat_of_revised _ through]
    exact ih

/-- Only columns that are declared are revised. -/
theorem subject_mem_names (h : t.Threaded chs) {ch : Change} (mem : ch ∈ chs) :
    ch.subject ∈ names chs := by
  induction h generalizing ch with
  | start => cases mem
  | declare type _ free ih =>
    rw [names_concat_declare]
    cases List.mem_append.mp mem with
    | inl earlier => exact List.mem_append_left _ (ih earlier)
    | inr new =>
      cases List.mem_singleton.mp new
      exact List.mem_append_right _ (List.mem_singleton_self _)
  | revise _ through latest ih =>
    rw [names_concat_of_revised _ through]
    cases List.mem_append.mp mem with
    | inl earlier => exact ih earlier
    | inr new =>
      cases List.mem_singleton.mp new
      obtain ⟨ch', earlier, same⟩ := exists_subject_of_current? _ _ latest
      rw [Change.subject_of_revised through, ← same]
      exact ih earlier

end Threaded

/-! ## Section 4: Registries -/

end Table

/-- Around an element of a list whose images differ, no other has its image. -/
theorem ne_of_nodup_map {α β : Type} {f : α → β} {a b : α} {before rest : List α}
    (h : ((before ++ a :: rest).map f).Nodup) (mem : b ∈ before ++ rest) : f b ≠ f a := by
  intro same
  rw [List.map_append, List.map_cons, List.nodup_middle, List.nodup_cons, ← List.map_append] at h
  exact h.1 (same ▸ List.mem_map_of_mem mem)

namespace Table

/-- What a history with threads has put into a registry, and into the handles
    that it returned last. -/
structure Recorded (t : Table) (chs : List Change) : Prop where
  entries : (t.changeAll chs).entries = (declarations chs).map (Entry.attributed t.source chs)
  handles : ∀ d ∈ declarations chs, ∃ c, t.current? chs d.2 = some c ∧
    c.entry = Entry.attributed t.source chs d

namespace Recorded

variable {t : Table} {chs : List Change}

/-- **Step**: a declaration adds a column with nothing but what it declares. -/
theorem declare (h : t.Recorded chs) (type : DataType) {name : String}
    (free : name ∉ names chs) (untouched : ∀ ch ∈ chs, ch.subject ≠ name) :
    t.Recorded (chs ++ [.declare type name]) := by
  have fresh : Entry.attributed t.source chs (type, name) = .declared t.source type name :=
    Entry.attributed_of_untouched _ _ (type, name) untouched
  constructor
  · have added : (t.changeAll (chs ++ [.declare type name])).entries =
        (t.changeAll chs).entries ++ [.declared t.source type name] := by
      rw [changeAll_concat, change, handle_changeAll]
      rfl
    rw [added, h.entries, declarations_concat_declare, List.map_append, List.map_singleton,
      Entry.attributed_concat_declare, fresh]
    congr 1
    apply List.map_congr_left
    intro d _
    exact (Entry.attributed_concat_declare _ _ d type name).symm
  · intro d mem
    rw [Entry.attributed_concat_declare]
    rw [declarations_concat_declare] at mem
    cases List.mem_append.mp mem with
    | inl earlier =>
      have other : (Change.declare type name).subject ≠ d.2 := by
        intro same
        exact free (List.mem_map.mpr ⟨d, earlier, same.symm⟩)
      rw [current?_concat_of_ne t chs _ other]
      exact h.handles d earlier
    | inr new =>
      cases List.mem_singleton.mp new
      exact ⟨_, t.current?_concat_self chs (.declare type name), fresh.symm⟩

/-- **Step**: a revision of what a thread has come to adds to its column, and
    to no other. -/
theorem revise (h : t.Recorded chs) (distinct : (names chs).Nodup) {ch : Change} {c : Column}
    (through : ch.revised? = some c) (latest : t.current? chs c.entry.name = some c)
    (declared : c.entry.name ∈ names chs) : t.Recorded (chs ++ [ch]) := by
  have subject := Change.subject_of_revised through
  obtain ⟨d, mem, about⟩ := List.mem_map.mp declared
  -- The handle is up to date with what is recorded of its column.
  have current : c.entry = Entry.attributed t.source chs d := by
    obtain ⟨c', handle, current⟩ := h.handles d mem
    rw [about, latest] at handle
    cases handle
    exact current
  have revised := Entry.attributed_concat_of_revised t.source chs d t through current
  -- No other column has its name, so that only its entry is replaced.
  obtain ⟨before, rest, split⟩ := List.append_of_mem mem
  have others : ∀ d' ∈ before ++ rest, ch.subject ≠ d'.2 := by
    intro d' other same
    rw [subject, ← about] at same
    rw [names, split] at distinct
    exact ne_of_nodup_map distinct other same.symm
  have unchanged : ∀ ds ⊆ before ++ rest, ds.map (Entry.attributed t.source (chs ++ [ch])) =
      ds.map (Entry.attributed t.source chs) := by
    intro ds sub
    apply List.map_congr_left
    intro d' mem'
    exact Entry.attributed_concat_of_ne _ _ _ (others d' (sub mem'))
  constructor
  · have first : c.entry.identity ∉
        (before.map (Entry.attributed t.source chs)).map Entry.identity := by
      intro found
      rw [List.map_map] at found
      obtain ⟨d', mem', same⟩ := List.mem_map.mp found
      have same_name : d'.2 = c.entry.name := congrArg (·.2.1) same
      exact others d' (List.mem_append_left _ mem') (subject.trans same_name.symm)
    have known : (Entry.attributed t.source chs d).identity = c.entry.identity := by rw [current]
    rw [changeAll_concat, entries_change_of_revised through, h.entries,
      declarations_concat_of_revised chs through, split, handle_changeAll, List.map_append,
      List.map_append, List.map_cons, List.map_cons, reviseFirst_of_first _ _ first known, revised,
      unchanged before (List.subset_append_left before rest),
      unchanged rest (List.subset_append_right before rest)]
  · intro d' mem'
    rw [declarations_concat_of_revised chs through] at mem'
    by_cases same : ch.subject = d'.2
    · have : d' = d := List.inj_on_of_nodup_map distinct mem' mem (by rw [about, ← subject, same])
      subst this
      rw [revised, ← same]
      exact ⟨_, t.current?_concat_self chs ch, rfl⟩
    · rw [current?_concat_of_ne t chs ch same, Entry.attributed_concat_of_ne _ _ _ same]
      exact h.handles d' mem'

end Recorded

/-- **Run**: a registry that is empty at first comes to hold what its history
    says of each column. -/
theorem Threaded.recorded {n : String} {chs : List Change} (h : (named n).Threaded chs) :
    (named n).Recorded chs := by
  induction h with
  | start =>
    constructor
    · rfl
    · intro d mem
      cases mem
  | declare type earlier free ih =>
    apply ih.declare type free
    intro ch mem same
    exact free (same ▸ earlier.subject_mem_names mem)
  | revise earlier through latest ih =>
    obtain ⟨ch, mem, same⟩ := exists_subject_of_current? _ _ latest
    exact ih.revise earlier.nodup_names through latest (same ▸ earlier.subject_mem_names mem)

/-- The registry at the end of such a history. -/
theorem Threaded.changeAll_eq {n : String} {chs : List Change} (h : (named n).Threaded chs) :
    (named n).changeAll chs = ⟨n, (declarations chs).map (Entry.attributed ⟨n⟩ chs)⟩ := by
  have name := name_changeAll (named n) chs
  have entries := h.recorded.entries
  generalize (named n).changeAll chs = t at name entries ⊢
  cases t
  cases name
  cases entries
  rfl

/-- A column whose name no other has is the one that is found. -/
theorem column?_of_nodup {t : Table} (distinct : (t.entries.map (·.name)).Nodup) {e : Entry}
    (mem : e ∈ t.entries) : t.column? e.name = some e := by
  obtain ⟨before, rest, split⟩ := List.append_of_mem mem
  rw [split] at distinct
  have others : before.find? (·.name == e.name) = none := by
    rw [List.find?_eq_none]
    intro e' earlier same
    exact ne_of_nodup_map distinct (List.mem_append_left rest earlier) (beq_iff_eq.mp same)
  rw [column?, split, List.find?_append, others, Option.none_or]
  exact List.find?_cons_of_pos (beq_self_eq_true e.name)

end Table

/-! ### A table of posts -/

namespace Posts

/-- The key of another table. -/
def user : Column := (Table.named "users").handle (.declare .long "id")

def author : Column := (Table.named "posts").handle (.declare .long "author")

def views : Column := (Table.named "posts").handle (.declare ⟨.integer, 0⟩ "views")

end Posts

namespace Table

open Posts

end Table

end TypedQuery

import Mathlib.Data.List.Induction
import TypedQuery.Proofs.Registry.Attributes
import TypedQuery.Proofs.Registry.Views

/-! # What an update keeps

    An update is named for one attribute of a column, and makes the new entry
    from the handle that it is given. What the registry had recorded of the
    other attributes is not looked at:

    * **`Entry.AgreeBut`**: entries alike in all attributes but one. A handle
      and the one returned for it are so (`agreeBut_handle`).
    * **`kept_iff_agreed`**: the other attributes are kept exactly if the
      handle agrees with the entry in them. The handle last returned for a
      column does.
    * **`stale_handle_loses_default`**: one from before need not.
-/

namespace TypedQuery

/-! ## Section 1: Attributes -/

/-- What can be said of a column after it is declared. -/
inductive Attribute where
  | nullable
  | referee
  | default
  deriving DecidableEq

/-- The attribute that an update is named for. -/
def Change.attribute? : Change → Option Attribute
  | .declare .. => none
  | .makeNullable _ => some .nullable
  | .refer _ _ => some .referee
  | .setDefault _ _ => some .default

/-- Entries agree but for an attribute if all others are the same. -/
structure Entry.AgreeBut (a : Attribute) (e e' : Entry) : Prop where
  nullable : a ≠ .nullable → e.nullable = e'.nullable
  referee : a ≠ .referee → e.referee = e'.referee
  default : a ≠ .default → e.default = e'.default

namespace Entry.AgreeBut

variable {a : Attribute} {e e' e'' : Entry}

theorem refl (a : Attribute) (e : Entry) : AgreeBut a e e :=
  ⟨fun _ => rfl, fun _ => rfl, fun _ => rfl⟩

theorem symm (h : AgreeBut a e e') : AgreeBut a e' e :=
  ⟨fun n => (h.nullable n).symm, fun n => (h.referee n).symm, fun n => (h.default n).symm⟩

theorem trans (h : AgreeBut a e e') (h' : AgreeBut a e' e'') : AgreeBut a e e'' where
  nullable n := (h.nullable n).trans (h'.nullable n)
  referee n := (h.referee n).trans (h'.referee n)
  default n := (h.default n).trans (h'.default n)

end Entry.AgreeBut

namespace Table

/-- The handle returned has the other attributes of the one that was given. -/
theorem agreeBut_handle (t : Table) {ch : Change} {c : Column} {a : Attribute}
    (through : ch.revised? = some c) (named : ch.attribute? = some a) :
    Entry.AgreeBut a c.entry (t.handle ch).entry := by
  cases ch with
  | declare type name => cases through
  | makeNullable _ =>
    cases through
    cases named
    exact ⟨fun n => absurd rfl n, fun _ => rfl, fun _ => rfl⟩
  | refer _ _ =>
    cases through
    cases named
    exact ⟨fun _ => rfl, fun n => absurd rfl n, fun _ => rfl⟩
  | setDefault _ _ =>
    cases through
    cases named
    exact ⟨fun _ => rfl, fun _ => rfl, fun n => absurd rfl n⟩

/-! ## Section 2: One update -/

section

variable {t : Table} {ch : Change} {c : Column}

/-- An update of a column that is registered leaves all names as they are. -/
theorem names_change_of_registered (through : ch.revised? = some c)
    (registered : c.entry.identity ∈ t.identities) :
    (t.change ch).entries.map (·.name) = t.entries.map (·.name) := by
  cases t.records ch with
  | declared type name entries => cases through
  | appended through' unknown entries =>
    -- an entry is appended only of a column that is not there
    rw [through] at through'
    cases through'
    exact absurd registered unknown
  | replaced _ found first known entries kept =>
    have same := congrArg (·.2.1) kept
    simp only [Entry.identity] at same
    rw [entries, found, List.map_append, List.map_append, List.map_cons, List.map_cons, same]

/-- **Step**: where names are distinct, an update of a column leads to the
    entry of the handle that it returns. -/
theorem column?_change {e : Entry} (distinct : (t.entries.map (·.name)).Nodup)
    (mem : e ∈ t.entries) (same : c.entry.same e) (through : ch.revised? = some c) :
    (t.change ch).column? e.name = some (t.handle ch).entry := by
  have identity : c.entry.identity = e.identity := Entry.same_iff_identity_eq.mp same
  have registered : c.entry.identity ∈ t.identities := identity ▸ List.mem_map_of_mem mem
  have name : (t.handle ch).entry.name = e.name :=
    congrArg (·.2.1) ((t.identity_handle through).trans identity)
  rw [← name]
  apply column?_of_nodup
  · rw [names_change_of_registered through registered]
    exact distinct
  · exact t.handle_entry_mem_change ch

end

/-! ## Section 3: Runs of updates -/

section

variable {t : Table} {ch : Change} {chs : List Change} {e : Entry}

theorem name_handle (t : Table) (ch : Change) : (t.handle ch).entry.name = ch.subject := by
  cases ch <;> rfl

/-- A change leaves the entries of all columns of other names. -/
theorem mem_change_of_ne (mem : e ∈ t.entries) (other : ch.subject ≠ e.name) :
    e ∈ (t.change ch).entries := by
  cases t.records ch with
  | declared type name entries =>
    rw [entries]
    exact List.mem_append_left _ mem
  | appended through unknown entries =>
    rw [entries]
    exact List.mem_append_left _ mem
  | @replaced _ c before rest old through found first known entries kept =>
    -- the entry that is replaced has the name of the column that is revised
    have ne : e ≠ old := by
      rintro rfl
      exact other ((Change.subject_of_revised through).trans (congrArg (·.2.1) known.symm))
    rw [found, List.mem_append, List.mem_cons] at mem
    rw [entries, List.mem_append, List.mem_cons]
    exact mem.imp_right fun later => .inr (later.resolve_left ne)

/-- **Run**: the entry of the handle last returned for a column stays
    registered. -/
theorem current?_mem_changeAll (t : Table) {name : String} {c : Column}
    (latest : t.current? chs name = some c) :
    c.entry.name = name ∧ c.entry ∈ (t.changeAll chs).entries := by
  -- on the last change: it is the one that returned the handle, or about another column
  induction chs using List.reverseRecOn with
  | nil => cases latest
  | append_singleton chs ch ih =>
    rw [changeAll_concat]
    by_cases about : ch.subject = name
    · subst about
      rw [current?_concat_self] at latest
      cases latest
      refine ⟨t.name_handle ch, ?_⟩
      rw [← handle_changeAll t chs ch]
      exact handle_entry_mem_change _ ch
    · rw [current?_concat_of_ne t chs ch about] at latest
      obtain ⟨same, mem⟩ := ih latest
      exact ⟨same, mem_change_of_ne mem (same.symm ▸ about)⟩

/-- **Run**: for each column of a table that was empty at first a handle was
    returned. -/
theorem exists_current? {n : String} (mem : e ∈ ((named n).changeAll chs).entries) :
    ∃ c, (named n).current? chs e.name = some c := by
  induction chs using List.reverseRecOn with
  | nil => cases mem
  | append_singleton chs ch ih =>
    by_cases about : ch.subject = e.name
    · exact ⟨_, about ▸ current?_concat_self _ chs ch⟩
    · rw [changeAll_concat] at mem
      rw [current?_concat_of_ne _ chs ch about]
      cases mem_entries_change mem with
      | inl new => exact absurd (new ▸ name_handle _ ch).symm about
      | inr old => exact ih old

/-- Where names are distinct, the handle last returned for a column has the
    entry that is registered. -/
theorem entry_of_current? {n : String}
    (distinct : (((named n).changeAll chs).entries.map (·.name)).Nodup)
    (mem : e ∈ ((named n).changeAll chs).entries) :
    ∃ c, (named n).current? chs e.name = some c ∧ c.entry = e := by
  obtain ⟨c, latest⟩ := exists_current? mem
  obtain ⟨name, registered⟩ := current?_mem_changeAll _ latest
  exact ⟨c, latest, List.inj_on_of_nodup_map distinct registered mem name⟩

end

/-! ## Section 4: What is kept -/

/-- **What is kept**: where names are distinct, an update through a handle of
    a registered column makes an entry with the other attributes of the
    handle, which are those that were recorded exactly if the handle agrees in
    them. The handle last returned for a column has all of its attributes, so
    that an update through it changes only the one that it is named for. -/
theorem kept_iff_agreed :
    (∀ (t : Table) (e : Entry) (c : Column) (ch : Change) (a : Attribute),
      (t.entries.map (·.name)).Nodup → e ∈ t.entries → c.entry.same e →
      ch.revised? = some c → ch.attribute? = some a →
      ∃ e', (t.change ch).column? e.name = some e' ∧ Entry.AgreeBut a c.entry e' ∧
        (Entry.AgreeBut a e e' ↔ Entry.AgreeBut a e c.entry)) ∧
    ∀ (n : String) (chs : List Change) (e : Entry),
      (((named n).changeAll chs).entries.map (·.name)).Nodup →
      e ∈ ((named n).changeAll chs).entries →
      ∃ c, (named n).current? chs e.name = some c ∧ c.entry = e ∧
        ∀ ch a, ch.revised? = some c → ch.attribute? = some a →
          ∃ e', (((named n).changeAll chs).change ch).column? e.name = some e' ∧
            Entry.AgreeBut a e e' := by
  constructor
  · intro t e c ch a distinct mem same through about
    have given := t.agreeBut_handle through about
    refine ⟨_, column?_change distinct mem same through, given, ?_⟩
    exact ⟨fun kept => kept.trans given.symm, fun agreed => agreed.trans given⟩
  · -- the handle last returned has the entry itself, and so agrees in everything
    intro n chs e distinct mem
    obtain ⟨c, latest, rfl⟩ := entry_of_current? distinct mem
    refine ⟨c, latest, rfl, ?_⟩
    intro ch a through about
    have same : c.entry.same c.entry := Entry.same_iff_identity_eq.mpr rfl
    exact ⟨_, column?_change distinct mem same through, agreeBut_handle _ through about⟩

/-- A column with a default refers to another through its last handle, and is
    given another default through the one from before. -/
theorem kept_iff_agreed_posts :
    let author := (named "posts").handle (.declare .long "author")
    let user := (named "users").handle (.declare .long "id")
    let chs : List Change := [.declare .long "author", .setDefault author (7 : Int64)]
    let t := (named "posts").changeAll chs
    let e := (author.withDefault (7 : Int64)).entry
    (t.entries.map (·.name)).Nodup ∧ e ∈ t.entries ∧
    (∃ c e', (named "posts").current? chs "author" = some c ∧
      (t.change (.refer c user)).column? "author" = some e' ∧ Entry.AgreeBut .referee e e') ∧
    ∃ e', (t.change (.setDefault author (8 : Int64))).column? "author" = some e' ∧
      Entry.AgreeBut .default e e' := by
  intro author user chs t e
  have distinct : (t.entries.map (·.name)).Nodup := by decide
  have mem : e ∈ t.entries := List.mem_cons_self
  refine ⟨distinct, mem, ?_, ?_⟩
  · obtain ⟨c, latest, -, kept⟩ := kept_iff_agreed.2 "posts" chs e distinct mem
    obtain ⟨e', found, agreed⟩ := kept (.refer c user) .referee rfl rfl
    exact ⟨c, e', latest, found, agreed⟩
  · obtain ⟨e', found, -, agreed⟩ := kept_iff_agreed.1 t e author (.setDefault author (8 : Int64))
      .default distinct mem rfl rfl rfl
    refine ⟨e', found, agreed.mpr ?_⟩
    exact ⟨fun _ => rfl, fun _ => rfl, fun n => absurd rfl n⟩

/-- A default that is given to a column is lost when the column is made to
    refer to another through the handle from before. -/
theorem stale_handle_loses_default :
    let author := (named "posts").handle (.declare .long "author")
    let user := (named "users").handle (.declare .long "id")
    let t := (named "posts").changeAll
      [.declare .long "author", .setDefault author (7 : Int64)]
    (t.entries.map (·.name)).Nodup ∧ ∃ e e', t.column? "author" = some e ∧ author.entry.same e ∧
      (t.change (.refer author user)).column? "author" = some e' ∧
      e.default = some (.int 7) ∧ e'.default = none ∧ ¬ Entry.AgreeBut .referee e e' := by
  intro author user t
  refine ⟨by decide, _, _, rfl, rfl, rfl, rfl, rfl, ?_⟩
  intro kept
  exact absurd (kept.default (by decide)) (by decide)

end Table

end TypedQuery

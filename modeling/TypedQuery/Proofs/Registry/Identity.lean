import TypedQuery.Proofs.Registry.Attributes
import TypedQuery.Registry.Hashing

/-! # Identity of columns and tables

    A column can be compared by its handle or by its entry, with a handle or
    an entry on the other side, and it can be hashed. All of that is about one
    relation, which asks for table, name and kind:

    * **`Feed.text_append_inj`**: no text that is fed begins another one, so
      that the bytes of several pieces fall apart in one way only.
    * **`Entry.same_iff_bytes_eq`**: columns that feed a hasher with the same
      bytes are the same.
    * **`Column.Becomes`**: what a handle becomes by updates stays the column
      that it was.
    * **`identity_consistent`**: all comparisons agree, with each other and
      with what is hashed, and no update makes a difference.
-/

namespace TypedQuery

/-! ## Section 1: Pieces and their bytes -/

namespace Feed

theorem textBytes_inj {s t : String} (h : textBytes s = textBytes t) : s = t := by
  have encoded : s.toList.utf8Encode = t.toList.utf8Encode := congrArg List.toByteArray h
  rw [String.utf8Encode_toList, String.utf8Encode_toList] at encoded
  exact String.toByteArray_inj.mp encoded

theorem end_ne_ofNat {n : Nat} (h : n < 255) : (0xff : UInt8) ≠ UInt8.ofNat n := by
  intro same
  have values : (0xff : UInt8).toNat = n % 256 := (congrArg UInt8.toNat same).trans rfl
  rw [Nat.mod_eq_of_lt (by omega)] at values
  exact Nat.ne_of_gt h values

/-- Of the bytes of a character none has all its bits. -/
theorem end_not_mem_utf8EncodeChar (c : Char) : 0xff ∉ String.utf8EncodeChar c := by
  fun_cases String.utf8EncodeChar c
  all_goals
    simp only [List.mem_cons, List.not_mem_nil, or_false, not_or]
    repeat' apply And.intro
    all_goals exact end_ne_ofNat (by omega)

theorem end_not_mem_textBytes (s : String) : 0xff ∉ textBytes s := by
  intro mem
  obtain ⟨c, -, inside⟩ := List.mem_flatMap.mp mem
  exact end_not_mem_utf8EncodeChar c inside

/-- The bytes of a text are those before the one that closes it. -/
theorem takeWhile_text (s : String) (rest : List UInt8) :
    ((text s).bytes ++ rest).takeWhile (· != 0xff) = textBytes s := by
  have inside : ∀ b ∈ textBytes s, (b != 0xff) = true := by
    intro b mem
    rw [bne_iff_ne]
    rintro rfl
    exact end_not_mem_textBytes s mem
  rw [bytes, List.append_assoc, List.takeWhile_append_of_pos inside]
  exact List.append_nil _

theorem text_append_inj {s t : String} {rest rest' : List UInt8}
    (h : (text s).bytes ++ rest = (text t).bytes ++ rest') : s = t ∧ rest = rest' := by
  have same : s = t := by
    apply textBytes_inj
    rw [← takeWhile_text s rest, h, takeWhile_text]
  subst same
  exact ⟨rfl, List.append_cancel_left h⟩

theorem number_append_inj {n m : Nat} (hn : n < 256) (hm : m < 256) {rest rest' : List UInt8}
    (h : (number n).bytes ++ rest = (number m).bytes ++ rest') : n = m ∧ rest = rest' := by
  obtain ⟨same, rests⟩ := List.append_inj h rfl
  -- the lowest byte is the number itself
  have lowest : UInt8.ofNat n = UInt8.ofNat m := (List.cons.inj same).1
  have values : n % 256 = m % 256 := congrArg UInt8.toNat lowest
  rw [Nat.mod_eq_of_lt hn, Nat.mod_eq_of_lt hm] at values
  exact ⟨values, rests⟩

end Feed

/-! ## Section 2: Columns -/

namespace Kind

theorem place_lt (k : Kind) : k.place < 256 := by
  cases k <;> simp [place]

/-- Only enumerations share a place. -/
theorem eq_of_place_eq {k l : Kind} (h : k.place = l.place) :
    k = l ∨ ∃ n m, k = .enumeration n ∧ l = .enumeration m := by
  cases k <;> cases l <;> simp_all [place]

theorem feed_eq_cons (k : Kind) : ∃ rest, k.feed = .number k.place :: rest := by
  cases k <;> exact ⟨_, rfl⟩

theorem bytes_inj {k l : Kind} (h : k.feed.flatMap Feed.bytes = l.feed.flatMap Feed.bytes) :
    k = l := by
  obtain ⟨rest, hk⟩ := k.feed_eq_cons
  obtain ⟨rest', hl⟩ := l.feed_eq_cons
  rw [hk, hl, List.flatMap_cons, List.flatMap_cons] at h
  obtain ⟨places, names⟩ := Feed.number_append_inj k.place_lt l.place_lt h
  rcases eq_of_place_eq places with same | ⟨n, m, rfl, rfl⟩
  · exact same
  · cases hk
    cases hl
    rw [(Feed.text_append_inj names).1]

end Kind

namespace Entry

/-- The bytes that a hasher sees of a column. -/
def bytes (e : Entry) : List UInt8 := e.feed.flatMap Feed.bytes

variable {a b : Entry}

theorem feed_eq_of_same (h : a.same b) : a.feed = b.feed := by
  obtain ⟨table, name, kind⟩ := same_iff.mp h
  rw [feed, feed, table, name, kind]

theorem same_iff_bytes_eq : a.same b ↔ a.bytes = b.bytes := by
  constructor
  · intro h
    rw [bytes, bytes, feed_eq_of_same h]
  · intro h
    simp only [bytes, feed, Source.feed, List.flatMap_append, List.flatMap_singleton,
      List.append_assoc] at h
    obtain ⟨table, h⟩ := Feed.text_append_inj h
    obtain ⟨name, h⟩ := Feed.text_append_inj h
    exact same_iff.mpr ⟨congrArg Source.mk table, name, Kind.bytes_inj h⟩

theorem same_iff_feed_eq : a.same b ↔ a.feed = b.feed :=
  ⟨feed_eq_of_same, fun h => same_iff_bytes_eq.mpr (congrArg (List.flatMap Feed.bytes) h)⟩

/-- Keys tell apart just what the pieces that are fed tell apart. -/
theorem feed_eq_iff_key_eq : a.feed = b.feed ↔ a.key = b.key := by
  rw [← same_iff_feed_eq, same_iff_key_eq]

end Entry

/-! ## Section 3: Handles and entries -/

/-- A column as a program may compare it. -/
inductive Form where
  | handle (c : Column)
  | entry (e : Entry)

namespace Form

/-- What is known of the column. -/
def entryOf : Form → Entry
  | .handle c => c.entry
  | .entry e => e

/-- Whether two forms are of the same column. A handle is always the one that
    is compared to an entry. -/
def same : Form → Form → Bool
  | .handle c, .handle d => c.same d
  | .handle c, .entry e => c.isOf e
  | .entry e, .handle c => c.isOf e
  | .entry e, .entry e' => e.same e'

/-- What a hasher is fed with. -/
def feed : Form → List Feed
  | .handle c => c.feed
  | .entry e => e.feed

variable (x y : Form)

theorem same_iff_identity_eq : x.same y ↔ x.entryOf.identity = y.entryOf.identity := by
  cases x <;> cases y
  case entry.handle e c => exact Entry.same_iff_identity_eq.trans eq_comm
  all_goals exact Entry.same_iff_identity_eq

/-- All comparisons are one equivalence. -/
theorem equivalence_same : Equivalence fun x y : Form => x.same y = true where
  refl x := (same_iff_identity_eq x x).mpr rfl
  symm h := (same_iff_identity_eq _ _).mpr ((same_iff_identity_eq _ _).mp h).symm
  trans h h' := (same_iff_identity_eq _ _).mpr
    (((same_iff_identity_eq _ _).mp h).trans ((same_iff_identity_eq _ _).mp h'))

theorem same_iff_same_entryOf : x.same y ↔ x.entryOf.same y.entryOf := by
  rw [same_iff_identity_eq, Entry.same_iff_identity_eq]

theorem feed_eq : x.feed = x.entryOf.feed := by
  cases x <;> rfl

end Form

/-! ## Section 4: Updates -/

/-- What a handle may become by updates, of whatever tables. -/
inductive Column.Becomes (c : Column) : Column → Prop where
  /-- There is no update. -/
  | refl : Becomes c c
  /-- One more update is made through what the handle has become. -/
  | step {d : Column} (earlier : Becomes c d) (t : Table) {ch : Change}
      (through : ch.revised? = some d) : Becomes c (t.handle ch)

namespace Column.Becomes

variable {c d : Column}

/-- **Run**: a handle stays that of its column. -/
theorem identity_eq (h : c.Becomes d) : d.entry.identity = c.entry.identity := by
  induction h with
  | refl => rfl
  | step _ t through ih => exact (t.identity_handle through).trans ih

theorem same (h : c.Becomes d) : d.entry.same c.entry :=
  Entry.same_iff_identity_eq.mpr h.identity_eq

theorem trans {e : Column} (h : c.Becomes d) (h' : d.Becomes e) : c.Becomes e := by
  induction h' with
  | refl => exact h
  | step _ t through ih => exact ih.step t through

end Column.Becomes

namespace Table

/-- A hasher sees of a table what it sees of the source that the table is. -/
theorem feed_source (t : Table) : t.source.feed = t.feed := rfl

theorem feed_eq_iff {t u : Table} : t.feed = u.feed ↔ t.name = u.name := by
  simp [feed]

theorem bytes_eq_iff {t u : Table} :
    t.feed.flatMap Feed.bytes = u.feed.flatMap Feed.bytes ↔ t.name = u.name := by
  constructor
  · intro h
    rw [feed, feed, List.flatMap_singleton, List.flatMap_singleton] at h
    rw [← List.append_nil (Feed.text t.name).bytes, ← List.append_nil (Feed.text u.name).bytes] at h
    exact (Feed.text_append_inj h).1
  · intro h
    rw [feed_eq_iff.mpr h]

end Table

/-! ## Section 5: Identity -/

/-- **One identity**: columns are the same, by whatever of their forms they
    are compared, exactly if table, name and kind coincide, and then and only
    then a hasher is fed the same, piece by piece and byte by byte. What a
    handle becomes is the same as the handle, and as what a column was made
    to refer to meanwhile. Tables are the same, and are hashed alike, if they
    have the same name, whatever changes they went through. -/
theorem identity_consistent :
    (∀ x y : Form, x.same y ↔ x.entryOf.table.name = y.entryOf.table.name ∧
      x.entryOf.name = y.entryOf.name ∧ x.entryOf.kind = y.entryOf.kind) ∧
    (Equivalence fun x y : Form => x.same y = true) ∧
    (∀ x y : Form, (x.feed = y.feed ↔ x.same y) ∧
      (x.feed.flatMap Feed.bytes = y.feed.flatMap Feed.bytes ↔ x.same y) ∧
      (x.feed = y.feed ↔ x.entryOf.key = y.entryOf.key)) ∧
    (∀ c m d : Column, c.Becomes m → m.Becomes d → d.same c ∧ d.feed = c.feed ∧
      ∀ (t : Table) (referring : Column), ∃ snapshot,
        (t.handle (.refer referring m)).entry.referee = some snapshot ∧
        (t.handle (.refer referring m)).entry ∈ (t.change (.refer referring m)).entries ∧
        d.isOf snapshot ∧ c.isOf snapshot ∧ d.feed = snapshot.feed) ∧
    ∀ (t u : Table) (chs chs' : List Change),
      ((t.changeAll chs).same (u.changeAll chs') ↔ t.name = u.name) ∧
      ((t.changeAll chs).source = (u.changeAll chs').source ↔ t.name = u.name) ∧
      (t.changeAll chs).source.feed = (t.changeAll chs).feed ∧
      ((t.changeAll chs).feed = (u.changeAll chs').feed ↔ t.name = u.name) ∧
      ((t.changeAll chs).feed.flatMap Feed.bytes = (u.changeAll chs').feed.flatMap Feed.bytes ↔
        t.name = u.name) := by
  refine ⟨?_, Form.equivalence_same, ?_, ?_, ?_⟩
  · intro x y
    rw [x.same_iff_same_entryOf, Entry.same_iff, Source.mk.injEq]
  · intro x y
    rw [x.same_iff_same_entryOf, x.feed_eq, y.feed_eq]
    exact ⟨Entry.same_iff_feed_eq.symm, Entry.same_iff_bytes_eq.symm, Entry.feed_eq_iff_key_eq⟩
  · intro c m d first second
    have whole := first.trans second
    refine ⟨whole.same, Entry.feed_eq_of_same whole.same, ?_⟩
    intro t referring
    refine ⟨m.entry, rfl, t.handle_entry_mem_change _, second.same, ?_,
      Entry.feed_eq_of_same second.same⟩
    exact Entry.same_iff_identity_eq.mpr first.identity_eq.symm
  · intro t u chs chs'
    -- no change gives a table another name
    rw [← t.name_changeAll chs, ← u.name_changeAll chs']
    refine ⟨beq_iff_eq, ?_, Table.feed_source _, Table.feed_eq_iff, Table.bytes_eq_iff⟩
    rw [Table.source, Table.source, Source.mk.injEq]

/-- The key of a table is given a default, another table is made to refer to
    it, and then it is made to admit `NULL`. The snapshot has the default and
    does not admit `NULL`, and is the same column as before and after. -/
theorem identity_consistent_user :
    let user := (Table.named "users").handle (.declare .long "id")
    let given := user.withDefault (7 : Int64)
    let optional := given.madeNullable
    let posts := Table.named "posts"
    let author := posts.handle (.declare .long "author")
    user.Becomes given ∧ given.Becomes optional ∧ optional.same user ∧
    ∃ snapshot, (posts.handle (.refer author given)).entry.referee = some snapshot ∧
      optional.isOf snapshot ∧ user.isOf snapshot ∧ optional.feed = snapshot.feed ∧
      snapshot.default ≠ user.entry.default ∧
      snapshot.nullable ≠ optional.entry.nullable := by
  intro user given optional posts author
  have first : user.Becomes given :=
    Column.Becomes.refl.step posts (show (Change.setDefault user _).revised? = some user from rfl)
  have second : given.Becomes optional :=
    Column.Becomes.refl.step posts (show (Change.makeNullable given).revised? = some given from rfl)
  obtain ⟨same, -, snapshots⟩ := identity_consistent.2.2.2.1 user given optional first second
  obtain ⟨snapshot, taken, -, later, earlier, fed⟩ := snapshots posts author
  refine ⟨first, second, same, snapshot, taken, later, earlier, fed, ?_, ?_⟩
  · cases taken
    decide
  · cases taken
    decide

end TypedQuery

import TypedQuery.Proofs.Select.Lexemes
import TypedQuery.Proofs.Select.Modifiers
import TypedQuery.Proofs.Submission

/-! # Rejected statements

    A statement is made of a slice and modifiers. Whether it can be rendered
    is told from these alone, and however it is asked for, the answer is the
    same:

    * **`cause_iff`**: what makes a statement one that cannot be rendered.
    * **`rejection?_modifyAll`**: the check finds that, and nothing else.
    * **`refusal?_eq`**: every request is refused for what the check finds.
    * **`refused_iff_cause`**: all of it, with what is left behind by a
      refusal and what comes of a statement that is rendered.
-/

namespace TypedQuery.Select

/-! ## Section 1: Causes -/

/-- The last limit among modifiers is `n`. -/
def LastLimit (ms : List Modifier) (n : UInt64) : Prop :=
  ∃ earlier later, ms = earlier ++ .limit n :: later ∧ ∀ m, .limit m ∉ later

/-- There is an offset among modifiers, and no limit at all. -/
def OffsetAlone (ms : List Modifier) : Prop :=
  (∃ n, .offset n ∈ ms) ∧ ∀ n, .limit n ∉ ms

/-- Why the statement made of a slice and modifiers cannot be rendered. The
    lack of fields goes before anything else. -/
inductive Cause (slice : Slice) (ms : List Modifier) : Rejection → Prop where
  | noFields (empty : slice.fields = []) : Cause slice ms (.noFields slice.source.name)
  | zeroLimit (selects : slice.fields ≠ []) (zero : LastLimit ms 0) : Cause slice ms .zeroLimit
  | offsetWithoutLimit (selects : slice.fields ≠ []) (alone : OffsetAlone ms) :
      Cause slice ms .offsetWithoutLimit

theorem cause_iff (slice : Slice) (ms : List Modifier) :
    (∃ r, Cause slice ms r) ↔ slice.fields = [] ∨ LastLimit ms 0 ∨ OffsetAlone ms := by
  constructor
  · intro ⟨r, cause⟩
    cases cause with
    | noFields empty => exact .inl empty
    | zeroLimit _ zero => exact .inr (.inl zero)
    | offsetWithoutLimit _ alone => exact .inr (.inr alone)
  · intro h
    by_cases empty : slice.fields = []
    · exact ⟨_, .noFields empty⟩
    · rcases h with none | zero | alone
      · exact absurd none empty
      · exact ⟨_, .zeroLimit empty zero⟩
      · exact ⟨_, .offsetWithoutLimit empty alone⟩

/-! ## Section 2: What was set last

    A clause that holds what was given last is set by one kind of modifier
    `k`, which `f` finds among the others. -/

section Last

variable {k : UInt64 → Modifier} {f : Modifier → Option UInt64}

theorem eq_none_of_mem_iff (hk : ∀ m n, f m = some n ↔ m = k n) (ms : List Modifier) :
    (∀ m ∈ ms, f m = none) ↔ ∀ n, k n ∉ ms := by
  constructor
  · intro none n hn
    have found : f (k n) = some n := (hk _ _).mpr rfl
    rw [none _ hn] at found
    cases found
  · intro none m hm
    cases found : f m with
    | none => rfl
    | some n =>
      rw [(hk m n).mp found] at hm
      exact absurd hm (none n)

theorem getLast?_eq_none_iff (hk : ∀ m n, f m = some n ↔ m = k n) (ms : List Modifier) :
    (ms.filterMap f).getLast? = none ↔ ∀ n, k n ∉ ms := by
  rw [List.getLast?_eq_none_iff, List.filterMap_eq_nil_iff, eq_none_of_mem_iff hk]

theorem getLast?_eq_some_iff (hk : ∀ m n, f m = some n ↔ m = k n) (ms : List Modifier) (n : UInt64) :
    (ms.filterMap f).getLast? = some n ↔
      ∃ earlier later, ms = earlier ++ k n :: later ∧ ∀ m, k m ∉ later := by
  rw [List.getLast?_eq_some_iff]
  constructor
  · intro ⟨ns, split⟩
    obtain ⟨earlier, rest, rfl, -, hrest⟩ := List.filterMap_eq_append_iff.mp split
    obtain ⟨between, m, later, rfl, -, found, hlater⟩ := List.filterMap_eq_cons_iff.mp hrest
    obtain rfl := (hk m n).mp found
    refine ⟨earlier ++ between, later, (List.append_assoc _ _ _).symm, ?_⟩
    exact (eq_none_of_mem_iff hk later).mp (List.filterMap_eq_nil_iff.mp hlater)
  · intro ⟨earlier, later, split, others⟩
    have found : f (k n) = some n := (hk _ _).mpr rfl
    have rest : later.filterMap f = [] :=
      List.filterMap_eq_nil_iff.mpr ((eq_none_of_mem_iff hk later).mpr others)
    refine ⟨earlier.filterMap f, ?_⟩
    rw [split, List.filterMap_append, List.filterMap_cons_some found, rest]

end Last

theorem limit?_eq_some_iff (m : Modifier) (n : UInt64) : m.limit? = some n ↔ m = .limit n := by
  cases m <;> simp

theorem offset?_eq_some_iff (m : Modifier) (n : UInt64) : m.offset? = some n ↔ m = .offset n := by
  cases m <;> simp

section Made

variable (slice : Slice) (filter : Option Expression) (ms : List Modifier)

theorem limit_modifyAll :
    ((ofSlice slice filter).modifyAll ms).limit = (ms.filterMap (·.limit?)).getLast? := by
  rw [modifyAll_eq_given]
  exact Option.or_none

theorem offset_modifyAll :
    ((ofSlice slice filter).modifyAll ms).offset = (ms.filterMap (·.offset?)).getLast? := by
  rw [modifyAll_eq_given]
  exact Option.or_none

theorem limit_eq_zero_iff :
    ((ofSlice slice filter).modifyAll ms).limit = some 0 ↔ LastLimit ms 0 := by
  rw [limit_modifyAll]
  exact getLast?_eq_some_iff limit?_eq_some_iff ms 0

theorem offset_without_limit_iff :
    (((ofSlice slice filter).modifyAll ms).limit.isNone ∧
      ((ofSlice slice filter).modifyAll ms).offset.isSome) ↔ OffsetAlone ms := by
  have limit := getLast?_eq_none_iff limit?_eq_some_iff ms
  have offset := getLast?_eq_none_iff offset?_eq_some_iff ms
  unfold OffsetAlone
  rw [Option.isNone_iff_eq_none, ← Option.ne_none_iff_isSome, limit_modifyAll, offset_modifyAll,
    limit, Ne, offset, not_forall_not]
  exact And.comm

theorem rejection?_modifyAll (r : Rejection) :
    ((ofSlice slice filter).modifyAll ms).rejection? = some r ↔ Cause slice ms r := by
  have fields : ((ofSlice slice filter).modifyAll ms).fields = slice.fields := by
    rw [modifyAll_eq_given]
    rfl
  have source : ((ofSlice slice filter).modifyAll ms).source = slice.source := by
    rw [modifyAll_eq_given]
    rfl
  unfold rejection?
  rw [fields, source]
  constructor
  · intro found
    split at found
    · next empty =>
      cases found
      exact .noFields (List.isEmpty_iff.mp empty)
    · next selects =>
      rw [List.isEmpty_iff] at selects
      split at found
      · next zero =>
        cases found
        exact .zeroLimit selects ((limit_eq_zero_iff slice filter ms).mp zero)
      · split at found
        · next alone =>
          cases found
          exact .offsetWithoutLimit selects ((offset_without_limit_iff slice filter ms).mp alone)
        · cases found
  · intro cause
    cases cause with
    | noFields empty => rw [if_pos (List.isEmpty_iff.mpr empty)]
    | zeroLimit selects zero =>
      rw [if_neg (by simpa using selects), if_pos ((limit_eq_zero_iff slice filter ms).mpr zero)]
    | offsetWithoutLimit selects alone =>
      have without := (offset_without_limit_iff slice filter ms).mpr alone
      have unlimited : ((ofSlice slice filter).modifyAll ms).limit ≠ some 0 := by
        rw [Option.isNone_iff_eq_none.mp without.1]
        exact Option.some_ne_none 0 |>.symm
      rw [if_neg (by simpa using selects), if_neg unlimited, if_pos without]

end Made

/-! ## Section 3: Requests -/

/-- What may be asked of a statement. -/
inductive Request (ρ ε : Type) where
  | validate
  /-- To be added to a statement under construction. -/
  | format (s : Statement)
  | build
  | sql
  | inlined
  /-- To be handed to a connection. -/
  | run (reply : Reply ρ ε) (log : Log)

/-- The rejection that a result tells of. -/
def rejected? {α : Type} : Except Rejection α → Option Rejection
  | .error r => some r
  | .ok _ => none

/-- The rejection that an answer of a connection tells of. A failure of the
    connection itself is none. -/
def invalid? {ρ ε : Type} : Except (RunError ε) ρ → Option Rejection
  | .error (.invalid r) => some r
  | .error (.connection _) => none
  | .ok _ => none

/-- Why a request is refused, if it is. -/
def Request.refusal? {ρ ε : Type} (q : Select) : Request ρ ε → Option Rejection
  | .validate => rejected? q.validate
  | .format s => rejected? (q.formatted s).1
  | .build => rejected? q.build
  | .sql => rejected? q.sql
  | .inlined => rejected? q.inlined
  | .run reply log => invalid? (q.run reply log).1

/-- What comes of a statement that can be rendered: the same pieces, however
    it is asked for. -/
structure RendersAs (q : Select) (ps : List Piece) : Prop where
  validate : q.validate = .ok ()
  build : q.build = .ok (Statement.empty.add ps)
  sql : q.sql = .ok (Piece.sql ps)
  inlined : q.inlined = .ok (Piece.concat Value.literal ps)
  format : ∀ s, q.formatted s = (.ok (), s.add ps)
  /-- What is there stays in front of what is added. -/
  format_sql : ∀ s, (q.formatted s).2.sql = s.sql ++ Piece.sql ps
  format_params : ∀ s, (q.formatted s).2.params = s.params ++ Piece.values ps
  format_places : ∀ s,
    (q.formatted s).2.places = s.places ++ Piece.offsets s.sql.utf8ByteSize ps
  run : ∀ {ρ ε : Type} (reply : Reply ρ ε) (log : Log),
    q.run reply log = ((reply (log ++ [Statement.empty.add ps])).mapError .connection,
      log ++ [Statement.empty.add ps])

section

variable {ρ ε : Type} {q : Select} {r : Rejection}

theorem validate_of_rejection? (h : q.rejection? = some r) : q.validate = .error r := by
  rw [Select.validate, h]

theorem validate_of_none (h : q.rejection? = none) : q.validate = .ok () := by
  rw [Select.validate, h]

theorem formatted_of_invalid (h : q.validate = .error r) (s : Statement) :
    q.formatted s = (.error r, s) := by
  rw [formatted_eq, h]
  rfl

/-- A statement that passes the check is rendered by its lexemes. -/
theorem rendersAs_of_valid (h : q.validate = .ok ()) : q.RendersAs (Lexeme.pieces q.lexemes) := by
  have built := build_of_validate h
  have formatted (s : Statement) :
      q.formatted s = (.ok (), s.add (Lexeme.pieces q.lexemes)) := by
    rw [formatted_eq, h, writeClauses_eq_add]
    rfl
  constructor
  · exact h
  · exact built
  · unfold Select.sql
    rw [built]
    show Except.ok (Statement.empty.add _).sql = _
    rw [Statement.sql_add, Statement.sql_empty, String.empty_append]
  · unfold Select.inlined
    rw [built]
    show Except.ok (Statement.empty.add _).inlined = _
    rw [Statement.inlined_add]
  · exact formatted
  · intro s
    rw [formatted, Statement.sql_add]
  · intro s
    rw [formatted, Statement.params_add]
  · intro s
    rw [formatted, Statement.places_add]
  · intro ρ ε reply log
    exact run_of_built built reply log

/-- **Requests** are all refused for the same reason, or none of them is. -/
theorem refusal?_eq (q : Select) (request : Request ρ ε) : request.refusal? q = q.rejection? := by
  cases found : q.rejection? with
  | some r =>
    have invalid := validate_of_rejection? found
    have built : q.build = .error r := build_of_invalid invalid
    cases request with
    | validate => rw [Request.refusal?, invalid, rejected?]
    | format s => rw [Request.refusal?, formatted_of_invalid invalid, rejected?]
    | build => rw [Request.refusal?, built, rejected?]
    | sql => rw [Request.refusal?, Select.sql, built, Except.map, rejected?]
    | inlined => rw [Request.refusal?, Select.inlined, built, Except.map, rejected?]
    | run reply log => rw [Request.refusal?, run_of_rejected built, invalid?]
  | none =>
    have rendered := rendersAs_of_valid (validate_of_none found)
    cases request with
    | validate => rw [Request.refusal?, rendered.validate, rejected?]
    | format s => rw [Request.refusal?, rendered.format, rejected?]
    | build => rw [Request.refusal?, rendered.build, rejected?]
    | sql => rw [Request.refusal?, rendered.sql, rejected?]
    | inlined => rw [Request.refusal?, rendered.inlined, rejected?]
    | run reply log =>
      rw [Request.refusal?, rendered.run]
      -- the connection may fail, which is not a rejection
      cases reply (log ++ [Statement.empty.add (Lexeme.pieces q.lexemes)]) <;> rfl

end

/-! ## Section 4: Statements made of a slice and modifiers -/

/-- **Rejection**: a statement is refused exactly if there is a cause, which
    is told from its slice and its modifiers, and then for that cause, however
    it is asked for. A refusal changes neither a statement under construction
    nor a log, and all that comes of any other statement is the rendering of
    its lexemes. -/
theorem refused_iff_cause (slice : Slice) (filter : Option Expression) (ms : List Modifier) :
    let q := (ofSlice slice filter).modifyAll ms
    ((∃ r, Cause slice ms r) ↔ slice.fields = [] ∨ LastLimit ms 0 ∨ OffsetAlone ms) ∧
    (∀ {ρ ε : Type} (request : Request ρ ε) (r : Rejection),
      request.refusal? q = some r ↔ Cause slice ms r) ∧
    (∀ r, Cause slice ms r → (∀ s, q.formatted s = (.error r, s)) ∧
      ∀ {ρ ε : Type} (reply : Reply ρ ε) (log : Log),
        q.run reply log = (.error (.invalid r), log)) ∧
    ((¬ ∃ r, Cause slice ms r) → q.RendersAs (Lexeme.pieces q.lexemes)) := by
  intro q
  have cause (r : Rejection) : q.rejection? = some r ↔ Cause slice ms r :=
    rejection?_modifyAll slice filter ms r
  refine ⟨cause_iff slice ms, ?_, ?_, ?_⟩
  · intro ρ ε request r
    rw [refusal?_eq]
    exact cause r
  · intro r h
    have invalid := validate_of_rejection? ((cause r).mpr h)
    constructor
    · exact formatted_of_invalid invalid
    · intro ρ ε reply log
      exact run_of_rejected (build_of_invalid invalid) reply log
  · intro none
    have passed : q.rejection? = Option.none := by
      rw [Option.eq_none_iff_forall_ne_some]
      intro r found
      exact none ⟨r, (cause r).mp found⟩
    exact rendersAs_of_valid (validate_of_none passed)

/-- A limit set to zero in the end, and one that was zero before. -/
theorem refused_iff_cause_limits :
    let slice : Slice := ⟨⟨"t"⟩, [⟨.column "a", .integer, false⟩]⟩
    let kept := Statement.empty.text "EXPLAIN "
    let reset := (ofSlice slice none).modifyAll [.limit 0, .offset 2, .limit 5]
    (((ofSlice slice none).modifyAll [.limit 5, .offset 2, .limit 0]).formatted kept =
      (.error .zeroLimit, kept)) ∧
    reset.RendersAs (Lexeme.pieces reset.lexemes) := by
  intro slice kept reset
  constructor
  · have zero : LastLimit [.limit 5, .offset 2, .limit 0] 0 :=
      ⟨[.limit 5, .offset 2], [], rfl, fun m => List.not_mem_nil⟩
    have refused := (refused_iff_cause slice none [.limit 5, .offset 2, .limit 0]).2.2.1
    exact (refused .zeroLimit (.zeroLimit (List.cons_ne_nil _ _) zero)).1 kept
  · apply (refused_iff_cause slice none [.limit 0, .offset 2, .limit 5]).2.2.2
    intro ⟨r, cause⟩
    have found := (rejection?_modifyAll slice none _ r).mpr cause
    cases found

end TypedQuery.Select

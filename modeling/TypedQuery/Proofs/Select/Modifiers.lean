import TypedQuery.Select.Rendering

/-! # Sequences of modifiers

    Modifiers are given to a statement one after the other, and those of
    different clauses do not meet. All that a sequence of them comes to is
    its summary, clause by clause:

    * **`modify_eq_given`**: one modifier gives its summary.
    * **`given_append`**: a summary after another is that of both sequences.
    * **`modifyAll_congr`**: sequences with one summary make one statement.
-/

namespace TypedQuery.Select

/-! ## Section 1: Summaries -/

namespace Modifier

/-- The fields to group by that a modifier adds. -/
@[simp] def grouping : Modifier → List Field
  | .groupBy f => [f]
  | .groupByAll fs => fs
  | _ => []

/-- The fields to order by that a modifier adds. -/
@[simp] def ordering : Modifier → List (Field × Bool)
  | .orderBy f ascending => [(f, ascending)]
  | .orderByAll fs => fs
  | _ => []

/-- The predicate on groups that a modifier sets. -/
@[simp] def having? : Modifier → Option Expression
  | .having e => some e
  | _ => none

/-- The limit that a modifier sets. -/
@[simp] def limit? : Modifier → Option UInt64
  | .limit n => some n
  | _ => none

/-- The offset that a modifier sets. -/
@[simp] def offset? : Modifier → Option UInt64
  | .offset n => some n
  | _ => none

/-- Whether a modifier locks the rows. -/
@[simp] def locks : Modifier → Bool
  | .forUpdate => true
  | _ => false

end Modifier

/-- What a sequence of modifiers comes to, clause by clause. -/
structure Summary where
  grouping : List Field
  ordering : List (Field × Bool)
  having : Option Expression
  limit : Option UInt64
  offset : Option UInt64
  forUpdate : Bool

/-- The summary of a sequence: all that is added, the last of what is set,
    and whether rows are locked at all. -/
def Summary.of (ms : List Modifier) : Summary where
  grouping := ms.flatMap (·.grouping)
  ordering := ms.flatMap (·.ordering)
  having := (ms.filterMap (·.having?)).getLast?
  limit := (ms.filterMap (·.limit?)).getLast?
  offset := (ms.filterMap (·.offset?)).getLast?
  forUpdate := ms.any (·.locks)

/-- The statement with a summary given to it. -/
def given (q : Select) (s : Summary) : Select where
  fields := q.fields
  source := q.source
  filter := q.filter
  grouping := q.grouping ++ s.grouping
  having := s.having.or q.having
  ordering := q.ordering ++ s.ordering
  limit := s.limit.or q.limit
  offset := s.offset.or q.offset
  forUpdate := q.forUpdate || s.forUpdate

/-! ## Section 2: Runs of modifiers -/

variable (q : Select) (m : Modifier) (ms ms' : List Modifier)

theorem given_nil : q.given (.of []) = q := by
  simp [given, Summary.of]

/-- **Step**: a modifier acts on the clause it is for, and on no other. -/
theorem modify_eq_given : q.modify m = q.given (.of [m]) := by
  cases m <;> simp [modify, given, Summary.of]

/-- What is set later comes first, and what is added later comes last. -/
theorem given_append : (q.given (.of ms)).given (.of ms') = q.given (.of (ms ++ ms')) := by
  simp [given, Summary.of, List.getLast?_append, Option.or_assoc, Bool.or_assoc]

/-- **Run**: a sequence of modifiers gives its summary. -/
theorem modifyAll_eq_given : q.modifyAll ms = q.given (.of ms) := by
  induction ms generalizing q with
  | nil => exact q.given_nil.symm
  | cons m ms ih =>
    calc q.modifyAll (m :: ms)
        = (q.modify m).modifyAll ms := modifyAll_cons q m ms
      _ = (q.modify m).given (.of ms) := ih (q.modify m)
      _ = (q.given (.of [m])).given (.of ms) := by rw [modify_eq_given]
      _ = q.given (.of (m :: ms)) := q.given_append [m] ms

/-! ## Section 3: Batches -/

/-- A modifier for each item of a list comes to what all of them add, if
    none of them does anything else. -/
theorem modify_eq_modifyAll {α : Type} {single : α → Modifier} {items : List α}
    (same : Summary.of [m] = Summary.of (items.map single)) :
    q.modify m = q.modifyAll (items.map single) := by
  rw [modify_eq_given, modifyAll_eq_given, same]

theorem summary_groupByAll (fs : List Field) :
    Summary.of [.groupByAll fs] = Summary.of (fs.map .groupBy) := by
  symm
  simp [Summary.of, List.flatMap_map, Function.comp_def]

theorem summary_orderByAll (fs : List (Field × Bool)) :
    Summary.of [.orderByAll fs] = Summary.of (fs.map fun f => .orderBy f.1 f.2) := by
  symm
  simp [Summary.of, List.flatMap_map, Function.comp_def]

/-! ## Section 4: Statements -/

/-- **Order of modifiers**: sequences with the same summary make the same
    statement, which is built or rejected alike, and a batch is its items one
    at a time. -/
theorem modifyAll_congr :
    (∀ (q : Select) (ms ms' : List Modifier), Summary.of ms = Summary.of ms' →
      q.modifyAll ms = q.modifyAll ms' ∧
      (q.modifyAll ms).validate = (q.modifyAll ms').validate ∧
      (q.modifyAll ms).build = (q.modifyAll ms').build) ∧
    (∀ (q : Select) (ms : List Modifier), q.modifyAll ms = q.given (.of ms)) ∧
    (∀ (q : Select) (fs : List Field),
      q.modify (.groupByAll fs) = q.modifyAll (fs.map .groupBy)) ∧
    (∀ (q : Select) (fs : List (Field × Bool)),
      q.modify (.orderByAll fs) =
        q.modifyAll (fs.map fun f => if f.2 then .orderByAsc f.1 else .orderByDesc f.1)) := by
  refine ⟨?_, modifyAll_eq_given, ?_, ?_⟩
  · intro q ms ms' same
    have whole : q.modifyAll ms = q.modifyAll ms' := by
      rw [modifyAll_eq_given, modifyAll_eq_given, same]
    rw [whole]
    exact ⟨rfl, rfl, rfl⟩
  · intro q fs
    exact q.modify_eq_modifyAll _ (summary_groupByAll fs)
  · intro q fs
    -- either direction is that of the flag
    have flag (f : Field × Bool) :
        (if f.2 then Modifier.orderByAsc f.1 else .orderByDesc f.1) = .orderBy f.1 f.2 := by
      cases h : f.2 <;> rfl
    simp only [flag]
    exact q.modify_eq_modifyAll _ (summary_orderByAll fs)

/-- Clauses interleaved, a limit overwritten, and a batch taken apart. -/
theorem modifyAll_congr_interleaved :
    let a : Field := ⟨.column "a", .integer, false⟩
    let q := Select.ofSlice ⟨⟨"t"⟩, [a]⟩ none
    let ms := [.limit 5, .groupBy a, .offset 2, .groupBy a, .limit 3, .orderByAsc a, .forUpdate]
    let ms' := [.forUpdate, .orderByAll [(a, true)], .limit 3, .forUpdate, .groupByAll [a, a],
      .offset 9, .offset 2]
    Summary.of ms = Summary.of ms' ∧ q.modifyAll ms = q.modifyAll ms' ∧
      (q.modifyAll ms).validate = (q.modifyAll ms').validate ∧
      (q.modifyAll ms).build = (q.modifyAll ms').build := by
  intro a q ms ms'
  have same : Summary.of ms = Summary.of ms' := rfl
  exact ⟨same, modifyAll_congr.1 q ms ms' same⟩

end TypedQuery.Select

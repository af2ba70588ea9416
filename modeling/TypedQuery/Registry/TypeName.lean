/-! # Table names from type names

    A table can be named after the type that describes it, given by its full
    name: a path of segments with `::` between, and perhaps type arguments
    between `<` and `>` at its end. The table takes the last segment of the
    path, without a final `Table` unless nothing would be left.

    * **`lastSegment_append`**: the segment after a separator is found.
    * **`withoutTable_append`**: the suffix is taken off.
-/

namespace TypedQuery.TypeName

/-- The start of a reversed path up to the first separator. -/
def upToSeparator : List Char → List Char
  | ':' :: ':' :: _ => []
  | c :: rest => c :: upToSeparator rest
  | [] => []

/-- The text after the last `::` of a path. -/
def lastSegment (path : List Char) : List Char := (upToSeparator path.reverse).reverse

/-- The text without a final `Table`, or all of it if it is no more than
    that. -/
def withoutTable (name : List Char) : List Char :=
  let suffix := "Table".toList
  if suffix.isSuffixOf name && name != suffix then name.take (name.length - suffix.length)
  else name

/-- The table name for the full name of a type. -/
def tableName (full : String) : String :=
  String.ofList (withoutTable (lastSegment (full.toList.takeWhile (· != '<'))))

theorem upToSeparator_append {s : List Char} (h : ':' ∉ s) (t : List Char) :
    upToSeparator (s ++ ':' :: ':' :: t) = s := by
  induction s with
  | nil => rfl
  | cons c s ih =>
    obtain ⟨hc, hs⟩ : ':' ≠ c ∧ ':' ∉ s := by simpa using h
    rw [List.cons_append, upToSeparator, ih hs]
    intro _ heq
    exact absurd heq.symm hc

theorem lastSegment_append {s : List Char} (h : ':' ∉ s) (t : List Char) :
    lastSegment (t ++ ':' :: ':' :: s) = s := by
  rw [lastSegment, List.reverse_append, List.reverse_cons, List.reverse_cons, List.append_assoc,
    List.append_assoc]
  exact (congrArg List.reverse
    (upToSeparator_append (by simpa using h) t.reverse)).trans s.reverse_reverse

theorem withoutTable_append {s : List Char} (h : s ≠ []) :
    withoutTable (s ++ "Table".toList) = s := by
  simp [withoutTable, h]

end TypedQuery.TypeName

import TypedQuery.Statement.Lemmas

/-! # Statements as lists of pieces

    A statement says no more than a list of pieces, each of which is text or
    a bound value. The three sequences of a statement (text, values, places)
    are three readings of that list:

    * **`sql_add`**, **`params_add`**, **`places_add`**: what a statement
      holds after pieces have been added.
    * **`inlined?_add`**: the parts that the text with literals is cut
      together from are all in range, and together they are the pieces.
-/

namespace TypedQuery

/-! ## Section 1: Pieces -/

/-- What a statement is made of. -/
inductive Piece where
  | text (t : String)
  | value (v : Value)
  deriving DecidableEq, Repr

namespace Piece

/-- The pieces one after the other, with something written for each value. -/
def concat (place : Value → String) : List Piece → String
  | [] => ""
  | .text t :: ps => t ++ concat place ps
  | .value v :: ps => place v ++ concat place ps

/-- The values among the pieces. -/
def values : List Piece → List Value
  | [] => []
  | .text _ :: ps => values ps
  | .value v :: ps => v :: values ps

/-- The text with a placeholder for each value. -/
def sql (ps : List Piece) : String := concat (fun _ => Dialect.mysql.placeholder) ps

/-- How many bytes come before each value, if `start` bytes come before all. -/
def offsets : Nat → List Piece → List Nat
  | _, [] => []
  | start, .text t :: ps => offsets (start + t.utf8ByteSize) ps
  | start, .value _ :: ps => start :: offsets (start + Dialect.mysql.placeholder.utf8ByteSize) ps

@[simp] theorem concat_append (place : Value → String) (ps qs : List Piece) :
    concat place (ps ++ qs) = concat place ps ++ concat place qs := by
  induction ps with
  | nil => simp [concat]
  | cons p ps ih => cases p <;> simp [concat, ih, String.append_assoc]

@[simp] theorem values_append (ps qs : List Piece) :
    values (ps ++ qs) = values ps ++ values qs := by
  induction ps with
  | nil => rfl
  | cons p ps ih => cases p <;> simp [values, ih]

/-- Where a value stands, there is a placeholder: without text there are no
    values. -/
theorem values_eq_nil_of_sql (ps : List Piece) (h : sql ps = "") : values ps = [] := by
  induction ps with
  | nil => rfl
  | cons p ps ih =>
    cases p with
    | text t => exact ih (String.append_eq_empty_iff.mp h).2
    | value v =>
      have none : Dialect.mysql.placeholder = "" := (String.append_eq_empty_iff.mp h).1
      exact absurd none (by decide)

theorem length_offsets (start : Nat) (ps : List Piece) :
    (offsets start ps).length = (values ps).length := by
  induction ps generalizing start with
  | nil => rfl
  | cons p ps ih => cases p <;> simp [offsets, values, ih]

end Piece

/-! ## Section 2: Adding pieces -/

namespace Statement

open Piece (concat values offsets)

/-- Adds one piece. -/
def addPiece (s : Statement) : Piece → Statement
  | .text t => s.text t
  | .value v => s.bind v

/-- Adds pieces in turn. -/
def add (ps : List Piece) (s : Statement) : Statement := ps.foldl addPiece s

@[simp] theorem add_nil (s : Statement) : s.add [] = s := rfl

@[simp] theorem add_text_cons (t : String) (ps : List Piece) (s : Statement) :
    s.add (.text t :: ps) = (s.text t).add ps := rfl

@[simp] theorem add_value_cons (v : Value) (ps : List Piece) (s : Statement) :
    s.add (.value v :: ps) = (s.bind v).add ps := rfl

@[simp] theorem add_append (ps qs : List Piece) (s : Statement) :
    s.add (ps ++ qs) = (s.add ps).add qs := by
  simp [add]

/-- Pieces are added at the end, whatever is there. -/
theorem append_add (ps : List Piece) (s t : Statement) : (s ++ t).add ps = s ++ t.add ps := by
  induction ps generalizing t with
  | nil => rfl
  | cons p ps ih => cases p <;> simp [ih]

theorem add_eq_append (ps : List Piece) (s : Statement) : s.add ps = s ++ empty.add ps := by
  rw [← append_add, append_empty]

@[simp] theorem sql_add (ps : List Piece) (s : Statement) :
    (s.add ps).sql = s.sql ++ Piece.sql ps := by
  induction ps generalizing s with
  | nil => simp [Piece.sql, concat]
  | cons p ps ih =>
    cases p <;> simp only [add_text_cons, add_value_cons, ih, Piece.sql, concat] <;>
      exact String.append_assoc

@[simp] theorem params_add (ps : List Piece) (s : Statement) :
    (s.add ps).params = s.params ++ values ps := by
  induction ps generalizing s with
  | nil => simp [values]
  | cons p ps ih => cases p <;> simp [values, ih]

@[simp] theorem places_add (ps : List Piece) (s : Statement) :
    (s.add ps).places = s.places ++ offsets s.sql.utf8ByteSize ps := by
  induction ps generalizing s with
  | nil => simp [offsets]
  | cons p ps ih => cases p <;> simp [offsets, ih, Dialect.mysql]

/-! ## Section 3: Literals in their places

    The copying goes on from the end of the last placeholder, where `done`
    ends. The text passed since then is `lead`, and the next value copies it. -/

theorem inlinedFrom?_offsets (ps : List Piece) (done lead : String) :
    inlinedFrom? (done ++ lead ++ Piece.sql ps) done.utf8ByteSize
        ((offsets (done ++ lead).utf8ByteSize ps).zip (values ps)) =
      some (lead ++ concat Value.literal ps) := by
  induction ps generalizing done lead with
  | nil =>
    have rest := Text.part?_append done lead ""
    simpa [Piece.sql, concat, offsets, values, inlinedFrom?] using rest
  | cons p ps ih =>
    cases p with
    | text t =>
      -- nothing is copied yet: the text joins the lead of the next value
      have := ih done (lead ++ t)
      simpa [Piece.sql, concat, offsets, values, String.append_assoc, Nat.add_assoc] using this
    | value v =>
      have copied := Text.part?_append done lead (Piece.sql (.value v :: ps))
      have rest := ih (done ++ lead ++ Dialect.mysql.placeholder) ""
      have regrouped : done ++ lead ++ Piece.sql (.value v :: ps) =
          done ++ lead ++ Dialect.mysql.placeholder ++ Piece.sql ps := by
        simp [Piece.sql, concat, String.append_assoc]
      rw [String.append_empty, String.utf8ByteSize_append] at rest
      simp only [offsets, values, List.zip_cons_cons, inlinedFrom?, copied]
      rw [regrouped, rest]
      simp [concat, String.append_assoc]

/-- From an empty statement on, all parts are in range. -/
theorem inlined?_add (ps : List Piece) :
    (empty.add ps).inlined? = some (concat Value.literal ps) := by
  have := inlinedFrom?_offsets ps "" ""
  simpa [inlined?] using this

theorem inlined_add (ps : List Piece) : (empty.add ps).inlined = concat Value.literal ps := by
  rw [inlined, inlined?_add, Option.getD_some]

end Statement

end TypedQuery

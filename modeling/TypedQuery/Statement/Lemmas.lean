import TypedQuery.Statement.Basic

/-! # Laws of growing statements

    Statements can be put one after the other, and all growth is at the
    end: whatever is added to `s ++ t` is added to `t`.

    * **`sql_append`**, **`params_append`**: the views of a sequence.
    * **`text_append`**, **`bind_append`**: growth at the end.
-/

namespace TypedQuery.Statement

/-- The second statement after the first, whose bytes come before the places
    of the second. -/
def append (s t : Statement) : Statement where
  sql := s.sql ++ t.sql
  params := s.params ++ t.params
  places := s.places ++ t.places.map (s.sql.utf8ByteSize + ·)

instance : Append Statement := ⟨append⟩

/-! ## Views -/

@[simp] theorem sql_append (s t : Statement) : (s ++ t).sql = s.sql ++ t.sql := rfl

@[simp] theorem params_append (s t : Statement) : (s ++ t).params = s.params ++ t.params := rfl

@[simp] theorem places_append (s t : Statement) :
    (s ++ t).places = s.places ++ t.places.map (s.sql.utf8ByteSize + ·) := rfl

@[simp] theorem sql_empty : empty.sql = "" := rfl

@[simp] theorem params_empty : empty.params = [] := rfl

@[simp] theorem places_empty : empty.places = [] := rfl

@[simp] theorem sql_text (t : String) (s : Statement) : (s.text t).sql = s.sql ++ t := rfl

@[simp] theorem params_text (t : String) (s : Statement) : (s.text t).params = s.params := rfl

@[simp] theorem places_text (t : String) (s : Statement) : (s.text t).places = s.places := rfl

@[simp] theorem sql_bind (v : Value) (s : Statement) : (s.bind v).sql = s.sql ++ "?" := rfl

@[simp] theorem params_bind (v : Value) (s : Statement) :
    (s.bind v).params = s.params ++ [v] := rfl

@[simp] theorem places_bind (v : Value) (s : Statement) :
    (s.bind v).places = s.places ++ [s.sql.utf8ByteSize] := rfl

/-! ## Growth at the end -/

@[simp] theorem text_text (t u : String) (s : Statement) : (s.text t).text u = s.text (t ++ u) := by
  simp [text, String.append_assoc]

@[simp] theorem append_empty (s : Statement) : s ++ empty = s := by
  ext1 <;> simp

@[simp] theorem empty_append (s : Statement) : empty ++ s = s := by
  ext1 <;> simp

theorem append_assoc (s t r : Statement) : s ++ t ++ r = s ++ (t ++ r) := by
  ext1 <;> simp [String.append_assoc, Nat.add_assoc, Function.comp_def]

@[simp] theorem text_append (t : String) (s r : Statement) : (s ++ r).text t = s ++ r.text t := by
  ext1 <;> simp [String.append_assoc]

@[simp] theorem bind_append (v : Value) (s r : Statement) : (s ++ r).bind v = s ++ r.bind v := by
  ext1 <;> simp [String.append_assoc]

end TypedQuery.Statement

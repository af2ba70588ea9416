/-! # Quoted text

    Text between two quote characters, in which a quote that belongs to the
    text is written twice. Identifiers (between backticks, or any other
    character) and text literals (between `'`) are both written this way.

    * **`doubled_cons`**, **`doubled_append`**: the doubling goes character
      by character.
    * **`toList_enclose`**: the characters of a quoted text.
-/

namespace TypedQuery.Text

/-- `s` with every `quote` written twice. -/
def doubled (quote : Char) (s : List Char) : List Char :=
  s.flatMap fun c => if c = quote then [c, c] else [c]

@[simp] theorem doubled_nil (q : Char) : doubled q [] = [] := rfl

theorem doubled_cons (q c : Char) (s : List Char) :
    doubled q (c :: s) = (if c = q then [c, c] else [c]) ++ doubled q s := rfl

@[simp] theorem doubled_cons_self (q : Char) (s : List Char) :
    doubled q (q :: s) = q :: q :: doubled q s := by
  simp [doubled_cons]

@[simp] theorem doubled_cons_of_ne {q c : Char} (h : c ≠ q) (s : List Char) :
    doubled q (c :: s) = c :: doubled q s := by
  simp [doubled_cons, h]

@[simp] theorem doubled_append (q : Char) (s t : List Char) :
    doubled q (s ++ t) = doubled q s ++ doubled q t := by
  simp [doubled]

/-- `s` between two `quote` characters, the quotes inside doubled. -/
def enclose (quote : Char) (s : String) : String :=
  String.ofList (quote :: (doubled quote s.toList ++ [quote]))

@[simp] theorem toList_enclose (q : Char) (s : String) :
    (enclose q s).toList = q :: (doubled q s.toList ++ [q]) := by
  simp [enclose]

end TypedQuery.Text

import TypedQuery.Data.Value

/-! # Backslashes in literals

    A database reads more in the literal of a text than quotes: a backslash
    and the character after it stand for one character, be it a quote or a
    line break. This module reads a literal as the database does, and tells
    which texts are read back from the literals that are written for them:

    * **`length_unescape_lt`**: nothing is read that is longer than what it
      is read from.
    * **`unescape_doubled_iff`**, **`readLiteral_iff`**: exactly the texts
      come back in which every backslash is one that the database leaves
      alone.
    * **`backslash_hides_quote`**: the literal of a text that ends in a
      backslash goes on after its closing quote.
-/

namespace TypedQuery.Text

/-! ## Section 1: Reading -/

/-- What a backslash and the character after it stand for. -/
def escaped : Char → List Char
  | '0' => ['\x00']
  | 'b' => ['\x08']
  | 't' => ['\t']
  | 'n' => ['\n']
  | 'r' => ['\r']
  | 'Z' => ['\x1a']
  -- before a wildcard of `LIKE` the backslash is kept for the pattern
  | '%' => ['\\', '%']
  | '_' => ['\\', '_']
  | c => [c]

/-- The text up to the closing quote, and what follows. A quote belongs to
    the text if it is written twice or stands after a backslash. -/
def unescape : List Char → Option (List Char × List Char)
  | [] => none
  | ['\\'] => none
  | '\\' :: c :: cs => (unescape cs).map fun (s, rest) => (escaped c ++ s, rest)
  | '\'' :: '\'' :: cs => (unescape cs).map fun (s, rest) => (['\''] ++ s, rest)
  | '\'' :: cs => some ([], cs)
  | c :: cs => (unescape cs).map fun (s, rest) => ([c] ++ s, rest)

/-- The text of a literal, and what follows. -/
def readLiteral : List Char → Option (List Char × List Char)
  | '\'' :: cs => unescape cs
  | _ => none

theorem unescape_backslash (c : Char) (cs : List Char) :
    unescape ('\\' :: c :: cs) = (unescape cs).map fun (s, rest) => (escaped c ++ s, rest) := by
  rw [unescape]

theorem unescape_quotes (cs : List Char) :
    unescape ('\'' :: '\'' :: cs) = (unescape cs).map fun (s, rest) => (['\''] ++ s, rest) := by
  rw [unescape]

theorem unescape_close {cs : List Char} (h : cs.head? ≠ some '\'') :
    unescape ('\'' :: cs) = some ([], cs) := by
  rw [unescape]
  rintro cs rfl
  exact h rfl

theorem unescape_plain {c : Char} (quote : c ≠ '\'') (backslash : c ≠ '\\') (cs : List Char) :
    unescape (c :: cs) = (unescape cs).map fun (s, rest) => ([c] ++ s, rest) := by
  rw [unescape]
  · intro e
    exact absurd e backslash
  · intro _ _ e
    exact absurd e backslash
  · intro _ e
    exact absurd e quote
  · intro e
    exact absurd e quote

/-! ## Section 2: What is read -/

/-- The text that is read begins with what was put in front of it. -/
theorem map_append_eq_some_iff {read : Option (List Char × List Char)} {p s rest : List Char} :
    (read.map fun (t, r) => (p ++ t, r)) = some (s, rest) ↔
      ∃ t, read = some (t, rest) ∧ p ++ t = s := by
  constructor
  · intro h
    obtain ⟨⟨t, r⟩, found, e⟩ := Option.map_eq_some_iff.mp h
    cases e
    exact ⟨t, found, rfl⟩
  · rintro ⟨t, found, rfl⟩
    rw [found]
    rfl

theorem map_append_eq_some_self_iff {read : Option (List Char × List Char)}
    {p s rest : List Char} :
    (read.map fun (t, r) => (p ++ t, r)) = some (p ++ s, rest) ↔ read = some (s, rest) := by
  rw [map_append_eq_some_iff]
  constructor
  · intro ⟨t, found, e⟩
    rw [found, List.append_cancel_left e]
  · intro found
    exact ⟨s, found, rfl⟩

/-- A backslash and a character take two places, and so does a quote once it
    is doubled. -/
theorem length_doubled_escaped (c : Char) : (doubled '\'' (escaped c)).length ≤ 2 := by
  unfold escaped
  split
  case h_9 =>
    rw [doubled_cons]
    split <;> simp
  all_goals decide

/-- With its quotes doubled a text is shorter than what it is read from, where
    a quote closes it. -/
theorem length_unescape_lt {cs s rest : List Char} (h : unescape cs = some (s, rest)) :
    (doubled '\'' s).length + rest.length < cs.length := by
  fun_induction unescape cs generalizing s rest with
  | case1 => cases h
  | case2 => cases h
  | case3 c cs ih =>
    obtain ⟨t, read, rfl⟩ := map_append_eq_some_iff.mp h
    have shorter := ih read
    have two := length_doubled_escaped c
    rw [doubled_append, List.length_append]
    simp only [List.length_cons]
    omega
  | case4 cs ih =>
    obtain ⟨t, read, rfl⟩ := map_append_eq_some_iff.mp h
    have shorter := ih read
    rw [doubled_append, List.length_append]
    show 2 + _ + _ < _
    simp only [List.length_cons]
    omega
  | case5 =>
    cases h
    simp
  | case6 c cs _ _ _ quote ih =>
    obtain ⟨t, read, rfl⟩ := map_append_eq_some_iff.mp h
    have shorter := ih read
    have other : c ≠ '\'' := quote
    rw [doubled_append, List.length_append, doubled_cons_of_ne other]
    simp only [doubled_nil, List.length_cons, List.length_nil]
    omega

/-! ## Section 3: Texts that come back -/

/-- A backslash stands for itself only before a wildcard. -/
theorem escaped_append_eq_backslash_iff {c : Char} {s t : List Char} :
    escaped c ++ t = '\\' :: s ↔
      (c = '\\' ∧ t = s) ∨ ((c = '%' ∨ c = '_') ∧ c :: t = s) := by
  unfold escaped
  split
  case h_9 c _ _ _ _ _ _ percent underscore =>
    simp_all
  all_goals simp

/-- Every backslash of a text stands before a wildcard. -/
def BackslashesKept (s : List Char) : Prop :=
  ∀ t, '\\' :: t <:+ s → t.head? = some '%' ∨ t.head? = some '_'

theorem backslashesKept_nil : BackslashesKept [] := by
  intro t h
  exact absurd (List.suffix_nil.mp h) (List.cons_ne_nil _ _)

theorem backslashesKept_cons_of_ne {c : Char} (h : c ≠ '\\') (s : List Char) :
    BackslashesKept (c :: s) ↔ BackslashesKept s := by
  unfold BackslashesKept
  constructor
  · intro kept t ht
    exact kept t (ht.trans (List.suffix_cons c s))
  · intro kept t ht
    rcases List.suffix_cons_iff.mp ht with e | ht
    · exact absurd (List.cons.inj e).1.symm h
    · exact kept t ht

theorem backslashesKept_cons_backslash (s : List Char) :
    BackslashesKept ('\\' :: s) ↔
      (s.head? = some '%' ∨ s.head? = some '_') ∧ BackslashesKept s := by
  unfold BackslashesKept
  constructor
  · intro kept
    exact ⟨kept s List.suffix_rfl, fun t ht => kept t (ht.trans (List.suffix_cons _ s))⟩
  · intro ⟨first, kept⟩ t ht
    rcases List.suffix_cons_iff.mp ht with e | ht
    · obtain rfl := (List.cons.inj e).2
      exact first
    · exact kept t ht

instance decidableBackslashesKept : (s : List Char) → Decidable (BackslashesKept s)
  | [] => .isTrue backslashesKept_nil
  | c :: s =>
    have : Decidable (BackslashesKept s) := decidableBackslashesKept s
    if h : c = '\\' then decidable_of_iff _ (h ▸ backslashesKept_cons_backslash s).symm
    else decidable_of_iff _ (backslashesKept_cons_of_ne h s).symm

/-- A backslash that is not kept either vanishes or takes another one with it,
    and then the text is too short. -/
theorem unescape_backslash_doubled_ne {s : List Char}
    (lost : ¬ (s.head? = some '%' ∨ s.head? = some '_')) (rest : List Char) :
    unescape ('\\' :: (doubled '\'' s ++ '\'' :: rest)) ≠ some ('\\' :: s, rest) := by
  obtain ⟨c, cs, next⟩ : ∃ c cs, doubled '\'' s ++ '\'' :: rest = c :: cs :=
    List.exists_cons_of_ne_nil (by simp)
  rw [next, unescape_backslash]
  intro h
  obtain ⟨t, read, e⟩ := map_append_eq_some_iff.mp h
  rcases escaped_append_eq_backslash_iff.mp e with ⟨-, rfl⟩ | ⟨wildcard, rfl⟩
  · have shorter := length_unescape_lt read
    have whole := congrArg List.length next
    simp only [List.length_append, List.length_cons] at whole
    omega
  · apply lost
    rcases wildcard with rfl | rfl
    · exact .inl rfl
    · exact .inr rfl

/-- A backslash before a wildcard is read as itself, and the wildcard after it
    as if there were none. -/
theorem unescape_backslash_wildcard_iff {w : Char} (wildcard : w = '%' ∨ w = '_')
    {cs s rest : List Char} :
    unescape ('\\' :: w :: cs) = some ('\\' :: s, rest) ↔ unescape (w :: cs) = some (s, rest) := by
  have both : escaped w = ['\\', w] ∧ w ≠ '\'' ∧ w ≠ '\\' := by
    rcases wildcard with rfl | rfl <;> decide
  obtain ⟨stands, quote, backslash⟩ := both
  rw [unescape_backslash, unescape_plain quote backslash, map_append_eq_some_iff,
    map_append_eq_some_iff, stands]
  apply exists_congr
  intro t
  show _ ∧ '\\' :: ([w] ++ t) = '\\' :: s ↔ _
  rw [List.cons_inj_right]

/-- **Texts that come back**: a text is read from its doubled form, up to the
    quote that closes it, if its backslashes are kept, and only then. -/
theorem unescape_doubled_iff {rest : List Char} (h : rest.head? ≠ some '\'') :
    (s : List Char) →
      (unescape (doubled '\'' s ++ '\'' :: rest) = some (s, rest) ↔ BackslashesKept s)
  | [] => by
    rw [doubled_nil, List.nil_append, unescape_close h]
    exact iff_of_true rfl backslashesKept_nil
  | c :: s => by
    have later := unescape_doubled_iff h s
    by_cases quote : c = '\''
    · subst quote
      rw [doubled_cons_self, List.cons_append, List.cons_append, unescape_quotes,
        backslashesKept_cons_of_ne (by decide), ← later]
      exact map_append_eq_some_self_iff
    rw [doubled_cons_of_ne quote, List.cons_append]
    by_cases backslash : c = '\\'
    · subst backslash
      rw [backslashesKept_cons_backslash]
      by_cases kept : s.head? = some '%' ∨ s.head? = some '_'
      · obtain ⟨w, s, rfl, wildcard⟩ : ∃ w t, s = w :: t ∧ (w = '%' ∨ w = '_') := by
          cases s with
          | nil => simp at kept
          | cons w t => exact ⟨w, t, rfl, by simpa using kept⟩
        have plain : w ≠ '\'' := by rcases wildcard with rfl | rfl <;> decide
        rw [and_iff_right kept, ← later, doubled_cons_of_ne plain]
        exact unescape_backslash_wildcard_iff wildcard
      · exact iff_of_false (unescape_backslash_doubled_ne kept rest) fun both => kept both.1
    · rw [unescape_plain quote backslash, backslashesKept_cons_of_ne backslash, ← later]
      exact map_append_eq_some_self_iff

end TypedQuery.Text

namespace TypedQuery.Value

open Text (readLiteral BackslashesKept)

/-! ## Section 4: Literals -/

/-- **Literals of texts**: whatever follows, if it does not begin with a quote,
    the literal of a text is read to its end and gives back the text, exactly
    if every backslash of the text stands before a wildcard. -/
theorem readLiteral_iff (s : String) {rest : List Char} (h : rest.head? ≠ some '\'') :
    readLiteral ((Value.text s).literal.toList ++ rest) = some (s.toList, rest) ↔
      BackslashesKept s.toList := by
  rw [literal, Text.toList_enclose, List.cons_append, List.append_assoc]
  exact Text.unescape_doubled_iff h s.toList

/-- Quotes, and a backslash that keeps a wildcard from being one. -/
theorem readLiteral_iff_pattern :
    (", 2".toList).head? ≠ some '\'' ∧
    readLiteral ((Value.text "it's 5\\%").literal.toList ++ ", 2".toList) =
      some ("it's 5\\%".toList, ", 2".toList) := by
  have other : (", 2".toList).head? ≠ some '\'' := by decide
  have kept : BackslashesKept "it's 5\\%".toList := by decide
  exact ⟨other, (readLiteral_iff "it's 5\\%" other).mpr kept⟩

/-- A backslash at the end hides the closing quote. The text goes on up to the
    next quote, and what follows that is no longer in quotes. -/
theorem backslash_hides_quote :
    (Value.text "\\").literal = "'\\'" ∧ (", 'OR 1'".toList).head? ≠ some '\'' ∧
    readLiteral ((Value.text "\\").literal.toList ++ ", 'OR 1'".toList) =
      some ("', ".toList, "OR 1'".toList) ∧
    readLiteral (Value.text "\\").literal.toList = none := by
  decide

end TypedQuery.Value

import TypedQuery.Proofs.Text.Literal
import TypedQuery.Statement.Dialect

/-! # Reading identifiers

    A dialect writes a name between two of its quote characters, and a reader
    that knows the character finds the name again, whatever the character
    and the name are:

    * **`unquote_eq_some_iff`**: the text that is read up to a closing quote
      was written just so, and not in another way.
    * **`quoted_decodable`**: a reader takes neither less nor more than what
      was written for the name. So names can be told by their quoted forms,
      and no quoted name that something else follows begins another one.
-/

namespace TypedQuery

/-! ## Section 1: Quoted text -/

namespace Text

variable {q : Char} {cs s rest : List Char}

/-- What is read up to a closing quote was written with its quotes doubled,
    and no further quote follows the closing one. -/
theorem eq_doubled_of_unquote (h : unquote q cs = some (s, rest)) :
    cs = doubled q s ++ q :: rest ∧ rest.head? ≠ some q := by
  fun_induction unquote q cs generalizing s rest with
  | case1 => cases h
  | case2 c cs other ih =>
    obtain ⟨⟨s', rest'⟩, read, e⟩ := Option.map_eq_some_iff.mp h
    cases e
    obtain ⟨rfl, stops⟩ := ih read
    rw [doubled_cons_of_ne other, List.cons_append]
    exact ⟨rfl, stops⟩
  | case3 c quote =>
    cases h
    obtain rfl : c = q := Decidable.not_not.mp quote
    exact ⟨rfl, by simp⟩
  | case4 c quote cs ih =>
    obtain rfl : c = q := Decidable.not_not.mp quote
    obtain ⟨⟨s', rest'⟩, read, e⟩ := Option.map_eq_some_iff.mp h
    cases e
    obtain ⟨rfl, stops⟩ := ih read
    rw [doubled_cons_self, List.cons_append, List.cons_append]
    exact ⟨rfl, stops⟩
  | case5 c quote d cs other =>
    cases h
    obtain rfl : c = q := Decidable.not_not.mp quote
    refine ⟨rfl, ?_⟩
    rw [List.head?_cons]
    exact fun same => other (Option.some.inj same)

theorem unquote_eq_some_iff :
    unquote q cs = some (s, rest) ↔ cs = doubled q s ++ q :: rest ∧ rest.head? ≠ some q := by
  constructor
  · exact eq_doubled_of_unquote
  · rintro ⟨rfl, stops⟩
    exact unquote_doubled q s stops

/-- The text between two quotes, and what follows. -/
def readEnclosed (quote : Char) : List Char → Option (String × List Char)
  | [] => none
  | c :: cs =>
    if c = quote then (unquote quote cs).map fun (s, rest) => (String.ofList s, rest) else none

theorem readEnclosed_eq_some_iff {name : String} :
    readEnclosed q cs = some (name, rest) ↔
      cs = (enclose q name).toList ++ rest ∧ rest.head? ≠ some q := by
  rw [toList_enclose, List.cons_append, List.append_assoc, List.cons_append, List.nil_append]
  cases cs with
  | nil => simp [readEnclosed]
  | cons c cs =>
    by_cases opens : c = q
    · subst opens
      rw [readEnclosed, if_pos rfl, List.cons_inj_right, ← unquote_eq_some_iff,
        Option.map_eq_some_iff]
      constructor
      · rintro ⟨⟨s, rest'⟩, read, e⟩
        cases e
        rw [String.toList_ofList]
        exact read
      · intro read
        refine ⟨_, read, ?_⟩
        show (String.ofList name.toList, rest) = (name, rest)
        rw [String.ofList_toList]
    · rw [readEnclosed, if_neg opens]
      exact iff_of_false (by simp) fun both => opens (List.cons.inj both.1).1

end Text

/-! ## Section 2: Dialects -/

namespace Dialect

/-- The name that a text begins with, and what follows it. -/
def readName (d : Dialect) (cs : List Char) : Option (String × List Char) :=
  Text.readEnclosed d.quote cs

variable (d : Dialect)

theorem readName_eq_some_iff {cs rest : List Char} {name : String} :
    d.readName cs = some (name, rest) ↔
      cs = (d.quoted name).toList ++ rest ∧ rest.head? ≠ some d.quote :=
  Text.readEnclosed_eq_some_iff

/-- Two texts that begin with a quoted name, and go on with no quote, begin
    with the same one if they are the same. -/
theorem name_eq_of_append_eq {a b : String} {rest rest' : List Char}
    (h : (d.quoted a).toList ++ rest = (d.quoted b).toList ++ rest')
    (stops : rest.head? ≠ some d.quote) (stops' : rest'.head? ≠ some d.quote) :
    a = b ∧ rest = rest' := by
  have first : d.readName ((d.quoted a).toList ++ rest) = some (a, rest) :=
    d.readName_eq_some_iff.mpr ⟨rfl, stops⟩
  have second : d.readName ((d.quoted a).toList ++ rest) = some (b, rest') :=
    d.readName_eq_some_iff.mpr ⟨h, stops'⟩
  rw [first] at second
  cases second
  exact ⟨rfl, rfl⟩

/-- **Names are read back**: in any dialect, a name is read from a text exactly
    if the text is its quoted form and then something that begins with no
    quote. Different names have different quoted forms, and a quoted name
    with another character after it does not begin any quoted name. -/
theorem quoted_decodable :
    (∀ (cs rest : List Char) (name : String), d.readName cs = some (name, rest) ↔
      cs = (d.quoted name).toList ++ rest ∧ rest.head? ≠ some d.quote) ∧
    (∀ a b : String, d.quoted a = d.quoted b ↔ a = b) ∧
    ∀ (a b : String) (c : Char), c ≠ d.quote →
      ¬ (d.quoted a).toList ++ [c] <+: (d.quoted b).toList := by
  refine ⟨fun cs rest name => d.readName_eq_some_iff, ?_, ?_⟩
  · intro a b
    constructor
    · intro same
      have texts : (d.quoted a).toList ++ [] = (d.quoted b).toList ++ [] := by rw [same]
      exact (d.name_eq_of_append_eq texts (by simp) (by simp)).1
    · rintro rfl
      rfl
  · rintro a b c other ⟨rest, begins⟩
    rw [List.append_assoc] at begins
    have goes_on : ([c] ++ rest).head? ≠ some d.quote := fun e => other (Option.some.inj e)
    have texts : (d.quoted a).toList ++ ([c] ++ rest) = (d.quoted b).toList ++ [] := by
      rw [begins, List.append_nil]
    -- nothing is left over behind the longer one, but the other character is
    exact List.cons_ne_nil _ _ (d.name_eq_of_append_eq texts goes_on (by simp)).2

/-- Names made of quotes, where the quote is not an ASCII character. -/
theorem quoted_decodable_guillemets :
    let d : Dialect := { name := "guillemets", quote := '»' }
    d.quoted "»" = "»»»»" ∧ 'x' ≠ d.quote ∧
    d.readName "»»»»»» x".toList = some ("»»", " x".toList) ∧
    ¬ (d.quoted "»").toList ++ ['x'] <+: (d.quoted "»»x").toList := by
  intro d
  have other : 'x' ≠ d.quote := by decide
  obtain ⟨read, -, self_delimiting⟩ := quoted_decodable d
  refine ⟨by decide, other, ?_, self_delimiting "»" "»»x" 'x' other⟩
  exact (read "»»»»»» x".toList " x".toList "»»").mpr ⟨by decide, by decide⟩

end Dialect

end TypedQuery

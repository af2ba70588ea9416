import TypedQuery.Registry.Table

/-! # Which segment names the table

    The full name of a type may have type arguments at any of its segments,
    and a qualification `<A as B>` in front, and either may be full of `::`
    again. Its last segment is the last one outside of all brackets, and the
    table is meant to be named after that.

    * **`last_eq_of_text_eq`**: the text of a name alone tells what its last
      segment is.
    * **`named_after_last_iff`**: the table is named after the first segment
      with arguments, and after nothing if there is a qualification; that is
      the last segment if no other has arguments.
    * **`enclosing_type_names_table`**: so the table of a type that is local
      to a method is named after the type whose method it is.
-/

namespace TypedQuery.TypeName

/-! ## Section 1: Names -/

/-- Text in which brackets are closed in turn, such as the names of further
    types. -/
inductive Balanced : List Char → Prop where
  | nil : Balanced []
  | char {c : Char} {s : List Char} (plain : c ≠ '<' ∧ c ≠ '>') (rest : Balanced s) :
      Balanced (c :: s)
  | group {s t : List Char} (inside : Balanced s) (rest : Balanced t) :
      Balanced ('<' :: s ++ '>' :: t)

/-- A part of a path: an identifier and perhaps arguments in brackets. -/
structure Segment where
  identifier : List Char
  arguments : Option (List Char)
  nonempty : identifier ≠ []
  plain : ∀ c ∈ identifier, c ≠ ':' ∧ c ≠ '<' ∧ c ≠ '>'
  balanced : ∀ s ∈ arguments, Balanced s

/-- The full name of a type. -/
structure Path where
  /-- What stands in brackets before the first segment, as in `<A as B>`. -/
  qualification : Option (List Char)
  /-- The segments before the last one. -/
  enclosing : List Segment
  last : Segment
  balanced : ∀ s ∈ qualification, Balanced s

/-- Text in brackets, if there is any. -/
def bracketed : Option (List Char) → List Char
  | none => []
  | some s => '<' :: s ++ ['>']

/-- The text of a segment. -/
def Segment.text (s : Segment) : List Char := s.identifier ++ bracketed s.arguments

/-- Segments with `::` between two of them. -/
def joined : List Segment → Segment → List Char
  | [], last => last.text
  | s :: segments, last => s.text ++ ':' :: ':' :: joined segments last

namespace Path

/-- The text of a name. -/
def text (p : Path) : List Char :=
  match p.qualification with
  | none => joined p.enclosing p.last
  | some s => bracketed (some s) ++ ':' :: ':' :: joined p.enclosing p.last

end Path

/-! ## Section 2: The last segment -/

/-- The last segment of a text is `s`, where `s` is all of it or comes after a
    separator. -/
def EndsIn (s text : List Char) : Prop :=
  ∃ lead, text = lead ++ s ∧ (lead = [] ∨ ∃ t, lead = t ++ [':', ':'])

theorem endsIn_self (s : List Char) : EndsIn s s := ⟨[], rfl, .inl rfl⟩

theorem EndsIn.after {s text : List Char} (h : EndsIn s text) (lead : List Char) :
    EndsIn s (lead ++ ':' :: ':' :: text) := by
  obtain ⟨lead', rfl, before⟩ := h
  refine ⟨lead ++ [':', ':'] ++ lead', by simp, .inr ?_⟩
  rcases before with rfl | ⟨t, rfl⟩
  · exact ⟨lead, by simp⟩
  · exact ⟨lead ++ [':', ':'] ++ t, by simp⟩

theorem upToSeparator_eq_self {s : List Char} (h : ':' ∉ s) : upToSeparator s = s := by
  induction s with
  | nil => rfl
  | cons c s ih =>
    obtain ⟨hc, hs⟩ : ':' ≠ c ∧ ':' ∉ s := by simpa using h
    rw [upToSeparator, ih hs]
    intro _ heq
    exact absurd heq.symm hc

theorem EndsIn.lastSegment_eq {s text : List Char} (h : EndsIn s text) (plain : ':' ∉ s) :
    lastSegment text = s := by
  obtain ⟨lead, rfl, rfl | ⟨t, rfl⟩⟩ := h
  · rw [List.nil_append, lastSegment, upToSeparator_eq_self (by simpa using plain),
      List.reverse_reverse]
  · rw [List.append_assoc]
    exact lastSegment_append plain t

theorem Segment.separator_not_mem (s : Segment) : ':' ∉ s.identifier :=
  fun mem => (s.plain _ mem).1 rfl

/-! ### Outside of brackets -/

/-- The characters of a text that no bracket encloses, `depth` of them being
    open at first. -/
def outside : Nat → List Char → List Char
  | _, [] => []
  | depth, c :: s =>
    if c = '<' then outside (depth + 1) s
    else if c = '>' then outside (depth - 1) s
    else if depth = 0 then c :: outside 0 s
    else outside depth s

theorem outside_plain_append {s : List Char} (h : ∀ c ∈ s, c ≠ '<' ∧ c ≠ '>') (t : List Char) :
    outside 0 (s ++ t) = s ++ outside 0 t := by
  induction s with
  | nil => rfl
  | cons c s ih =>
    obtain ⟨opens, closes⟩ := h c List.mem_cons_self
    rw [List.cons_append, outside, if_neg opens, if_neg closes, if_pos rfl,
      ih fun c' mem => h c' (List.mem_cons_of_mem c mem), List.cons_append]

theorem outside_balanced_append {s : List Char} (h : Balanced s) (depth : Nat) (t : List Char) :
    outside (depth + 1) (s ++ t) = outside (depth + 1) t := by
  induction h generalizing depth t with
  | nil => rfl
  | char plain _ ih =>
    rw [List.cons_append, outside, if_neg plain.1, if_neg plain.2, if_neg (Nat.succ_ne_zero depth),
      ih]
  | group _ _ inside rest =>
    rw [List.append_assoc, List.cons_append, List.cons_append, outside, if_pos rfl, inside,
      outside, if_neg (by decide), if_pos rfl]
    exact rest depth t

theorem outside_bracketed_append {a : Option (List Char)} (h : ∀ s ∈ a, Balanced s)
    (t : List Char) : outside 0 (bracketed a ++ t) = outside 0 t := by
  cases a with
  | none => rfl
  | some s =>
    rw [bracketed, List.append_assoc, List.cons_append, outside, if_pos rfl,
      outside_balanced_append (h s rfl)]
    rfl

theorem Segment.outside_text_append (s : Segment) (t : List Char) :
    outside 0 (s.text ++ t) = s.identifier ++ outside 0 t := by
  rw [text, List.append_assoc, outside_plain_append fun c mem => (s.plain c mem).2,
    outside_bracketed_append s.balanced]

theorem endsIn_outside_joined (segments : List Segment) (last : Segment) :
    EndsIn last.identifier (outside 0 (joined segments last)) := by
  induction segments with
  | nil =>
    have whole := last.outside_text_append []
    rw [List.append_nil, outside, List.append_nil] at whole
    rw [joined, whole]
    exact endsIn_self _
  | cons s segments ih =>
    rw [joined, s.outside_text_append]
    exact ih.after s.identifier

theorem endsIn_outside_text (p : Path) : EndsIn p.last.identifier (outside 0 p.text) := by
  have path := endsIn_outside_joined p.enclosing p.last
  unfold Path.text
  split
  next => exact path
  next s qualified =>
    rw [outside_bracketed_append fun s' mem => p.balanced s' (qualified ▸ mem)]
    exact path.after []

/-- Names that read alike have the same last segment. -/
theorem last_eq_of_text_eq {p q : Path} (h : p.text = q.text) :
    p.last.identifier = q.last.identifier := by
  rw [← (endsIn_outside_text p).lastSegment_eq p.last.separator_not_mem, h,
    (endsIn_outside_text q).lastSegment_eq q.last.separator_not_mem]

/-! ## Section 3: The name of the table -/

/-- A name is the stem of an identifier if it is all of it but a final
    `Table`, where something comes before that. -/
inductive Stem : List Char → List Char → Prop where
  | stripped {s : List Char} (left : s ≠ []) : Stem (s ++ "Table".toList) s
  | whole {s : List Char} (kept : ∀ t, t ≠ [] → s ≠ t ++ "Table".toList) : Stem s s

theorem stem_iff {s t : List Char} : Stem s t ↔ withoutTable s = t := by
  by_cases strips : ∃ t, t ≠ [] ∧ s = t ++ "Table".toList
  · obtain ⟨u, left, rfl⟩ := strips
    rw [withoutTable_append left]
    constructor
    · intro h
      generalize e : u ++ "Table".toList = v at h
      cases h with
      | stripped => exact List.append_cancel_right e
      | whole kept => exact absurd e.symm (kept u left)
    · rintro rfl
      exact .stripped left
  · have kept : ∀ t, t ≠ [] → s ≠ t ++ "Table".toList := fun t left e => strips ⟨t, left, e⟩
    have same : withoutTable s = s := by
      unfold withoutTable
      apply if_neg
      rw [Bool.and_eq_true, List.isSuffixOf_iff_suffix, bne_iff_ne]
      rintro ⟨⟨u, rfl⟩, other⟩
      exact kept u (fun empty => other (empty ▸ rfl)) rfl
    rw [same]
    constructor
    · intro h
      cases h with
      | stripped left => exact absurd rfl (kept _ left)
      | whole => rfl
    · rintro rfl
      exact .whole kept

theorem stem_ne_nil {s t : List Char} (h : Stem s t) (nonempty : s ≠ []) : t ≠ [] := by
  cases h with
  | stripped left => exact left
  | whole => exact nonempty

/-- The identifier of the first segment with arguments, or else of the last
    segment. -/
def opening : List Segment → Segment → List Char
  | [], last => last.identifier
  | s :: segments, last =>
    if s.arguments.isSome then s.identifier else opening segments last

theorem separator_not_mem_opening (segments : List Segment) (last : Segment) :
    ':' ∉ opening segments last := by
  fun_induction opening segments last with
  | case1 last => exact last.separator_not_mem
  | case2 s => exact s.separator_not_mem
  | case3 _ _ _ _ ih => exact ih

theorem opening_ne_nil (segments : List Segment) (last : Segment) :
    opening segments last ≠ [] := by
  fun_induction opening segments last with
  | case1 last => exact last.nonempty
  | case2 s => exact s.nonempty
  | case3 _ _ _ _ ih => exact ih

/-- Up to the first bracket there is all of a segment without arguments, and
    only the identifier of one that has some. -/
theorem Segment.takeWhile_text_append (s : Segment) (t : List Char) :
    (s.text ++ t).takeWhile (· != '<') =
      s.identifier ++ if s.arguments.isSome then [] else t.takeWhile (· != '<') := by
  have plain : ∀ c ∈ s.identifier, (c != '<') = true :=
    fun c mem => bne_iff_ne.mpr (s.plain c mem).2.1
  rw [text, List.append_assoc, List.takeWhile_append_of_pos plain]
  cases s.arguments <;> rfl

/-- What comes before the first bracket ends in the segment that has it. -/
theorem endsIn_takeWhile_joined (segments : List Segment) (last : Segment) :
    EndsIn (opening segments last) ((joined segments last).takeWhile (· != '<')) := by
  fun_induction opening segments last with
  | case1 last =>
    have whole := last.takeWhile_text_append []
    rw [List.append_nil, List.takeWhile_nil, ite_self, List.append_nil] at whole
    rw [joined, whole]
    exact endsIn_self _
  | case2 s segments last some =>
    rw [joined, s.takeWhile_text_append, if_pos some, List.append_nil]
    exact endsIn_self _
  | case3 s segments last none ih =>
    rw [joined, s.takeWhile_text_append, if_neg none]
    exact ih.after s.identifier

namespace Path

/-- The table that is named after a type. -/
def table (p : Path) : Table := .ofTypeName (String.ofList p.text)

variable {p : Path}

theorem toList_name_table (p : Path) :
    p.table.name.toList = withoutTable (lastSegment (p.text.takeWhile (· != '<'))) := by
  rw [table, Table.ofTypeName, Table.named, tableName, String.toList_ofList, String.toList_ofList]

theorem name_table_of_qualified (h : p.qualification ≠ none) : p.table.name = "" := by
  obtain ⟨s, qualified⟩ := Option.ne_none_iff_exists'.mp h
  have bracket : p.text.takeWhile (· != '<') = [] := by
    rw [text, qualified]
    rfl
  rw [← String.toList_inj, toList_name_table, bracket]
  rfl

theorem stem_name_table (h : p.qualification = none) :
    Stem (opening p.enclosing p.last) p.table.name.toList := by
  have path : p.text = joined p.enclosing p.last := by rw [text, h]
  rw [stem_iff, toList_name_table, path,
    (endsIn_takeWhile_joined p.enclosing p.last).lastSegment_eq (separator_not_mem_opening _ _)]

theorem name_table_eq_empty_iff : p.table.name = "" ↔ p.qualification ≠ none := by
  constructor
  · intro empty none
    apply stem_ne_nil (stem_name_table none) (opening_ne_nil _ _)
    rw [empty]
    rfl
  · exact name_table_of_qualified

end Path

/-- **Which segment names the table**: a table has the stem of the last segment
    for a name exactly if the type has no qualification and its first segment
    with arguments, if it has any, has the same stem as the last one. With a
    qualification the table has no name, and without one it has the stem of
    that first segment. -/
theorem named_after_last_iff (p : Path) :
    (Stem p.last.identifier p.table.name.toList ↔ p.qualification = none ∧
      ∃ s, Stem (opening p.enclosing p.last) s ∧ Stem p.last.identifier s) ∧
    (p.table.name = "" ↔ p.qualification ≠ none) ∧
    (p.qualification = none → Stem (opening p.enclosing p.last) p.table.name.toList) ∧
    ∀ q : Path, q.text = p.text → q.last.identifier = p.last.identifier := by
  refine ⟨⟨?_, ?_⟩, Path.name_table_eq_empty_iff, Path.stem_name_table,
    fun q same => last_eq_of_text_eq same⟩
  · intro documented
    have named : p.table.name ≠ "" := by
      intro empty
      apply stem_ne_nil documented p.last.nonempty
      rw [empty]
      rfl
    have none : p.qualification = none :=
      Decidable.not_not.mp fun qualified => named (Path.name_table_of_qualified qualified)
    exact ⟨none, _, Path.stem_name_table none, documented⟩
  · rintro ⟨none, s, first, last⟩
    have same : p.table.name.toList = s :=
      (stem_iff.mp (Path.stem_name_table none)).symm.trans (stem_iff.mp first)
    rw [same]
    exact last

/-! ### Types of an application -/

theorem balanced_of_plain {s : List Char} (h : ∀ c ∈ s, c ≠ '<' ∧ c ≠ '>') : Balanced s := by
  induction s with
  | nil => exact .nil
  | cons c s ih =>
    exact .char (h c List.mem_cons_self) (ih fun c' mem => h c' (List.mem_cons_of_mem c mem))

/-- The module of the types. -/
def app : Segment := ⟨"app".toList, none, by simp, by simp, by simp⟩

/-- A type with another one as its argument. -/
def pairTable : Segment where
  identifier := "PairTable".toList
  arguments := some "app::X".toList
  nonempty := by simp
  plain := by simp
  balanced := by
    rintro _ ⟨⟩
    exact balanced_of_plain (by simp)

/-- A method. -/
def make : Segment := ⟨"make".toList, none, by simp, by simp, by simp⟩

def userTable : Segment := ⟨"UserTable".toList, none, by simp, by simp, by simp⟩

/-- A type with arguments. -/
def pair : Path := ⟨none, [app], pairTable, by simp⟩

/-- A type that is local to a method of a trait. -/
def localOfTrait : Path := ⟨some "app::X as app::NamedTable".toList, [make], userTable, by
  rintro _ ⟨⟩
  exact balanced_of_plain (by simp)⟩

/-- A type that is local to a method of a type with arguments. -/
def localOfPair : Path := ⟨none, [app, pairTable, make], userTable, by simp⟩

/-- Arguments of the last segment make no difference. -/
theorem named_after_last_iff_pair :
    pair.text = "app::PairTable<app::X>".toList ∧ pair.qualification = none ∧
    Stem pair.last.identifier pair.table.name.toList ∧ pair.table.name = "Pair" := by
  have named : pair.table.name = "Pair" := by decide
  refine ⟨by decide, rfl, (named_after_last_iff pair).1.mpr ⟨rfl, "Pair".toList, ?_, ?_⟩, named⟩
  all_goals exact Stem.stripped (s := "Pair".toList) (by decide)

/-- A type that is local to a method has a table that is named after the type
    whose method it is, if that has arguments. If it is a method of a trait,
    the table has no name. -/
theorem enclosing_type_names_table :
    localOfPair.text = "app::PairTable<app::X>::make::UserTable".toList ∧
    Stem localOfPair.last.identifier "User".toList ∧ localOfPair.table.name = "Pair" ∧
    ¬ Stem localOfPair.last.identifier localOfPair.table.name.toList ∧
    localOfTrait.text = "<app::X as app::NamedTable>::make::UserTable".toList ∧
    Stem localOfTrait.last.identifier "User".toList ∧ localOfTrait.table.name = "" ∧
    ¬ Stem localOfTrait.last.identifier localOfTrait.table.name.toList := by
  have user : Stem userTable.identifier "User".toList :=
    Stem.stripped (s := "User".toList) (by decide)
  have enclosing : localOfPair.table.name = "Pair" := by decide
  have unnamed : localOfTrait.table.name = "" := by decide
  refine ⟨by decide, user, enclosing, ?_, by decide, user, unnamed, ?_⟩
  · rw [stem_iff, enclosing]
    decide
  · rw [stem_iff, unnamed]
    decide

end TypedQuery.TypeName

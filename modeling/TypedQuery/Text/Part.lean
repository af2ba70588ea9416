/-! # Parts of texts

    A text can be cut at byte offsets, but only between characters.

    * **`part?_append`**: the middle one of three texts is the part between
      the end of the first and the end of the second.
-/

namespace TypedQuery.Text

/-- The part of `s` between two byte offsets. There is none unless both
    offsets lie between characters of `s` and the first is not after the
    second. -/
def part? (s : String) (start stop : Nat) : Option String :=
  match s.pos? ⟨start⟩, s.pos? ⟨stop⟩ with
  | some p, some q => (s.slice? p q).map (·.copy)
  | _, _ => none

/-- The end of `s` is a place between characters of `s ++ t`. -/
theorem exists_pos?_splits {r s t : String} (h : r = s ++ t) :
    ∃ p, r.pos? ⟨s.utf8ByteSize⟩ = some p ∧ p.Splits s t := by
  have valid : (⟨s.utf8ByteSize⟩ : String.Pos.Raw).IsValid r :=
    String.Pos.Raw.isValid_iff_exists_append.mpr ⟨s, t, h, rfl⟩
  exact ⟨r.pos _ valid, by simp [String.pos?, String.Slice.pos?, String.pos, valid], h, rfl⟩

theorem part?_append (s t u : String) :
    part? (s ++ t ++ u) s.utf8ByteSize (s ++ t).utf8ByteSize = some t := by
  have regrouped : s ++ t ++ u = s ++ (t ++ u) := String.append_assoc
  obtain ⟨p, hp, start⟩ := exists_pos?_splits regrouped
  obtain ⟨q, hq, stop⟩ := exists_pos?_splits (r := s ++ t ++ u) rfl
  obtain ⟨le, copied⟩ := String.copy_slice_eq_iff_splits.mpr ⟨s, u, start, stop⟩
  simp only [part?, hp, hq, String.slice?, dif_pos le, Option.map_some, copied]

/-- A crab has four bytes, and no place inside it. -/
example : part? "a🦀?b" 1 5 = some "🦀" ∧ part? "a🦀?b" 1 4 = none := by decide

end TypedQuery.Text

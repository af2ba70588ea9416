import TypedQuery.Text.Hex
import TypedQuery.Text.Quoted

/-! # Reading literals

    The contents of literals, read back from their text: text between two
    quotes, of which one inside is written twice, and bytes as hexadecimal
    digits up to a quote.

    * **`unquote_doubled`**: doubled text is read as it was, up to the quote
      that closes it.
    * **`unhex_hexByte`**: bytes are read from their digits.
-/

namespace TypedQuery.Text

/-! ## Section 1: Quotes -/

/-- The text up to the closing `quote`, a doubled one read as one, and what
    follows. -/
def unquote (quote : Char) : List Char → Option (List Char × List Char)
  | [] => none
  | c :: cs =>
    if c ≠ quote then (unquote quote cs).map fun (s, rest) => (c :: s, rest)
    else
      -- whether a quote closes the text is seen from the character after it
      match cs with
      | [] => some ([], [])
      | d :: rest =>
        if d = quote then (unquote quote rest).map fun (s, rest) => (quote :: s, rest)
        else some ([], d :: rest)

variable (q : Char)

theorem unquote_cons_of_ne {c : Char} (h : c ≠ q) (cs : List Char) :
    unquote q (c :: cs) = (unquote q cs).map fun (s, rest) => (c :: s, rest) := by
  rw [unquote.eq_def]
  exact if_pos h

theorem unquote_cons_cons_self (cs : List Char) :
    unquote q (q :: q :: cs) = (unquote q cs).map fun (s, rest) => (q :: s, rest) := by
  simp [unquote]

theorem unquote_close {rest : List Char} (h : rest.head? ≠ some q) :
    unquote q (q :: rest) = some ([], rest) := by
  cases rest with
  | nil => simp [unquote]
  | cons d rest =>
    have other : d ≠ q := fun e => h (e ▸ rfl)
    simp [unquote, other]

/-- What follows must not begin with a quote, which would be taken for part
    of the text. -/
theorem unquote_doubled (s : List Char) {rest : List Char} (h : rest.head? ≠ some q) :
    unquote q (doubled q s ++ q :: rest) = some (s, rest) := by
  induction s with
  | nil => exact unquote_close q h
  | cons c s ih =>
    by_cases hc : c = q
    · subst hc
      rw [doubled_cons_self, List.cons_append, List.cons_append, unquote_cons_cons_self, ih]
      rfl
    · rw [doubled_cons_of_ne hc, List.cons_append, unquote_cons_of_ne q hc, ih]
      rfl

/-- Text without quotes has none to double. -/
theorem doubled_eq_self {s : List Char} (h : q ∉ s) : doubled q s = s := by
  induction s with
  | nil => rfl
  | cons c s ih =>
    have first : c ≠ q := fun e => h (e ▸ List.mem_cons_self)
    rw [doubled_cons_of_ne first, ih fun hc => h (List.mem_cons_of_mem c hc)]

theorem length_unquote_le {cs s rest : List Char} (h : unquote q cs = some (s, rest)) :
    rest.length ≤ cs.length := by
  fun_induction unquote q cs generalizing s rest with
  | case1 => cases h
  | case2 c cs _ ih =>
    obtain ⟨⟨s', rest'⟩, read, e⟩ := Option.map_eq_some_iff.mp h
    cases e
    have := ih read
    simp only [List.length_cons]
    omega
  | case3 =>
    cases h
    simp
  | case4 c _ cs ih =>
    obtain ⟨⟨s', rest'⟩, read, e⟩ := Option.map_eq_some_iff.mp h
    cases e
    have := ih read
    simp only [List.length_cons]
    omega
  | case5 =>
    cases h
    simp

/-! ## Section 2: Bytes -/

/-- The bytes up to the closing quote, and what follows. -/
def unhex : List Char → Option (List UInt8 × List Char)
  | '\'' :: cs => some ([], cs)
  | a :: b :: cs => do
    let high ← hexValue? a
    let low ← hexValue? b
    let (bytes, rest) ← unhex cs
    return (UInt8.ofNat (16 * high + low) :: bytes, rest)
  | _ => none

theorem length_unhex_le {cs : List Char} {bytes : List UInt8} {rest : List Char}
    (h : unhex cs = some (bytes, rest)) : rest.length ≤ cs.length := by
  fun_induction unhex cs generalizing bytes rest with
  | case1 cs =>
    cases h
    simp
  | case2 a b cs _ ih =>
    simp only [Option.bind_eq_bind, Option.bind_eq_some_iff] at h
    obtain ⟨high, -, low, -, ⟨bytes', rest'⟩, read, e⟩ := h
    cases e
    have := ih read
    simp only [List.length_cons]
    omega
  | case3 => cases h

theorem hexDigit_ne_quote {n : Nat} (h : n < 16) : hexDigit n ≠ '\'' := by
  have all : ∀ n : Fin 16, hexDigit n ≠ '\'' := by decide
  exact all ⟨n, h⟩

theorem quote_not_mem_hexByte (bytes : List UInt8) : '\'' ∉ bytes.flatMap hexByte := by
  intro h
  obtain ⟨b, -, hb⟩ := List.mem_flatMap.mp h
  have size := b.toNat_lt
  simp only [hexByte, List.mem_cons, List.not_mem_nil, or_false] at hb
  rcases hb with digit | digit
  · exact hexDigit_ne_quote (by omega) digit.symm
  · exact hexDigit_ne_quote (by omega) digit.symm

theorem unhex_hexByte (bytes : List UInt8) (rest : List Char) :
    unhex (bytes.flatMap hexByte ++ '\'' :: rest) = some (bytes, rest) := by
  induction bytes with
  | nil => rfl
  | cons b bytes ih =>
    have size := b.toNat_lt
    have high : b.toNat / 16 < 16 := by omega
    have low : b.toNat % 16 < 16 := by omega
    have whole : UInt8.ofNat (16 * (b.toNat / 16) + b.toNat % 16) = b := by
      rw [Nat.div_add_mod, UInt8.ofNat_toNat]
    rw [List.flatMap_cons, hexByte, List.append_assoc]
    show unhex (hexDigit (b.toNat / 16) :: hexDigit (b.toNat % 16) ::
      (bytes.flatMap hexByte ++ '\'' :: rest)) = _
    rw [unhex]
    · simp only [hexValue?_hexDigit high, hexValue?_hexDigit low, ih, whole, Option.bind_eq_bind,
        Option.bind_some, Option.pure_def]
    · intro e
      exact absurd e (hexDigit_ne_quote high)

end TypedQuery.Text

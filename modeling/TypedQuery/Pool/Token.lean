import TypedQuery.Text.Hex

/-! # Tokens of documents

    A settings document is a JSON text. Its tokens are brackets, commas,
    colons, strings, numbers and the three words, with blanks between.

    * **Strings** may spell any character by an escape. An escape `\u` names
      a UTF-16 unit, and a string in which a surrogate has no partner is not
      text, though its form is right.
    * **Numbers** are whole if they have neither a fraction nor an exponent;
      `-0` is no whole number.
    * **`length_readToken_lt`**: a token has at least one character.
-/

namespace TypedQuery.Pool

/-- A token of a document. -/
inductive Token where
  | openObject
  | closeObject
  | openList
  | closeList
  | colon
  | comma
  /-- A string, unless a surrogate in it has no partner. -/
  | text (s : Option String)
  | whole (n : Int)
  /-- A number with a fraction or an exponent, or `-0`. -/
  | fraction
  /-- `null`, `true` or `false`. -/
  | word
  deriving DecidableEq, Repr

/-! ## Strings -/

/-- What stands for a character in a string: itself, or a UTF-16 unit that
    an escape names. -/
inductive Spelling where
  | char (c : Char)
  | unit (u : Nat)
  deriving DecidableEq, Repr

/-- The unit that four hexadecimal digits name. -/
def unit? (a b c d : Char) : Option Nat := do
  let a ← Text.hexValue? a
  let b ← Text.hexValue? b
  let c ← Text.hexValue? c
  let d ← Text.hexValue? d
  return ((a * 16 + b) * 16 + c) * 16 + d

/-- The character that a one-letter escape names. -/
def escaped? : Char → Option Char
  | '"' => some '"'
  | '\\' => some '\\'
  | '/' => some '/'
  | 'b' => some '\x08'
  | 'f' => some '\x0c'
  | 'n' => some '\n'
  | 'r' => some '\r'
  | 't' => some '\t'
  | _ => none

/-- Reads the rest of a string behind its opening quote. A control character
    does not stand for itself. -/
def readString : List Char → Option (List Spelling × List Char)
  | [] => none
  | '"' :: rest => some ([], rest)
  | '\\' :: 'u' :: a :: b :: c :: d :: rest =>
    match unit? a b c d, readString rest with
    | some u, some (spelling, rest) => some (.unit u :: spelling, rest)
    | _, _ => none
  | '\\' :: e :: rest =>
    match escaped? e, readString rest with
    | some c, some (spelling, rest) => some (.char c :: spelling, rest)
    | _, _ => none
  | c :: rest =>
    if c.toNat < 0x20 then none
    else match readString rest with
      | some (spelling, rest) => some (.char c :: spelling, rest)
      | none => none

/-- Whether a unit is the first of a pair. -/
def isHighSurrogate (u : Nat) : Bool := 0xD800 ≤ u && u < 0xDC00

/-- Whether a unit is the second of a pair. -/
def isLowSurrogate (u : Nat) : Bool := 0xDC00 ≤ u && u < 0xE000

/-- The characters that a string spells, unless a surrogate has no partner. -/
def characters? : List Spelling → Option (List Char)
  | [] => some []
  | .char c :: rest => (characters? rest).map (c :: ·)
  | .unit u :: .unit v :: rest =>
    if isHighSurrogate u then
      if isLowSurrogate v then
        (characters? rest).map (Char.ofNat (0x10000 + (u - 0xD800) * 0x400 + (v - 0xDC00)) :: ·)
      else none
    else if isLowSurrogate u then none
    else (characters? (.unit v :: rest)).map (Char.ofNat u :: ·)
  | .unit u :: rest =>
    if isHighSurrogate u || isLowSurrogate u then none
    else (characters? rest).map (Char.ofNat u :: ·)

/-! ## Numbers -/

/-- Reads the digits of a part of a number, of which there is at least one. -/
def readDigits (s : List Char) : Option (List Char × List Char) :=
  if (s.takeWhile Char.isDigit).isEmpty then none
  else some (s.takeWhile Char.isDigit, s.dropWhile Char.isDigit)

/-- Reads the fraction of a number, if it has one. -/
def readFraction : List Char → Option (Bool × List Char)
  | '.' :: rest => (readDigits rest).map fun (_, rest) => (true, rest)
  | rest => some (false, rest)

/-- Reads the sign of an exponent, if it has one. -/
def skipSign : List Char → List Char
  | '+' :: rest => rest
  | '-' :: rest => rest
  | rest => rest

/-- Reads the exponent of a number, if it has one. -/
def readExponent : List Char → Option (Bool × List Char)
  | 'e' :: rest => (readDigits (skipSign rest)).map fun (_, rest) => (true, rest)
  | 'E' :: rest => (readDigits (skipSign rest)).map fun (_, rest) => (true, rest)
  | rest => some (false, rest)

/-- The number of some digits behind a sign, `marked` by a fraction or an
    exponent. -/
def numberToken (negative marked : Bool) (digits : List Char) : Token :=
  let n := Nat.ofDigitChars 10 digits 0
  if marked || (negative && n == 0) then .fraction
  else .whole (if negative then -n else n)

/-- Reads a number behind its sign. Of several digits the first is no zero. -/
def readNumber (negative : Bool) (s : List Char) : Option (Token × List Char) :=
  match readDigits s with
  | none => none
  | some (digits, rest) =>
    if digits.head? = some '0' ∧ digits ≠ ['0'] then none
    else match readFraction rest with
      | none => none
      | some (hasFraction, rest) =>
        match readExponent rest with
        | none => none
        | some (hasExponent, rest) =>
          some (numberToken negative (hasFraction || hasExponent) digits, rest)

/-! ## Tokens -/

/-- The blanks of a document. -/
def isSpace (c : Char) : Bool := c == ' ' || c == '\t' || c == '\n' || c == '\r'

/-- Reads the token at the start of a text. -/
def readToken : List Char → Option (Token × List Char)
  | '{' :: rest => some (.openObject, rest)
  | '}' :: rest => some (.closeObject, rest)
  | '[' :: rest => some (.openList, rest)
  | ']' :: rest => some (.closeList, rest)
  | ':' :: rest => some (.colon, rest)
  | ',' :: rest => some (.comma, rest)
  | 'n' :: 'u' :: 'l' :: 'l' :: rest => some (.word, rest)
  | 't' :: 'r' :: 'u' :: 'e' :: rest => some (.word, rest)
  | 'f' :: 'a' :: 'l' :: 's' :: 'e' :: rest => some (.word, rest)
  | '"' :: rest =>
    (readString rest).map fun (spelling, rest) =>
      (.text ((characters? spelling).map String.ofList), rest)
  | '-' :: rest => readNumber true rest
  | s => readNumber false s

/-! ## Progress -/

theorem length_readString_lt {s rest : List Char} {spelling : List Spelling}
    (h : readString s = some (spelling, rest)) : rest.length < s.length := by
  fun_induction readString s generalizing spelling rest with
  | case1 => simp at h
  | case2 => simp_all
  | case3 a b c d tail u spelling' rest' hr hu ih =>
    have := ih hr
    simp_all
    omega
  | case4 => simp at h
  | case5 e tail _ c spelling' rest' hr hc ih =>
    have := ih hr
    simp_all
    omega
  | case6 => simp at h
  | case7 => simp at h
  | case8 c tail _ _ _ _ spelling' rest' hr ih =>
    have := ih hr
    simp_all
    omega
  | case9 => simp at h

theorem length_readDigits_lt {s digits rest : List Char}
    (h : readDigits s = some (digits, rest)) : rest.length < s.length := by
  unfold readDigits at h
  split at h
  · simp at h
  · next hne =>
    obtain ⟨rfl, rfl⟩ : _ ∧ _ := by simpa using h
    have hlen := congrArg List.length (List.takeWhile_append_dropWhile (p := Char.isDigit) (l := s))
    have hpos := List.length_pos_iff.mpr (mt List.isEmpty_iff.mpr hne)
    rw [List.length_append] at hlen
    omega

theorem length_skipSign_le (s : List Char) : (skipSign s).length ≤ s.length := by
  unfold skipSign
  split <;> simp

theorem length_readFraction_le {s rest : List Char} {b : Bool}
    (h : readFraction s = some (b, rest)) : rest.length ≤ s.length := by
  unfold readFraction at h
  split at h
  · obtain ⟨⟨digits, rest'⟩, hr, heq⟩ := Option.map_eq_some_iff.mp h
    have := length_readDigits_lt hr
    simp_all
    omega
  · simp_all

theorem length_readExponent_le {s rest : List Char} {b : Bool}
    (h : readExponent s = some (b, rest)) : rest.length ≤ s.length := by
  unfold readExponent at h
  split at h
  · next tail =>
    obtain ⟨⟨digits, rest'⟩, hr, heq⟩ := Option.map_eq_some_iff.mp h
    have := length_readDigits_lt hr
    have := length_skipSign_le tail
    simp_all
    omega
  · next tail =>
    obtain ⟨⟨digits, rest'⟩, hr, heq⟩ := Option.map_eq_some_iff.mp h
    have := length_readDigits_lt hr
    have := length_skipSign_le tail
    simp_all
    omega
  · simp_all

theorem length_readNumber_lt {negative : Bool} {s rest : List Char} {t : Token}
    (h : readNumber negative s = some (t, rest)) : rest.length < s.length := by
  unfold readNumber at h
  split at h
  · simp at h
  · next digits r₁ h₁ =>
    split at h
    · simp at h
    · split at h
      · simp at h
      · next r₂ h₂ =>
        split at h
        · simp at h
        · next r₃ h₃ =>
          have := length_readDigits_lt h₁
          have := length_readFraction_le h₂
          have := length_readExponent_le h₃
          obtain ⟨_, rfl⟩ : _ ∧ _ := by simpa using h
          omega

theorem length_readToken_lt {s rest : List Char} {t : Token}
    (h : readToken s = some (t, rest)) : rest.length < s.length := by
  unfold readToken at h
  split at h
  case h_10 =>
    obtain ⟨⟨spelling, r⟩, hr, heq⟩ := Option.map_eq_some_iff.mp h
    have := length_readString_lt hr
    simp_all
    omega
  case h_11 =>
    have := length_readNumber_lt h
    rw [List.length_cons]
    omega
  case h_12 => exact length_readNumber_lt h
  all_goals
    simp only [Option.some.injEq, Prod.mk.injEq] at h
    simp only [← h.2, List.length_cons]
    omega

/-- The tokens of a text, if it consists of tokens and blanks. -/
def tokens (s : List Char) : Option (List Token) :=
  match _hs : s.dropWhile isSpace with
  | [] => some []
  | c :: cs =>
    match _ht : readToken (c :: cs) with
    | none => none
    | some (t, rest) => (tokens rest).map (t :: ·)
termination_by s.length
decreasing_by
  have hlt := length_readToken_lt ‹_›
  have hle := (List.dropWhile_sublist isSpace (l := s)).length_le
  simp_all
  omega

end TypedQuery.Pool

import Gamelan.Proofs.Notation.Canonical

namespace Gamelan.Notation

/-!
# Words

Each kind of tokens has its words, and the first character of a word tells its kind: only a literal
and an unclosed one start alike.

* `TokenKind.IsWord` — the words of a kind.
* `TokenKind.StartsWithChar` — the characters that they start with.
* `TokenKind.IsWord.eq_name`, `eq_number`, `eq_unknown`, `eq_of_sign`, `cases_delimiter`, `eq_eof` —
  the kind of a word by its first character.
-/

/-! ### The words of a kind -/

/-- Digits, possibly with a point and digits behind them. -/
def IsNumber (word : List Char) : Prop :=
  ∃ digits, digits ≠ [] ∧ (∀ c ∈ digits, c.isDigit) ∧
    (word = digits ∨ ∃ fraction, fraction ≠ [] ∧ (∀ c ∈ fraction, c.isDigit) ∧
      word = digits ++ '.' :: fraction)

/-- A character that starts no token of the notation and is no blank. -/
def IsStray (c : Char) : Prop :=
  isBlank c = false ∧ c ∉ ['\n', '[', ']', '=', '"', '|'] ∧ c.isDigit = false ∧
    isNameStart c = false

/-- The words of a kind of tokens. -/
def TokenKind.IsWord : TokenKind → List Char → Prop
  | .name, word => IsName word
  | .number, word => IsNumber word
  | .string, word => Delimiter.quote.IsLiteral word
  | .code, word => Delimiter.bar.IsLiteral word
  | .openBracket, word => word = ['[']
  | .closeBracket, word => word = [']']
  | .equals, word => word = ['=']
  | .newline, word => word = ['\n']
  | .unknown, word => (∃ c, word = [c] ∧ IsStray c) ∨
      ∃ (d : Delimiter) (inside : List Char), word = d.char :: inside ∧ d.Encloses inside
  | .eof, word => word = []

/-- The characters that a kind of tokens starts with. -/
def TokenKind.StartsWithChar : TokenKind → Char → Prop
  | .name, c => isNameStart c
  | .number, c => c.isDigit
  | .string, c => c = '"'
  | .code, c => c = '|'
  | .openBracket, c => c = '['
  | .closeBracket, c => c = ']'
  | .equals, c => c = '='
  | .newline, c => c = '\n'
  | .unknown, c => IsStray c ∨ ∃ d : Delimiter, c = d.char
  | .eof, _ => False

/-- The first character of a word fits its kind. -/
theorem TokenKind.IsWord.startsWithChar {kind : TokenKind} {c : Char} {tail : List Char}
    (h : kind.IsWord (c :: tail)) : kind.StartsWithChar c := by
  cases kind with
  | name => exact h.1
  | number =>
    obtain ⟨digits, hne, hdigits, hword⟩ := h
    obtain ⟨first, digits, rfl⟩ := List.exists_cons_of_ne_nil hne
    have hc : c = first := by
      rcases hword with hword | ⟨fraction, -, -, hword⟩ <;> exact (List.cons.inj hword).1
    rw [hc]
    exact hdigits first List.mem_cons_self
  | string =>
    obtain ⟨inside, hword, -⟩ := h
    exact (List.cons.inj hword).1
  | code =>
    obtain ⟨inside, hword, -⟩ := h
    exact (List.cons.inj hword).1
  | openBracket => exact (List.cons.inj h).1
  | closeBracket => exact (List.cons.inj h).1
  | equals => exact (List.cons.inj h).1
  | newline => exact (List.cons.inj h).1
  | unknown =>
    rcases h with ⟨c', hword, hstray⟩ | ⟨d, inside, hword, -⟩
    · obtain rfl := (List.cons.inj hword).1
      exact .inl hstray
    · exact .inr ⟨d, (List.cons.inj hword).1⟩
  | eof => cases h

/-! ### The kind of a word -/

section
variable {kind : TokenKind} {c : Char} {tail : List Char}

/-- A sign that is a token by itself. -/
def signs : List (Char × TokenKind) :=
  [('\n', .newline), ('[', .openBracket), (']', .closeBracket), ('=', .equals)]

/-- A character that has the property of digits, or that of the first character of names, is no sign
and no delimiter. -/
theorem ne_signs_of_holds {p : Char → Bool} (hc : p c)
    (hp : ['\n', '[', ']', '=', '"', '|'].any p = false) :
    ∀ d ∈ ['\n', '[', ']', '=', '"', '|'], c ≠ d := fun d hd =>
  ne_of_holds hc d (Bool.eq_false_iff.mpr (List.any_eq_false.mp hp d hd))

/-- The character of a delimiter is a sign. -/
theorem char_mem_signs (d : Delimiter) : d.char ∈ ['\n', '[', ']', '=', '"', '|'] := by
  cases d <;> simp [Delimiter.char]

/-- A delimiter starts neither a name nor a number. -/
theorem not_holds_char (d : Delimiter) : isNameStart d.char = false ∧ d.char.isDigit = false := by
  cases d <;> exact ⟨rfl, rfl⟩

/-- What starts a name is no digit. -/
theorem isDigit_eq_false_of_isNameStart (h : isNameStart c) : c.isDigit = false := by
  cases hdigit : c.isDigit with
  | false => rfl
  | true =>
    rw [isNameStart_of_isDigit hdigit] at h
    cases h

/-- A word that starts like a name is one. -/
theorem TokenKind.IsWord.eq_name (hc : isNameStart c) (h : kind.IsWord (c :: tail)) :
    kind = .name := by
  have hne := ne_signs_of_holds hc rfl
  have hdigit := isDigit_eq_false_of_isNameStart hc
  have hstart := h.startsWithChar
  cases kind with
  | name => rfl
  | number => exact absurd hstart (by simp [TokenKind.StartsWithChar, hdigit])
  | unknown =>
    rcases hstart with hstray | ⟨d, rfl⟩
    · exact absurd hc (by simp [hstray.2.2.2])
    · exact absurd rfl (hne _ (char_mem_signs d))
  | eof => exact hstart.elim
  | _ => exact absurd hstart (hne _ (by simp))

/-- A word that starts with a digit is a number. -/
theorem TokenKind.IsWord.eq_number (hc : c.isDigit) (h : kind.IsWord (c :: tail)) :
    kind = .number := by
  have hne := ne_signs_of_holds hc rfl
  have hstart := h.startsWithChar
  cases kind with
  | name => exact absurd hstart (by simp [TokenKind.StartsWithChar, isNameStart_of_isDigit hc])
  | number => rfl
  | unknown =>
    rcases hstart with hstray | ⟨d, rfl⟩
    · exact absurd hc (by simp [hstray.2.2.1])
    · exact absurd rfl (hne _ (char_mem_signs d))
  | eof => exact hstart.elim
  | _ => exact absurd hstart (hne _ (by simp))

/-- A word that starts with a stray character is that character. -/
theorem TokenKind.IsWord.eq_unknown (hc : IsStray c) (h : kind.IsWord (c :: tail)) :
    kind = .unknown ∧ tail = [] := by
  obtain ⟨hblank, hsigns, hdigit, hname⟩ := hc
  have hstart := h.startsWithChar
  cases kind with
  | name => exact absurd hstart (by simp [TokenKind.StartsWithChar, hname])
  | number => exact absurd hstart (by simp [TokenKind.StartsWithChar, hdigit])
  | unknown =>
    rcases h with ⟨c', hword, -⟩ | ⟨d, inside, hword, -⟩
    · exact ⟨rfl, (List.cons.inj hword).2⟩
    · rw [(List.cons.inj hword).1] at hsigns
      exact absurd (char_mem_signs d) hsigns
  | eof => exact hstart.elim
  | _ => exact absurd (by rw [show c = _ from hstart]; simp) hsigns

/-- A word that starts with a sign is that sign. -/
theorem TokenKind.IsWord.eq_of_sign {sign : TokenKind} (hc : (c, sign) ∈ signs)
    (h : kind.IsWord (c :: tail)) : kind = sign ∧ tail = [] := by
  have hstart := h.startsWithChar
  have hchar : ∀ d : Delimiter, c ≠ d.char := by
    intro d
    cases d <;> simp only [signs, List.mem_cons, Prod.mk.injEq, List.not_mem_nil, or_false] at hc <;>
      obtain ⟨rfl, -⟩ | ⟨rfl, -⟩ | ⟨rfl, -⟩ | ⟨rfl, -⟩ := hc <;> decide
  have hmem : c ∈ ['\n', '[', ']', '=', '"', '|'] ∧ c.isDigit = false ∧ isNameStart c = false := by
    simp only [signs, List.mem_cons, Prod.mk.injEq, List.not_mem_nil, or_false] at hc
    obtain ⟨rfl, -⟩ | ⟨rfl, -⟩ | ⟨rfl, -⟩ | ⟨rfl, -⟩ := hc <;> exact ⟨by simp, rfl, rfl⟩
  cases kind with
  | name => exact absurd hstart (by simp [TokenKind.StartsWithChar, hmem.2.2])
  | number => exact absurd hstart (by simp [TokenKind.StartsWithChar, hmem.2.1])
  | string => exact absurd hstart (hchar .quote)
  | code => exact absurd hstart (hchar .bar)
  | unknown =>
    rcases hstart with hstray | ⟨d, hd⟩
    · exact absurd hmem.1 hstray.2.1
    · exact absurd hd (hchar d)
  | eof => exact hstart.elim
  | _ =>
    obtain ⟨rfl, rfl⟩ := List.cons.inj h
    simpa [signs, eq_comm] using hc

/-- A word that starts with a delimiter is a literal, or one that is not closed. -/
theorem TokenKind.IsWord.cases_delimiter {d : Delimiter} (h : kind.IsWord (d.char :: tail)) :
    (kind = d.kind ∧ ∃ inside, tail = inside ++ [d.char] ∧ d.Encloses inside) ∨
      (kind = .unknown ∧ d.Encloses tail) := by
  -- Only the delimiter itself opens a literal.
  have hliteral : ∀ d' : Delimiter, d'.IsLiteral (d.char :: tail) →
      d' = d ∧ ∃ inside, tail = inside ++ [d.char] ∧ d.Encloses inside := by
    rintro d' ⟨inside, hword, hencloses⟩
    obtain ⟨hchar, htail⟩ := List.cons.inj hword
    obtain rfl : d = d' := by cases d <;> cases d' <;> first | rfl | exact absurd hchar (by decide)
    exact ⟨rfl, inside, htail, hencloses⟩
  have hstart := h.startsWithChar
  cases kind with
  | string =>
    obtain ⟨rfl, hinside⟩ := hliteral .quote h
    exact .inl ⟨rfl, hinside⟩
  | code =>
    obtain ⟨rfl, hinside⟩ := hliteral .bar h
    exact .inl ⟨rfl, hinside⟩
  | unknown =>
    rcases h with ⟨c', hword, hstray⟩ | ⟨d', inside, hword, hencloses⟩
    · obtain ⟨rfl, -⟩ := List.cons.inj hword
      exact absurd (char_mem_signs d) hstray.2.1
    · obtain ⟨hchar, rfl⟩ := List.cons.inj hword
      obtain rfl : d = d' := by cases d <;> cases d' <;> first | rfl | exact absurd hchar (by decide)
      exact .inr ⟨rfl, hencloses⟩
  -- No other word starts with a delimiter.
  | name => exact absurd hstart (by simp [TokenKind.StartsWithChar, not_holds_char])
  | number => exact absurd hstart (by simp [TokenKind.StartsWithChar, not_holds_char])
  | eof => exact hstart.elim
  | _ => cases d <;> exact absurd hstart (by simp [TokenKind.StartsWithChar, Delimiter.char])

end

/-- Only the end of a text has no word. -/
theorem TokenKind.IsWord.eq_eof {kind : TokenKind} (h : kind.IsWord []) : kind = .eof := by
  cases kind with
  | eof => rfl
  | name => exact absurd h id
  | number =>
    obtain ⟨digits, hne, -, hword | ⟨fraction, -, -, hword⟩⟩ := h
    · exact absurd hword.symm hne
    · exact absurd hword (by simp)
  | unknown => rcases h with ⟨c, hword, -⟩ | ⟨d, inside, hword, -⟩ <;> cases hword
  | string => obtain ⟨inside, hword, -⟩ := h; cases hword
  | code => obtain ⟨inside, hword, -⟩ := h; cases hword
  | _ => cases h

end Gamelan.Notation

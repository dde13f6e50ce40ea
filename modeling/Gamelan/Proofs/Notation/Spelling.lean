import Gamelan.Proofs.Notation.Parts

namespace Gamelan.Notation

open Gamelan.Text

/-!
# What tokens spell

Every token stands for a word of its source, and its kind says what that word looks like.  The parts
of a statement are tokens, so the same holds of what is read off a tree.

* `Span.Covers` — a range that is a word of a text.
* `Delimiter.literal`, `Delimiter.Encloses` — literals and what can stand inside them.
* `NodeKind.Spells` — the words that a part of a statement can stand for.
* `covers_of_mem_tokensFrom` — a token covers a word of its kind.
* `isPart_of_mem_statements` — the parts of statements are tokens or errors.
* `spelled_of_mem_children` — so a part that is no error covers a word of its kind.
-/

/-! ### Words -/

/-- The range of a word in a text. -/
def Span.Covers (s : Span) (text word : List Char) : Prop :=
  ∃ before after, text = before ++ word ++ after ∧
    s = ⟨byteLength before, byteLength (before ++ word)⟩

/-- The text of the range of a word is the word. -/
theorem Span.Covers.slice? {s : Span} {text word : List Char} (h : s.Covers text word) :
    slice? text s.start s.stop = some word := by
  obtain ⟨before, after, rfl, rfl⟩ := h
  exact slice?_append before word after

/-- A word of a part of a text is a word of the text, as much further on as the part is. -/
theorem Span.Covers.within {s : Span} {text word : List Char} (h : s.Covers text word)
    (before after : List Char) :
    (s.shift (byteLength before)).Covers (before ++ text ++ after) word := by
  obtain ⟨left, right, rfl, rfl⟩ := h
  refine ⟨before ++ left, right ++ after, by simp only [List.append_assoc], ?_⟩
  simp only [Span.shift, byteLength_append, Nat.add_assoc]

/-- A span covers the same word if text is put before it and the span is moved along. -/
theorem Span.Covers.behind {s : Span} {text word : List Char} (h : s.Covers text word)
    (before : List Char) : (s.shift (byteLength before)).Covers (before ++ text) word := by
  have hwithin := h.within before []
  rwa [List.append_nil] at hwithin

/-- A span covers the same word whatever follows the text. -/
theorem Span.Covers.append {s : Span} {text word : List Char} (h : s.Covers text word)
    (more : List Char) : s.Covers (text ++ more) word := by
  obtain ⟨before, after, rfl, rfl⟩ := h
  exact ⟨before, after ++ more, by simp only [List.append_assoc], rfl⟩

/-- Whether a text is a name: a letter or `_`, then letters, numbers, `_` and `-`. -/
def IsName : List Char → Prop
  | [] => False
  | c :: rest => isNameStart c ∧ ∀ d ∈ rest, isNameChar d

instance : DecidablePred IsName
  | [] => inferInstanceAs (Decidable False)
  | c :: rest =>
    @instDecidableAnd (isNameStart c) (∀ d ∈ rest, isNameChar d) _ (List.decidableBAll _ rest)

/-- Whether a text can stand between two delimiters: it holds neither a delimiter nor a line break. -/
def Delimiter.Encloses (d : Delimiter) (inside : List Char) : Prop :=
  d.char ∉ inside ∧ '\n' ∉ inside

instance (d : Delimiter) : DecidablePred d.Encloses :=
  fun inside => inferInstanceAs (Decidable (d.char ∉ inside ∧ '\n' ∉ inside))

/-- A delimiter encloses a text just if no character of it ends the literal. -/
theorem Delimiter.encloses_iff (d : Delimiter) (inside : List Char) :
    d.Encloses inside ↔ ∀ c ∈ inside, d.goesOn c := by
  constructor
  · rintro ⟨hchar, hline⟩ c hc
    have hd : c ≠ d.char := fun h => hchar (h ▸ hc)
    have hn : c ≠ '\n' := fun h => hline (h ▸ hc)
    simp [Delimiter.goesOn, Notation.inLine, hd, hn]
  · intro h
    constructor
    · intro hchar
      simpa [Delimiter.goesOn] using h _ hchar
    · intro hline
      simpa [Delimiter.goesOn, Notation.inLine] using h _ hline

/-- A literal: its delimiter, what it encloses, and its delimiter again. -/
def Delimiter.literal (d : Delimiter) (inside : List Char) : List Char :=
  d.char :: (inside ++ [d.char])

/-- Whether a text is a literal. -/
def Delimiter.IsLiteral (d : Delimiter) (word : List Char) : Prop :=
  ∃ inside, word = d.literal inside ∧ d.Encloses inside

/-- The words that a part of a statement can stand for. -/
def NodeKind.Spells : NodeKind → List Char → Prop
  | .name, word => IsName word
  | .string, word => Delimiter.quote.IsLiteral word
  | .code, word => Delimiter.bar.IsLiteral word
  | _, _ => True

/-! ### Tokens -/

/-- What a delimiter starts spells a leaf of its kind. -/
theorem spells_delimited (d : Delimiter) (text : List Char) :
    (leafKind (delimited d text).kind).Spells (d.char :: (delimited d text).tail) := by
  have hinside : d.Encloses (text.takeWhile d.goesOn) := by
    rw [Delimiter.encloses_iff]
    exact fun c hc => List.all_eq_true.mp List.all_takeWhile c hc
  unfold delimited
  split
  · trivial
  · next c rest hrest =>
    split
    · next hc =>
      obtain rfl : c = d.char := by simpa using hc
      have hliteral : d.IsLiteral (d.char :: (text.takeWhile d.goesOn ++ [d.char])) :=
        ⟨_, rfl, hinside⟩
      cases d <;> exact hliteral
    · trivial

theorem spells_number (c : Char) (text : List Char) :
    (leafKind (number text).kind).Spells (c :: (number text).tail) := by
  unfold number
  repeat' split
  all_goals trivial

/-- **A token is a word of its kind.** -/
theorem spells_lexeme (c : Char) (text : List Char) :
    (leafKind (lexeme c text).kind).Spells (c :: (lexeme c text).tail) := by
  -- Signs and stray characters may be anything; a literal, a number and a name are what the lexer
  -- took.
  unfold lexeme
  split
  · trivial
  split
  · trivial
  split
  · trivial
  split
  · trivial
  split
  · next hc =>
    obtain rfl : c = '"' := by simpa using hc
    exact spells_delimited .quote text
  split
  · next hc =>
    obtain rfl : c = '|' := by simpa using hc
    exact spells_delimited .bar text
  split
  · exact spells_number c text
  split
  · next hc =>
    have hrest : ∀ d ∈ text.takeWhile isNameChar, isNameChar d :=
      fun d hd => List.all_eq_true.mp List.all_takeWhile d hd
    exact ⟨hc, hrest⟩
  · trivial

/-- **A token covers a word of its kind.** -/
theorem covers_of_mem_tokensFrom {text : List Char} {t : Token} (h : t ∈ tokensFrom 0 text) :
    ∃ word, t.span.Covers text word ∧ (leafKind t.kind).Spells word := by
  induction text using tokens_induction generalizing t with
  | nil text htext => simp [tokensFrom_of_nil 0 htext] at h
  | cons text c rest hcons ih =>
    have htext := append_of_cons hcons
    have hbytes := byteLength_append (gap text) (c :: (lexeme c rest).tail)
    rw [byteLength_cons, ← Nat.add_assoc] at hbytes
    rw [tokensFrom_of_cons 0 hcons, Nat.zero_add, ← hbytes] at h
    obtain rfl | h := List.mem_cons.mp h
    · exact ⟨_, ⟨gap text, _, htext.symm, rfl⟩, spells_lexeme c rest⟩
    · -- The other tokens are those of a shorter text, further on.
      have hadd := tokensFrom_add (byteLength (gap text ++ c :: (lexeme c rest).tail)) 0
        (lexeme c rest).rest
      rw [Nat.add_zero] at hadd
      rw [hadd] at h
      obtain ⟨t', ht', rfl⟩ := List.mem_map.mp h
      obtain ⟨word, hword, hspells⟩ := ih ht'
      refine ⟨word, ?_, hspells⟩
      have hbehind := hword.behind (gap text ++ c :: (lexeme c rest).tail)
      rwa [htext] at hbehind

/-! ### Parts of a statement -/

/-- The parts of some statements are tokens or errors. -/
theorem isPart_of_mem_statements {tokens : List Token} {node part : Node}
    (h : node ∈ statements tokens) (hpart : part ∈ node.children) : IsPart tokens part := by
  fun_induction statements tokens with
  | case1 => simp at h
  | case2 token rest hnewline ih => exact (ih h).mono (List.subset_cons_self _ _)
  | case3 token rest hnewline found ih =>
    obtain rfl | h := List.mem_cons.mp h
    · exact isPart_of_mem_statement hpart
    · have hsub : found.2 ⊆ token :: rest :=
        List.Subset.trans (statement_suffix token rest).subset (List.subset_cons_self _ _)
      exact (ih h).mono hsub

/-- **A part that is no error covers a word of its kind.** -/
theorem spelled_of_mem_children {text : List Char} {node part : Node}
    (h : node ∈ (parseTree text).children) (hpart : part ∈ node.children)
    (hkind : part.kind ≠ .error) :
    ∃ word, part.span.Covers text word ∧ part.kind.Spells word := by
  rw [children_parseTree] at h
  obtain ⟨span, rfl⟩ | ⟨t, ht, rfl⟩ := isPart_of_mem_statements h hpart
  · exact absurd rfl hkind
  · exact covers_of_mem_tokensFrom ht

end Gamelan.Notation

import Gamelan.Proofs.Notation.Words

namespace Gamelan.Notation

open Gamelan.Text

/-!
# Longest matches

A source text is gaps and words in turn.  A gap is blanks, possibly with a comment behind them, and
each word is the longest one that the text goes on with there.

* `TokenKind.Stops` — what ends a word.
* `TokenKind.LongestMatch` — a word that nothing could make longer, nor of another kind.
* `longestMatch_lexeme` — the first token of a text is such a word.
* `Scans` — a text as gaps and words; `scans_scanFrom` reads its tokens so.
* `scan_longest_matches` — what that says of the tokens of a source text.
-/

/-! ### Where a word ends -/

/-- Whether a line ends where a text goes on. -/
def LineEnds (after : List Char) : Prop :=
  after = [] ∨ after.head? = some '\n'

/-- What ends a word, where `after` follows it.  A name goes on as long as it can, and so do the
digits of a number; a point ends a number unless a digit follows.  A literal without a closing
delimiter reaches to the end of its line, and a slash is one of its own unless another follows. -/
def TokenKind.Stops : TokenKind → List Char → List Char → Prop
  | .name, _, after => ∀ c, after.head? = some c → isNameChar c = false
  | .number, word, after => (∀ c, after.head? = some c → c.isDigit = false) ∧
      ('.' ∉ word → ∀ d rest, after = '.' :: d :: rest → d.isDigit = false)
  | .unknown, word, after =>
      (∀ d : Delimiter, word.head? = some d.char → LineEnds after) ∧
        (word = ['/'] → after.head? ≠ some '/')
  | .eof, _, after => after = []
  | _, _, _ => True

/-- The word of a token that a text starts with, where `after` follows it: no word of any kind that
the text starts with is longer, and it is a word of no other kind. -/
structure TokenKind.LongestMatch (kind : TokenKind) (word after : List Char) : Prop where
  isWord : kind.IsWord word
  stops : kind.Stops word after
  longest : ∀ (other : TokenKind) (longer : List Char), longer <+: word ++ after →
    other.IsWord longer → longer.length ≤ word.length
  unique : ∀ other : TokenKind, other.IsWord word → other = kind

/-- Only the end of the text has no word. -/
theorem TokenKind.LongestMatch.ne_nil {kind : TokenKind} {word after : List Char}
    (h : kind.LongestMatch word after) (hkind : kind ≠ .eof) : word ≠ [] := by
  rintro rfl
  exact hkind (h.unique .eof rfl).symm

/-! ### The longest word -/

section
variable {p : Char → Bool}

/-- A character that ends a run is none of the run. -/
theorem eq_false_of_head?_dropWhile {text : List Char} {c : Char}
    (h : (text.dropWhile p).head? = some c) : p c = false := by
  have := List.head?_dropWhile_not p text
  rwa [h] at this

/-- A run that a text starts with is no longer than the longest one. -/
theorem length_le_takeWhile {run text : List Char} (h : run <+: text) (hrun : ∀ c ∈ run, p c) :
    run.length ≤ (text.takeWhile p).length := by
  obtain ⟨more, rfl⟩ := h
  rw [List.takeWhile_append_of_pos hrun, List.length_append]
  exact Nat.le_add_right _ _

/-- A run with a stop behind it is the longest one. -/
theorem eq_takeWhile_of_stop {run text : List Char} {stop : Char} (h : run ++ [stop] <+: text)
    (hrun : ∀ c ∈ run, p c) (hstop : p stop = false) :
    text.takeWhile p = run ∧ ∃ rest, text.dropWhile p = stop :: rest := by
  obtain ⟨more, rfl⟩ := h
  rw [List.append_assoc]
  have hhead : ∀ c, ([stop] ++ more).head? = some c → p c = false := by
    rintro c ⟨⟩
    exact hstop
  obtain ⟨htake, hdrop⟩ := takeWhile_word hrun hhead
  exact ⟨htake, more, hdrop⟩

end

/-- Words that start where a word does start with its first character. -/
theorem length_le_of_cons {c : Char} {tail rest : List Char}
    (h : ∀ (other : TokenKind) (longer : List Char), longer <+: tail ++ rest →
      other.IsWord (c :: longer) → longer.length ≤ tail.length)
    (other : TokenKind) (longer : List Char) (hlonger : longer <+: c :: tail ++ rest)
    (hword : other.IsWord longer) : longer.length ≤ (c :: tail).length := by
  cases longer with
  | nil => exact Nat.zero_le _
  | cons first longer =>
    rw [List.cons_append, List.cons_prefix_cons] at hlonger
    obtain ⟨rfl, hprefix⟩ := hlonger
    exact Nat.succ_le_succ (h other longer hprefix hword)

/-- **A name goes on as long as it can.** -/
theorem longestMatch_name {c : Char} (hc : isNameStart c) (text : List Char) :
    TokenKind.LongestMatch .name (c :: (name text).tail) (name text).rest where
  isWord := ⟨hc, fun d hd => List.all_eq_true.mp List.all_takeWhile d hd⟩
  stops _ := eq_false_of_head?_dropWhile
  longest := by
    refine length_le_of_cons fun other longer hlonger hword => ?_
    rw [name, List.takeWhile_append_dropWhile] at hlonger
    obtain rfl := hword.eq_name hc
    exact length_le_takeWhile hlonger hword.2
  unique _ h := h.eq_name hc

/-- What a number after its first digit may be. -/
theorem number_cases (text : List Char) :
    (∃ d rest, text.dropWhile Char.isDigit = '.' :: d :: rest ∧ d.isDigit ∧
      number text = ⟨.number, text.takeWhile Char.isDigit ++ '.' :: d :: rest.takeWhile Char.isDigit,
        rest.dropWhile Char.isDigit⟩) ∨
    (∀ d rest, text.dropWhile Char.isDigit = '.' :: d :: rest → d.isDigit = false) ∧
      number text = ⟨.number, text.takeWhile Char.isDigit, text.dropWhile Char.isDigit⟩ := by
  unfold number
  split
  · next d rest hrest =>
    cases hd : d.isDigit with
    | true => exact .inl ⟨d, rest, hrest, hd, by simp⟩
    | false =>
      refine .inr ⟨fun d' rest' h => ?_, by simp [hrest]⟩
      rw [hrest] at h
      cases h
      exact hd
  · next hnone => exact .inr ⟨fun d rest h => absurd h (hnone d rest), rfl⟩

/-- Of the numbers that a text starts with after their first digit, those without a point are digits,
and those with one go on behind just the digits. -/
theorem length_of_isNumber {c : Char} {longer text : List Char} (hlonger : longer <+: text)
    (hnumber : IsNumber (c :: longer)) :
    longer.length ≤ (text.takeWhile Char.isDigit).length ∨
      ∃ fraction rest, fraction ≠ [] ∧ (∀ d ∈ fraction, d.isDigit) ∧
        text.dropWhile Char.isDigit = '.' :: (fraction ++ rest) ∧
        longer.length = (text.takeWhile Char.isDigit).length + 1 + fraction.length := by
  obtain ⟨digits, hne, hall, hword | ⟨fraction, hfraction, hall', hword⟩⟩ := hnumber
  · refine .inl (length_le_takeWhile hlonger fun d hd => hall d ?_)
    rw [← hword]
    exact List.mem_cons_of_mem c hd
  · obtain ⟨first, digits, rfl⟩ := List.exists_cons_of_ne_nil hne
    obtain rfl : c = first := (List.cons.inj hword).1
    obtain rfl : longer = digits ++ '.' :: fraction := (List.cons.inj hword).2
    obtain ⟨more, rfl⟩ := hlonger
    -- The digits before the point end at the point.
    have hstop : ∀ d, ('.' :: (fraction ++ more)).head? = some d → d.isDigit = false := by
      rintro d ⟨⟩
      rfl
    obtain ⟨htake, hdrop⟩ := takeWhile_word (List.forall_mem_cons.mp hall).2 hstop
    rw [List.append_assoc, List.cons_append, htake, hdrop]
    refine .inr ⟨fraction, more, hfraction, hall', rfl, ?_⟩
    simp only [List.length_append, List.length_cons]
    omega

/-- **A number goes on as long as it can.** -/
theorem longestMatch_number {c : Char} (hc : c.isDigit) (text : List Char) :
    (number text).kind.LongestMatch (c :: (number text).tail) (number text).rest := by
  have hdigits : ∀ d ∈ c :: text.takeWhile Char.isDigit, d.isDigit :=
    List.forall_mem_cons.mpr ⟨hc, fun d hd => List.all_eq_true.mp List.all_takeWhile d hd⟩
  rcases number_cases text with ⟨d, rest, hrest, hd, hnumber⟩ | ⟨hend, hnumber⟩
  · have hfraction : ∀ e ∈ d :: rest.takeWhile Char.isDigit, e.isDigit :=
      List.forall_mem_cons.mpr ⟨hd, fun e he => List.all_eq_true.mp List.all_takeWhile e he⟩
    have htext := number_append text
    rw [hnumber] at htext ⊢
    refine ⟨⟨_, List.cons_ne_nil _ _, hdigits, .inr ⟨_, List.cons_ne_nil _ _, hfraction, rfl⟩⟩,
      ⟨fun _ => eq_false_of_head?_dropWhile, fun h => absurd (by simp) h⟩, ?_,
      fun _ h => h.eq_number hc⟩
    refine length_le_of_cons fun other longer hlonger hword => ?_
    rw [htext] at hlonger
    obtain rfl := hword.eq_number hc
    simp only [List.length_append, List.length_cons]
    rcases length_of_isNumber hlonger hword with h | ⟨fraction, more, -, hall, hdrop, hlength⟩
    · omega
    · -- The fraction starts with the digit behind the point.
      rw [hrest] at hdrop
      have hle : fraction.length ≤ ((d :: rest).takeWhile Char.isDigit).length :=
        length_le_takeWhile ⟨more, (List.cons.inj hdrop).2.symm⟩ hall
      rw [List.takeWhile_cons_of_pos hd, List.length_cons] at hle
      omega
  · have htext := number_append text
    rw [hnumber] at htext ⊢
    refine ⟨⟨_, List.cons_ne_nil _ _, hdigits, .inl rfl⟩,
      ⟨fun _ => eq_false_of_head?_dropWhile, fun _ => hend⟩, ?_, fun _ h => h.eq_number hc⟩
    refine length_le_of_cons fun other longer hlonger hword => ?_
    rw [htext] at hlonger
    obtain rfl := hword.eq_number hc
    rcases length_of_isNumber hlonger hword with h | ⟨fraction, more, hne, hall, hdrop, -⟩
    · exact h
    · obtain ⟨d, fraction, rfl⟩ := List.exists_cons_of_ne_nil hne
      have hd : d.isDigit := hall d List.mem_cons_self
      rw [hend d (fraction ++ more) hdrop] at hd
      cases hd

/-- What a literal after its opening delimiter may be. -/
theorem delimited_cases (d : Delimiter) (text : List Char) :
    (∃ rest, text.dropWhile d.goesOn = d.char :: rest ∧
      delimited d text = ⟨d.kind, text.takeWhile d.goesOn ++ [d.char], rest⟩) ∨
    LineEnds (text.dropWhile d.goesOn) ∧
      delimited d text = ⟨.unknown, text.takeWhile d.goesOn, text.dropWhile d.goesOn⟩ := by
  unfold delimited
  split
  · next hnil => exact .inr ⟨.inl hnil, by rw [hnil]⟩
  · next c rest hrest =>
    by_cases hc : c = d.char
    · subst hc
      exact .inl ⟨rest, hrest, by simp⟩
    · have hstop : d.goesOn c = false := eq_false_of_head?_dropWhile (by rw [hrest]; rfl)
      have hline : c = '\n' := by simpa [Delimiter.goesOn, Notation.inLine, hc] using hstop
      refine .inr ⟨.inr (by rw [hrest, hline]; rfl), ?_⟩
      rw [hrest]
      simp [hc]

/-- **A literal reaches to the next delimiter of its line**, and to the end of the line if there is
none. -/
theorem longestMatch_delimited (d : Delimiter) (text : List Char) :
    TokenKind.LongestMatch (delimited d text).kind (d.char :: (delimited d text).tail)
      (delimited d text).rest := by
  have hinside : d.Encloses (text.takeWhile d.goesOn) :=
    (d.encloses_iff _).mpr fun c hc => List.all_eq_true.mp List.all_takeWhile c hc
  have hstop : d.goesOn d.char = false := by simp [Delimiter.goesOn]
  -- A literal that is closed holds just what goes on, and one that is not holds no more than that.
  have hwords : ∀ (other : TokenKind) (longer : List Char), longer <+: text →
      other.IsWord (d.char :: longer) →
      longer.length ≤ (text.takeWhile d.goesOn).length ∨
        longer = text.takeWhile d.goesOn ++ [d.char] ∧
          ∃ rest, text.dropWhile d.goesOn = d.char :: rest := by
    intro other longer hlonger hword
    rcases hword.cases_delimiter with ⟨-, inside, rfl, hencloses⟩ | ⟨-, hencloses⟩
    · obtain ⟨htake, hdrop⟩ :=
        eq_takeWhile_of_stop hlonger ((d.encloses_iff inside).mp hencloses) hstop
      exact .inr ⟨by rw [htake], hdrop⟩
    · exact .inl (length_le_takeWhile hlonger ((d.encloses_iff longer).mp hencloses))
  have htext := delimited_append d text
  rcases delimited_cases d text with ⟨rest, hrest, hdelimited⟩ | ⟨hend, hdelimited⟩
  · rw [hdelimited] at htext ⊢
    have hliteral : d.IsLiteral (d.char :: (text.takeWhile d.goesOn ++ [d.char])) :=
      ⟨_, rfl, hinside⟩
    refine ⟨by cases d <;> exact hliteral, by cases d <;> trivial, ?_, fun other h => ?_⟩
    · refine length_le_of_cons fun other longer hlonger hword => ?_
      rw [htext] at hlonger
      rw [List.length_append, List.length_singleton]
      rcases hwords other longer hlonger hword with h | ⟨rfl, -⟩
      · omega
      · simp
    · rcases h.cases_delimiter with ⟨hkind, -⟩ | ⟨-, hencloses⟩
      · exact hkind
      · exact absurd (List.mem_append_right _ List.mem_cons_self) hencloses.1
  · rw [hdelimited] at htext ⊢
    refine ⟨.inr ⟨d, _, rfl, hinside⟩, ⟨fun _ _ => hend, fun h => ?_⟩, ?_, fun other h => ?_⟩
    · cases d <;> exact absurd (List.cons.inj h).1 (by decide)
    · refine length_le_of_cons fun other longer hlonger hword => ?_
      rw [htext] at hlonger
      rcases hwords other longer hlonger hword with h | ⟨-, rest, hrest⟩
      · exact h
      · -- The line does not end with a delimiter.
        rw [hrest] at hend
        cases d <;> exact absurd hend (by simp [LineEnds, Delimiter.char])
    · rcases h.cases_delimiter with ⟨-, inside, heq, -⟩ | ⟨hkind, -⟩
      · have hinside' : text.takeWhile d.goesOn = inside ++ [d.char] := heq
        exact absurd (by rw [hinside']; simp) hinside.1
      · exact hkind

/-- A sign is a token by itself. -/
theorem longestMatch_sign {c : Char} {kind : TokenKind} (h : (c, kind) ∈ signs) (text : List Char) :
    kind.LongestMatch [c] text := by
  have hword : kind.IsWord [c] ∧ kind.Stops [c] text := by
    simp only [signs, List.mem_cons, Prod.mk.injEq, List.not_mem_nil, or_false] at h
    obtain ⟨rfl, rfl⟩ | ⟨rfl, rfl⟩ | ⟨rfl, rfl⟩ | ⟨rfl, rfl⟩ := h <;> exact ⟨rfl, trivial⟩
  refine ⟨hword.1, hword.2, ?_, fun other hother => (hother.eq_of_sign h).1⟩
  refine length_le_of_cons fun other longer _ hother => ?_
  simp [(hother.eq_of_sign h).2]

/-- A stray character is unknown by itself. -/
theorem longestMatch_stray {c : Char} (h : IsStray c) {text : List Char}
    (hslash : c = '/' → text.head? ≠ some '/') : TokenKind.LongestMatch .unknown [c] text := by
  refine ⟨.inl ⟨c, rfl, h⟩, ⟨fun d hd => ?_, fun hc => hslash (List.cons.inj hc).1⟩, ?_,
    fun other hother => (hother.eq_unknown h).1⟩
  · obtain rfl : c = d.char := Option.some.inj hd
    exact absurd (char_mem_signs d) h.2.1
  · refine length_le_of_cons fun other longer _ hother => ?_
    simp [(hother.eq_unknown h).2]

/-- Behind the text there is nothing. -/
theorem longestMatch_eof : TokenKind.LongestMatch .eof [] [] where
  isWord := rfl
  stops := rfl
  longest _ _ hlonger _ := hlonger.length_le
  unique _ h := h.eq_eof

/-- **The first token of a text is its longest match**, where the text starts with no gap. -/
theorem longestMatch_lexeme {c : Char} {text : List Char} (hblank : isBlank c = false)
    (hslash : c = '/' → text.head? ≠ some '/') :
    (lexeme c text).kind.LongestMatch (c :: (lexeme c text).tail) (lexeme c text).rest := by
  -- The cases are those of the lexer, in its order; the last one is left with a character that
  -- starts none of the words before.
  unfold lexeme
  split
  · next hc =>
    obtain rfl : c = '\n' := by simpa using hc
    exact longestMatch_sign (by simp [signs]) text
  split
  · next hc =>
    obtain rfl : c = '[' := by simpa using hc
    exact longestMatch_sign (by simp [signs]) text
  split
  · next hc =>
    obtain rfl : c = ']' := by simpa using hc
    exact longestMatch_sign (by simp [signs]) text
  split
  · next hc =>
    obtain rfl : c = '=' := by simpa using hc
    exact longestMatch_sign (by simp [signs]) text
  split
  · next hc =>
    obtain rfl : c = '"' := by simpa using hc
    exact longestMatch_delimited .quote text
  split
  · next hc =>
    obtain rfl : c = '|' := by simpa using hc
    exact longestMatch_delimited .bar text
  split
  · next hc => exact longestMatch_number hc text
  split
  · next hc => exact longestMatch_name hc text
  · next hnewline hopen hclose hequals hquote hbar hdigit hname =>
    refine longestMatch_stray ⟨hblank, ?_, by simpa using hdigit, by simpa using hname⟩ hslash
    simp only [beq_iff_eq] at hnewline hopen hclose hequals hquote hbar
    simp [hnewline, hopen, hclose, hequals, hquote, hbar]

/-! ### Gaps -/

/-- Blanks, possibly with a comment behind them: two slashes and the rest of their line.  What
follows is `after`. -/
def IsGap (gap after : List Char) : Prop :=
  ∃ blanks note, gap = blanks ++ note ∧ (∀ c ∈ blanks, c = ' ' ∨ c = '\t' ∨ c = '\r') ∧
    (note = [] ∨ ∃ text, note = '/' :: '/' :: text ∧ '\n' ∉ text ∧ LineEnds after)

/-- What a comment leaves of a text: without one it is the text, which then has none, and with one
it is the end of the line. -/
theorem comment_cases (text : List Char) :
    (comment text = [] ∧ afterComment text = text ∧ ∀ rest, text ≠ '/' :: '/' :: rest) ∨
      ∃ rest : List Char, comment text = '/' :: '/' :: rest.takeWhile inLine ∧
        afterComment text = rest.dropWhile inLine := by
  unfold comment afterComment
  split
  · next rest => exact .inr ⟨rest, rfl, rfl⟩
  · next hnone => exact .inl ⟨rfl, rfl, fun rest h => hnone rest h⟩

/-- Behind the rest of a line, the line ends. -/
theorem lineEnds_dropWhile (text : List Char) : LineEnds (text.dropWhile inLine) := by
  cases h : (text.dropWhile inLine).head? with
  | none => exact .inl (List.head?_eq_none_iff.mp h)
  | some c =>
    have hc : inLine c = false := eq_false_of_head?_dropWhile h
    exact .inr (by rw [h, show c = '\n' by simpa [Notation.inLine] using hc])

/-- What is left out before a token is a gap. -/
theorem isGap_gap (text : List Char) : IsGap (gap text) (afterGap text) := by
  refine ⟨_, _, rfl, fun c hc => ?_, ?_⟩
  · have hblank := List.all_eq_true.mp List.all_takeWhile c hc
    simpa [isBlank, or_assoc] using hblank
  · rcases comment_cases (text.dropWhile isBlank) with ⟨hnone, -, -⟩ | ⟨rest, hnote, hafter⟩
    · exact .inl hnone
    · refine .inr ⟨_, hnote, fun h => ?_, ?_⟩
      · exact absurd (List.all_eq_true.mp List.all_takeWhile '\n' h) (by decide)
      · rw [afterGap, hafter]
        exact lineEnds_dropWhile rest

/-- Behind a gap there is neither a blank nor a comment. -/
theorem start_of_afterGap {text rest : List Char} {c : Char} (h : afterGap text = c :: rest) :
    isBlank c = false ∧ (c = '/' → rest.head? ≠ some '/') := by
  rcases comment_cases (text.dropWhile isBlank) with ⟨-, hafter, hnone⟩ | ⟨line, -, hafter⟩
  · rw [afterGap, hafter] at h
    have hhead : (text.dropWhile isBlank).head? = some c := by rw [h]; rfl
    refine ⟨eq_false_of_head?_dropWhile hhead, ?_⟩
    rintro rfl hrest
    obtain ⟨more, rfl⟩ := List.head?_eq_some_iff.mp hrest
    exact hnone more h
  · rw [afterGap, hafter] at h
    have hhead : (line.dropWhile inLine).head? = some c := by rw [h]; rfl
    have hline : inLine c = false := eq_false_of_head?_dropWhile hhead
    obtain rfl : c = '\n' := by simpa [Notation.inLine] using hline
    exact ⟨rfl, fun hslash => absurd hslash (by decide)⟩

/-! ### A text as gaps and words -/

/-- The tokens of a text that stands behind `before`: gaps and longest matches in turn, and the end
behind the last gap. -/
inductive Scans : List Char → List Char → List Token → Prop where
  | eof {before text : List Char} (hgap : IsGap text []) :
      Scans before text [tokenAt (before ++ text) .eof []]
  | token {before gap word after : List Char} {kind : TokenKind} {tokens : List Token}
      (hgap : IsGap gap (word ++ after)) (hword : kind.LongestMatch word after)
      (hkind : kind ≠ .eof) (rest : Scans (before ++ gap ++ word) after tokens) :
      Scans before (gap ++ word ++ after) (tokenAt (before ++ gap) kind word :: tokens)

/-- **Scanning takes a text apart into gaps and words.** -/
theorem scans_scanFrom (before text : List Char) :
    Scans before text (scanFrom (byteLength before) text) := by
  -- Each word is taken off the text together with the gap before it.
  induction text using tokens_induction generalizing before with
  | nil text hnil =>
    have hgap := gap_append text
    have hisGap := isGap_gap text
    rw [hnil, List.append_nil] at hgap
    rw [hnil, hgap] at hisGap
    have htoken : Scans before _ _ := Scans.eof hisGap
    rw [scanFrom]
    split
    · simpa [tokenAt, hgap] using htoken
    · next c rest hcons =>
      rw [hnil] at hcons
      cases hcons
  | cons text c rest hcons ih =>
    obtain ⟨hblank, hslash⟩ := start_of_afterGap hcons
    have hafter : IsGap (gap text) (c :: (lexeme c rest).tail ++ (lexeme c rest).rest) := by
      rw [List.cons_append, lexeme_append, ← hcons]
      exact isGap_gap text
    have htoken : Scans before _ _ := Scans.token hafter (longestMatch_lexeme hblank hslash)
      (kind_lexeme_ne_eof c rest) (ih _)
    rw [append_of_cons hcons] at htoken
    rw [scanFrom]
    split
    · next hnil =>
      rw [hnil] at hcons
      cases hcons
    · next c' rest' hcons' =>
      cases hcons.symm.trans hcons'
      simpa [tokenAt, Nat.add_assoc] using htoken

namespace Scans

variable {before text : List Char} {tokens : List Token}

/-- Tokens of a text start behind what comes before it. -/
theorem le_start (h : Scans before text tokens) :
    ∀ t ∈ tokens, byteLength before ≤ t.span.start := by
  induction h with
  | eof hgap =>
    intro t ht
    obtain rfl := List.mem_singleton.mp ht
    simp only [tokenAt, byteLength_append]
    omega
  | token hgap hword hkind rest ih =>
    intro t ht
    rcases List.mem_cons.mp ht with rfl | ht
    · simp only [tokenAt, byteLength_append]
      omega
    · have := ih t ht
      simp only [byteLength_append] at this
      omega

/-- Tokens come in order, and none starts before the one before it ends. -/
theorem pairwise (h : Scans before text tokens) :
    tokens.Pairwise fun t t' => t.span.stop ≤ t'.span.start := by
  induction h with
  | eof hgap => exact List.pairwise_singleton _ _
  | token hgap hword hkind rest ih => exact List.pairwise_cons.mpr ⟨rest.le_start, ih⟩

/-- The end of the text is the last token, and all others have a word. -/
theorem exists_eof (h : Scans before text tokens) :
    ∃ init, tokens = init ++ [tokenAt (before ++ text) .eof []] ∧
      ∀ t ∈ init, t.kind ≠ .eof ∧ t.span.start < t.span.stop := by
  induction h with
  | eof hgap => exact ⟨[], rfl, fun t ht => absurd ht List.not_mem_nil⟩
  | @token before gap word after kind tokens hgap hword hkind rest ih =>
    obtain ⟨init, rfl, hinit⟩ := ih
    refine ⟨tokenAt (before ++ gap) kind word :: init, ?_, ?_⟩
    · simp only [List.cons_append, List.append_assoc]
    · refine List.forall_mem_cons.mpr ⟨⟨hkind, ?_⟩, hinit⟩
      have hlength := byteLength_pos (hword.ne_nil hkind)
      simp only [tokenAt, byteLength_append]
      omega

end Scans

/-- Where some tokens that a source text starts with end. -/
def endOf (tokens : List Token) : Nat :=
  match tokens.getLast? with
  | some last => last.span.stop
  | none => 0

/-- A token stands behind those before it and a gap, and covers its longest match. -/
theorem Scans.split {before text : List Char} {first : List Token} {t : Token} {rest : List Token}
    (h : Scans before text (first ++ t :: rest)) :
    ∃ left gap word after, before ++ text = left ++ gap ++ word ++ after ∧
      (byteLength left = if first = [] then byteLength before else endOf first) ∧
      t = tokenAt (left ++ gap) t.kind word ∧ IsGap gap (word ++ after) ∧
      t.kind.LongestMatch word after := by
  generalize htokens : first ++ t :: rest = tokens at h
  induction h generalizing first with
  | @eof before text hgap =>
    obtain ⟨rfl, rfl, rfl⟩ : first = [] ∧ t = _ ∧ rest = [] := by
      cases first with
      | nil => simpa using htokens
      | cons t' first => simp at htokens
    exact ⟨before, text, [], [], by simp, rfl, rfl, hgap, longestMatch_eof⟩
  | @token before gap word after kind tokens hgap hword hkind scanned ih =>
    -- The token is the first of those scanned, or stands behind it.
    cases first with
    | nil =>
      obtain ⟨rfl, rfl⟩ := List.cons.inj htokens
      exact ⟨before, gap, word, after, by simp only [List.append_assoc], rfl, rfl, hgap, hword⟩
    | cons t' first =>
      obtain ⟨rfl, hrest⟩ := List.cons.inj htokens
      obtain ⟨left, gap', word', after', htext, hleft, ht, hgap', hword'⟩ := ih hrest
      refine ⟨left, gap', word', after', ?_, ?_, ht, hgap', hword'⟩
      · rw [← htext]
        simp only [List.append_assoc]
      · rw [hleft, if_neg (List.cons_ne_nil _ _)]
        cases first with
        | nil => rfl
        | cons t'' first => rfl

/-- **Nothing is lost between tokens, and each of them is the longest match.**  The tokens of a source
text end with the only `eof`, at the end of the text; all others have some text, and they come in
order and do not overlap.  A token stands behind the one before it and a gap, and its word is the
longest of all words, of any kind, that the text goes on with there. -/
theorem scan_longest_matches (source : List Char) :
    (∃ init, scan source = init ++ [⟨.eof, ⟨byteLength source, byteLength source⟩⟩] ∧
      ∀ t ∈ init, t.kind ≠ .eof ∧ t.span.start < t.span.stop) ∧
    (scan source).Pairwise (fun t t' => t.span.stop ≤ t'.span.start) ∧
    ∀ first t rest, scan source = first ++ t :: rest →
      ∃ left gap word after, source = left ++ gap ++ word ++ after ∧
        byteLength left = endOf first ∧
        t.span = ⟨byteLength (left ++ gap), byteLength (left ++ gap ++ word)⟩ ∧
        IsGap gap (word ++ after) ∧ t.kind.LongestMatch word after := by
  have hscans : Scans [] source (scan source) := scans_scanFrom [] source
  refine ⟨?_, hscans.pairwise, fun first t rest htokens => ?_⟩
  · obtain ⟨init, htokens, hinit⟩ := hscans.exists_eof
    refine ⟨init, ?_, hinit⟩
    rw [htokens, List.nil_append, tokenAt, List.append_nil]
  · rw [htokens] at hscans
    obtain ⟨left, gap, word, after, htext, hleft, ht, hgap, hword⟩ := hscans.split
    refine ⟨left, gap, word, after, htext, ?_, congrArg Token.span ht, hgap, hword⟩
    rw [hleft]
    split
    · next hnil => rw [hnil]; rfl
    · rfl

end Gamelan.Notation

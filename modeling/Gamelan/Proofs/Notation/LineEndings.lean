import Gamelan.Proofs.Notation.Rows
import Mathlib.Data.List.Forall2

namespace Gamelan.Notation

open Gamelan.Text

/-!
# Line endings

A line may end with a line break, or with a carriage return and a line break.  To the notation that is
the same: a carriage return at the end of a line is a blank behind its last token, or goes with its
comment, or with a literal that the line does not close and that has no meaning anyway.

* `withReturns` — a text with a carriage return before each line break.
* `lexeme_append_return`, `tokensFrom_append_return` — a carriage return behind a text lengthens at most
  its last token, which is unknown then.
* `SameToken` — what tokens have in common whatever the lines end with.
* `readText_append_return` — a text reads the same with a carriage return behind it.
* `line_endings_mean_nothing` — so a source means the same with returns.
-/

/-- A text with a carriage return before each of its line breaks. -/
def withReturns (text : List Char) : List Char :=
  text.flatMap fun c => if c = '\n' then ['\r', '\n'] else [c]

/-- A line without its break has no place for a return. -/
theorem withReturns_of_notMem {line : List Char} (h : '\n' ∉ line) : withReturns line = line := by
  induction line with
  | nil => rfl
  | cons c rest ih =>
    rw [List.mem_cons, not_or] at h
    rw [withReturns, List.flatMap_cons, if_neg (Ne.symm h.1)]
    exact congrArg (c :: ·) (ih h.2)

/-- The return of a line stands right before its break. -/
theorem withReturns_append_newline {line : List Char} (h : '\n' ∉ line) (more : List Char) :
    withReturns (line ++ '\n' :: more) = (line ++ ['\r']) ++ '\n' :: withReturns more := by
  have hline := withReturns_of_notMem h
  rw [withReturns] at hline
  rw [withReturns, List.flatMap_append, hline, List.flatMap_cons, if_pos rfl, List.append_assoc]
  rfl

/-- What holds of a line, and of a line before more text, holds of every text. -/
theorem lines_induction {P : List Char → Prop} (line : ∀ line, '\n' ∉ line → P line)
    (newline : ∀ line more, '\n' ∉ line → P more → P (line ++ '\n' :: more)) (text : List Char) :
    P text := by
  induction hlength : text.length using Nat.strongRecOn generalizing text with
  | _ length ih =>
    by_cases h : '\n' ∈ text
    · obtain ⟨first, more, rfl, hfirst⟩ := List.eq_append_cons_of_mem h
      refine newline first more hfirst (ih more.length ?_ more rfl)
      rw [← hlength, List.length_append, List.length_cons]
      omega
    · exact line text h

/-! ### A carriage return behind a text -/

/-- What goes on with the return goes on to the end. -/
theorem dropWhile_append_return {p : Char → Bool} (hreturn : p '\r') (text : List Char) :
    (text ++ ['\r']).dropWhile p =
      if text.dropWhile p = [] then [] else text.dropWhile p ++ ['\r'] := by
  rw [List.dropWhile_append]
  cases text.dropWhile p <;> simp [hreturn]

/-- A return behind a text lengthens a run of characters just if the run takes in the whole text. -/
theorem takeWhile_append_return {p : Char → Bool} (hreturn : p '\r') (text : List Char) :
    (text ++ ['\r']).takeWhile p =
      if text.dropWhile p = [] then text ++ ['\r'] else text.takeWhile p := by
  have hdrop := dropWhile_append_return hreturn text
  have htext := List.takeWhile_append_dropWhile (p := p) (l := text)
  have hreturns := List.takeWhile_append_dropWhile (p := p) (l := text ++ ['\r'])
  rw [hdrop] at hreturns
  split
  · next h => rwa [if_pos h, List.append_nil] at hreturns
  · next h =>
    rw [if_neg h, ← List.append_assoc, List.append_cancel_right_eq] at hreturns
    exact List.append_cancel_right (hreturns.trans htext.symm)

/-- A text that does not start with a comment has nothing to leave out. -/
theorem afterComment_of_ne {text : List Char} (h : ∀ rest, text ≠ '/' :: '/' :: rest) :
    afterComment text = text := by
  unfold afterComment
  split
  · next rest => exact absurd rfl (h rest)
  · rfl

/-- A return goes with a comment that reaches to the end of the text. -/
theorem afterComment_append_return {text : List Char} (h : text ≠ []) :
    afterComment (text ++ ['\r']) =
      if afterComment text = [] then [] else afterComment text ++ ['\r'] := by
  by_cases hcomment : ∃ rest, text = '/' :: '/' :: rest
  · obtain ⟨rest, rfl⟩ := hcomment
    exact dropWhile_append_return rfl rest
  · rw [not_exists] at hcomment
    have hnone : ∀ rest, text ++ ['\r'] ≠ '/' :: '/' :: rest := by
      intro rest hrest
      -- The second slash would be the return.
      obtain ⟨c, tail, rfl⟩ := List.exists_cons_of_ne_nil h
      cases tail with
      | nil => simp at hrest
      | cons d tail =>
        simp only [List.cons_append, List.cons.injEq] at hrest
        exact hcomment tail (by rw [hrest.1, hrest.2.1])
    rw [afterComment_of_ne hcomment, afterComment_of_ne hnone, if_neg h]

/-- **A return is part of the gap behind the last token**, or is left behind what follows the gap. -/
theorem afterGap_append_return (text : List Char) :
    afterGap (text ++ ['\r']) = if afterGap text = [] then [] else afterGap text ++ ['\r'] := by
  rw [afterGap, dropWhile_append_return rfl]
  split
  · next h => simp [afterGap, h, afterComment]
  · next h => exact afterComment_append_return h

/-- A return behind a text does not change the gap before its first token. -/
theorem gap_append_return {text rest : List Char} {c : Char} (h : afterGap text = c :: rest) :
    gap (text ++ ['\r']) = gap text := by
  have hafter := afterGap_append_return text
  have hgap := gap_append text
  have hgap' := gap_append (text ++ ['\r'])
  rw [if_neg (by rw [h]; exact List.cons_ne_nil _ _)] at hafter
  rw [hafter, ← List.append_assoc, List.append_cancel_right_eq] at hgap'
  exact List.append_cancel_right (hgap'.trans hgap.symm)

/-- A literal takes the return in only if it is not closed. -/
theorem delimited_append_return (d : Delimiter) (text : List Char) :
    delimited d (text ++ ['\r']) = (delimited d text).followedBy ['\r'] ∨
      delimited d text = ⟨.unknown, text, []⟩ ∧
        delimited d (text ++ ['\r']) = ⟨.unknown, text ++ ['\r'], []⟩ := by
  have hreturn : d.goesOn '\r' := by cases d <;> rfl
  have htake := takeWhile_append_return hreturn text
  have hdrop := dropWhile_append_return hreturn text
  cases h : text.dropWhile d.goesOn with
  | nil =>
    have htext : text.takeWhile d.goesOn = text := by
      have := List.takeWhile_append_dropWhile (p := d.goesOn) (l := text)
      rwa [h, List.append_nil] at this
    rw [if_pos h] at htake hdrop
    exact .inr ⟨by simp [delimited, h, htext], by simp [delimited, htake, hdrop]⟩
  | cons c rest =>
    have hne : text.dropWhile d.goesOn ≠ [] := by simp [h]
    rw [if_neg hne] at htake hdrop
    refine .inl ?_
    rw [delimited, delimited, htake, hdrop, h]
    cases hc : c == d.char <;> simp [hc, Lexeme.followedBy]

/-- **A return is left behind every token but an unknown one that reaches to the end.** -/
theorem lexeme_append_return (c : Char) (text : List Char) :
    lexeme c (text ++ ['\r']) = (lexeme c text).followedBy ['\r'] ∨
      lexeme c text = ⟨.unknown, text, []⟩ ∧
        lexeme c (text ++ ['\r']) = ⟨.unknown, text ++ ['\r'], []⟩ := by
  unfold lexeme
  repeat' split
  all_goals first
    | exact .inl rfl
    | exact delimited_append_return _ _
    | exact .inl (number_append_stop rfl (by decide) _ _)
    | exact .inl (name_append_stop rfl _ _)

/-! ### Tokens before a carriage return -/

/-- Where a token stops that stopped at `p`, if the return behind `stop` goes with the last one. -/
def pastReturn (stop p : Nat) : Nat :=
  if p = stop then p + 1 else p

/-- **A return behind a text lengthens its last token, which is unknown then, or no token.** -/
theorem tokensFrom_append_return (offset : Nat) (text : List Char) :
    ∃ g, (g = id ∨ g = pastReturn (offset + byteLength text)) ∧
      tokensFrom offset (text ++ ['\r']) = (tokensFrom offset text).map (Token.moved id g) ∧
      ∀ t ∈ tokensFrom offset text, t.kind ≠ .unknown → g t.span.stop = t.span.stop := by
  induction text using tokens_induction generalizing offset with
  | nil text htext =>
    have hafter := afterGap_append_return text
    rw [if_pos htext] at hafter
    refine ⟨id, .inl rfl, ?_, ?_⟩
    · rw [tokensFrom_of_nil _ hafter, tokensFrom_of_nil _ htext, List.map_nil]
    · simp [tokensFrom_of_nil _ htext]
  | cons text c rest htext ih =>
    have hafter := afterGap_append_return text
    rw [htext, if_neg (List.cons_ne_nil _ _), List.cons_append] at hafter
    have htokens := tokensFrom_of_cons offset htext
    have htokens' := tokensFrom_of_cons offset hafter
    rw [gap_append_return htext] at htokens'
    have hbytes := byteLength_of_cons htext
    rw [htokens, htokens']
    rcases lexeme_append_return c rest with hleft | ⟨hlast, htaken⟩
    · rw [hleft]
      simp only [Lexeme.followedBy]
      by_cases hrest : (lexeme c rest).rest = []
      · -- Behind this token there is nothing but the return.
        refine ⟨id, .inl rfl, ?_, fun _ _ _ => rfl⟩
        rw [hrest, tokensFrom_of_nil _ rfl, tokensFrom_of_nil _ rfl]
        rfl
      · -- This token stops before the last one.
        have hpos := byteLength_pos hrest
        obtain ⟨g, hg, htail, hkept⟩ := ih
          (offset + byteLength (gap text) + c.utf8Size + byteLength (lexeme c rest).tail)
        have hstop : g (offset + byteLength (gap text) + c.utf8Size +
            byteLength (lexeme c rest).tail) = offset + byteLength (gap text) + c.utf8Size +
            byteLength (lexeme c rest).tail := by
          rcases hg with rfl | rfl
          · rfl
          · exact if_neg (by omega)
        refine ⟨g, ?_, ?_, List.forall_mem_cons.2 ⟨fun _ => hstop, hkept⟩⟩
        · refine hg.imp_right fun h => h.trans (congrArg pastReturn ?_)
          omega
        · rw [htail, List.map_cons, Token.moved, Span.moved, hstop]
          rfl
    · -- The token takes the return in, and nothing is left behind it.
      rw [hlast] at hbytes
      simp only [byteLength_nil, Nat.add_zero] at hbytes
      rw [hlast, htaken, tokensFrom_of_nil _ rfl, tokensFrom_of_nil _ rfl, hbytes]
      refine ⟨pastReturn _, .inr rfl, ?_, by simp⟩
      simp only [List.map_cons, List.map_nil, Token.moved, Span.moved, pastReturn, id]
      rw [if_pos (by omega), byteLength_append, ← Nat.add_assoc]
      rfl

/-! ### Words in a longer text -/

/-- A range that reaches to the end of a text can take in what is put behind it. -/
theorem Span.Covers.append_last {s : Span} {text word : List Char} (h : s.Covers text word)
    (hstop : s.stop = byteLength text) (more : List Char) :
    Span.Covers ⟨s.start, s.stop + byteLength more⟩ (text ++ more) (word ++ more) := by
  obtain ⟨before, after, rfl, rfl⟩ := h
  obtain rfl : after = [] := by
    by_contra hne
    have hbytes := byteLength_pos hne
    rw [byteLength_append _ after] at hstop
    simp only at hstop
    omega
  refine ⟨before, [], by simp only [List.append_assoc, List.append_nil], ?_⟩
  simp only [byteLength_append, Nat.add_assoc]

/-- The token of a line break covers the line break. -/
theorem covers_newlineAt (text more : List Char) :
    (newlineAt (byteLength text)).span.Covers (text ++ '\n' :: more) ['\n'] := by
  refine ⟨text, more, by rw [List.append_assoc]; rfl, ?_⟩
  rw [byteLength_append]
  rfl

/-! ### Reading before a carriage return -/

/-- **A text reads the same with a carriage return behind it.** -/
theorem readText_append_return (score : Score) (text : List Char) :
    readText score (text ++ ['\r']) = readText score text := by
  obtain ⟨g, -, htokens, hkept⟩ := tokensFrom_append_return 0 text
  rw [readText, readText, children_parseTree, htokens, statements_map_moved, ← children_parseTree]
  refine readAll_moved (fun node hnode part hpart hkind => ?_) score
  obtain ⟨word, hword, -⟩ := spelled_of_mem_children hnode hpart hkind
  -- A part that is no error is a token that is not unknown, so it stops where it did.
  have hstop : part.span.moved id g = part.span := by
    rw [children_parseTree] at hnode
    obtain ⟨span, rfl⟩ | ⟨t, ht, rfl⟩ := isPart_of_mem_statements hnode hpart
    · exact absurd rfl hkind
    · have hknown : t.kind ≠ .unknown := fun h => hkind (congrArg leafKind h)
      exact congrArg (Span.mk t.span.start) (hkept t ht hknown)
  rw [Node.text, Node.text, Node.span_moved, hstop, hword.slice?, (hword.append ['\r']).slice?]

/-- **A source reads the same with returns at the end of its lines.** -/
theorem readText_withReturns (score : Score) (text : List Char) :
    readText score (withReturns text) = readText score text := by
  induction text using lines_induction generalizing score with
  | line line hline => rw [withReturns_of_notMem hline]
  | newline line more hline ih =>
    rw [withReturns_append_newline hline, readText_append_newline, readText_append_return, ih,
      readText_append_newline]

/-! ### Tokens of all lines -/

/-- What tokens of two sources have in common, the second with returns: they are of one kind and cover
one word, unless they are unknown and the return goes with the second. -/
structure SameToken (source source' : List Char) (t t' : Token) : Prop where
  kind_eq : t'.kind = t.kind
  word : ∃ word, t.span.Covers source word ∧ (t'.span.Covers source' word ∨
    t.kind = .unknown ∧ t'.span.Covers source' (word ++ ['\r']))

namespace SameToken

variable {text text' : List Char} {t t' : Token}

/-- Two tokens that are the same stay so, whatever follows their texts. -/
theorem append (h : SameToken text text' t t') (after after' : List Char) :
    SameToken (text ++ after) (text' ++ after') t t' := by
  obtain ⟨hkind, word, hword, hword'⟩ := h
  exact ⟨hkind, word, hword.append after,
    hword'.imp (·.append after') (And.imp_right (·.append after'))⟩

/-- They stay so, whatever stands before their texts. -/
theorem behind (h : SameToken text text' t t') (before before' : List Char) :
    SameToken (before ++ text) (before' ++ text') (t.shift (byteLength before))
      (t'.shift (byteLength before')) := by
  obtain ⟨hkind, word, hword, hword'⟩ := h
  refine ⟨hkind, word, hword.behind before, ?_⟩
  exact hword'.imp (·.behind before') (And.imp_right (·.behind before'))

end SameToken

/-- A text has the same tokens with a carriage return behind it. -/
theorem sameToken_append_return (text : List Char) :
    List.Forall₂ (SameToken text (text ++ ['\r'])) (tokensFrom 0 text)
      (tokensFrom 0 (text ++ ['\r'])) := by
  obtain ⟨g, hg, htokens, hkept⟩ := tokensFrom_append_return 0 text
  rw [htokens, List.forall₂_map_right_iff, List.forall₂_same]
  intro t ht
  obtain ⟨word, hword, -⟩ := covers_of_mem_tokensFrom ht
  refine ⟨rfl, word, hword, ?_⟩
  by_cases hstop : g t.span.stop = t.span.stop
  · left
    rw [Token.span_moved, Span.moved, hstop]
    exact hword.append ['\r']
  · -- The token reaches to the end of the text, and is unknown.
    have hunknown : t.kind = .unknown := by
      by_contra hknown
      exact hstop (hkept t ht hknown)
    refine .inr ⟨hunknown, ?_⟩
    rcases hg with rfl | rfl
    · exact absurd rfl hstop
    · by_cases hlast : t.span.stop = 0 + byteLength text
      · rw [Token.span_moved, Span.moved, pastReturn, if_pos hlast]
        exact hword.append_last (hlast.trans (Nat.zero_add _)) ['\r']
      · exact absurd (if_neg hlast) hstop

/-- **A source has the same tokens with returns at the end of its lines.** -/
theorem sameToken_withReturns (text : List Char) :
    List.Forall₂ (SameToken text (withReturns text)) (tokensFrom 0 text)
      (tokensFrom 0 (withReturns text)) := by
  -- A text is a last line, or a line, its break, and a text behind it.
  induction text using lines_induction with
  | line line hline =>
    rw [withReturns_of_notMem hline, List.forall₂_same]
    intro t ht
    obtain ⟨word, hword, -⟩ := covers_of_mem_tokensFrom ht
    exact ⟨rfl, word, hword, .inl hword⟩
  | newline line more hline ih =>
    have htokens := tokensFrom_append_newline 0 line more
    have htokens' := tokensFrom_append_newline 0 (line ++ ['\r']) (withReturns more)
    rw [Nat.zero_add, tokensFrom_add _ 0 more] at htokens
    rw [Nat.zero_add, tokensFrom_add _ 0 (withReturns more)] at htokens'
    rw [withReturns_append_newline hline, htokens, htokens']
    refine List.rel_append ?_ (.cons ?_ ?_)
    · exact (sameToken_append_return line).imp fun t t' h => h.append _ _
    · exact ⟨rfl, ['\n'], covers_newlineAt line more, .inl (covers_newlineAt _ _)⟩
    · rw [List.forall₂_map_left_iff, List.forall₂_map_right_iff]
      refine ih.imp fun t t' h => ?_
      have hbreak : ∀ text : List Char, byteLength (text ++ ['\n']) = byteLength text + 1 :=
        fun text => byteLength_append text ['\n']
      -- The tokens behind the break are moved by one byte more.
      have hbehind := h.behind (line ++ ['\n']) (line ++ ['\r'] ++ ['\n'])
      rwa [hbreak, hbreak, List.append_assoc, List.append_assoc (line ++ ['\r'])] at hbehind

/-- **Lines mean the same whatever they end with.**  With a carriage return before each line break, a
source reads as the same score.  Its tokens are as many, each of the same kind as before and with the
same text.  An unknown one at the end of its line may have the return at the end of its text. -/
theorem line_endings_mean_nothing (source : List Char) :
    parse (withReturns source) = parse source ∧
    List.Forall₂ (fun t t' : Token => t'.kind = t.kind ∧
        ∃ word, slice? source t.span.start t.span.stop = some word ∧
          (slice? (withReturns source) t'.span.start t'.span.stop = some word ∨
            t.kind = .unknown ∧
              slice? (withReturns source) t'.span.start t'.span.stop = some (word ++ ['\r'])))
      (scan source) (scan (withReturns source)) := by
  constructor
  · rw [parse_eq_readText, parse_eq_readText, readText_withReturns]
  · have heof : ∀ text : List Char, Span.Covers ⟨byteLength text, byteLength text⟩ text [] :=
      fun text => ⟨text, [], by simp, by simp⟩
    have hsame : List.Forall₂ (SameToken source (withReturns source)) (scan source)
        (scan (withReturns source)) := by
      rw [scan_eq, scan_eq]
      exact List.rel_append (sameToken_withReturns source)
        (.cons ⟨rfl, [], heof _, .inl (heof _)⟩ .nil)
    refine hsame.imp fun t t' h => ?_
    obtain ⟨hkind, word, hword, hword'⟩ := h
    exact ⟨hkind, word, hword.slice?, hword'.imp (·.slice?) (And.imp_right (·.slice?))⟩

-- The first return goes with the comment, the second with the literal that is not closed.
example : (scan (withReturns "[\"A\" 96] // x\nr1 |E\n".toList)).map
    (fun t => (t.kind, t.span.start, t.span.stop)) =
      [(.openBracket, 0, 1), (.string, 1, 4), (.number, 5, 7), (.closeBracket, 7, 8),
        (.newline, 14, 15), (.name, 15, 17), (.unknown, 18, 21), (.newline, 21, 22),
        (.eof, 22, 22)] := by
  cbv

end Gamelan.Notation

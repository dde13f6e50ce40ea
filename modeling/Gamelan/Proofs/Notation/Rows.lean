import Gamelan.Proofs.Notation.LongestMatch

namespace Gamelan.Notation

open Gamelan.Text

/-!
# Ranges in a row

The tokens of a text stand in a row: one behind the other, each with some of the text, and none of
them cuts a character in two.  The range from the first to the last token of a run is again of that
kind, so the runs of a row are a row as well.

* `Span.CoversSome` — a range with some text, between two characters on either side.
* `Row` — such ranges, one behind the other.
* `Row.append_iff` — a row is taken apart between any two of its ranges.
* `Row.filter_eq` — one of a row is told from the others by where it is.
* `Row.hull`, `Row.run` — the range of a run.
* `row_tokensFrom` — the tokens of a text are a row.
-/

/-! ### Ranges with some text -/

/-- Whether a range covers some of a text. -/
def Span.CoversSome (s : Span) (text : List Char) : Prop :=
  ∃ word, word ≠ [] ∧ s.Covers text word

/-- Whether a range lies inside another one. -/
def Span.Within (s outer : Span) : Prop :=
  outer.start ≤ s.start ∧ s.stop ≤ outer.stop

instance (s outer : Span) : Decidable (s.Within outer) :=
  inferInstanceAs (Decidable (outer.start ≤ s.start ∧ s.stop ≤ outer.stop))

/-- A range of some text is not empty. -/
theorem Span.CoversSome.lt {s : Span} {text : List Char} (h : s.CoversSome text) :
    s.start < s.stop := by
  obtain ⟨word, hword, before, after, -, rfl⟩ := h
  have := byteLength_pos hword
  simp only [byteLength_append]
  omega

/-- From the start of one range to the end of another there is some text, if there is anything. -/
theorem Span.CoversSome.upTo {s s' : Span} {text : List Char} (h : s.CoversSome text)
    (h' : s'.CoversSome text) (hlt : s.start < s'.stop) :
    Span.CoversSome ⟨s.start, s'.stop⟩ text := by
  obtain ⟨word, -, before, after, htext, rfl⟩ := h
  obtain ⟨word', -, before', after', htext', rfl⟩ := h'
  rw [htext, List.append_assoc, List.append_eq_append_iff] at htext'
  obtain ⟨between, hbefore, hafter⟩ | ⟨between, hbefore, -⟩ := htext'
  · refine ⟨between, ?_, before, after', ?_, ?_⟩
    · rintro rfl
      rw [List.append_nil] at hbefore
      exact absurd hlt (by rw [hbefore]; exact Nat.lt_irrefl _)
    · rw [htext, List.append_assoc, hafter, List.append_assoc]
    · rw [hbefore]
  · -- The second range would end before the first one starts.
    have := congrArg byteLength hbefore
    rw [byteLength_append _ between] at this
    dsimp only at hlt
    omega

/-! ### Rows -/

/-- Ranges with some text between two places, one behind the other. -/
def Row (text : List Char) : Nat → List Span → Nat → Prop
  | start, [], stop => start ≤ stop
  | start, s :: rest, stop => start ≤ s.start ∧ s.CoversSome text ∧ Row text s.stop rest stop

namespace Row

variable {text : List Char} {start stop : Nat} {spans more : List Span}

/-- A row ends where it starts or behind that. -/
theorem le (h : Row text start spans stop) : start ≤ stop := by
  induction spans generalizing start with
  | nil => exact h
  | cons s rest ih =>
    have := h.2.1.lt
    have := ih h.2.2
    have := h.1
    omega

/-- A row may start earlier. -/
theorem from_le {start' : Nat} (h : Row text start spans stop) (hle : start' ≤ start) :
    Row text start' spans stop := by
  cases spans with
  | nil => exact Nat.le_trans hle h
  | cons s rest => exact ⟨Nat.le_trans hle h.1, h.2⟩

/-- A row may end later. -/
theorem up_to {stop' : Nat} (h : Row text start spans stop) (hle : stop ≤ stop') :
    Row text start spans stop' := by
  induction spans generalizing start with
  | nil => exact Nat.le_trans h hle
  | cons s rest ih => exact ⟨h.1, h.2.1, ih h.2.2⟩

/-- **A row is taken apart between any two of its ranges.** -/
theorem append_iff : Row text start (spans ++ more) stop ↔
    ∃ middle, Row text start spans middle ∧ Row text middle more stop := by
  induction spans generalizing start with
  | nil =>
    constructor
    · exact fun h => ⟨start, Nat.le_refl start, h⟩
    · rintro ⟨middle, hle, h⟩
      exact h.from_le hle
  | cons s rest ih =>
    constructor
    · rintro ⟨hstart, hs, h⟩
      obtain ⟨middle, hrest, hmore⟩ := ih.1 h
      exact ⟨middle, ⟨hstart, hs, hrest⟩, hmore⟩
    · rintro ⟨middle, ⟨hstart, hs, hrest⟩, hmore⟩
      exact ⟨hstart, hs, ih.2 ⟨middle, hrest, hmore⟩⟩

/-- The ranges of a row stand between its ends. -/
theorem of_mem {s : Span} (h : Row text start spans stop) (hs : s ∈ spans) :
    start ≤ s.start ∧ s.CoversSome text ∧ s.stop ≤ stop := by
  obtain ⟨before, after, rfl⟩ := List.append_of_mem hs
  obtain ⟨middle, hbefore, hstart, hsome, hafter⟩ := append_iff.1 h
  exact ⟨Nat.le_trans hbefore.le hstart, hsome, hafter.le⟩

theorem tail {s : Span} (h : Row text start (s :: spans) stop) : Row text start spans stop := by
  obtain ⟨hstart, hsome, hrest⟩ := h
  exact hrest.from_le (Nat.le_trans hstart (Nat.le_of_lt hsome.lt))

/-- What is left of a row is a row. -/
theorem sublist (h : Row text start spans stop) (hsub : List.Sublist more spans) :
    Row text start more stop := by
  induction hsub generalizing start with
  | slnil => exact h
  | cons s _ ih => exact ih h.tail
  | cons_cons s _ ih => exact ⟨h.1, h.2.1, ih h.2.2⟩

/-- None starts before those before it end. -/
theorem pairwise (h : Row text start spans stop) :
    spans.Pairwise fun s s' => s.stop ≤ s'.start := by
  induction spans generalizing start with
  | nil => exact List.Pairwise.nil
  | cons s rest ih =>
    exact List.pairwise_cons.2 ⟨fun s' hs' => (h.2.2.of_mem hs').1, ih h.2.2⟩

/-- **One of a row is found by what holds of no range apart from it.** -/
theorem filter_eq {α : Type} {range : α → Span} {items : List α} {p : α → Bool} {a : α}
    (h : Row text start (items.map range) stop) (ha : a ∈ items) (hpa : p a)
    (hapart : ∀ b, (range b).CoversSome text →
      (range b).stop ≤ (range a).start ∨ (range a).stop ≤ (range b).start → p b = false) :
    items.filter p = [a] := by
  obtain ⟨before, after, rfl⟩ := List.append_of_mem ha
  rw [List.map_append, List.map_cons] at h
  obtain ⟨middle, hbefore, hstart, hsome, hafter⟩ := append_iff.1 h
  -- All others of the row are apart from `a`, on one side or the other.
  have hnone : before.filter p = [] := by
    refine List.filter_eq_nil_iff.2 fun b hb => Bool.not_eq_true _ ▸ ?_
    obtain ⟨-, hb, hstop⟩ := hbefore.of_mem (List.mem_map_of_mem hb)
    exact hapart b hb (.inl (Nat.le_trans hstop hstart))
  have hnone' : after.filter p = [] := by
    refine List.filter_eq_nil_iff.2 fun b hb => Bool.not_eq_true _ ▸ ?_
    obtain ⟨hstop, hb, -⟩ := hafter.of_mem (List.mem_map_of_mem hb)
    exact hapart b hb (.inr hstop)
  rw [List.filter_append, hnone, List.filter_cons_of_pos hpa, hnone', List.nil_append]

end Row

/-- **The range of a run** takes the place of the run, and the run fills it from end to end. -/
theorem Row.hull {text : List Char} {start stop : Nat} {first : Span} {more : List Span}
    (h : Row text start (first :: more) stop) :
    Row text start [hull first more] stop ∧
      Row text (hull first more).start (first :: more) (hull first more).stop := by
  induction more generalizing start first with
  | nil => exact ⟨h, Nat.le_refl _, h.2.1, Nat.le_refl _⟩
  | cons second more ih =>
    obtain ⟨hstart, hfirst, hrest⟩ := h
    obtain ⟨⟨hle, hsome, hstop⟩, hrow⟩ := ih hrest
    -- From the first range to the last there is the text of the first, so there is some.
    have hlt : first.start < (Notation.hull second more).stop := by
      have := hfirst.lt
      have := hsome.lt
      omega
    rw [hull_cons]
    exact ⟨⟨hstart, hfirst.upTo hsome hlt, hstop⟩, Nat.le_refl _, hfirst, hrow.from_le hle⟩

/-- A run is cut off a row: its range takes its place, and it fills its range. -/
theorem Row.run {text : List Char} {start stop : Nat} {first : Span} {more later : List Span}
    (h : Row text start (first :: (more ++ later)) stop) :
    ∃ middle, Row text start [Notation.hull first more] middle ∧
      Row text (Notation.hull first more).start (first :: more) (Notation.hull first more).stop ∧
      Row text middle later stop := by
  rw [← List.cons_append] at h
  obtain ⟨middle, hrun, hlater⟩ := append_iff.1 h
  exact ⟨middle, hrun.hull.1, hrun.hull.2, hlater⟩

/-! ### Tokens in a row -/

/-- The tokens before the end of the source stand in a row. -/
theorem Scans.row {before text : List Char} {tokens : List Token} (h : Scans before text tokens) :
    Row (before ++ text) (byteLength before) ((tokens.takeWhile Token.inSource).map Token.span)
      (byteLength (before ++ text)) := by
  induction h with
  | @eof before text hgap =>
    have hend : [tokenAt (before ++ text) .eof []].takeWhile Token.inSource = [] := rfl
    rw [hend, byteLength_append]
    exact Nat.le_add_right _ _
  | @token before gap word after kind tokens hgap hword hkind rest ih =>
    have hsource : Token.inSource (tokenAt (before ++ gap) kind word) := by
      simpa [Token.inSource, tokenAt] using hkind
    have htext : before ++ (gap ++ word ++ after) = before ++ gap ++ word ++ after := by
      simp only [List.append_assoc]
    rw [List.takeWhile_cons_of_pos hsource, List.map_cons, htext]
    refine ⟨?_, ⟨word, hword.ne_nil hkind, before ++ gap, after, rfl, rfl⟩, ih⟩
    simp [tokenAt]

/-- **The tokens of a text are a row.** -/
theorem row_tokensFrom (source : List Char) :
    Row source 0 ((tokensFrom 0 source).map Token.span) (byteLength source) :=
  (scans_scanFrom [] source).row

/-- Behind its tokens a text has its end. -/
theorem scan_eq (source : List Char) :
    scan source = tokensFrom 0 source ++ [⟨.eof, ⟨byteLength source, byteLength source⟩⟩] := by
  obtain ⟨init, hscan, hinit⟩ := (scans_scanFrom [] source).exists_eof
  have hsource : ∀ t ∈ init, Token.inSource t := fun t ht => by
    simpa [Token.inSource] using (hinit t ht).1
  have htokens : tokensFrom 0 source = init := by
    show (scanFrom (byteLength []) source).takeWhile Token.inSource = init
    rw [hscan, List.takeWhile_append_of_pos hsource]
    exact List.append_nil init
  rw [htokens]
  exact hscan.trans (by simp [tokenAt])

end Gamelan.Notation

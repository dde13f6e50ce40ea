import Gamelan.Proofs.Notation.Coverage
import Gamelan.Proofs.Notation.WellFormed
import Gamelan.Proofs.Timeline.Layout

namespace Gamelan

open Notation Text

/-!
# How much a text can hold

Every step of a score is a character of the source, inside the literal of its track.  The statements of
a source stand in a row, so a score has no more steps than its source has bytes.

* `Row.sum_width_le` — ranges in a row fit between its ends.
* `Score.weight` — the steps of all tracks, `weight_readNode_le` — and what a statement adds to them.
* `length_parse_le` — the steps of a source text.
-/

namespace Notation

/-! ### Room for text -/

/-- How many bytes a range has. -/
def Span.width (s : Span) : Nat :=
  s.stop - s.start

/-- Ranges in a row fit between its ends. -/
theorem Row.sum_width_le {text : List Char} {start stop : Nat} {spans : List Span}
    (h : Row text start spans stop) : start + (spans.map Span.width).sum ≤ stop := by
  induction spans generalizing start with
  | nil => exact h
  | cons s rest ih =>
    have hlt := h.2.1.lt
    have hrest := ih h.2.2
    have hstart := h.1
    rw [List.map_cons, List.sum_cons, Span.width]
    omega

/-- A text is no longer than its range. -/
theorem Span.CoversSome.length_text_le {source : List Char} {node : Node}
    (h : node.span.CoversSome source) : (node.text source).length ≤ node.span.width := by
  obtain ⟨word, -, hword⟩ := h
  rw [Node.text, hword.slice?, Option.getD_some]
  obtain ⟨before, after, -, hspan⟩ := hword
  rw [hspan, Span.width, byteLength_append, Nat.add_sub_cancel_left]
  exact length_le_byteLength word

/-- What stands inside a literal is no longer than the statement around it. -/
theorem length_inside_le {source : List Char} {node part : Node}
    (h : node ∈ (parseTree source).children) (hpart : part ∈ node.children) :
    (inside source part).length ≤ node.span.width := by
  have hnode : node ∈ Node.preorderAll (parseTree source).children := by
    rw [Node.preorderAll_eq_flatMap, List.mem_flatMap]
    exact ⟨node, h, by rw [Node.preorder_eq]; exact List.mem_cons_self⟩
  obtain ⟨hstart, hsome, hstop⟩ :=
    (row_of_mem_preorderAll source hnode).2.of_mem (List.mem_map_of_mem hpart)
  have htext := hsome.length_text_le
  rw [inside, unwrap, List.length_dropLast, List.length_tail]
  unfold Span.width at htext ⊢
  omega

end Notation

/-! ### The steps of a score -/

/-- The steps of all tracks of a section. -/
def Section.weight (s : Section) : Nat :=
  (s.tracks.map (·.steps.length)).sum

/-- The steps of all tracks of a score. -/
def Score.weight (score : Score) : Nat :=
  (score.sections.map Section.weight).sum

/-- A section is no longer than all its tracks together. -/
theorem Section.length_le_weight (s : Section) : s.length ≤ s.weight := by
  obtain hzero | hpos := Nat.eq_zero_or_pos s.length
  · rw [hzero]
    exact Nat.zero_le _
  · obtain ⟨t, ht, hlength⟩ := Section.exists_length_eq hpos
    rw [← hlength]
    exact List.le_sum_of_mem (List.mem_map_of_mem ht)

/-- A score has no more steps than its tracks have together. -/
theorem Score.length_le_weight (score : Score) : score.length ≤ score.weight :=
  List.sum_le_sum fun s _ => s.length_le_weight

namespace Notation

/-- A track adds its own steps to the last section. -/
theorem weight_addTrack (track : Track) {sections : List Section} (h : sections ≠ []) :
    ((addTrack track sections).map Section.weight).sum =
      (sections.map Section.weight).sum + track.steps.length := by
  obtain rfl | ⟨before, last, rfl⟩ := List.eq_nil_or_concat sections
  · exact absurd rfl h
  · rw [List.concat_eq_append, addTrack_concat]
    simp [Section.weight, Nat.add_assoc]

/-- **A statement adds no more steps than it has bytes.** -/
theorem weight_readNode_le {source : List Char} {node : Node}
    (h : node ∈ (parseTree source).children) (score : Score) :
    (readNode source score node).1.weight ≤ score.weight + node.span.width := by
  have hsame : ∀ after : Score, after.sections = score.sections →
      after.weight ≤ score.weight + node.span.width := by
    intro after hafter
    rw [Score.weight, hafter]
    exact Nat.le_add_right _ _
  unfold readNode
  split
  · refine hsame _ ?_
    unfold readMetadata setMetadata
    repeat' split
    all_goals rfl
  · simp [Score.weight, Section.weight, readHeader]
  · unfold readTrack
    split
    · next label code hlabel hcode =>
      split
      · exact hsame score rfl
      · next hsections =>
        -- The steps are the text inside the code, which is a part of the statement.
        have hcode := length_inside_le h (mem_children_of_child? hcode).1
        have hadd := weight_addTrack ⟨String.ofList (label.text source), inside source code⟩
          (fun hnil => hsections (by rw [hnil]; rfl) : score.sections ≠ [])
        rw [Score.weight, hadd]
        exact Nat.add_le_add_left hcode _
    · exact hsame score rfl
  · exact hsame score rfl
  · exact hsame score rfl

/-- **A score has no more steps than its source has bytes.** -/
theorem length_parse_le (source : List Char) : (parse source).length ≤ byteLength source := by
  -- Each statement adds no more steps than it is wide.
  have hread : ∀ nodes ⊆ (parseTree source).children, ∀ score : Score,
      (readAll source score nodes).weight ≤
        score.weight + ((nodes.map Node.span).map Span.width).sum := by
    intro nodes hnodes
    induction nodes with
    | nil => exact fun score => Nat.le_refl _
    | cons node rest ih =>
      intro score
      obtain ⟨hnode, hrest⟩ := List.cons_subset.1 hnodes
      have hfirst := weight_readNode_le hnode score
      have hlater := ih hrest (readNode source score node).1
      rw [readAll_cons, List.map_cons, List.map_cons, List.sum_cons]
      omega
  -- The statements stand in a row in the source, so their widths fit into it.
  have hrow := (row_statements (row_tokensFrom source)).1.sum_width_le
  rw [← children_parseTree] at hrow
  calc (parse source).length
      ≤ (parse source).weight := Score.length_le_weight _
    _ = (readAll source .empty (parseTree source).children).weight := by
      rw [parse_eq_readText, readText]
    _ ≤ 0 + (((parseTree source).children.map Node.span).map Span.width).sum :=
      hread _ (List.Subset.refl _) .empty
    _ ≤ byteLength source := hrow

end Notation

end Gamelan

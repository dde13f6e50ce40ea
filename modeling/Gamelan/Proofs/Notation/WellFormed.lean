import Gamelan.Proofs.Notation.LineByLine

namespace Gamelan

open Notation Text

/-!
# Scores that can be written down

Not every score has a source text: a title cannot hold a quote, nor the steps of a track a bar.
Every score that is read can be written down again.

* `Score.WellFormed` — the scores that have a source text.
* `Score.WellFormed.readText`, `wellFormed_parse` — reading makes no others.
-/

/-- Whether a track can be written on a line. -/
structure Track.WellFormed (t : Track) : Prop where
  label : IsName t.label.toList
  steps : Delimiter.bar.Encloses t.steps

/-- Whether a section can be written down: its title stands in quotes, and its tempo has 32 bits. -/
structure Section.WellFormed (s : Section) : Prop where
  title : Delimiter.quote.Encloses s.title.toList
  tempo : s.tempo < Nat.pow 2 32
  tracks : ∀ track ∈ s.tracks, track.WellFormed

/-- Whether a score can be written down. -/
structure Score.WellFormed (s : Score) : Prop where
  title : Delimiter.quote.Encloses s.title.toList
  composer : Delimiter.quote.Encloses s.composer.toList
  /-- Every section has its position as its number. -/
  ids : s.sections.map (·.id) = List.range s.sections.length
  sections : ∀ part ∈ s.sections, part.WellFormed

namespace Notation

/-! ### What parts hold -/

/-- Without its delimiters, a literal is what they enclose. -/
@[simp] theorem unwrap_literal (d : Delimiter) (inside : List Char) :
    unwrap (d.literal inside) = inside := by
  simp [unwrap, Delimiter.literal]

section
variable {text : List Char} {node part : Node}

/-- A part that is no error has the text of a word of its kind. -/
theorem spells_text (h : node ∈ (parseTree text).children) {kind : NodeKind}
    (hpart : node.child? kind = some part) (hkind : kind ≠ .error) :
    kind.Spells (part.text text) := by
  obtain ⟨hmem, rfl⟩ := mem_children_of_child? hpart
  obtain ⟨word, hword, hspells⟩ := spelled_of_mem_children h hmem hkind
  rwa [Node.text, hword.slice?]

/-- What stands inside a literal of a statement can stand there. -/
theorem encloses_inside (d : Delimiter) (h : node ∈ (parseTree text).children)
    (hpart : node.child? (leafKind d.kind) = some part) : d.Encloses (inside text part) := by
  have hliteral : d.IsLiteral (part.text text) := by
    cases d <;> exact spells_text h hpart (by decide)
  obtain ⟨word, hword, hencloses⟩ := hliteral
  rwa [inside, hword, unwrap_literal]

end

/-- A tempo that is read fits 32 bits. -/
theorem readTempo_lt (number : List Char) : readTempo number < Nat.pow 2 32 := by
  unfold readTempo
  simp only
  split
  · assumption
  · decide

/-! ### What statements make -/

/-- A track is added to the last section. -/
theorem addTrack_concat (track : Track) (before : List Section) (last : Section) :
    addTrack track (before ++ [last]) =
      before ++ [{ last with tracks := last.tracks ++ [track] }] := by
  induction before with
  | nil => rfl
  | cons first rest ih =>
    cases rest with
    | nil => rfl
    | cons second rest =>
      simp only [List.cons_append] at ih ⊢
      rw [addTrack, ih]

end Notation

namespace Score.WellFormed

variable {score : Score}

/-- Metadata keeps a score well formed, if its value can stand between quotes. -/
theorem setMetadata (hs : score.WellFormed) (name : String) {value : List Char}
    (hvalue : Delimiter.quote.Encloses value) :
    (setMetadata score name (String.ofList value)).1.WellFormed := by
  have hvalue : Delimiter.quote.Encloses (String.ofList value).toList := by
    rwa [String.toList_ofList]
  unfold Notation.setMetadata
  split
  · exact { hs with title := hvalue }
  · split
    · exact { hs with composer := hvalue }
    · exact hs

/-- A new section gets the next number. -/
theorem addSection (hs : score.WellFormed) {opened : Section} (hopened : opened.WellFormed)
    (hid : opened.id = score.sections.length) :
    { score with sections := score.sections ++ [opened] }.WellFormed where
  title := hs.title
  composer := hs.composer
  ids := by simp [hs.ids, hid, List.range_succ]
  sections := by
    intro part hpart
    obtain hpart | hpart := List.mem_append.mp hpart
    · exact hs.sections part hpart
    · rwa [List.mem_singleton.mp hpart]

/-- A well-formed track keeps a score well formed. -/
theorem addTrack (hs : score.WellFormed) {track : Track} (htrack : track.WellFormed) :
    { score with sections := addTrack track score.sections }.WellFormed := by
  -- Without a section the track has no place, and otherwise it comes last in the last one.
  obtain hnil | ⟨before, last, hsections⟩ := List.eq_nil_or_concat score.sections
  · rw [hnil]
    exact { hs with ids := rfl, sections := by simp [Notation.addTrack] }
  · have hadded := addTrack_concat track before last
    have hids := hs.ids
    rw [← List.concat_eq_append, ← hsections] at hadded
    constructor
    · exact hs.title
    · exact hs.composer
    · rw [hsections] at hids
      rw [hadded]
      simpa using hids
    · intro part hpart
      have hlast : last ∈ score.sections := by simp [hsections]
      rw [hadded] at hpart
      obtain hpart | hpart := List.mem_append.mp hpart
      · exact hs.sections part (by simp [hsections, hpart])
      · rw [List.mem_singleton.mp hpart]
        refine { hs.sections last hlast with tracks := fun other hother => ?_ }
        obtain hother | hother := List.mem_append.mp hother
        · exact (hs.sections last hlast).tracks other hother
        · rwa [List.mem_singleton.mp hother]

/-- **One more statement keeps a score well formed.** -/
theorem readNode (hs : score.WellFormed) {text : List Char} {node : Node}
    (h : node ∈ (parseTree text).children) : (readNode text score node).1.WellFormed := by
  -- A statement sets a field, opens a section or adds a track, if it has all parts that it needs.
  unfold Notation.readNode
  split
  · unfold readMetadata
    split
    · next name value hname hvalue => exact hs.setMetadata _ (encloses_inside .quote h hvalue)
    · exact hs
  · refine hs.addSection ⟨?_, ?_, by simp [Notation.readHeader]⟩ rfl
    · cases htitle : node.child? .string with
      | none => simp [Notation.readHeader, htitle, Delimiter.Encloses]
      | some value => simpa [Notation.readHeader, htitle] using encloses_inside .quote h htitle
    · cases htempo : node.child? .number with
      | none => simp [Notation.readHeader, htempo]
      | some number => simpa [Notation.readHeader, htempo] using readTempo_lt _
  · unfold readTrack
    split
    · next label code hlabel hcode =>
      split
      · exact hs
      · refine hs.addTrack ⟨?_, encloses_inside .bar h hcode⟩
        rw [String.toList_ofList]
        exact spells_text h hlabel (by decide)
    · exact hs
  · exact hs
  · exact hs

/-- **Some more text keeps a score well formed.** -/
theorem readText (hs : score.WellFormed) (text : List Char) :
    (Notation.readText score text).WellFormed := by
  have hread : ∀ nodes ⊆ (parseTree text).children, ∀ score : Score, score.WellFormed →
      (readAll text score nodes).WellFormed := by
    intro nodes hnodes
    induction nodes with
    | nil => exact fun _ hs => hs
    | cons node rest ih =>
      obtain ⟨hnode, hrest⟩ := List.cons_subset.mp hnodes
      exact fun score hs => ih hrest _ (hs.readNode hnode)
  exact hread _ (List.Subset.refl _) score hs

/-- The empty score is well formed. -/
theorem empty : Score.empty.WellFormed where
  title := by simp [Score.empty, Delimiter.Encloses]
  composer := by simp [Score.empty, Delimiter.Encloses]
  ids := rfl
  sections := by simp [Score.empty]

end Score.WellFormed

/-- What is read can be written down. -/
theorem Notation.wellFormed_parse (source : List Char) : (parse source).WellFormed := by
  rw [parse_eq_readText]
  exact Score.WellFormed.empty.readText source

end Gamelan

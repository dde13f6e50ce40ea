import Gamelan.Proofs.Ensemble.Validation
import Gamelan.Proofs.Notation.Canonical
import Gamelan.Proofs.Performance.LateStroke
import Gamelan.Proofs.Timeline.Layout

namespace Gamelan

open Notation Text

/-!
# The symbols of an instrument and their slots

The place of a symbol in the alphabet of its instrument is the slot that it plays.  Three rules come
before that.  The mute symbol is a directive and no stroke, an accented symbol is played as its plain
letter, and a symbol that stands twice in the alphabet plays the first place.  Tables may have
alphabets that meet these rules, and the slots in question cannot be had by their symbols then.

* `Atomic.IsOwnSymbol` — the symbols that meet none of them.
* `calls_perform_atomic` — the calls of any symbol on the label of an atomic instrument.
* `Reaches` — whether a slot can be had by writing a symbol.
* `solo` — a score of one symbol.
* `own_symbol_iff_plays_slot` — a symbol plays its slot just if it is the slot's own.
-/

/-- Whether a symbol plays the slot that it stands at as it is written. -/
structure Atomic.IsOwnSymbol (a : Atomic) (slot : Slot) (symbol : Char) : Prop where
  place : a.alphabet[slot]? = some symbol
  /-- It is a stroke and no directive. -/
  stroke : symbol ≠ muteSymbol
  /-- It means no other letter on the label of the instrument. -/
  plain : isAccented a.id symbol = false
  /-- It does not stand at a slot before this one. -/
  first : symbol ∉ a.alphabet.take slot

/-- The slot of a symbol is the first place it has in the alphabet. -/
theorem Atomic.slot?_eq_some_iff {a : Atomic} {symbol : Char} {slot : Slot} :
    a.slot? symbol = some slot ↔
      a.alphabet[slot]? = some symbol ∧ symbol ∉ a.alphabet.take slot := by
  rw [slot?, List.findIdx?_eq_some_iff_getElem]
  constructor
  · rintro ⟨hlt, hsymbol, hbefore⟩
    refine ⟨?_, fun hmem => ?_⟩
    · rw [List.getElem?_eq_getElem hlt, eq_of_beq hsymbol]
    · obtain ⟨i, hi, heq⟩ := List.mem_take_iff_getElem.1 hmem
      exact hbefore i (Nat.lt_of_lt_of_le hi (Nat.min_le_left _ _)) (beq_iff_eq.2 heq)
  · rintro ⟨hsymbol, hbefore⟩
    obtain ⟨hlt, heq⟩ := List.getElem?_eq_some_iff.1 hsymbol
    refine ⟨hlt, beq_iff_eq.2 heq, fun i hi hfound => hbefore ?_⟩
    exact List.mem_take_iff_getElem.2 ⟨i, by omega, beq_iff_eq.1 hfound⟩

/-- A symbol of an alphabet has a first place there. -/
theorem Atomic.exists_slot?_le {a : Atomic} {symbol : Char} {slot : Slot}
    (h : a.alphabet[slot]? = some symbol) :
    ∃ first ≤ slot, a.slot? symbol = some first := by
  obtain ⟨hlt, heq⟩ := List.getElem?_eq_some_iff.1 h
  obtain ⟨first, hfirst⟩ : ∃ first, a.slot? symbol = some first := by
    rw [← Option.isSome_iff_exists, slot?, List.findIdx?_isSome, List.any_eq_true]
    exact ⟨symbol, List.mem_of_getElem? h, beq_self_eq_true _⟩
  obtain ⟨_, _, hnone⟩ := List.findIdx?_eq_some_iff_getElem.1 hfirst
  exact ⟨first, Nat.le_of_not_lt fun hbefore => hnone slot hbefore (beq_iff_eq.2 heq), hfirst⟩

/-- No accented symbol is a plain letter. -/
theorem baseLetter_ne_self {label : String} {symbol : Char} (h : isAccented label symbol = true) :
    baseLetter symbol ≠ symbol := by
  have hmem : symbol ∈ accentedSymbols := List.contains_iff_mem.1 (Bool.and_eq_true_iff.1 h).2
  have hletter := List.mem_map_of_mem (f := baseLetter) hmem
  have hapart : accentedSymbols.all fun c => !(accentedSymbols.map baseLetter).contains c := by
    rw [Sequencer.map_baseLetter_accentedSymbols]
    decide
  intro heq
  rw [heq] at hletter
  simpa [hletter] using List.all_eq_true.1 hapart symbol hmem

namespace Sequencer

/-! ### The calls of a symbol -/

section
variable {registry : Registry} {a : Atomic} {muted : List String} {symbol : Char} {slot : Slot}

/-- A symbol on the label of an atomic instrument strikes its first place there. -/
theorem resolve_atomic (ha : a ∈ registry.atomics) (symbol : Char) :
    registry.resolve a.id symbol = ((a.slot? symbol).map fun slot => (a.id, slot)).toList := by
  rw [Registry.resolve, Registry.members_atomic ha]
  cases h : a.slot? symbol <;> simp [h]

variable {τ : Type} [NatCast τ] [Add τ] [Div τ] (tempo time : τ)

/-- **The calls of a symbol on the label of an atomic instrument.** -/
theorem calls_perform_atomic (ha : a ∈ registry.atomics) (hmuted : a.id ∉ muted) (symbol : Char) :
    calls (perform registry muted tempo time ⟨a.id, symbol⟩) =
      let how := articulate a.id symbol
      let x := soundingTime tempo time how
      if how.symbol = muteSymbol then [.release a.id x]
      else ((a.slot? how.symbol).map fun slot =>
        [.release a.id x, .trigger a.id slot x]).getD [] := by
  have hknown : registry.contains a.id = true :=
    Registry.contains_iff_mem_ids.2 (Registry.id_mem_ids ha)
  have hheard : ¬muted.contains a.id = true := fun h => hmuted (List.contains_iff_mem.1 h)
  rw [perform, if_neg hheard, if_pos hknown, calls_map_call, strokes, releases,
    Registry.members_atomic ha, resolve_atomic ha]
  simp only [beq_iff_eq, List.map_cons, List.map_nil]
  split
  · rfl
  · cases a.slot? (articulate a.id symbol).symbol <;> rfl

/-- A slot is struck just if the articulated symbol is one that stands there first. -/
theorem exists_trigger_iff (ha : a ∈ registry.atomics) (hmuted : a.id ∉ muted) :
    (∃ x, .trigger a.id slot x ∈ calls (perform registry muted tempo time ⟨a.id, symbol⟩)) ↔
      (articulate a.id symbol).symbol ≠ muteSymbol ∧
        a.slot? (articulate a.id symbol).symbol = some slot := by
  rw [calls_perform_atomic tempo time ha hmuted]
  dsimp only
  split
  · next hmute => simp [hmute]
  · next hmute => cases a.slot? (articulate a.id symbol).symbol <;> simp [hmute, eq_comm]

/-- A symbol without an accent is played as it is. -/
theorem articulate_of_plain (h : isAccented a.id symbol = false) :
    articulate a.id symbol = ⟨symbol, false⟩ :=
  if_neg (by simp [h])

/-- An accented symbol is played as its base letter, and late. -/
theorem articulate_of_accented (h : isAccented a.id symbol = true) :
    articulate a.id symbol = ⟨baseLetter symbol, true⟩ :=
  if_pos h

/-- **A symbol strikes the slot that it stands at just if it is the slot's own.** -/
theorem exists_trigger_iff_isOwnSymbol (ha : a ∈ registry.atomics) (hmuted : a.id ∉ muted)
    (hslot : a.alphabet[slot]? = some symbol) :
    (∃ x, .trigger a.id slot x ∈ calls (perform registry muted tempo time ⟨a.id, symbol⟩)) ↔
      a.IsOwnSymbol slot symbol := by
  rw [exists_trigger_iff tempo time ha hmuted, Atomic.slot?_eq_some_iff]
  cases haccented : isAccented a.id symbol with
  | false =>
    rw [articulate_of_plain haccented]
    exact ⟨fun h => ⟨hslot, h.1, haccented, h.2.2⟩, fun h => ⟨h.stroke, h.place, h.first⟩⟩
  | true =>
    -- The plain letter would have to stand at the slot itself.
    rw [articulate_of_accented haccented]
    constructor
    · rintro ⟨-, hplace, -⟩
      exact absurd (Option.some.inj (hplace.symm.trans hslot)) (baseLetter_ne_self haccented)
    · intro h
      rw [h.plain] at haccented
      cases haccented

end

/-! ### Writing a symbol -/

/-- Whether a slot of an instrument can be had by writing a symbol for it: some source has a point with
the symbol on the label, and when that point is played in some run, the symbol strikes the slot. -/
def Reaches (registry : Registry) (label : String) (symbol : Char) (slot : Slot) : Prop :=
  ∃ (source : List Char) (steps : List (Bool × Request ℚ)) (p : Played ℚ),
    p.point ∈ (Timeline.ofScore (parse source)).points ∧
    .played p ∈ history steps (new (.ofScore (parse source)) registry) ∧
    ⟨label, symbol⟩ ∈ p.point.actions ∧
    ∃ x, .trigger label slot x ∈
      calls (perform registry p.muted p.tick.tempo p.tick.time ⟨label, symbol⟩)

/-- What is written in a source stands between the bars of a track, behind its label. -/
theorem written_of_mem_actions {source : List Char} {p : Point ℚ} {label : String} {symbol : Char}
    (hp : p ∈ (Timeline.ofScore (parse source)).points) (haction : ⟨label, symbol⟩ ∈ p.actions) :
    IsName label.toList ∧ symbol ∉ [' ', '|', '\n'] := by
  obtain ⟨k, hk⟩ := List.mem_iff_getElem?.1 hp
  obtain ⟨m, hm⟩ := List.mem_iff_getElem?.1 haction
  have hplace : (Timeline.ofScore (parse source) : Timeline ℚ).action? (k, m) =
      some ⟨label, symbol⟩ := by
    rw [Timeline.action?, Timeline.get?, hk]
    exact hm
  -- Every place of a timeline has a symbol of the score, and that was read from a track.
  obtain ⟨place, hwritten, -⟩ := Timeline.exists_written_of_action? hplace
  obtain ⟨s, hs, t, ht, ha⟩ := Score.written?_eq_some_iff.1 hwritten
  have htrack := ((wellFormed_parse source).sections s (List.mem_of_getElem? hs)).tracks t
    (List.mem_of_getElem? ht)
  rw [Track.action?] at ha
  split at ha
  · next c hc =>
    split at ha
    · cases ha
    · next hrest =>
      obtain ⟨rfl, rfl⟩ := Action.mk.inj (Option.some.inj ha)
      have hmem := List.mem_of_getElem? hc
      refine ⟨htrack.label, ?_⟩
      -- A rest is no action, and no track of a source has a bar or a line break between its bars.
      rintro (- | ⟨_, - | ⟨_, - | ⟨_, h⟩⟩⟩)
      · exact hrest rfl
      · exact htrack.steps.1 hmem
      · exact htrack.steps.2 hmem
      · cases h
  · cases ha

/-- A score of one symbol. -/
def solo (label : String) (symbol : Char) : Score :=
  ⟨"", "", [⟨0, "", 0, [⟨label, [symbol]⟩]⟩]⟩

section
variable {label : String} {symbol : Char}

/-- A score of one symbol is well formed if its label is a name and the symbol can be written. -/
theorem wellFormed_solo (hlabel : IsName label.toList) (hsymbol : symbol ∉ [' ', '|', '\n']) :
    (solo label symbol).WellFormed := by
  simp only [List.mem_cons, List.not_mem_nil, or_false, not_or] at hsymbol
  have hempty : Delimiter.quote.Encloses ("" : String).toList := by decide
  have hsteps : Delimiter.bar.Encloses [symbol] :=
    ⟨fun h => hsymbol.2.1 (List.mem_singleton.1 h).symm,
      fun h => hsymbol.2.2 (List.mem_singleton.1 h).symm⟩
  refine ⟨hempty, hempty, rfl, fun part hpart => ?_⟩
  obtain rfl := List.mem_singleton.1 hpart
  refine ⟨hempty, Nat.pow_pos (Nat.zero_lt_succ 1), fun track htrack => ?_⟩
  obtain rfl := List.mem_singleton.1 htrack
  exact ⟨hlabel, hsteps⟩

/-- The point of a score of one symbol. -/
def soloPoint (label : String) (symbol : Char) : Point ℚ :=
  ⟨0, 0, 0, ((0 : Nat) : ℚ), 120, [⟨label, symbol⟩]⟩

/-- A score of one symbol has one point. -/
theorem points_solo (hsymbol : symbol ≠ ' ') :
    (Timeline.ofScore (solo label symbol) : Timeline ℚ).points = [soloPoint label symbol] := by
  have haction : (⟨label, [symbol]⟩ : Track).action? 0 = some ⟨label, symbol⟩ :=
    if_neg (by simpa [restSymbol] using hsymbol)
  have hactions : (⟨0, "", 0, [⟨label, [symbol]⟩]⟩ : Section).actions 0 = [⟨label, symbol⟩] := by
    rw [Section.actions, List.filterMap_cons, haction, List.filterMap_nil]
  show [(⟨0, 0, 0, ((0 : Nat) : ℚ), 120, Section.actions _ 0⟩ : Point ℚ)] = _
  rw [hactions]
  rfl

/-- A score of one symbol is played by a start and a poll. -/
theorem played_solo (registry : Registry) (hsymbol : symbol ≠ ' ') :
    .played ⟨⟨0, 0, ((120 : Nat) : ℚ)⟩, soloPoint label symbol, []⟩ ∈
      history [(true, .play 0), (true, .poll 0)]
        (new (.ofScore (solo label symbol)) registry) := by
  have hpoints : (Timeline.ofScore (solo label symbol) : Timeline ℚ).points =
      [soloPoint label symbol] := points_solo hsymbol
  obtain ⟨hact, -⟩ := act_play_of_idle (s := new (.ofScore (solo label symbol)) registry) 0 rfl
  let s : Sequencer ℚ := started 0 (new (.ofScore (solo label symbol)) registry)
  -- A pass of one point, on its first tick.
  have hpass : s.passOver 0 s.ahead =
      [⟨⟨0, 0, ((120 : Nat) : ℚ)⟩, soloPoint label symbol, []⟩] := by
    have hahead : s.ahead = [soloPoint label symbol] := hpoints
    rw [hahead]
    rfl
  have hbound : ∀ p ∈ s.passOver 0 s.ahead, p.tick.time ≤ 0 := by
    rw [hpass]
    simp
  have hpolls := (history_polls [(true, 0)] (s := s) (ticking_started 0 _)
    ⟨(true, 0), List.mem_singleton_self _, le_refl _, hbound⟩).1
  rw [history, hact]
  refine List.mem_append_right _ ?_
  show _ ∈ history (pollRequests [(true, 0)]) s
  rw [hpolls, hpass]
  exact List.mem_cons_self

/-- **A slot is within reach of its own symbol**, if that can be written for its instrument. -/
theorem reaches_of_isOwnSymbol {registry : Registry} {a : Atomic} {slot : Slot}
    (ha : a ∈ registry.atomics) (hown : a.IsOwnSymbol slot symbol) (hlabel : IsName a.id.toList)
    (hsymbol : symbol ∉ [' ', '|', '\n']) : Reaches registry a.id symbol slot := by
  have hrest : symbol ≠ ' ' := fun h => hsymbol (h ▸ List.mem_cons_self)
  have hparse := (parse_print (wellFormed_solo hlabel hsymbol)).1
  refine ⟨print (solo a.id symbol), [(true, .play 0), (true, .poll 0)],
    ⟨⟨0, 0, ((120 : Nat) : ℚ)⟩, soloPoint a.id symbol, []⟩, ?_, ?_, List.mem_singleton_self _, ?_⟩
  · rw [hparse, points_solo hrest]
    exact List.mem_singleton_self _
  · rw [hparse]
    exact played_solo registry hrest
  · exact (exists_trigger_iff_isOwnSymbol _ _ ha List.not_mem_nil hown.place).2 hown

/-- A symbol that reaches a slot is the own one of the slot, and can be written. -/
theorem Reaches.isOwnSymbol {registry : Registry} {a : Atomic} {slot : Slot}
    (h : Reaches registry a.id symbol slot) (ha : a ∈ registry.atomics)
    (hslot : a.alphabet[slot]? = some symbol) :
    a.IsOwnSymbol slot symbol ∧ IsName a.id.toList ∧ symbol ∉ [' ', '|', '\n'] := by
  obtain ⟨source, steps, p, hpoint, -, haction, htrigger⟩ := h
  refine ⟨?_, written_of_mem_actions hpoint haction⟩
  have hmuted : a.id ∉ p.muted := by
    intro hmem
    have hskipped : p.muted.contains a.id = true := List.contains_iff_mem.2 hmem
    obtain ⟨x, hx⟩ := htrigger
    rw [perform, if_pos hskipped] at hx
    cases hx
  exact (exists_trigger_iff_isOwnSymbol _ _ ha hmuted hslot).1 htrigger

end

/-! ### Symbols and slots -/

/-- **A symbol plays the slot that it stands at just if it is the slot's own**: no mute symbol, no
accented symbol on a label that has accents, and at no slot before.  The stroke is made on the tick
then, and chokes the one before.  A mute symbol releases the instrument, and no more.  An accented
symbol is late by a thirty-second and plays the first place of its plain letter, if the alphabet has
it.  Any other symbol plays its first place.  A slot can be had by writing its symbol just if it is the
slot's own, and can be written for the label: that is a name, and the symbol is no rest, bar or line
break. -/
theorem own_symbol_iff_plays_slot {atomics : List Atomic} {composites : List Composite}
    {registry : Registry} (hregistry : Registry.ofTables atomics composites = .ok registry)
    {a : Atomic} (ha : a ∈ atomics) {slot : Slot} {symbol : Char}
    (hslot : a.alphabet[slot]? = some symbol) :
    (∀ (τ : Type) [NatCast τ] [Add τ] [Div τ] (muted : List String) (tempo time : τ),
      a.id ∉ muted →
        let done := calls (perform registry muted tempo time ⟨a.id, symbol⟩)
        let late := time + accentDelay.seconds tempo
        ((∃ x, .trigger a.id slot x ∈ done) ↔ symbol ≠ muteSymbol ∧
          isAccented a.id symbol = false ∧ symbol ∉ a.alphabet.take slot) ∧
        (a.IsOwnSymbol slot symbol → done = [.release a.id time, .trigger a.id slot time]) ∧
        (symbol = muteSymbol → done = [.release a.id time]) ∧
        (isAccented a.id symbol = true → done = match a.slot? (baseLetter symbol) with
          | some plain => [.release a.id late, .trigger a.id plain late]
          | none => []) ∧
        (symbol ≠ muteSymbol → isAccented a.id symbol = false → ∃ first ≤ slot,
          a.IsOwnSymbol first symbol ∧
            done = [.release a.id time, .trigger a.id first time])) ∧
    (Reaches registry a.id symbol slot ↔ a.IsOwnSymbol slot symbol ∧ IsName a.id.toList ∧
      symbol ∉ [' ', '|', '\n']) := by
  obtain ⟨rfl, -⟩ := Registry.tables_of_ofTables hregistry
  constructor
  · intro τ _ _ _ muted tempo time hmuted done late
    have hcalls := calls_perform_atomic tempo time ha hmuted symbol
    -- Without an accent, the stroke is made on the tick and at the first place of the symbol.
    have hplain : symbol ≠ muteSymbol → isAccented a.id symbol = false →
        ∀ first, a.slot? symbol = some first →
          done = [.release a.id time, .trigger a.id first time] := by
      intro hstroke haccented first hfirst
      rw [articulate_of_plain haccented] at hcalls
      simpa [hstroke, hfirst, soundingTime] using hcalls
    refine ⟨?_, fun hown => ?_, fun hmute => ?_, fun haccented => ?_, fun hstroke haccented => ?_⟩
    · rw [exists_trigger_iff_isOwnSymbol tempo time ha hmuted hslot]
      exact ⟨fun h => ⟨h.stroke, h.plain, h.first⟩, fun h => ⟨hslot, h.1, h.2.1, h.2.2⟩⟩
    · exact hplain hown.stroke hown.plain slot
        (Atomic.slot?_eq_some_iff.2 ⟨hown.place, hown.first⟩)
    -- The mute symbol is not one of the accented letters, whatever the label.
    · have haccented : isAccented a.id symbol = false := by
        rw [hmute, isAccented]
        simp [accentedSymbols, muteSymbol]
      rw [articulate_of_plain haccented] at hcalls
      exact hcalls.trans (if_pos hmute)
    · rw [articulate_of_accented haccented] at hcalls
      -- No accented letter has the mute symbol as its plain letter.
      have hletter := baseLetter_ne_muteSymbol haccented
      cases hfirst : a.slot? (baseLetter symbol) <;>
        simpa [hletter, hfirst, soundingTime] using hcalls
    · obtain ⟨first, hle, hfirst⟩ := Atomic.exists_slot?_le hslot
      obtain ⟨hplace, hbefore⟩ := Atomic.slot?_eq_some_iff.1 hfirst
      exact ⟨first, hle, ⟨hplace, hstroke, haccented, hbefore⟩,
        hplain hstroke haccented first hfirst⟩
  · constructor
    · exact fun h => h.isOwnSymbol ha hslot
    · rintro ⟨hown, hlabel, hsymbol⟩
      exact reaches_of_isOwnSymbol ha hown hlabel hsymbol

/-- An instrument whose alphabet meets each of the rules. -/
def clashing : Atomic :=
  ⟨"r1", ['E', 'É', '.', 'E'], ["plain.wav", "late.wav", "mute.wav", "again.wav"], 0⟩

/-- The rules of a registry do not keep such an instrument out. -/
theorem exists_clashing_registry :
    ∃ registry, Registry.ofTables [clashing] [] = .ok registry := by
  refine Registry.exists_ofTables_iff.2 ⟨by decide, ?_, ?_, ?_⟩
  · simp [clashing, Pitch.length_all]
  · simp [clashing]
  · simp

/-- Its first symbol plays its slot, and can be written for it. -/
theorem own_symbol_iff_plays_slot_clashing :
    ∃ registry, Registry.ofTables [clashing] [] = .ok registry ∧ clashing ∈ [clashing] ∧
      clashing.alphabet[0]? = some 'E' ∧ Reaches registry "r1" 'E' 0 ∧
      calls (perform registry [] (120 : ℚ) 0 ⟨"r1", 'E'⟩) =
        [.release "r1" 0, .trigger "r1" 0 0] := by
  obtain ⟨registry, hregistry⟩ := exists_clashing_registry
  have hmem : clashing ∈ [clashing] := List.mem_singleton_self _
  have hown : clashing.IsOwnSymbol 0 'E' := ⟨rfl, by decide, by decide, List.not_mem_nil⟩
  obtain ⟨hcalls, hreaches⟩ := own_symbol_iff_plays_slot hregistry hmem hown.place
  refine ⟨registry, hregistry, hmem, rfl, hreaches.2 ⟨hown, by decide, by decide⟩, ?_⟩
  exact (hcalls ℚ [] 120 0 List.not_mem_nil).2.1 hown

/-- **Its other symbols miss their slots**: an accented one, a mute symbol, and one that
stands at a slot before. -/
theorem clashing_symbols_miss_their_slots :
    ∃ registry, Registry.ofTables [clashing] [] = .ok registry ∧
      ∀ (slot : Nat) (symbol : Char), 0 < slot → clashing.alphabet[slot]? = some symbol →
        (∀ x, .trigger "r1" slot x ∉ calls (perform registry [] (120 : ℚ) 0 ⟨"r1", symbol⟩)) ∧
        ¬Reaches registry "r1" symbol slot := by
  obtain ⟨registry, hregistry⟩ := exists_clashing_registry
  obtain ⟨hatomics, -⟩ := Registry.tables_of_ofTables hregistry
  have hmem : clashing ∈ registry.atomics := by simp [hatomics]
  refine ⟨registry, hregistry, fun slot symbol hpos hslot => ?_⟩
  have hnot : ¬clashing.IsOwnSymbol slot symbol := by
    intro hown
    have hlt : slot < 4 := (List.getElem?_eq_some_iff.1 hslot).1
    obtain rfl | rfl | rfl : slot = 1 ∨ slot = 2 ∨ slot = 3 := by omega
    · obtain rfl : 'É' = symbol := Option.some.inj hslot
      exact absurd hown.plain (by decide)
    · obtain rfl : '.' = symbol := Option.some.inj hslot
      exact hown.stroke rfl
    · obtain rfl : 'E' = symbol := Option.some.inj hslot
      exact hown.first List.mem_cons_self
  exact ⟨fun x hx => hnot ((exists_trigger_iff_isOwnSymbol _ _ hmem List.not_mem_nil hslot).1 ⟨x, hx⟩),
    fun h => hnot (h.isOwnSymbol hmem hslot).1⟩

end Sequencer

end Gamelan

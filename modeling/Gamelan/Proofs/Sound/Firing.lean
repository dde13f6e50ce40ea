import Gamelan.Proofs.Sound.Log

namespace Gamelan

/-!
# What becomes of an event

Every trigger and release that a mixer takes for a voice it has is carried out exactly once, when its
frame comes, unless a cancellation takes it back before.  A late one is carried out at once.

* `Arrival`, `Arrives`, `Cancelled` — an event taken, and whether it was taken back.
* `Accounted` — every event is to come, carried out or taken back.
* `Accounted.apply`, `Accounted.renderFrame`, `Accounted.processAll` — a command, a frame and a whole
  run keep the account.
* `Accounted.onTime` — what becomes of events that are not late.
* `every_event_accounted` — the account of any run.
-/

variable {σ : Type}

/-! ### Events that arrive -/

/-- An event that a mixer took. -/
structure Arrival (σ : Type) where
  /-- The position of its command among all commands taken. -/
  number : Nat
  /-- The frames rendered when it was taken. -/
  drained : Nat
  event : Pending σ

/-- The frame at which an event is due: its own, or the one it was taken at if that is later. -/
def Arrival.due (a : Arrival σ) : Nat :=
  max a.event.frame a.drained

/-- Whether an event comes before another: by frame, and in order of arrival within a frame. -/
def Arrival.Before (a b : Arrival σ) : Prop :=
  a.event.frame < b.event.frame ∨ a.event.frame = b.event.frame ∧ a.number < b.number

/-- Whether an event is carried out before another: by the frame at which it is due, and in the order
of events within a frame. -/
def Arrival.FiresBefore (a b : Arrival σ) : Prop :=
  a.due < b.due ∨ a.due = b.due ∧ a.Before b

/-- Whether an event is among the commands taken, for one of so many voices. -/
def Arrives (drains : List (Drain σ)) (voices : Nat) (a : Arrival σ) : Prop :=
  ∃ c, drains[a.number]? = some ⟨a.drained, c⟩ ∧ c.event? = some a.event ∧ a.event.voice < voices

/-- Whether an event was taken back: a later command cancels its frame, and was taken while the event
was still to come. -/
def Cancelled (drains : List (Drain σ)) (a : Arrival σ) : Prop :=
  ∃ later frame after, drains[later]? = some ⟨frame, .cancel after⟩ ∧ a.number < later ∧
    after < a.event.frame ∧ frame ≤ a.due

/-- The command of an event that has arrived is among those taken. -/
theorem Arrives.number_lt {drains : List (Drain σ)} {voices : Nat} {a : Arrival σ}
    (h : Arrives drains voices a) : a.number < drains.length := by
  obtain ⟨c, hc, -⟩ := h
  exact (List.getElem?_eq_some_iff.mp hc).1

theorem Cancelled.number_lt {drains : List (Drain σ)} {a : Arrival σ} (h : Cancelled drains a) :
    a.number < drains.length := by
  obtain ⟨later, frame, after, hlater, hnumber, -⟩ := h
  exact Nat.lt_trans hnumber (List.getElem?_eq_some_iff.mp hlater).1

/-- An entry of a list with one more at its end is that one or an entry of the list. -/
theorem getElem?_concat_eq_some_iff {α : Type} {l : List α} {x y : α} {i : Nat} :
    (l ++ [x])[i]? = some y ↔ l[i]? = some y ∨ i = l.length ∧ x = y := by
  rcases Nat.lt_trichotomy i l.length with hlt | rfl | hgt
  · simp [List.getElem?_append_left hlt, Nat.ne_of_lt hlt]
  · simp
  · have hnone : (l ++ [x])[i]? = none := List.getElem?_eq_none (by simpa using Nat.succ_le_of_lt hgt)
    simp [hnone, List.getElem?_eq_none (Nat.le_of_lt hgt), Nat.ne_of_gt hgt]

/-- One more command brings the event it asks for. -/
theorem arrives_append {drains : List (Drain σ)} {voices : Nat} {a : Arrival σ} (d : Drain σ) :
    Arrives (drains ++ [d]) voices a ↔
      Arrives drains voices a ∨ a.number = drains.length ∧ a.drained = d.frame ∧
        d.command.event? = some a.event ∧ a.event.voice < voices := by
  constructor
  · rintro ⟨c, hc, hevent, hvoice⟩
    obtain hc | ⟨hnumber, rfl⟩ := getElem?_concat_eq_some_iff.mp hc
    · exact .inl ⟨c, hc, hevent, hvoice⟩
    · exact .inr ⟨hnumber, rfl, hevent, hvoice⟩
  · rintro (⟨c, hc, hevent, hvoice⟩ | ⟨hnumber, hdrained, hevent, hvoice⟩)
    · exact ⟨c, getElem?_concat_eq_some_iff.mpr (.inl hc), hevent, hvoice⟩
    · refine ⟨d.command, getElem?_concat_eq_some_iff.mpr (.inr ⟨hnumber, ?_⟩), hevent, hvoice⟩
      rw [hdrained]

/-- One more command takes back what it cancels, if that is still to come. -/
theorem cancelled_append {drains : List (Drain σ)} {a : Arrival σ} (d : Drain σ) :
    Cancelled (drains ++ [d]) a ↔
      Cancelled drains a ∨ a.number < drains.length ∧
        ∃ after, d.command = .cancel after ∧ after < a.event.frame ∧ d.frame ≤ a.due := by
  constructor
  · rintro ⟨later, frame, after, hlater, hnumber, hafter, hframe⟩
    obtain hlater | ⟨rfl, rfl⟩ := getElem?_concat_eq_some_iff.mp hlater
    · exact .inl ⟨later, frame, after, hlater, hnumber, hafter, hframe⟩
    · exact .inr ⟨hnumber, after, rfl, hafter, hframe⟩
  · rintro (⟨later, frame, after, hlater, hrest⟩ | ⟨hnumber, after, hcommand, hafter, hframe⟩)
    · exact ⟨later, frame, after, getElem?_concat_eq_some_iff.mpr (.inl hlater), hrest⟩
    · refine ⟨_, d.frame, after, getElem?_concat_eq_some_iff.mpr (.inr ⟨rfl, ?_⟩), hnumber, hafter,
        hframe⟩
      rw [← hcommand]

/-- A command that asks for no event of a voice that exists brings none. -/
theorem arrives_append_of_le {drains : List (Drain σ)} {voices : Nat} {a : Arrival σ} {d : Drain σ}
    (h : ∀ p, d.command.event? = some p → voices ≤ p.voice) :
    Arrives (drains ++ [d]) voices a ↔ Arrives drains voices a := by
  rw [arrives_append, or_iff_left]
  rintro ⟨-, -, hevent, hvoice⟩
  exact Nat.not_lt.mpr (h _ hevent) hvoice

/-- Only a cancellation takes anything back. -/
theorem cancelled_append_of_ne {drains : List (Drain σ)} {a : Arrival σ} {d : Drain σ}
    (h : ∀ after, d.command ≠ .cancel after) :
    Cancelled (drains ++ [d]) a ↔ Cancelled drains a := by
  rw [cancelled_append, or_iff_left]
  rintro ⟨-, after, hcommand, -⟩
  exact h after hcommand

/-! ### The account -/

/-- What has become of the events that a mixer took: some are to come and some were carried out, and
the others were taken back. -/
structure Accounted (voices : Nat) (drains : List (Drain σ)) (firings : List (Nat × Pending σ))
    (m : Mixer σ) (waiting fired : List (Arrival σ)) : Prop where
  length_voices : m.voices.length = voices
  frame_le : ∀ d ∈ drains, d.frame ≤ m.frame
  pending_eq : m.pending = waiting.map (·.event)
  waitsInOrder : waiting.Pairwise Arrival.Before
  mem_waiting : ∀ a, a ∈ waiting ↔ Arrives drains voices a ∧ ¬Cancelled drains a ∧ m.frame ≤ a.due
  firings_eq : firings = fired.map fun a => (a.due, a.event)
  firesInOrder : fired.Pairwise Arrival.FiresBefore
  mem_fired : ∀ a, a ∈ fired ↔ Arrives drains voices a ∧ ¬Cancelled drains a ∧ a.due < m.frame

namespace Accounted

variable {voices : Nat} {drains : List (Drain σ)} {firings : List (Nat × Pending σ)} {m : Mixer σ}
  {waiting fired : List (Arrival σ)}

/-- No event was taken at a frame to come. -/
theorem drained_le (h : Accounted voices drains firings m waiting fired) {a : Arrival σ}
    (ha : Arrives drains voices a) : a.drained ≤ m.frame := by
  obtain ⟨c, hc, -⟩ := ha
  exact h.frame_le _ (List.mem_of_getElem? hc)

/-- What is to come was asked for by a command that was taken. -/
theorem number_lt (h : Accounted voices drains firings m waiting fired) {a : Arrival σ}
    (ha : a ∈ waiting) : a.number < drains.length :=
  ((h.mem_waiting a).mp ha).1.number_lt

/-- What is to come is in the order of its frames. -/
theorem inOrder (h : Accounted voices drains firings m waiting fired) : InOrder m.pending := by
  rw [InOrder, h.pending_eq, List.pairwise_map]
  refine h.waitsInOrder.imp ?_
  rintro a b (hlt | ⟨heq, -⟩)
  · exact Nat.le_of_lt hlt
  · exact Nat.le_of_eq heq

/-- One more command is taken at the present frame, the others before. -/
theorem frame_le_append (h : Accounted voices drains firings m waiting fired) (c : Command σ) :
    ∀ d ∈ drains ++ [⟨m.frame, c⟩], d.frame ≤ m.frame :=
  List.forall_mem_append.mpr ⟨h.frame_le, by simp⟩

/-- A command that asks for no event and takes nothing back leaves the account as it is. -/
theorem skip (h : Accounted voices drains firings m waiting fired) {c : Command σ} {m' : Mixer σ}
    (hvoices : m'.voices.length = m.voices.length) (hpending : m'.pending = m.pending)
    (hframe : m'.frame = m.frame) (hevent : ∀ p, c.event? = some p → voices ≤ p.voice)
    (hcancel : ∀ after, c ≠ .cancel after) :
    Accounted voices (drains ++ [⟨m.frame, c⟩]) firings m' waiting fired := by
  have harrives : ∀ a, Arrives (drains ++ [⟨m.frame, c⟩]) voices a ↔ Arrives drains voices a :=
    fun a => arrives_append_of_le hevent
  have hcancelled : ∀ a, Cancelled (drains ++ [⟨m.frame, c⟩]) a ↔ Cancelled drains a :=
    fun a => cancelled_append_of_ne hcancel
  constructor
  · exact hvoices.trans h.length_voices
  · rw [hframe]
    exact h.frame_le_append c
  · rw [hpending, h.pending_eq]
  · exact h.waitsInOrder
  · intro a
    rw [harrives, hcancelled, hframe, h.mem_waiting]
  · exact h.firings_eq
  · exact h.firesInOrder
  · intro a
    rw [harrives, hcancelled, hframe, h.mem_fired]

/-- An event taken for a voice that exists is to come. -/
theorem arrive (h : Accounted voices drains firings m waiting fired) {c : Command σ} {p : Pending σ}
    (hevent : c.event? = some p) (hvoice : p.voice < voices) (hcancel : ∀ after, c ≠ .cancel after) :
    Accounted voices (drains ++ [⟨m.frame, c⟩]) firings (m.schedule p)
      (waiting.filter (·.event.frame ≤ p.frame) ++
        ⟨drains.length, m.frame, p⟩ :: waiting.filter (p.frame < ·.event.frame)) fired := by
  have harrives : ∀ a, Arrives (drains ++ [⟨m.frame, c⟩]) voices a ↔
      Arrives drains voices a ∨ a = ⟨drains.length, m.frame, p⟩ := by
    rintro ⟨number, drained, event⟩
    rw [arrives_append]
    refine or_congr_right ⟨?_, ?_⟩
    · rintro ⟨rfl, rfl, hc, -⟩
      rw [hevent] at hc
      cases hc
      rfl
    · rintro ⟨⟩
      exact ⟨rfl, rfl, hevent, hvoice⟩
  have hcancelled : ∀ a, Cancelled (drains ++ [⟨m.frame, c⟩]) a ↔ Cancelled drains a :=
    fun a => cancelled_append_of_ne hcancel
  have hnew : ¬Cancelled drains ⟨drains.length, m.frame, p⟩ :=
    fun hc => Nat.lt_irrefl _ hc.number_lt
  have hdue : m.frame ≤ (⟨drains.length, m.frame, p⟩ : Arrival σ).due := Nat.le_max_right _ _
  have hschedule : m.schedule p = { m with pending := Mixer.insertPending p m.pending } :=
    if_pos (by rwa [h.length_voices])
  constructor
  · rw [Mixer.voices_schedule, h.length_voices]
  · rw [Mixer.frame_schedule]
    exact h.frame_le_append c
  · rw [hschedule]
    show Mixer.insertPending p m.pending = _
    rw [Mixer.insertPending_eq h.inOrder, h.pending_eq, upTo, beyond, List.filter_map, List.filter_map,
      List.map_append, List.map_cons]
    rfl
  · refine List.pairwise_append.mpr ⟨h.waitsInOrder.filter _,
      List.pairwise_cons.mpr ⟨?_, h.waitsInOrder.filter _⟩, ?_⟩
    · intro b hb
      have hb := (List.mem_filter.mp hb).2
      exact .inl (by simpa using hb)
    · intro a ha b hb
      obtain ⟨ha, hle⟩ := List.mem_filter.mp ha
      have hle : a.event.frame ≤ p.frame := by simpa using hle
      obtain rfl | hb := List.mem_cons.mp hb
      · -- Within its frame, the new event is the last that has arrived.
        obtain hlt | heq := Nat.lt_or_eq_of_le hle
        · exact .inl hlt
        · exact .inr ⟨heq, h.number_lt ha⟩
      · have hb := (List.mem_filter.mp hb).2
        exact .inl (Nat.lt_of_le_of_lt hle (by simpa using hb))
  · intro a
    have hmem : a ∈ waiting.filter (·.event.frame ≤ p.frame) ++
        ⟨drains.length, m.frame, p⟩ :: waiting.filter (p.frame < ·.event.frame) ↔
          a ∈ waiting ∨ a = ⟨drains.length, m.frame, p⟩ := by
      obtain hlt | hle := Nat.lt_or_ge p.frame a.event.frame
      · simp [hlt, Nat.not_le.mpr hlt, or_comm]
      · simp [hle, Nat.not_lt.mpr hle]
    rw [hmem, harrives, hcancelled, Mixer.frame_schedule, h.mem_waiting]
    constructor
    · rintro (ha | rfl)
      · exact ⟨.inl ha.1, ha.2⟩
      · exact ⟨.inr rfl, hnew, hdue⟩
    · rintro ⟨ha | rfl, hrest⟩
      · exact .inl ⟨ha, hrest⟩
      · exact .inr rfl
  · exact h.firings_eq
  · exact h.firesInOrder
  · intro a
    rw [harrives, hcancelled, Mixer.frame_schedule, h.mem_fired]
    constructor
    · rintro ⟨ha, hrest⟩
      exact ⟨.inl ha, hrest⟩
    · rintro ⟨ha | rfl, hrest⟩
      · exact ⟨ha, hrest⟩
      · exact absurd hrest.2 (Nat.not_lt.mpr hdue)

/-- A cancellation takes back what is to come after its frame. -/
theorem cancel (h : Accounted voices drains firings m waiting fired) (after : Nat) :
    Accounted voices (drains ++ [⟨m.frame, .cancel after⟩]) firings
      { m with pending := m.pending.filter (·.frame ≤ after) }
      (waiting.filter (·.event.frame ≤ after)) fired := by
  have harrives : ∀ a, Arrives (drains ++ [⟨m.frame, .cancel after⟩]) voices a ↔
      Arrives drains voices a := by
    intro a
    refine arrives_append_of_le fun p hp => ?_
    cases hp
  have hcancelled : ∀ a, Arrives drains voices a →
      (Cancelled (drains ++ [⟨m.frame, .cancel after⟩]) a ↔
        Cancelled drains a ∨ after < a.event.frame ∧ m.frame ≤ a.due) := by
    intro a ha
    rw [cancelled_append]
    refine or_congr_right ⟨?_, ?_⟩
    · rintro ⟨-, _, ⟨⟩, hrest⟩
      exact hrest
    · exact fun hrest => ⟨ha.number_lt, after, rfl, hrest⟩
  constructor
  · exact h.length_voices
  · exact h.frame_le_append _
  · show m.pending.filter _ = _
    rw [h.pending_eq, List.filter_map]
    rfl
  · exact h.waitsInOrder.filter _
  · intro a
    rw [List.mem_filter, h.mem_waiting, decide_eq_true_eq, harrives]
    constructor
    · rintro ⟨⟨ha, hkept, hframe⟩, hafter⟩
      refine ⟨ha, ?_, hframe⟩
      rw [hcancelled a ha]
      rintro (hc | ⟨hlt, -⟩)
      · exact hkept hc
      · omega
    · rintro ⟨ha, hkept, hframe⟩
      rw [hcancelled a ha, not_or] at hkept
      refine ⟨⟨ha, hkept.1, hframe⟩, Nat.le_of_not_lt fun hlt => hkept.2 ⟨hlt, hframe⟩⟩
  · exact h.firings_eq
  · exact h.firesInOrder
  · intro a
    rw [harrives, h.mem_fired]
    refine and_congr_right fun ha => ?_
    rw [hcancelled a ha]
    constructor
    · rintro ⟨hkept, hlt⟩
      refine ⟨?_, hlt⟩
      rintro (hc | ⟨-, hle⟩)
      · exact hkept hc
      · -- What was carried out is no longer there to be taken back.
        exact Nat.not_lt.mpr hle hlt
    · rintro ⟨hkept, hlt⟩
      exact ⟨fun hc => hkept (.inl hc), hlt⟩

/-- What is due at a frame is what is to come up to it. -/
theorem due_eq (h : Accounted voices drains firings m waiting fired) :
    m.due = (waiting.filter (·.event.frame ≤ m.frame)).map (·.event) := by
  rw [Mixer.due, h.inOrder.takeWhile_eq, upTo, h.pending_eq, List.filter_map]
  rfl

/-- At a frame, the events of that frame or an earlier one are due, and the others are due later. -/
theorem due_eq_frame_iff (h : Accounted voices drains firings m waiting fired) {a : Arrival σ}
    (ha : a ∈ waiting) : a.due = m.frame ↔ a.event.frame ≤ m.frame := by
  obtain ⟨harrives, -, hframe⟩ := (h.mem_waiting a).mp ha
  have hdrained := h.drained_le harrives
  unfold Arrival.due at hframe ⊢
  omega

/-- What is carried out at a frame is what was due at it, behind all that was due before. -/
theorem fire (h : Accounted voices drains firings m waiting fired) {m' : Mixer σ}
    (hvoices : m'.voices.length = m.voices.length)
    (hpending : m'.pending = beyond m.frame m.pending) (hframe : m'.frame = m.frame + 1) :
    Accounted voices drains (firings ++ m.due.map (m.frame, ·)) m'
      (waiting.filter (m.frame < ·.event.frame))
      (fired ++ waiting.filter (·.event.frame ≤ m.frame)) := by
  -- What waits and is not after this frame is due right now, even if it came too late for its own.
  have hdue : ∀ a ∈ waiting.filter (·.event.frame ≤ m.frame), a.due = m.frame := by
    intro a ha
    obtain ⟨ha, hle⟩ := List.mem_filter.mp ha
    exact (h.due_eq_frame_iff ha).mpr (by simpa using hle)
  constructor
  · exact hvoices.trans h.length_voices
  · intro d hd
    rw [hframe]
    exact Nat.le_succ_of_le (h.frame_le d hd)
  · rw [hpending, h.pending_eq, beyond, List.filter_map]
    rfl
  · exact h.waitsInOrder.filter _
  · intro a
    rw [List.mem_filter, hframe, decide_eq_true_eq]
    constructor
    · rintro ⟨ha, hlt⟩
      obtain ⟨harrives, hkept, -⟩ := (h.mem_waiting a).mp ha
      exact ⟨harrives, hkept, Nat.le_trans hlt (Nat.le_max_left _ _)⟩
    · rintro ⟨harrives, hkept, hle⟩
      have ha := (h.mem_waiting a).mpr ⟨harrives, hkept, Nat.le_of_succ_le hle⟩
      refine ⟨ha, Nat.lt_of_not_le fun hframe => ?_⟩
      have := (h.due_eq_frame_iff ha).mpr hframe
      omega
  · rw [h.due_eq, h.firings_eq, List.map_append, List.map_map]
    congr 1
    refine List.map_congr_left fun a ha => ?_
    rw [hdue a ha]
    rfl
  · refine List.pairwise_append.mpr ⟨h.firesInOrder, ?_, ?_⟩
    -- Among themselves, they fire in the order in which they waited.
    · refine (h.waitsInOrder.filter _).imp_of_mem fun {a b} ha hb hbefore => ?_
      exact .inr ⟨(hdue a ha).trans (hdue b hb).symm, hbefore⟩
    -- All that fired before was due earlier.
    · intro a ha b hb
      left
      rw [hdue b hb]
      exact ((h.mem_fired a).mp ha).2.2
  · intro a
    rw [List.mem_append, List.mem_filter, hframe, decide_eq_true_eq]
    constructor
    · rintro (ha | ⟨ha, hle⟩)
      · obtain ⟨harrives, hkept, hlt⟩ := (h.mem_fired a).mp ha
        exact ⟨harrives, hkept, Nat.lt_succ_of_lt hlt⟩
      · obtain ⟨harrives, hkept, -⟩ := (h.mem_waiting a).mp ha
        refine ⟨harrives, hkept, ?_⟩
        rw [(h.due_eq_frame_iff ha).mpr hle]
        exact Nat.lt_succ_self _
    · rintro ⟨harrives, hkept, hlt⟩
      obtain hlt | heq := Nat.lt_succ_iff_lt_or_eq.mp hlt
      · exact .inl ((h.mem_fired a).mpr ⟨harrives, hkept, hlt⟩)
      · have ha := (h.mem_waiting a).mpr ⟨harrives, hkept, Nat.le_of_eq heq.symm⟩
        exact .inr ⟨ha, (h.due_eq_frame_iff ha).mp heq⟩

variable [Zero σ] [One σ] [LT σ] [DecidableLT σ]

/-- **One more command keeps the account.** -/
protected theorem apply (h : Accounted voices drains firings m waiting fired) (c : Command σ) :
    ∃ waiting', Accounted voices (drains ++ [⟨m.frame, c⟩]) firings (m.apply c) waiting' fired := by
  have hschedule : ∀ p, c.event? = some p → m.apply c = m.schedule p →
      (∀ after, c ≠ .cancel after) →
      ∃ waiting', Accounted voices (drains ++ [⟨m.frame, c⟩]) firings (m.apply c) waiting' fired := by
    intro p hevent happly hcancel
    rw [happly]
    by_cases hvoice : p.voice < voices
    · exact ⟨_, h.arrive hevent hvoice hcancel⟩
    · have hsame : m.schedule p = m := if_neg (by rwa [h.length_voices])
      refine ⟨waiting, h.skip (by rw [hsame]) (by rw [hsame]) (by rw [hsame]) ?_ hcancel⟩
      intro q hq
      rw [hevent] at hq
      cases hq
      exact Nat.le_of_not_lt hvoice
  cases c with
  | trigger voice frame sample => exact hschedule _ rfl rfl nofun
  | release voice frame => exact hschedule _ rfl rfl nofun
  | setGain voice gain => exact ⟨waiting, h.skip (List.length_modify ..) rfl rfl nofun nofun⟩
  | setVolume volume => exact ⟨waiting, h.skip rfl rfl rfl nofun nofun⟩
  | cancel after => exact ⟨_, h.cancel after⟩

/-- Some more commands keep the account. -/
theorem applyAll (h : Accounted voices drains firings m waiting fired) (cs : List (Command σ)) :
    ∃ waiting', Accounted voices (drains ++ cs.map (Drain.mk m.frame)) firings (m.applyAll cs)
      waiting' fired := by
  induction cs generalizing drains m waiting with
  | nil => exact ⟨waiting, by simpa using h⟩
  | cons c cs ih =>
    obtain ⟨_, hc⟩ := h.apply c
    obtain ⟨waiting', hcs⟩ := ih hc
    rw [Mixer.frame_apply, List.append_assoc] at hcs
    exact ⟨waiting', hcs⟩

variable [Add σ] [Mul σ] [Div σ] [Neg σ] [NatCast σ]

/-- **One more frame keeps the account.** -/
theorem renderFrame (h : Accounted voices drains firings m waiting fired) :
    ∃ waiting' fired', Accounted voices drains (firings ++ m.due.map (m.frame, ·)) m.renderFrame.2
      waiting' fired' := by
  refine ⟨_, _, h.fire ?_ ?_ rfl⟩
  · rw [Mixer.voices_renderFrame, List.length_map, Mixer.length_fireDue]
  · exact h.inOrder.dropWhile_eq m.frame

/-- Some more frames keep the account. -/
theorem renderFrames (h : Accounted voices drains firings m waiting fired) (count : Nat) :
    ∃ waiting' fired', Accounted voices drains (firings ++ m.frameFirings count)
      (m.renderFrames count).2 waiting' fired' := by
  induction count generalizing firings m waiting fired with
  | zero => exact ⟨waiting, fired, by simpa [Mixer.frameFirings, Mixer.renderFrames] using h⟩
  | succ count ih =>
    obtain ⟨_, _, hframe⟩ := h.renderFrame
    obtain ⟨waiting', fired', hframes⟩ := ih hframe
    rw [List.append_assoc] at hframes
    exact ⟨waiting', fired', hframes⟩

/-- **Some more calls keep the account.** -/
theorem processAll (h : Accounted voices drains firings m waiting fired)
    (blocks : List (Mixer.Block σ)) :
    ∃ waiting' fired', Accounted voices (drains ++ m.drains blocks) (firings ++ m.firings blocks)
      (m.processAll blocks).2 waiting' fired' := by
  induction blocks generalizing drains firings m waiting fired with
  | nil => exact ⟨waiting, fired, by simpa [Mixer.drains, Mixer.firings, Mixer.processAll] using h⟩
  | cons b rest ih =>
    obtain ⟨_, hcommands⟩ := h.applyAll b.commands
    obtain ⟨_, _, hframes⟩ := hcommands.renderFrames (m.frameCount b.length)
    rw [Mixer.frameCount, ← Mixer.process_snd] at hframes
    obtain ⟨waiting', fired', hrest⟩ := ih hframes
    rw [List.append_assoc, List.append_assoc] at hrest
    exact ⟨waiting', fired', hrest⟩

omit [Zero σ] [LT σ] [DecidableLT σ] [Add σ] [Mul σ] [Div σ] [Neg σ] [NatCast σ] in
/-- A new mixer has taken nothing. -/
theorem new (voices channels fadeFrames : Nat) (ceiling : σ) :
    Accounted voices [] [] (Mixer.new voices channels fadeFrames ceiling) [] [] where
  length_voices := List.length_replicate
  frame_le := by simp
  pending_eq := rfl
  waitsInOrder := .nil
  mem_waiting := by simp [Arrives]
  firings_eq := rfl
  firesInOrder := .nil
  mem_fired := by simp [Arrives]

end Accounted

/-! ### Events that are not late -/

/-- What is taken at its frame or before is due at its frame. -/
theorem Arrives.due_eq {drains : List (Drain σ)} {voices : Nat} {a : Arrival σ}
    (h : Arrives drains voices a)
    (hdrains : ∀ d ∈ drains, ∀ p, d.command.event? = some p → d.frame ≤ p.frame) :
    a.due = a.event.frame := by
  obtain ⟨c, hc, hevent, -⟩ := h
  have hle : a.drained ≤ a.event.frame := hdrains _ (List.mem_of_getElem? hc) _ hevent
  exact Nat.max_eq_left hle

/-- **A mixer that takes nothing late** carries everything out at its own frame. -/
theorem Accounted.onTime {voices : Nat} {drains : List (Drain σ)} {firings : List (Nat × Pending σ)}
    {m : Mixer σ} {waiting fired : List (Arrival σ)}
    (h : Accounted voices drains firings m waiting fired)
    (hdrains : ∀ d ∈ drains, ∀ p, d.command.event? = some p → d.frame ≤ p.frame) :
    firings = fired.map (fun a => (a.event.frame, a.event)) ∧ fired.Pairwise Arrival.Before ∧
      ∀ a, a ∈ fired ↔ Arrives drains voices a ∧ ¬Cancelled drains a ∧ a.event.frame < m.frame := by
  have hfired : ∀ a ∈ fired, a.due = a.event.frame :=
    fun a ha => ((h.mem_fired a).mp ha).1.due_eq hdrains
  refine ⟨?_, ?_, fun a => ?_⟩
  · refine h.firings_eq.trans (List.map_congr_left fun a ha => ?_)
    rw [hfired a ha]
  · refine h.firesInOrder.imp_of_mem fun {a b} ha hb hbefore => ?_
    rw [Arrival.FiresBefore, hfired a ha, hfired b hb] at hbefore
    exact hbefore.elim .inl (·.2)
  · rw [h.mem_fired]
    refine and_congr_right fun ha => ?_
    rw [ha.due_eq hdrains]

/-! ### Voices that do not exist -/

/-- Whether a command asks for an event on a voice that is not one of so many. -/
def Command.missesVoice (voices : Nat) (c : Command σ) : Bool :=
  match c.event? with
  | some p => voices ≤ p.voice
  | none => false

namespace Mixer

/-- The commands of a call that do not miss their voice. -/
def Block.onVoices (voices : Nat) (b : Block σ) : Block σ :=
  { b with commands := b.commands.filter fun c => !c.missesVoice voices }

section
variable [Zero σ] [One σ] [LT σ] [DecidableLT σ]

/-- A command that misses its voice does nothing. -/
theorem apply_of_missesVoice {m : Mixer σ} {c : Command σ} (h : c.missesVoice m.voices.length) :
    m.apply c = m := by
  cases c with
  | trigger voice frame sample => exact if_neg (Nat.not_lt.mpr (of_decide_eq_true h))
  | release voice frame => exact if_neg (Nat.not_lt.mpr (of_decide_eq_true h))
  | _ => cases h

/-- So such commands can be left out. -/
theorem applyAll_onVoices (m : Mixer σ) (cs : List (Command σ)) :
    m.applyAll (cs.filter fun c => !c.missesVoice m.voices.length) = m.applyAll cs := by
  induction cs generalizing m with
  | nil => rfl
  | cons c cs ih =>
    have hrest := ih (m.apply c)
    rw [length_voices_apply] at hrest
    cases hc : c.missesVoice m.voices.length with
    | true =>
      rw [apply_of_missesVoice hc] at hrest
      rw [List.filter_cons_of_neg (by simp [hc]), applyAll_cons, apply_of_missesVoice hc, hrest]
    | false => rw [List.filter_cons_of_pos (by simp [hc]), applyAll_cons, hrest, applyAll_cons]

variable [Add σ] [Mul σ] [Div σ] [Neg σ] [NatCast σ]

/-- A call brings no voice and takes none. -/
@[simp] theorem length_voices_process (m : Mixer σ) (cs : List (Command σ)) (length : Nat) :
    (m.process cs length).2.voices.length = m.voices.length := by
  rw [process_snd, length_voices_renderFrames, length_voices_applyAll]

theorem process_congr {m : Mixer σ} {cs cs' : List (Command σ)}
    (h : m.applyAll cs = m.applyAll cs') (length : Nat) : m.process cs length = m.process cs' length := by
  rw [applyAll, applyAll] at h
  rw [process, process, h]

/-- **Commands that miss their voices** can be left out of all calls. -/
theorem processAll_onVoices (m : Mixer σ) (blocks : List (Block σ)) :
    m.processAll (blocks.map (Block.onVoices m.voices.length)) = m.processAll blocks := by
  induction blocks generalizing m with
  | nil => rfl
  | cons b rest ih =>
    have hrest := ih (m.process b.commands b.length).2
    rw [length_voices_process] at hrest
    have hblock : m.process (b.onVoices m.voices.length).commands (b.onVoices m.voices.length).length =
        m.process b.commands b.length := process_congr (applyAll_onVoices m b.commands) _
    rw [List.map_cons, processAll, processAll, hblock]
    simp only
    rw [hrest]

end

end Mixer

/-! ### Every event -/

variable [Zero σ] [One σ] [LT σ] [DecidableLT σ] [Add σ] [Mul σ] [Div σ] [Neg σ] [NatCast σ]

/-- **Every event is carried out once or taken back.**  Whatever commands a mixer is called with, and
however long its buffers are:

* the events to come stand in the order of their frames, within a frame in the order of their arrival,
  and every one has its voice; they are the events taken for a voice that exists, not taken back, whose
  frame has not been rendered;
* the events carried out, in this order, are those taken for a voice that exists, not taken back, whose
  frame has been rendered; each was carried out once, at its own frame, or at the frame at which it was
  taken if that was later, and within a frame by their own frames, then in the order of their arrival;
* to be carried out at a frame is to start or release the voice there: every voice is a new one to
  which, frame by frame, these events have happened, and the gains set by the commands taken;
* a command for a voice that does not exist makes no difference. -/
theorem every_event_accounted (voices channels fadeFrames : Nat) (ceiling : σ)
    (blocks : List (Mixer.Block σ)) :
    let m := Mixer.new voices channels fadeFrames ceiling
    let final := (m.processAll blocks).2
    (∃ waiting : List (Arrival σ), final.pending = waiting.map (·.event) ∧
      waiting.Pairwise Arrival.Before ∧ (∀ p ∈ final.pending, p.voice < final.voices.length) ∧
      ∀ a, a ∈ waiting ↔ Arrives (m.drains blocks) voices a ∧ ¬Cancelled (m.drains blocks) a ∧
        final.frame ≤ a.due) ∧
    (∃ fired : List (Arrival σ), m.firings blocks = fired.map (fun a => (a.due, a.event)) ∧
      fired.Pairwise Arrival.FiresBefore ∧
      ∀ a, a ∈ fired ↔ Arrives (m.drains blocks) voices a ∧ ¬Cancelled (m.drains blocks) a ∧
        a.due < final.frame) ∧
    (∀ voice < voices, final.voices[voice]? = some (Voice.after final.fadeFrames
      (Mixer.loggedSteps voice (m.drains blocks) (m.firings blocks) final.frame))) ∧
    m.processAll (blocks.map (Mixer.Block.onVoices voices)) = m.processAll blocks := by
  intro m final
  -- A new mixer has nothing to account for, and every call keeps the account.
  obtain ⟨waiting, fired, h⟩ := (Accounted.new voices channels fadeFrames ceiling).processAll blocks
  rw [List.nil_append, List.nil_append] at h
  have hvoices : m.voices.length = voices := List.length_replicate
  refine ⟨⟨waiting, h.pending_eq, h.waitsInOrder, ?_, h.mem_waiting⟩,
    ⟨fired, h.firings_eq, h.firesInOrder, h.mem_fired⟩,
    fun voice hvoice => Mixer.voice_eq_logged voices channels fadeFrames ceiling blocks hvoice, ?_⟩
  · intro p hp
    rw [h.pending_eq] at hp
    obtain ⟨a, ha, rfl⟩ := List.mem_map.mp hp
    obtain ⟨⟨c, -, -, hvoice⟩, -⟩ := (h.mem_waiting a).mp ha
    rwa [h.length_voices]
  · rw [← hvoices]
    exact Mixer.processAll_onVoices m blocks

end Gamelan

import Gamelan.Proofs.Performance.Course
import Gamelan.Proofs.Performance.Priming

namespace Gamelan.Sequencer

/-!
# What holds of every state

A sequencer may be asked for anything, in any order, and its voices may answer as they like.  This
file collects what holds of every state all the same.

* `InPlace`, `InRow` — the cursor and what is remembered are within the timeline, and in a row.
* `InMode` — a tick is scheduled just while playing, and a start waits just while priming.
* `InTempo` — the tempos are those of the timelines that the sequencer has had.
* `OnCourse.map_index_sent`, `OnCourse.tempo_of_sent`, `OnCourse.tick_of_sent` — what a playback
  remembers, and when its next tick is.
* `state_of_run` — all of it together, for pieces laid out from scores.
-/

section
variable {τ : Type}

/-! ### The place in the timeline -/

/-- A cursor on a point, or at the start of an empty timeline; and so for what is remembered. -/
structure InPlace (s : Sequencer τ) : Prop where
  cursor_lt : s.cursor < s.timeline.length ∨ s.timeline.length = 0 ∧ s.cursor = 0
  sent_lt : ∀ tick ∈ s.sent, tick.index < s.timeline.length

/-- The start of a timeline is a place for the cursor. -/
theorem inPlace_zero {s : Sequencer τ} (hcursor : s.cursor = 0)
    (hsent : ∀ tick ∈ s.sent, tick.index < s.timeline.length) : InPlace s where
  cursor_lt := by omega
  sent_lt := hsent

/-- With nothing remembered, only the cursor has to be in place. -/
theorem inPlace_of_sent_nil {s : Sequencer τ} (hsent : s.sent = [])
    (hcursor : s.cursor < s.timeline.length ∨ s.timeline.length = 0 ∧ s.cursor = 0) :
    InPlace s where
  cursor_lt := hcursor
  sent_lt tick htick := by
    rw [hsent] at htick
    cases htick

/-- A point that is played is remembered, and it is one of the timeline. -/
theorem InPlace.sent_play [NatCast τ] [Add τ] [Div τ] {s : Sequencer τ} (h : InPlace s) {time : τ}
    {point : Point τ} (hpoint : s.current? = some point) :
    ∀ tick ∈ s.sent ++ [(s.playedAt time point).tick], tick.index < s.timeline.length := by
  intro tick htick
  rcases List.mem_append.1 htick with htick | htick
  · exact h.sent_lt tick htick
  · obtain rfl := List.mem_singleton.1 htick
    exact (List.getElem?_eq_some_iff.1 hpoint).1

/-- Taking points back keeps everything in place, since the points were remembered. -/
theorem InPlace.rewindUnplayed [LT τ] [DecidableLT τ] {s : Sequencer τ} (h : InPlace s) (now : τ) :
    InPlace (s.rewindUnplayed now).1 := by
  unfold Sequencer.rewindUnplayed
  split
  · next first hfirst =>
    exact inPlace_of_sent_nil rfl (.inl (h.sent_lt first (List.mem_of_find?_eq_some hfirst)))
  · exact inPlace_of_sent_nil rfl h.cursor_lt

/-- A point that is looked up is one of the timeline. -/
theorem lt_of_position? {timeline : Timeline τ} {sectionId step index : Nat}
    (h : timeline.position? sectionId step = some index) : index < timeline.length := by
  unfold Timeline.position? at h
  split at h
  · cases h
  · dsimp only at h
    split at h
    · next p hp =>
      split at h
      · obtain rfl := Option.some.inj h
        exact (List.getElem?_eq_some_iff.1 hp).1
      · cases h
    · cases h

/-- In place, and in a playback all that is remembered comes before the cursor, in ascending
order. -/
structure InRow (s : Sequencer τ) : Prop extends InPlace s where
  ascending : s.playback = .playing → (s.sent.map (·.index) ++ [s.cursor]).Pairwise (· < ·)

/-- At rest, nothing needs to be in order. -/
theorem inRow_of_rest {s : Sequencer τ} (h : InPlace s) (hrest : s.playback ≠ .playing) :
    InRow s where
  toInPlace := h
  ascending hplaying := absurd hplaying hrest

/-- With nothing remembered, there is nothing to put in order. -/
theorem inRow_of_sent_nil {s : Sequencer τ} (hsent : s.sent = [])
    (hcursor : s.cursor < s.timeline.length ∨ s.timeline.length = 0 ∧ s.cursor = 0) : InRow s where
  toInPlace := inPlace_of_sent_nil hsent hcursor
  ascending _ := by
    rw [hsent]
    exact List.pairwise_singleton _ _

namespace InRow

variable {s : Sequencer τ}

/-- Voices that get ready keep the order: a start forgets all points. -/
theorem finishPriming (h : InRow s) (ready : Bool) (now : τ) :
    InRow (s.finishPriming ready now).1 := by
  cases ready with
  | false => exact h
  | true =>
    unfold Sequencer.finishPriming
    simp only [if_true, andThen_fst, setPlayback]
    split
    · exact inRow_of_sent_nil rfl h.cursor_lt
    · exact inRow_of_rest ⟨h.cursor_lt, h.sent_lt⟩ (by simp)

theorem play (h : InRow s) (ready : Bool) (now : τ) : InRow (s.play ready now).1 := by
  unfold Sequencer.play
  split
  · have hpriming : InRow { s with playback := .priming, startPending := true } :=
      inRow_of_rest ⟨h.cursor_lt, h.sent_lt⟩ (by simp)
    exact hpriming.finishPriming ready now
  · next hwaiting => exact inRow_of_rest ⟨h.cursor_lt, h.sent_lt⟩ (by rw [hwaiting]; decide)
  · exact inRow_of_sent_nil rfl h.cursor_lt
  · exact h

/-- A stop leads to rest, where nothing needs to be in order. -/
theorem stop [LT τ] [DecidableLT τ] (h : InRow s) (now : τ) : InRow (s.stop now).1 := by
  cases hplayback : s.playback with
  | playing =>
    rw [stop_fst now hplayback]
    refine inRow_of_rest (InPlace.rewindUnplayed (s := s.halted) ⟨h.cursor_lt, h.sent_lt⟩ now) ?_
    simp [halted]
  | priming =>
    simp only [Sequencer.stop, hplayback]
    exact inRow_of_rest ⟨h.cursor_lt, h.sent_lt⟩ (by simp)
  | _ =>
    simp only [Sequencer.stop, hplayback]
    exact h

/-- A seek forgets all points, and its cursor is in place. -/
theorem seek (h : InRow s) (sectionId step : Nat) :
    InRow ((s.seek? sectionId step).getD s) := by
  unfold seek?
  cases hindex : s.timeline.position? sectionId step with
  | none => exact h
  | some index => exact inRow_of_sent_nil rfl (.inl (lt_of_position? hindex))

theorem setTimeline (h : InRow s) (timeline : Timeline τ) : InRow (s.setTimeline timeline) := by
  -- A cursor behind the end of the new timeline goes back to its start.
  refine inRow_of_sent_nil rfl ?_
  have hcursor := h.cursor_lt
  show (if timeline.length ≤ s.cursor then 0 else s.cursor) < timeline.length ∨
    timeline.length = 0 ∧ (if timeline.length ≤ s.cursor then 0 else s.cursor) = 0
  split <;> omega

section
variable [NatCast τ] [Add τ] [Div τ] [BEq τ]

/-- The point that is played is the last one before the cursor. -/
theorem completeTick (h : InRow s) (time : τ) : InRow (s.completeTick time).1 := by
  cases hpoint : s.current? with
  | none =>
    rw [completeTick_of_none time hpoint]
    exact inRow_of_rest (inPlace_zero rfl h.sent_lt) (by simp [halted])
  | some point =>
    by_cases hlt : s.cursor + 1 < s.timeline.length
    · obtain ⟨transport, hstate⟩ := exists_completeTick_of_lt time hpoint hlt
      rw [hstate]
      refine ⟨⟨.inl hlt, h.sent_play hpoint⟩, fun hplaying => ?_⟩
      have hbefore := h.ascending hplaying
      have hcursor := (List.pairwise_append.1 hbefore).2.2
      simp only [List.map_append, List.map_cons, List.map_nil]
      refine List.pairwise_append.2 ⟨hbefore, List.pairwise_singleton _ _, ?_⟩
      simp only [List.mem_append, List.mem_singleton] at hcursor ⊢
      rintro i (hi | rfl) _ rfl
      · exact Nat.lt_succ_of_lt (hcursor i hi _ rfl)
      · exact Nat.lt_succ_self _
    · obtain ⟨transport, hstate⟩ := exists_completeTick_of_not_lt time hpoint hlt
      rw [hstate]
      exact inRow_of_rest (inPlace_zero rfl (h.sent_play hpoint)) (by simp)

variable [LE τ] [DecidableLE τ]

theorem runDue (h : InRow s) (horizon : τ) : InRow (s.runDue horizon).1 := by
  fun_induction Sequencer.runDue horizon s with
  | case1 s hplaying hdue => exact h
  | case2 s hplaying time hdue ticked rest ih => exact ih (h.completeTick time)
  | case3 s hplaying => exact h

variable [LT τ] [DecidableLT τ]

/-- **Every request keeps the order.** -/
theorem act (h : InRow s) (ready : Bool) (request : Request τ) : InRow (s.act ready request).1 := by
  cases request with
  | play now => exact h.play ready now
  | stop now => exact h.stop now
  | toggle now =>
    simp only [Sequencer.act, toggle]
    split
    · exact h.stop now
    · exact h.play ready now
  | poll horizon =>
    simp only [Sequencer.act, poll, andThen_fst]
    split
    · exact (h.finishPriming ready horizon).runDue horizon
    · exact h.runDue horizon
  | toggleMute label => exact ⟨⟨h.cursor_lt, h.sent_lt⟩, h.ascending⟩
  | seek sectionId step => exact h.seek sectionId step
  | setTimeline timeline => exact h.setTimeline timeline

theorem run (h : InRow s) (steps : List (Bool × Request τ)) : InRow (run steps s).1 := by
  induction steps generalizing s with
  | nil => exact h
  | cons q rest ih => exact ih (h.act q.1 q.2)

end

end InRow

/-- **The cursor and what is remembered are in a row**, whatever a sequencer was asked for. -/
theorem inRow_run [NatCast τ] [Add τ] [Div τ] [BEq τ] [LE τ] [DecidableLE τ] [LT τ] [DecidableLT τ]
    (timeline : Timeline τ) (registry : Registry) (steps : List (Bool × Request τ)) :
    InRow (run steps (new timeline registry)).1 :=
  (inRow_of_rest (inPlace_zero rfl fun _ h => absurd h List.not_mem_nil) (by simp [new])).run steps

/-! ### The mode of playing -/

/-- A tick is scheduled just while playing, and then the transport runs; a start waits just while
priming. -/
structure InMode (s : Sequencer τ) : Prop where
  playing_iff : s.playback = .playing ↔ s.transport.isScheduled = true
  started : s.playback = .playing → s.transport.started = true
  pending : s.startPending = true → s.playback = .priming

/-- A sequencer at rest has no tick, and no start waits. -/
theorem inMode_of_rest {s : Sequencer τ} (hplayback : s.playback ≠ .playing)
    (htick : s.transport.tick? = none) (hpending : s.startPending = true → s.playback = .priming) :
    InMode s where
  playing_iff := by simp [hplayback, Transport.isScheduled, htick]
  started h := absurd h hplayback
  pending := hpending

/-- Without a tick there is no playback. -/
theorem InMode.tick?_eq_none {s : Sequencer τ} (h : InMode s) (hplayback : s.playback ≠ .playing) :
    s.transport.tick? = none := by
  have hnot : ¬s.transport.isScheduled = true := fun hscheduled =>
    hplayback (h.playing_iff.2 hscheduled)
  simpa [Transport.isScheduled] using hnot

/-- A start waits for nothing but the voices. -/
theorem InMode.not_pending {s : Sequencer τ} (h : InMode s) (hplayback : s.playback ≠ .priming) :
    s.startPending = false := by
  cases hpending : s.startPending with
  | false => rfl
  | true => exact absurd (h.pending hpending) hplayback

/-- A start schedules its first tick. -/
theorem inMode_started {s : Sequencer τ} (hpending : s.startPending = false) (now : τ) :
    InMode (s.started now) where
  playing_iff := iff_of_true rfl rfl
  started _ := rfl
  pending h := by
    rw [show (s.started now).startPending = s.startPending from rfl, hpending] at h
    cases h

/-- Taking points back leaves a start that waits. -/
@[simp] theorem startPending_rewindUnplayed [LT τ] [DecidableLT τ] (now : τ) (s : Sequencer τ) :
    (s.rewindUnplayed now).1.startPending = s.startPending := by
  unfold rewindUnplayed
  split <;> rfl

/-- Taking points back schedules no tick. -/
@[simp] theorem tick?_rewindUnplayed [LT τ] [DecidableLT τ] (now : τ) (s : Sequencer τ) :
    (s.rewindUnplayed now).1.transport.tick? = s.transport.tick? := by
  unfold rewindUnplayed
  split <;> rfl

end

section
variable {τ : Type} [NatCast τ] [Add τ] [Div τ] [LE τ] [DecidableLE τ] [LT τ] [DecidableLT τ]

/-- Whatever a sequencer does, a tick is scheduled just while it plays. -/
theorem InMode.move {request : Request τ} {s s' : Sequencer τ} {K : List (Event τ)}
    (h : InMode s) (hmove : Move request s K s') : InMode s' := by
  cases hmove with
  | prime hidle =>
    exact inMode_of_rest (by simp) (h.tick?_eq_none (by simp [hidle])) fun _ => rfl
  | pend pending hpriming =>
    exact inMode_of_rest (by simp [hpriming]) (h.tick?_eq_none (by simp [hpriming]))
      fun _ => hpriming
  | level hpriming hpending =>
    exact inMode_of_rest (by simp) (h.tick?_eq_none (by simp [hpriming])) (by simp [hpending])
  | levelAndStart now hpriming hpending => exact inMode_started rfl now
  | start now hready hnow => exact inMode_started (h.not_pending (by simp [hready])) now
  | play hrequest hplaying hdue hpoint hlt =>
    -- A tick leaves the next one scheduled behind it.
    have hscheduled := h.playing_iff.1 hplaying
    refine ⟨iff_of_true hplaying ?_, fun _ => h.started hplaying, h.pending⟩
    simpa [Transport.completeTick, Transport.setTempo, Transport.isScheduled] using hscheduled
  | playLast hrequest hplaying hdue hpoint hlt =>
    exact inMode_of_rest (by simp) rfl (by simp [h.not_pending, hplaying])
  | runOut hrequest hplaying hdue hpoint =>
    exact inMode_of_rest (by simp [halted]) rfl (by simp [halted, h.not_pending, hplaying])
  | stop now hplaying hnow =>
    refine inMode_of_rest (by simp [halted]) ?_ ?_
    · rw [tick?_rewindUnplayed]
      rfl
    · simp [halted, h.not_pending, hplaying]
  | toggleMute label hrequest => exact ⟨h.playing_iff, h.started, h.pending⟩
  | seek hrequest hindex => exact ⟨h.playing_iff, h.started, h.pending⟩
  | setTimeline timeline hrequest => exact ⟨h.playing_iff, h.started, h.pending⟩

end

/-! ### The tempo -/

section
variable {τ : Type}

/-- The timeline that a request puts in. -/
def installed? : Request τ → Option (Timeline τ)
  | .setTimeline timeline => some timeline
  | _ => none

/-- The timelines that a sequencer has had after some requests. -/
def installed (timeline : Timeline τ) (steps : List (Bool × Request τ)) : List (Timeline τ) :=
  timeline :: steps.filterMap fun q => installed? q.2

/-- Only a request for a new timeline puts one in place. -/
theorem eq_of_installed? {request : Request τ} {timeline : Timeline τ}
    (h : installed? request = some timeline) : request = .setTimeline timeline := by
  cases request <;> simp_all [installed?]

variable [NatCast τ]

/-- The tempos that some timelines give a transport: the default one, and those of their points. -/
def KnownTempo (timelines : List (Timeline τ)) (tempo : τ) : Prop :=
  tempo = ((defaultTempo : Nat) : τ) ∨
    ∃ timeline ∈ timelines, ∃ p ∈ timeline.points, tempo = ((p.tempo : Nat) : τ)

/-- The present timeline is one of some timelines, and they give the tempo of the transport and
those that are remembered. -/
structure InTempo (timelines : List (Timeline τ)) (s : Sequencer τ) : Prop where
  timeline_mem : s.timeline ∈ timelines
  tempo : KnownTempo timelines s.transport.tempo
  sent : ∀ tick ∈ s.sent, KnownTempo timelines tick.tempo

variable {timelines : List (Timeline τ)} {s : Sequencer τ}

/-- With nothing remembered, only the transport needs a tempo of some timeline. -/
theorem inTempo_of_sent_nil (hmem : s.timeline ∈ timelines)
    (htempo : KnownTempo timelines s.transport.tempo) (hsent : s.sent = []) :
    InTempo timelines s where
  timeline_mem := hmem
  tempo := htempo
  sent tick htick := by
    rw [hsent] at htick
    cases htick

/-- A point sets its own tempo when it is played. -/
theorem InTempo.tempo_of_current? (h : InTempo timelines s) {point : Point τ}
    (hpoint : s.current? = some point) : KnownTempo timelines ((point.tempo : Nat) : τ) :=
  .inr ⟨s.timeline, h.timeline_mem, point, List.mem_of_getElem? hpoint, rfl⟩

/-- The tempo before a point is remembered when it is played. -/
theorem InTempo.sent_play (h : InTempo timelines s) (time : τ) (point : Point τ) :
    ∀ tick ∈ s.sent ++ [(s.playedAt time point).tick], KnownTempo timelines tick.tempo := by
  intro tick htick
  rcases List.mem_append.1 htick with htick | htick
  · exact h.sent tick htick
  · obtain rfl := List.mem_singleton.1 htick
    exact h.tempo

/-- Taking points back sets a tempo that was remembered. -/
theorem InTempo.rewindUnplayed [LT τ] [DecidableLT τ] (h : InTempo timelines s) (now : τ) :
    InTempo timelines (s.rewindUnplayed now).1 := by
  unfold Sequencer.rewindUnplayed
  split
  · next first hfirst =>
    exact inTempo_of_sent_nil h.timeline_mem (h.sent first (List.mem_of_find?_eq_some hfirst)) rfl
  · exact inTempo_of_sent_nil h.timeline_mem h.tempo rfl

/-- Whatever a sequencer does, its tempos are those of its timelines, or the one at the start. -/
theorem InTempo.move [Add τ] [Div τ] [LE τ] [DecidableLE τ] [LT τ] [DecidableLT τ]
    {request : Request τ} {s' : Sequencer τ} {K : List (Event τ)} (h : InTempo timelines s)
    (hmove : Move request s K s')
    (hinstalled : ∀ timeline, installed? request = some timeline → timeline ∈ timelines) :
    InTempo timelines s' := by
  cases hmove with
  | prime hidle => exact ⟨h.timeline_mem, h.tempo, h.sent⟩
  | pend pending hpriming => exact ⟨h.timeline_mem, h.tempo, h.sent⟩
  | level hpriming hpending => exact ⟨h.timeline_mem, h.tempo, h.sent⟩
  | levelAndStart now hpriming hpending => exact inTempo_of_sent_nil h.timeline_mem h.tempo rfl
  | start now hready hnow => exact inTempo_of_sent_nil h.timeline_mem h.tempo rfl
  | play hrequest hplaying hdue hpoint hlt =>
    exact ⟨h.timeline_mem, h.tempo_of_current? hpoint, h.sent_play _ _⟩
  | playLast hrequest hplaying hdue hpoint hlt =>
    exact ⟨h.timeline_mem, h.tempo_of_current? hpoint, h.sent_play _ _⟩
  | runOut hrequest hplaying hdue hpoint => exact ⟨h.timeline_mem, h.tempo, h.sent⟩
  | stop now hplaying hnow =>
    exact InTempo.rewindUnplayed (s := s.halted) ⟨h.timeline_mem, h.tempo, h.sent⟩ now
  | toggleMute label hrequest => exact ⟨h.timeline_mem, h.tempo, h.sent⟩
  | seek hrequest hindex => exact inTempo_of_sent_nil h.timeline_mem h.tempo rfl
  | setTimeline timeline hrequest =>
    -- The tempo stays that of a timeline from before.
    exact inTempo_of_sent_nil (hinstalled timeline (by rw [hrequest]; rfl)) h.tempo rfl

end

/-! ### The playback under way -/

section
variable (muted : List String)

/-- The points of a pass stand at the indices that it counts. -/
theorem getElem?_of_pass {index : Nat} {time tempo : ℚ} {points : List (Point ℚ)} {i : Nat}
    {p : Played ℚ} (hp : (pass muted index time tempo points)[i]? = some p) :
    p.tick.index = index + i ∧ points[i]? = some p.point := by
  induction points generalizing index time tempo i with
  | nil => simp [pass] at hp
  | cons first rest ih =>
    cases i with
    | zero =>
      rw [pass, List.getElem?_cons_zero, Option.some.injEq] at hp
      rw [← hp]
      exact ⟨rfl, rfl⟩
    | succ i =>
      obtain ⟨hindex, hpoint⟩ := ih hp
      exact ⟨by omega, hpoint⟩

/-- The tempo before a point of a pass is that of the point before it. -/
theorem tempo_of_pass {index : Nat} {time tempo : ℚ} {points : List (Point ℚ)} {i : Nat}
    {p q : Played ℚ} (hp : (pass muted index time tempo points)[i]? = some p)
    (hq : (pass muted index time tempo points)[i + 1]? = some q) :
    q.tick.tempo = (p.point.tempo : ℚ) := by
  induction points generalizing index time tempo i with
  | nil => simp [pass] at hp
  | cons first rest ih =>
    cases i with
    | succ i => exact ih hp hq
    | zero =>
      rw [pass, List.getElem?_cons_zero, Option.some.injEq] at hp
      rw [pass, List.getElem?_cons_succ] at hq
      cases rest with
      | nil => simp [pass] at hq
      | cons second rest =>
        rw [pass, List.getElem?_cons_zero, Option.some.injEq] at hq
        rw [← hp, ← hq]

/-- The last tick of a pass is a pulse before its end. -/
theorem passEnd_of_getLast? {index : Nat} {time tempo : ℚ} {points : List (Point ℚ)} {p : Played ℚ}
    (hp : (pass muted index time tempo points).getLast? = some p) :
    passEnd time points = p.tick.time + 15 / (p.point.tempo : ℚ) := by
  -- A pass is counted from its start, but what is asked for is at its end.
  obtain rfl | ⟨points, last, rfl⟩ := points.eq_nil_or_concat'
  · simp [pass] at hp
  · rw [pass_append, pass, pass, List.getLast?_concat, Option.some.injEq] at hp
    rw [passEnd_append, ← hp]
    rfl

end

namespace OnCourse

variable {index : Nat} {time tempo : ℚ} {done : List (Point ℚ)} {s : Sequencer ℚ}
  {ps : List (Played ℚ)}

/-- The points remembered are those right before the cursor. -/
theorem map_index_sent (h : OnCourse index time tempo done s ps) :
    s.sent.length ≤ s.cursor ∧
      s.sent.map (·.index) = List.range' (s.cursor - s.sent.length) s.sent.length := by
  have hsent := h.sent_eq_pass []
  have hlength : s.sent.length = done.length := by
    rw [hsent, List.length_map, length_pass]
  have hcursor := h.cursor_eq
  refine ⟨by omega, ?_⟩
  rw [hlength, show s.cursor - done.length = index by omega, ← map_index_pass [] index time tempo,
    hsent, List.map_map]
  rfl

/-- What is remembered of a point leads back to the point. -/
theorem exists_of_sent (h : OnCourse index time tempo done s ps) {i : Nat} {tick : SentPoint ℚ}
    (htick : s.sent[i]? = some tick) : ∃ p, (pass [] index time tempo done)[i]? = some p ∧
      p.tick = tick ∧ s.timeline.get? tick.index = some p.point := by
  rw [h.sent_eq_pass [], List.getElem?_map] at htick
  obtain ⟨p, hp, rfl⟩ := Option.map_eq_some_iff.1 htick
  obtain ⟨hindex, hpoint⟩ := getElem?_of_pass [] hp
  refine ⟨p, hp, rfl, ?_⟩
  have hi := (List.getElem?_eq_some_iff.1 hpoint).1
  rw [hindex, Timeline.get?, ← List.getElem?_drop, h.points_eq, List.getElem?_append_left hi]
  exact hpoint

/-- The tempo remembered with a point is that of the point before it. -/
theorem tempo_of_sent (h : OnCourse index time tempo done s ps) {i : Nat}
    {tick next : SentPoint ℚ} (htick : s.sent[i]? = some tick)
    (hnext : s.sent[i + 1]? = some next) :
    ∃ point, s.timeline.get? tick.index = some point ∧ next.tempo = (point.tempo : ℚ) := by
  obtain ⟨p, hp, -, hpoint⟩ := h.exists_of_sent htick
  obtain ⟨q, hq, rfl, -⟩ := h.exists_of_sent hnext
  exact ⟨p.point, hpoint, tempo_of_pass [] hp hq⟩

/-- The next tick is a pulse after the last one, at the tempo of its point. -/
theorem tick_of_sent (h : OnCourse index time tempo done s ps) {tick : SentPoint ℚ}
    (htick : s.sent.getLast? = some tick) :
    ∃ point, s.timeline.get? tick.index = some point ∧
      s.transport.tick? = some ⟨pulse, tick.time + 15 / (point.tempo : ℚ)⟩ := by
  rw [List.getLast?_eq_getElem?] at htick
  obtain ⟨p, hp, rfl, hpoint⟩ := h.exists_of_sent htick
  have hlast : (pass [] index time tempo done).getLast? = some p := by
    rw [h.sent_eq_pass [], List.length_map] at hp
    rw [List.getLast?_eq_getElem?, hp]
  refine ⟨p.point, hpoint, ?_⟩
  rw [h.ticking.next, passEnd_of_getLast? [] hlast]

end OnCourse

/-! ### Every state -/

/-- The tempos that scores give are at least one. -/
theorem KnownTempo.one_le {timelines : List (Timeline ℚ)} {tempo : ℚ}
    (h : KnownTempo timelines tempo)
    (hscores : ∀ timeline ∈ timelines, ∃ score, timeline = .ofScore score) : 1 ≤ tempo := by
  rcases h with rfl | ⟨timeline, htimeline, p, hp, rfl⟩
  · norm_num [defaultTempo]
  · obtain ⟨score, rfl⟩ := hscores timeline htimeline
    exact_mod_cast Timeline.tempo_pos_of_mem_ofScore hp

/-- If all that is put in place of a score is laid out from scores, so is every timeline. -/
theorem exists_score_of_mem_installed (score : Score) {steps : List (Bool × Request ℚ)}
    (hscores : ∀ q ∈ steps, ∀ timeline, q.2 = .setTimeline timeline →
      ∃ score, timeline = .ofScore score) :
    ∀ timeline ∈ installed (.ofScore score) steps, ∃ score, timeline = .ofScore score := by
  intro timeline htimeline
  rcases List.mem_cons.1 htimeline with rfl | hmem
  · exact ⟨score, rfl⟩
  · obtain ⟨q, hq, hinstalled⟩ := List.mem_filterMap.1 hmem
    exact hscores q hq timeline (eq_of_installed? hinstalled)

/-- After any requests, a tick is scheduled just while playing. -/
theorem inMode_run (timeline : Timeline ℚ) (registry : Registry)
    (steps : List (Bool × Request ℚ)) : InMode (run steps (new timeline registry)).1 :=
  history_induction (motive := fun s _ => InMode s) steps _
    (inMode_of_rest (by simp [new]) rfl (by simp [new])) fun _ _ _ _ _ _ h hmove => h.move hmove

/-- After any requests, the tempos are those of the timelines put in place, or the one at the
start. -/
theorem inTempo_run (timeline : Timeline ℚ) (registry : Registry)
    (steps : List (Bool × Request ℚ)) :
    InTempo (installed timeline steps) (run steps (new timeline registry)).1 := by
  refine history_induction (motive := fun s _ => InTempo (installed timeline steps) s) steps _
    (inTempo_of_sent_nil (List.mem_cons_self ..) (.inl rfl) rfl) ?_
  intro s H q K s' hq h hmove
  exact h.move hmove fun timeline' h' =>
    List.mem_cons_of_mem _ (List.mem_filterMap.2 ⟨q, hq, h'⟩)

/-- **What holds of every state.**  A piece is laid out from a score, and so is every one that takes
its place.  Then, whatever the sequencer was asked for and whatever its voices answered:

the cursor is on a point, or at the start of an empty timeline; a tick is scheduled just while
playing, and the transport runs then; a start waits only while priming; the voices were asked for
unless the sequencer is idle; the tempo is the default one or that of a point of the timelines so
far, so it is at least one; and while playing, the points remembered are those right before the
cursor, each with the tempo of the point before it, and the next tick is a sixteenth of the last
point after its tick. -/
theorem state_of_run (score : Score) (registry : Registry) (steps : List (Bool × Request ℚ))
    (hscores : ∀ q ∈ steps, ∀ timeline, q.2 = .setTimeline timeline →
      ∃ score, timeline = .ofScore score) :
    let outcome := run steps (new (.ofScore score) registry)
    let s := outcome.1
    (s.cursor < s.timeline.length ∨ s.timeline.length = 0 ∧ s.cursor = 0) ∧
    ((s.playback = .playing ↔ s.transport.isScheduled = true) ∧
      (s.playback = .playing → s.transport.started = true)) ∧
    (s.startPending = true → s.playback = .priming) ∧
    (s.playback = .idle ↔ .prime ∉ outcome.2) ∧
    ((s.transport.tempo = 120 ∨ ∃ timeline ∈ installed (.ofScore score) steps,
        ∃ p ∈ timeline.points, s.transport.tempo = (p.tempo : ℚ)) ∧ 1 ≤ s.transport.tempo) ∧
    (s.playback = .playing →
      (s.sent.length ≤ s.cursor ∧
        s.sent.map (·.index) = List.range' (s.cursor - s.sent.length) s.sent.length) ∧
      (∀ i tick next, s.sent[i]? = some tick → s.sent[i + 1]? = some next →
        ∃ point, s.timeline.get? tick.index = some point ∧ next.tempo = (point.tempo : ℚ)) ∧
      ∀ tick, s.sent.getLast? = some tick →
        ∃ point, s.timeline.get? tick.index = some point ∧
          s.transport.tick? = some ⟨pulse, tick.time + 15 / (point.tempo : ℚ)⟩) := by
  intro outcome s
  have hplace : InRow s := inRow_run _ registry steps
  have hmode : InMode s := inMode_run _ registry steps
  have htempo : InTempo (installed (.ofScore score) steps) s := inTempo_run _ registry steps
  refine ⟨hplace.cursor_lt, ⟨hmode.playing_iff, hmode.started⟩, hmode.pending, ?_,
    ⟨htempo.tempo, htempo.tempo.one_le (exists_score_of_mem_installed score hscores)⟩, ?_⟩
  · -- The voices were asked for once, or never.
    have hprimings : primings outcome.2 = if s.playback ≠ .idle then 1 else 0 := by
      rw [show primings outcome.2 = _ from primings_run steps _]
      exact if_congr (and_iff_right rfl) rfl rfl
    rw [prime_mem_iff, hprimings]
    by_cases hidle : s.playback = .idle <;> simp [hidle]
  · -- While playing, what is remembered is a pass of the timeline up to the cursor.
    intro hplaying
    obtain ⟨index, time, tempo, done, hcourse⟩ :=
      exists_onCourse steps (new (.ofScore score) registry) (by simp [new]) hplaying
    exact ⟨hcourse.map_index_sent, fun i tick next => hcourse.tempo_of_sent,
      fun tick => hcourse.tick_of_sent⟩

/-- The short piece, started by a poll and put in its own place while it is played. -/
theorem state_of_run_shortPiece :
    let steps : List (Bool × Request ℚ) :=
      [(false, .play 0), (true, .poll (1 / 4)), (true, .setTimeline (.ofScore shortPiece)),
        (true, .poll (1 / 2))]
    let s := (run steps duoSequencer).1
    (∀ q ∈ steps, ∀ timeline, q.2 = .setTimeline timeline → ∃ score, timeline = .ofScore score) ∧
      s.playback = .playing ∧ ∃ point, s.timeline.get? 1 = some point ∧
        s.transport.tick? = some ⟨pulse, 1 / 2 + 15 / (point.tempo : ℚ)⟩ := by
  intro steps s
  have hscores : ∀ q ∈ steps, ∀ timeline, q.2 = .setTimeline timeline →
      ∃ score, timeline = .ofScore score := by
    intro q hq timeline hrequest
    simp only [steps, List.mem_cons, List.not_mem_nil, or_false] at hq
    rcases hq with rfl | rfl | rfl | rfl
    · cases hrequest
    · cases hrequest
    · cases hrequest
      exact ⟨shortPiece, rfl⟩
    · cases hrequest
  have hplaying : (run [(false, .play 0), (true, .poll (1 / 4)),
      (true, .setTimeline (.ofScore shortPiece)), (true, .poll (1 / 2))] duoSequencer).1.playback =
        .playing := by cbv
  have hlast : (run [(false, .play 0), (true, .poll (1 / 4)),
      (true, .setTimeline (.ofScore shortPiece)), (true, .poll (1 / 2))]
        duoSequencer).1.sent.getLast? = some ⟨1, 1 / 2, 60⟩ := by cbv
  obtain ⟨-, -, -, -, -, hcourse⟩ := state_of_run shortPiece duo steps hscores
  exact ⟨hscores, hplaying, (hcourse hplaying).2.2 _ hlast⟩

end Gamelan.Sequencer

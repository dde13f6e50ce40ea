import Gamelan.Proofs.Performance.Pass

namespace Gamelan.Sequencer

/-!
# How many ticks a poll runs

A poll goes on for as long as the sequencer plays and a tick is due.  Time need not end it: the poll
may look ahead without bound, and the next tick may be due at the same time as the last one.  What
ends it is the cursor, which every tick moves on, and the last point, which ends the playback.

* `completeTick_cases` — what one tick does to the cursor.
* `DueTicks`, `PollTicks` — a poll that comes to an end, tick by tick.
* `exists_dueTicks` — the ticks are no more than the points from the cursor on.
* `ticks_of_poll` — so a poll comes to an end, whatever it looks ahead to.

Nothing here asks anything of the times, not even an order.
-/

variable {τ : Type}

/-! ### One tick -/

/-- Voices that get ready move no cursor. -/
theorem finishPriming_frame (ready : Bool) (now : τ) (s : Sequencer τ) :
    (s.finishPriming ready now).1.timeline = s.timeline ∧
      (s.finishPriming ready now).1.cursor = s.cursor := by
  cases ready with
  | false => exact ⟨rfl, rfl⟩
  | true => cases hpending : s.startPending <;> simp [finishPriming, setPlayback, started, hpending]

variable [NatCast τ] [Add τ] [Div τ] [BEq τ]

/-- **What a tick does to the cursor.**  It moves it to the next point if there is one, and otherwise
ends the playback and takes it back to the start. -/
theorem completeTick_cases (time : τ) (s : Sequencer τ) :
    (s.completeTick time).1.timeline = s.timeline ∧
      (s.cursor + 1 < s.timeline.length ∧ (s.completeTick time).1.playback = s.playback ∧
          (s.completeTick time).1.cursor = s.cursor + 1 ∨
        s.timeline.length ≤ s.cursor + 1 ∧ (s.completeTick time).1.playback = .ready ∧
          (s.completeTick time).1.cursor = 0) := by
  cases hpoint : s.current? with
  | none =>
    have hlength : s.timeline.length ≤ s.cursor := List.getElem?_eq_none_iff.1 hpoint
    rw [completeTick_of_none time hpoint]
    exact ⟨rfl, .inr ⟨Nat.le_succ_of_le hlength, rfl, rfl⟩⟩
  | some point =>
    by_cases hlt : s.cursor + 1 < s.timeline.length
    · obtain ⟨transport, hstate⟩ := exists_completeTick_of_lt time hpoint hlt
      rw [hstate]
      exact ⟨rfl, .inl ⟨hlt, rfl, rfl⟩⟩
    · obtain ⟨transport, hstate⟩ := exists_completeTick_of_not_lt time hpoint hlt
      rw [hstate]
      exact ⟨rfl, .inr ⟨Nat.not_lt.1 hlt, rfl, rfl⟩⟩

/-! ### All ticks of a poll -/

variable [LE τ] [DecidableLE τ]

/-- The ticks that a poll runs until `horizon`, one by one: how many there are, and what all of them do.
Only the playback and the transport decide whether there is one more. -/
inductive DueTicks (horizon : τ) : Sequencer τ → Nat → Step τ → Prop where
  | rest {s : Sequencer τ} (h : s.isPlaying = false) : DueTicks horizon s 0 (s, [])
  | wait {s : Sequencer τ} (h : s.isPlaying = true) (hdue : s.transport.due? horizon = none) :
      DueTicks horizon s 0 (s, [])
  | tick {s : Sequencer τ} {time : τ} {count : Nat} {rest : Step τ} (h : s.isPlaying = true)
      (hdue : s.transport.due? horizon = some time)
      (hrest : DueTicks horizon (s.completeTick time).1 count rest) :
      DueTicks horizon s (count + 1) (rest.1, (s.completeTick time).2 ++ rest.2)

/-- A poll that runs `count` ticks, after looking whether the voices are ready. -/
def PollTicks (ready : Bool) (horizon : τ) (s : Sequencer τ) (count : Nat) (final : Step τ) : Prop :=
  let primed : Step τ := if s.playback = .priming then s.finishPriming ready horizon else (s, [])
  ∃ rest, DueTicks horizon primed.1 count rest ∧ final = (rest.1, primed.2 ++ rest.2)

/-- A poll comes to an end in one way only. -/
theorem DueTicks.unique {horizon : τ} {s : Sequencer τ} {count count' : Nat} {final final' : Step τ}
    (h : DueTicks horizon s count final) (h' : DueTicks horizon s count' final') :
    count' = count ∧ final' = final := by
  induction h generalizing count' final' with
  | rest hrest =>
    cases h' with
    | rest => exact ⟨rfl, rfl⟩
    | wait hplaying => simp [hrest] at hplaying
    | tick hplaying => simp [hrest] at hplaying
  | wait hplaying hdue =>
    cases h' with
    | rest hrest => simp [hrest] at hplaying
    | wait => exact ⟨rfl, rfl⟩
    | tick hplaying' hdue' => simp [hdue] at hdue'
  | tick hplaying hdue hrest ih =>
    cases h' with
    | rest hrest => simp [hrest] at hplaying
    | wait hplaying' hdue' => simp [hdue] at hdue'
    | tick hplaying' hdue' hrest' =>
      obtain rfl := Option.some.inj (hdue.symm.trans hdue')
      obtain ⟨rfl, rfl⟩ := ih hrest'
      exact ⟨rfl, rfl⟩

/-- **The ticks of a playback.**  There are no more than the points from the cursor on, or one if there
is no point.  If there are as many, the playback has ended and the cursor is at the start. -/
theorem exists_dueTicks (horizon : τ) (s : Sequencer τ) :
    ∃ count ≤ s.ticksLeft, DueTicks horizon s count (s.runDue horizon) ∧
      (s.isPlaying = true → count = s.ticksLeft →
        (s.runDue horizon).1.playback = .ready ∧ (s.runDue horizon).1.cursor = 0) := by
  -- The induction is on the ticks left: a tick with another point behind it leaves one less.
  fun_induction runDue horizon s with
  | case1 s hplaying hdue =>
    refine ⟨0, Nat.zero_le _, .wait hplaying hdue, fun _ hcount => ?_⟩
    simp only [ticksLeft, hplaying, if_true] at hcount
    omega
  | case2 s hplaying time hdue ticked rest ih =>
    obtain ⟨count, hcount, hticks, hend⟩ := ih
    have hleft : s.ticksLeft = max 1 (s.timeline.length - s.cursor) := by
      rw [ticksLeft, if_pos hplaying]
    have hmore : DueTicks horizon s (count + 1) (rest.1, ticked.2 ++ rest.2) :=
      .tick hplaying hdue hticks
    obtain ⟨htimeline, ⟨hlt, hplayback, hcursor⟩ | ⟨hle, hplayback, hcursor⟩⟩ :=
      completeTick_cases time s
    · have hstill : ticked.1.isPlaying = true := by rwa [isPlaying, hplayback]
      have hless : ticked.1.ticksLeft = s.timeline.length - (s.cursor + 1) := by
        rw [ticksLeft, if_pos hstill, htimeline, hcursor]
        omega
      refine ⟨count + 1, by omega, hmore, fun _ hall => hend hstill ?_⟩
      omega
    · -- The playback has ended, so there is no tick after this one.
      have hrest : ticked.1.isPlaying = false := by rw [isPlaying, hplayback]; rfl
      have hnone : count = 0 := by
        rw [ticksLeft, hrest] at hcount
        exact Nat.le_zero.1 hcount
      refine ⟨count + 1, by omega, hmore, fun _ _ => ?_⟩
      rw [show rest = (ticked.1, []) from (runDue_of_not_playing horizon hrest).1]
      exact ⟨hplayback, hcursor⟩
  | case3 s hplaying =>
    exact ⟨0, Nat.zero_le _, .rest (by simpa using hplaying), fun h => absurd h hplaying⟩

/-- **A poll comes to an end**, in whatever state a sequencer is and however far the poll looks ahead.
Its ticks are no more than the points from the cursor on, or one if there is no point: it does not count
on the times to increase.  If there are as many ticks, the sequencer is at rest with its cursor at the
start. -/
theorem ticks_of_poll (ready : Bool) (horizon : τ) (s : Sequencer τ) :
    (∃ count, PollTicks ready horizon s count (s.poll ready horizon)) ∧
      ∀ count final, PollTicks ready horizon s count final →
        final = s.poll ready horizon ∧ count ≤ max 1 (s.timeline.length - s.cursor) ∧
        (count = max 1 (s.timeline.length - s.cursor) →
          final.1.playback = .ready ∧ final.1.cursor = 0) := by
  obtain ⟨primed, hprimed⟩ : ∃ primed : Step τ,
      (if s.playback = .priming then s.finishPriming ready horizon else (s, [])) = primed :=
    ⟨_, rfl⟩
  have hpoll : s.poll ready horizon = primed.andThen (runDue horizon) := by rw [poll, hprimed]
  have hframe : primed.1.timeline = s.timeline ∧ primed.1.cursor = s.cursor := by
    rw [← hprimed]
    split
    · exact finishPriming_frame ready horizon s
    · exact ⟨rfl, rfl⟩
  obtain ⟨count, hcount, hticks, hend⟩ := exists_dueTicks horizon primed.1
  unfold PollTicks
  rw [hprimed, hpoll]
  refine ⟨⟨count, _, hticks, rfl⟩, ?_⟩
  rintro count' final ⟨rest, hrest, rfl⟩
  obtain ⟨rfl, rfl⟩ := hticks.unique hrest
  refine ⟨rfl, ?_⟩
  cases hplaying : primed.1.isPlaying with
  | false =>
    -- Without a playback there is no tick at all.
    rw [ticksLeft, hplaying] at hcount
    obtain rfl : count' = 0 := Nat.le_zero.1 hcount
    exact ⟨Nat.zero_le _, fun hall => by omega⟩
  | true =>
    have hleft : primed.1.ticksLeft = max 1 (s.timeline.length - s.cursor) := by
      rw [ticksLeft, if_pos hplaying, hframe.1, hframe.2]
    rw [hleft] at hcount hend
    exact ⟨hcount, hend hplaying⟩

/-- In whole numbers a pulse has no length.  Each point is still played once, and the playback ends. -/
example :
    let s : Sequencer Nat := (run [(true, .play 0)] (Sequencer.new (.ofScore shortPiece) duo)).1
    (s.poll true 0).1.sent.map (fun p => (p.index, p.time)) = [(0, 0), (1, 0), (2, 0)] ∧
      (s.poll true 0).1.playback = .ready := by
  cbv

end Gamelan.Sequencer

import Gamelan.Proofs.Performance.Move
import Gamelan.Proofs.Timeline.Continuity
import Mathlib

namespace Gamelan.Sequencer

/-!
# A pass through the points

With exact times, a playback is a pass through the points from the cursor on.  Each point comes a
sixteenth after the one before it, at that one's tempo, and accents are late by the tempo before it.

* `pass`, `passEnd`, `tempoAfter` — the points of a pass, its end, and the tempo it leaves.
* `time_of_mem_pass` — a pass through a score runs on in quarters of the time of the score.
* `Ticking`, `passed`, `ended` — a playback under way, and what becomes of it.
* `runDue_cases` — a poll plays the points of the pass that are due, and no others.
-/

/-! ### Passes -/

/-- The points of a pass.  The first has an index, and comes at a time and a tempo of the transport;
every point sets the tempo for what comes after it. -/
def pass (muted : List String) (index : Nat) (time tempo : ℚ) : List (Point ℚ) → List (Played ℚ)
  | [] => []
  | p :: rest =>
    ⟨⟨index, time, tempo⟩, p, muted⟩ ::
      pass muted (index + 1) (time + 15 / (p.tempo : ℚ)) (p.tempo : ℚ) rest

/-- When the last of some points has sounded, where the first comes at `time`. -/
def passEnd (time : ℚ) : List (Point ℚ) → ℚ
  | [] => time
  | p :: rest => passEnd (time + 15 / (p.tempo : ℚ)) rest

/-- The tempo of the transport after some points. -/
def tempoAfter (tempo : ℚ) : List (Point ℚ) → ℚ
  | [] => tempo
  | p :: rest => tempoAfter (p.tempo : ℚ) rest

/-- A pulse is a quarter of a beat. -/
theorem pulse_seconds (tempo : ℚ) : pulse.seconds tempo = 15 / tempo := by
  show ((60 : Nat) : ℚ) / tempo / ((4 : Nat) : ℚ) = 15 / tempo
  rw [div_div, mul_comm, ← div_div]
  norm_num

section
variable (muted : List String)

/-- A pass through more points goes on where the one before ends. -/
theorem pass_append (index : Nat) (time tempo : ℚ) (points more : List (Point ℚ)) :
    pass muted index time tempo (points ++ more) =
      pass muted index time tempo points ++
        pass muted (index + points.length) (passEnd time points) (tempoAfter tempo points)
          more := by
  induction points generalizing index time tempo with
  | nil => rfl
  | cons p rest ih =>
    rw [List.cons_append, pass, ih, pass, passEnd, tempoAfter, List.cons_append, List.length_cons,
      Nat.add_assoc, Nat.add_comm 1]

/-- A pass through more points starts like one through fewer. -/
theorem pass_prefix_append (index : Nat) (time tempo : ℚ) (points more : List (Point ℚ)) :
    pass muted index time tempo points <+: pass muted index time tempo (points ++ more) := by
  rw [pass_append]
  exact List.prefix_append _ _

theorem passEnd_append (time : ℚ) (points more : List (Point ℚ)) :
    passEnd time (points ++ more) = passEnd (passEnd time points) more := by
  induction points generalizing time with
  | nil => rfl
  | cons p rest ih => exact ih _

theorem tempoAfter_append (tempo : ℚ) (points more : List (Point ℚ)) :
    tempoAfter tempo (points ++ more) = tempoAfter (tempoAfter tempo points) more := by
  induction points generalizing tempo with
  | nil => rfl
  | cons p rest ih => exact ih _

theorem length_pass (index : Nat) (time tempo : ℚ) (points : List (Point ℚ)) :
    (pass muted index time tempo points).length = points.length := by
  induction points generalizing index time tempo with
  | nil => rfl
  | cons p rest ih => rw [pass, List.length_cons, ih, List.length_cons]

/-- A pass goes from place to place. -/
theorem map_index_pass (index : Nat) (time tempo : ℚ) (points : List (Point ℚ)) :
    (pass muted index time tempo points).map (·.tick.index) = List.range' index points.length := by
  induction points generalizing index time tempo with
  | nil => rfl
  | cons p rest ih => rw [pass, List.map_cons, ih, List.length_cons, List.range'_succ]

/-- A pass does not end before it starts. -/
theorem le_passEnd (time : ℚ) (points : List (Point ℚ)) : time ≤ passEnd time points := by
  induction points generalizing time with
  | nil => exact le_refl time
  | cons p rest ih =>
    have hpulse : (0 : ℚ) ≤ 15 / (p.tempo : ℚ) := by positivity
    exact le_trans (by linarith) (ih _)

/-- The ticks of a pass lie between its start and its end. -/
theorem le_time_of_mem_pass {index : Nat} {time tempo : ℚ} {points : List (Point ℚ)} {p : Played ℚ}
    (hp : p ∈ pass muted index time tempo points) :
    time ≤ p.tick.time ∧ p.tick.time ≤ passEnd time points := by
  induction points generalizing index time tempo with
  | nil => simp [pass] at hp
  | cons q rest ih =>
    have hpulse : (0 : ℚ) ≤ 15 / (q.tempo : ℚ) := by positivity
    rw [pass, List.mem_cons] at hp
    rcases hp with rfl | hp
    · exact ⟨le_refl _, le_trans (by linarith) (le_passEnd _ rest)⟩
    · obtain ⟨hle, hend⟩ := ih hp
      exact ⟨le_trans (by linarith) hle, hend⟩

/-- **A pass through points without a gap** takes a quarter of their time: steps are sixteenths. -/
theorem time_of_mem_pass {index : Nat} {time tempo first stop : ℚ} {points : List (Point ℚ)}
    (h : Timeline.RunsOn first points stop) {p : Played ℚ}
    (hp : p ∈ pass muted index time tempo points) :
    p.tick.time = time + (p.point.time - first) / 4 := by
  -- A beat of the score is four sixteenths, whatever the tempo.
  induction points generalizing index time tempo first with
  | nil => simp [pass] at hp
  | cons q rest ih =>
    rw [pass, List.mem_cons] at hp
    rcases hp with rfl | hp
    · rw [h.1]
      ring
    · rw [ih h.2 hp]
      rw [show beatLength ((q.tempo : Nat) : ℚ) = 60 / (q.tempo : ℚ) from rfl]
      ring

end

/-! ### A playback under way -/

/-- Playing, with the next tick at an instant. -/
structure Ticking (time : ℚ) (s : Sequencer ℚ) : Prop where
  playing : s.playback = .playing
  started : s.transport.started = true
  next : s.transport.tick? = some ⟨pulse, time⟩

/-- The points that are left to play. -/
def ahead (s : Sequencer ℚ) : List (Point ℚ) :=
  s.timeline.points.drop s.cursor

/-- The pass of a sequencer through some points, the first of them under the cursor. -/
def passOver (time : ℚ) (points : List (Point ℚ)) (s : Sequencer ℚ) : List (Played ℚ) :=
  pass s.muted s.cursor time s.transport.tempo points

/-- A playback after some more points. -/
def passed (time : ℚ) (done : List (Point ℚ)) (s : Sequencer ℚ) : Sequencer ℚ :=
  { s with
    cursor := s.cursor + done.length
    sent := s.sent ++ (s.passOver time done).map (·.tick)
    transport :=
      ⟨tempoAfter s.transport.tempo done, true, some ⟨pulse, passEnd time done⟩⟩ }

/-- A playback that some more points have ended. -/
def ended (time : ℚ) (done : List (Point ℚ)) (s : Sequencer ℚ) : Sequencer ℚ :=
  { s with
    cursor := 0
    sent := s.sent ++ (s.passOver time done).map (·.tick)
    transport := ⟨tempoAfter s.transport.tempo done, true, none⟩
    playback := .ready }

/-- After a start, the first tick comes at once. -/
theorem ticking_started (now : ℚ) (s : Sequencer ℚ) : Ticking now (s.started now) :=
  ⟨rfl, rfl, rfl⟩

theorem Ticking.isPlaying {time : ℚ} {s : Sequencer ℚ} (h : Ticking time s) :
    s.isPlaying = true := by
  rw [Sequencer.isPlaying, h.playing]
  rfl

/-- The next tick is due from its time on. -/
theorem Ticking.due? {time : ℚ} {s : Sequencer ℚ} (h : Ticking time s) (horizon : ℚ) :
    s.transport.due? horizon = if time ≤ horizon then some time else none := by
  simp [Transport.due?, h.next, h.started]

/-- Only the next tick is due. -/
theorem Ticking.eq_of_due? {horizon time time' : ℚ} {s : Sequencer ℚ} (h : Ticking time s)
    (hdue : s.transport.due? horizon = some time') : time' = time := by
  rw [h.due?] at hdue
  split at hdue
  · exact (Option.some.inj hdue).symm
  · cases hdue

/-- What neither halts nor moves the transport leaves a playback ticking. -/
theorem Ticking.congr {time : ℚ} {s s' : Sequencer ℚ} (h : Ticking time s)
    (hplayback : s'.playback = s.playback) (htransport : s'.transport = s.transport) :
    Ticking time s' where
  playing := hplayback.trans h.playing
  started := by rw [htransport, h.started]
  next := by rw [htransport, h.next]

/-- The transport of a sequencer that ticks, but for its tempo. -/
theorem Ticking.transport_eq {time : ℚ} {s : Sequencer ℚ} (h : Ticking time s) :
    s.transport = ⟨s.transport.tempo, true, some ⟨pulse, time⟩⟩ := by
  rw [← h.started, ← h.next]

/-- With a point under the cursor, it is the first of those ahead. -/
theorem ahead_of_current? {s : Sequencer ℚ} {point : Point ℚ} (h : s.current? = some point) :
    s.ahead = point :: s.timeline.points.drop (s.cursor + 1) := by
  obtain ⟨hlt, hpoint⟩ := List.getElem?_eq_some_iff.1 h
  rw [ahead, List.drop_eq_getElem_cons hlt, hpoint]

/-- Without a point under the cursor, there is none ahead. -/
theorem ahead_of_current?_none {s : Sequencer ℚ} (h : s.current? = none) : s.ahead = [] := by
  rw [ahead, List.drop_eq_nil_iff]
  exact List.getElem?_eq_none_iff.1 h

/-- A tick on a point with another one behind it takes the playback past that point. -/
theorem Ticking.completeTick_fst {time : ℚ} {s : Sequencer ℚ} (h : Ticking time s)
    {point : Point ℚ} (hpoint : s.current? = some point)
    (hlt : s.cursor + 1 < s.timeline.length) :
    (s.completeTick time).1 = s.passed time [point] := by
  rw [completeTick_of_lt time hpoint hlt, h.transport_eq]
  simp [passed, passOver, pass, passEnd, tempoAfter, playedAt, Transport.setTempo,
    Transport.completeTick, pulse_seconds]

/-- A sequencer goes on ticking at the end of the points it has passed. -/
theorem Ticking.passed {time : ℚ} {s : Sequencer ℚ} (h : Ticking time s)
    (done : List (Point ℚ)) : Ticking (passEnd time done) (s.passed time done) :=
  ⟨h.playing, rfl, rfl⟩

/-- Points can be passed in two goes. -/
theorem passOver_append (time : ℚ) (done more : List (Point ℚ)) (s : Sequencer ℚ) :
    s.passOver time (done ++ more) =
      s.passOver time done ++ (s.passed time done).passOver (passEnd time done) more :=
  pass_append s.muted s.cursor time s.transport.tempo done more

theorem passed_passed (time : ℚ) (done more : List (Point ℚ)) (s : Sequencer ℚ) :
    (s.passed time done).passed (passEnd time done) more = s.passed time (done ++ more) := by
  rw [Sequencer.passed, Sequencer.passed, Sequencer.passed]
  simp only [passOver_append, List.map_append, List.append_assoc, List.length_append,
    Nat.add_assoc, passEnd_append, tempoAfter_append]
  rfl

theorem ended_passed (time : ℚ) (done more : List (Point ℚ)) (s : Sequencer ℚ) :
    (s.passed time done).ended (passEnd time done) more = s.ended time (done ++ more) := by
  rw [ended, ended, Sequencer.passed]
  simp only [passOver_append, List.map_append, List.append_assoc, tempoAfter_append]
  rfl

/-! ### A short piece -/

/-- Two instruments, and a label for both. -/
def duo : Registry where
  atomics := [⟨"r1", ['E', 'U'], ["e", "u"], 0⟩, ⟨"r2", ['E'], ["e"], 0⟩]
  composites := [⟨"rr", ["r1", "r2"]⟩]
  wellFormed := by constructor <;> decide

/-- Two sections at different tempos, with an accent, a mute and rests. -/
def shortPiece : Score :=
  ⟨"", "", [⟨0, "A", 60, [⟨"rr", ['É']⟩]⟩,
    ⟨1, "B", 120, [⟨"r1", ['U', '.']⟩, ⟨"rr", [' ', 'E']⟩]⟩]⟩

/-- A sequencer for the short piece, before it is asked for anything. -/
def duoSequencer : Sequencer ℚ :=
  Sequencer.new (.ofScore shortPiece) duo

example : (duoSequencer.passOver 2 duoSequencer.ahead).map (fun p => (p.tick.time, p.tick.tempo)) =
    [(2, 120), (9 / 4, 60), (19 / 8, 120)] := by
  cbv

end Gamelan.Sequencer

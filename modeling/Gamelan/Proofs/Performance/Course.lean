import Gamelan.Proofs.Performance.Interruption

namespace Gamelan.Sequencer

/-!
# The course of a playback

A sequencer may be asked for anything, in any order.  While it plays, it still stands where a pass
has brought it, and the points that it remembers are those of that pass.

* `sinceStart`, `remembered` — what a history holds of the last playback.
* `OnCourse` — a playback that stands where a pass has brought it.
* `exists_onCourse` — every playback does.
* `OnCourse.stop_eq` — a stop takes it back to the point where it cuts the pass.
-/

/-! ### The last playback of a history -/

section
variable {τ : Type}

/-- The events since a start, after one more event. -/
def follow (events : List (Event τ)) : Event τ → List (Event τ)
  | .started now => [.started now]
  | e => events ++ [e]

/-- The events from the last start on, or all of them if there is none. -/
def sinceStart (H : List (Event τ)) : List (Event τ) :=
  H.foldl follow []

/-- The points remembered after one more event. -/
def remember (ps : List (Played τ)) : Event τ → List (Played τ)
  | .played p => ps ++ [p]
  | .started _ | .stopped _ | .forgotten => []
  | .levelled | .finished _ => ps

/-- The points that a sequencer remembers: a start, a stop, a seek and a new timeline make it forget
them. -/
def remembered (H : List (Event τ)) : List (Played τ) :=
  H.foldl remember []

/-- What more events do to the points remembered, they do event by event. -/
@[simp] theorem remembered_append (H K : List (Event τ)) :
    remembered (H ++ K) = K.foldl remember (remembered H) :=
  List.foldl_append

/-- More events follow the start, unless one of them is a start itself. -/
@[simp] theorem sinceStart_append (H K : List (Event τ)) :
    sinceStart (H ++ K) = K.foldl follow (sinceStart H) :=
  List.foldl_append

/-- What is remembered was played since the last start. -/
theorem played_of_mem_remembered {H : List (Event τ)} {p : Played τ} (hp : p ∈ remembered H) :
    .played p ∈ sinceStart H := by
  induction H using List.reverseRecOn with
  | nil => simp [remembered] at hp
  | append_singleton H e ih =>
    rw [remembered_append, List.foldl_cons, List.foldl_nil] at hp
    rw [sinceStart_append, List.foldl_cons, List.foldl_nil]
    cases e with
    | played q =>
      rcases List.mem_append.1 hp with hp | hp
      · exact List.mem_append_left _ (ih hp)
      · obtain rfl := List.mem_singleton.1 hp
        exact List.mem_append_right _ (List.mem_singleton_self _)
    | levelled => exact List.mem_append_left _ (ih hp)
    | finished time => exact List.mem_append_left _ (ih hp)
    | started now => exact absurd hp List.not_mem_nil
    | stopped now => exact absurd hp List.not_mem_nil
    | forgotten => exact absurd hp List.not_mem_nil

end

/-! ### On course -/

/-- The tick of a point and the point. -/
def Played.onTick (p : Played ℚ) : SentPoint ℚ × Point ℚ :=
  (p.tick, p.point)

/-- Where a point was played: its index, the tempo before it, and the point. -/
def Played.place (p : Played ℚ) : Nat × ℚ × Point ℚ :=
  (p.tick.index, p.tick.tempo, p.point)

/-- Muting does not move the ticks. -/
theorem map_onTick_pass (muted muted' : List String) (index : Nat) (time tempo : ℚ)
    (points : List (Point ℚ)) :
    (pass muted index time tempo points).map Played.onTick =
      (pass muted' index time tempo points).map Played.onTick := by
  induction points generalizing index time tempo with
  | nil => rfl
  | cons p rest ih =>
    rw [pass, pass, List.map_cons, List.map_cons, ih]
    rfl

/-- A tick on a point puts the next one a sixteenth of that point later. -/
theorem Ticking.play {time : ℚ} {s : Sequencer ℚ} (h : Ticking time s) (point : Point ℚ) :
    Ticking (time + 15 / (point.tempo : ℚ))
      { s with
        cursor := s.cursor + 1
        sent := s.sent ++ [(s.playedAt time point).tick]
        transport := (s.transport.setTempo ((point.tempo : Nat) : ℚ)).completeTick } where
  playing := h.playing
  started := h.started
  next := by simp [Transport.completeTick, Transport.setTempo, h.next, pulse_seconds]

/-- A playback that a pass through some points has brought to where it stands.  The pass began at an
index, with a time and a tempo of the transport; `ps` are its points as they were played, whatever
was muted at each of them. -/
structure OnCourse (index : Nat) (time tempo : ℚ) (done : List (Point ℚ)) (s : Sequencer ℚ)
    (ps : List (Played ℚ)) : Prop where
  ticking : Ticking (passEnd time done) s
  tempo_eq : s.transport.tempo = tempoAfter tempo done
  cursor_eq : s.cursor = index + done.length
  done_prefix : done <+: s.timeline.points.drop index
  sent_eq : s.sent = ps.map (·.tick)
  played_eq : ps.map Played.onTick = (pass [] index time tempo done).map Played.onTick

/-- A playback of a sequencer that was left alone since its start. -/
theorem onCourse_passed {s : Sequencer ℚ} {now : ℚ} {done rest : List (Point ℚ)}
    (hahead : s.ahead = done ++ rest) :
    OnCourse s.cursor now s.transport.tempo done ((s.started now).passed now done)
      (s.passOver now done) where
  ticking := (ticking_started now s).passed done
  tempo_eq := rfl
  cursor_eq := rfl
  done_prefix := ⟨rest, hahead.symm⟩
  sent_eq := rfl
  played_eq := map_onTick_pass _ _ _ _ _ _

/-- A playback that remembers nothing is at the start of a pass. -/
theorem onCourse_nil (time : ℚ) {s : Sequencer ℚ} (h : Ticking time s) (hsent : s.sent = []) :
    OnCourse s.cursor time s.transport.tempo [] s [] where
  ticking := h
  tempo_eq := rfl
  cursor_eq := rfl
  done_prefix := List.nil_prefix
  sent_eq := hsent
  played_eq := rfl

namespace OnCourse

variable {index : Nat} {time tempo : ℚ} {done : List (Point ℚ)} {s : Sequencer ℚ}
  {ps : List (Played ℚ)}

/-- The points from the start of a course on are those that are done and those ahead. -/
theorem points_eq (h : OnCourse index time tempo done s ps) :
    s.timeline.points.drop index = done ++ s.ahead := by
  obtain ⟨rest, hrest⟩ := h.done_prefix
  rw [ahead, h.cursor_eq, ← List.drop_drop, ← hrest, List.drop_left]

/-- A tick on a point brings a playback to the next one. -/
theorem play (h : OnCourse index time tempo done s ps) {point : Point ℚ}
    (hpoint : s.current? = some point) :
    OnCourse index time tempo (done ++ [point])
      { s with
        cursor := s.cursor + 1
        sent := s.sent ++ [(s.playedAt (passEnd time done) point).tick]
        transport := (s.transport.setTempo ((point.tempo : Nat) : ℚ)).completeTick }
      (ps ++ [s.playedAt (passEnd time done) point]) where
  ticking := by
    rw [passEnd_append]
    exact h.ticking.play point
  tempo_eq := by
    rw [tempoAfter_append]
    rfl
  cursor_eq := by
    rw [List.length_append, ← Nat.add_assoc, ← h.cursor_eq]
    rfl
  done_prefix := by
    show done ++ [point] <+: s.timeline.points.drop index
    rw [h.points_eq, ahead_of_current? hpoint]
    exact ⟨_, List.append_assoc ..⟩
  sent_eq := by rw [h.sent_eq, List.map_append, List.map_cons, List.map_nil]
  played_eq := by
    rw [pass_append, List.map_append, List.map_append, h.played_eq, ← h.cursor_eq, ← h.tempo_eq]
    rfl

/-- The ticks that a playback remembers are those of its pass. -/
theorem sent_eq_pass (h : OnCourse index time tempo done s ps) (muted : List String) :
    s.sent = (pass muted index time tempo done).map (·.tick) := by
  have hticks := congrArg (List.map Prod.fst)
    (h.played_eq.trans (map_onTick_pass [] muted index time tempo done))
  rw [List.map_map, List.map_map] at hticks
  rw [h.sent_eq]
  exact hticks

/-- **A stop** takes a playback back to the point where it cuts the pass. -/
theorem stop_eq (h : OnCourse index time tempo done s ps) (muted : List String) {stop : ℚ}
    {kept back : List (Point ℚ)} (hdone : done = kept ++ back)
    (hkept : ∀ p ∈ pass muted index time tempo kept, p.tick.time ≤ stop)
    (hback : ∀ p ∈ pass muted (index + kept.length) (passEnd time kept) (tempoAfter tempo kept)
      back, stop < p.tick.time) :
    (s.stop stop).1 =
      { s with
        cursor := index + kept.length
        sent := []
        transport := ⟨tempoAfter tempo kept, true, none⟩
        playback := .ready } := by
  have hfind := find?_cut muted hkept hback
  rw [← hdone, ← h.sent_eq_pass] at hfind
  rw [stop_fst stop h.ticking.playing, rewindUnplayed, show s.halted.sent = s.sent from rfl, hfind]
  -- With nothing to take back, the pass is where it was.
  cases back with
  | nil =>
    rw [List.append_nil] at hdone
    simp [halted, Transport.cancel, h.cursor_eq, h.tempo_eq, hdone, h.ticking.started]
  | cons q rest => simp [halted, Transport.cancel, Transport.setTempo, h.ticking.started]

end OnCourse

/-- **Every playback is on course**, whatever the sequencer was asked for: what it remembers is a
pass through its timeline up to the cursor. -/
theorem exists_onCourse (steps : List (Bool × Request ℚ)) (s₀ : Sequencer ℚ)
    (h₀ : s₀.playback ≠ .playing) :
    (run steps s₀).1.playback = .playing →
      ∃ index time tempo done,
        OnCourse index time tempo done (run steps s₀).1 (remembered (history steps s₀)) := by
  refine history_induction
    (motive := fun s H => s.playback = .playing →
      ∃ index time tempo done, OnCourse index time tempo done s (remembered H))
    steps s₀ (fun h => absurd h h₀) ?_
  intro s H q K s' hq ih hmove hplaying
  -- Only a tick on a point lengthens the pass; starts, seeks and new timelines begin another one.
  cases hmove with
  | prime h => cases hplaying
  | pend pending h => rw [show s.playback = .playing from hplaying] at h; cases h
  | level h hpending => cases hplaying
  | levelAndStart now h hpending =>
    rw [remembered_append]
    exact ⟨_, _, _, _, onCourse_nil now (ticking_started now _) rfl⟩
  | start now h hnow =>
    rw [remembered_append]
    exact ⟨_, _, _, _, onCourse_nil now (ticking_started now _) rfl⟩
  | play hrequest h hdue hpoint hlt =>
    obtain ⟨index, time, tempo, done, hcourse⟩ := ih h
    obtain rfl := hcourse.ticking.eq_of_due? hdue
    rw [remembered_append]
    exact ⟨_, _, _, _, hcourse.play hpoint⟩
  | playLast hrequest h hdue hpoint hlt => cases hplaying
  | runOut hrequest h hdue hpoint => cases hplaying
  | stop now h hnow =>
    rw [playback_rewindUnplayed] at hplaying
    cases hplaying
  | toggleMute label hrequest =>
    obtain ⟨index, time, tempo, done, hcourse⟩ := ih hplaying
    rw [List.append_nil]
    exact ⟨index, time, tempo, done, hcourse.ticking.congr rfl rfl, hcourse.tempo_eq,
      hcourse.cursor_eq, hcourse.done_prefix, hcourse.sent_eq, hcourse.played_eq⟩
  | seek hrequest hindex =>
    obtain ⟨index, time, tempo, done, hcourse⟩ := ih hplaying
    rw [remembered_append]
    exact ⟨_, _, _, _, onCourse_nil (passEnd time done) (hcourse.ticking.congr rfl rfl) rfl⟩
  | setTimeline timeline hrequest =>
    obtain ⟨index, time, tempo, done, hcourse⟩ := ih hplaying
    rw [remembered_append]
    exact ⟨_, _, _, _, onCourse_nil (passEnd time done) (hcourse.ticking.congr rfl rfl) rfl⟩

end Gamelan.Sequencer

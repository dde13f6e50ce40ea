import Gamelan.Proofs.Performance.Consistency
import Gamelan.Proofs.Performance.LateStroke
import Gamelan.Proofs.Performance.Silence

namespace Gamelan.Sequencer

open Gamelan.Text

/-!
# The slots of the points

A point has the time from its tick to the next one, which is a sixteenth at its own tempo.  Its
strokes are made on the tick, but for the accented ones: these are a thirty-second late, at the tempo
before the point.  So they keep to the slot of the point unless the tempo doubles there.

* `slotEnd?` — when the slot of a point is over.
* `Spaced` — every slot takes a sixteenth, and the next tick is at the end of the last one.
* `Played.lt_slotEnd_iff` — which calls are made in the slot of their point.
* `calls_in_slots` — the slots of a run, and what they keep apart.
-/

/-! ### The end of a slot -/

section
variable {τ : Type}

/-- When the slot of a point is over, by the events behind it: at the tick of the next point, or at
the end of the playback.  A stop cuts it short. -/
def slotEnd? : List (Event τ) → Option τ
  | [] => none
  | .played q :: _ => some q.tick.time
  | .finished time :: _ => some time
  | .started _ :: _ | .stopped _ :: _ => none
  | .levelled :: rest | .forgotten :: rest => slotEnd? rest

/-- Events that leave a slot open. -/
def LeavesOpen (H : List (Event τ)) : Prop :=
  ∀ e ∈ H, e = .levelled ∨ e = .forgotten

/-- What leaves a slot open does not count for its end. -/
theorem slotEnd?_append_of_leavesOpen {H : List (Event τ)} (h : LeavesOpen H)
    (K : List (Event τ)) : slotEnd? (H ++ K) = slotEnd? K := by
  induction H with
  | nil => rfl
  | cons e H ih =>
    have hrest := ih fun e' he' => h e' (List.mem_cons_of_mem e he')
    rcases h e (by simp) with rfl | rfl
    · exact hrest
    · exact hrest

/-- A slot is over by some events, or by more of them if these leave it open. -/
theorem cases_of_slotEnd?_append {H K : List (Event τ)} {stop : τ}
    (h : slotEnd? (H ++ K) = some stop) :
    slotEnd? H = some stop ∨ LeavesOpen H ∧ slotEnd? K = some stop := by
  induction H with
  | nil => exact .inr ⟨fun e he => absurd he List.not_mem_nil, h⟩
  | cons e H ih =>
    have hskip : (e = .levelled ∨ e = .forgotten) → slotEnd? (H ++ K) = some stop →
        slotEnd? H = some stop ∨ LeavesOpen (e :: H) ∧ slotEnd? K = some stop := by
      intro he hrest
      refine (ih hrest).imp_right fun hopen => ⟨fun e' he' => ?_, hopen.2⟩
      rcases List.mem_cons.1 he' with rfl | he'
      · exact he
      · exact hopen.1 e' he'
    cases e with
    | played q => exact .inl h
    | finished time => exact .inl h
    | started now => cases h
    | stopped now => cases h
    | levelled => exact hskip (.inl rfl) h
    | forgotten => exact hskip (.inr rfl) h

end

/-! ### The slots of a history -/

/-- A sixteenth after the tick of a point. -/
def Played.slotEnd (p : Played ℚ) : ℚ :=
  p.tick.time + 15 / (p.point.tempo : ℚ)

/-- The slots of a history take a sixteenth each, and while the last one is open, the next tick is at
its end. -/
structure Spaced (s : Sequencer ℚ) (H : List (Event ℚ)) : Prop where
  closed : ∀ before p later stop, H = before ++ Event.played p :: later → slotEnd? later = some stop →
    stop = p.slotEnd
  next : ∀ before p later, H = before ++ Event.played p :: later → LeavesOpen later →
    s.playback = .playing → Ticking p.slotEnd s

/-- With no points, there are no slots. -/
theorem spaced_of_forall_ne (s : Sequencer ℚ) {H : List (Event ℚ)} (h : ∀ p, .played p ∉ H) :
    Spaced s H where
  closed before p later _ hH _ := absurd (by rw [hH]; simp) (h p)
  next before p later hH _ _ := absurd (by rw [hH]; simp) (h p)

/-- A single point has one slot. -/
theorem spaced_played {s : Sequencer ℚ} {p : Played ℚ} {K : List (Event ℚ)}
    (hK : ∀ q, .played q ∉ K) (hclosed : ∀ stop, slotEnd? K = some stop → stop = p.slotEnd)
    (hnext : LeavesOpen K → s.playback = .playing → Ticking p.slotEnd s) :
    Spaced s (.played p :: K) := by
  -- The only point of this history is the first event.
  have hfirst : ∀ before q later, Event.played p :: K = before ++ Event.played q :: later →
      q = p ∧ later = K := by
    intro before q later hsplit
    cases before with
    | nil =>
      obtain ⟨hq, rfl⟩ := List.cons.inj hsplit
      exact ⟨(Event.played.inj hq).symm, rfl⟩
    | cons e before =>
      obtain ⟨-, hrest⟩ := List.cons.inj hsplit
      exact absurd (by rw [hrest]; simp) (hK q)
  constructor
  case closed =>
    intro before q later stop hsplit hstop
    obtain ⟨rfl, rfl⟩ := hfirst before q later hsplit
    exact hclosed stop hstop
  case next =>
    intro before q later hsplit hopen hplaying
    obtain ⟨rfl, rfl⟩ := hfirst before q later hsplit
    exact hnext hopen hplaying

/-- More events add their own slots to those of a history.  If they end a slot they do so at the next
tick, and if they leave it open they leave the tick, too. -/
theorem Spaced.append {s s' : Sequencer ℚ} {H K : List (Event ℚ)} (h : Spaced s H)
    (hclosed : ∀ stop, slotEnd? K = some stop →
      s.playback = .playing ∧ ∀ time, Ticking time s → stop = time)
    (hnext : LeavesOpen K → s'.playback = .playing →
      s.playback = .playing ∧ ∀ time, Ticking time s → Ticking time s')
    (hK : Spaced s' K) : Spaced s' (H ++ K) where
  closed := by
    intro before p later stop hsplit hstop
    -- The point is one of the old events or of the new ones; if it is old, its slot may end in the
    -- new ones.
    rcases cases_of_append_eq hsplit with ⟨later', hH, rfl⟩ | ⟨before', hK'⟩
    · rcases cases_of_slotEnd?_append hstop with hstop | ⟨hopen, hstop⟩
      · exact h.closed before p later' stop hH hstop
      · obtain ⟨hplaying, htime⟩ := hclosed stop hstop
        exact htime _ (h.next before p later' hH hopen hplaying)
    · exact hK.closed before' p later stop hK' hstop
  next := by
    intro before p later hsplit hopen hplaying'
    rcases cases_of_append_eq hsplit with ⟨later', hH, rfl⟩ | ⟨before', hK'⟩
    · obtain ⟨hplaying, hticking⟩ :=
        hnext (fun e he => hopen e (List.mem_append_right _ he)) hplaying'
      exact hticking _ (h.next before p later' hH
        (fun e he => hopen e (List.mem_append_left _ he)) hplaying)
    · exact hK.next before' p later hK' hopen hplaying'

/-- A playback goes on ticking. -/
theorem ticking_move {request : Request ℚ} {s s' : Sequencer ℚ} {K : List (Event ℚ)}
    (h : s.playback = .playing → ∃ time, Ticking time s) (hmove : Move request s K s')
    (hplaying' : s'.playback = .playing) : ∃ time, Ticking time s' := by
  cases hmove with
  | prime hidle => cases hplaying'
  | pend pending hpriming => cases hpriming.symm.trans hplaying'
  | level hpriming hpending => cases hplaying'
  | levelAndStart now hpriming hpending => exact ⟨now, ticking_started now _⟩
  | start now hready hnow => exact ⟨now, ticking_started now _⟩
  | @play horizon time point hrequest hplaying hdue hpoint hlt =>
    obtain ⟨time', htick⟩ := h hplaying
    -- What is due is the next tick, and the one behind it is as far away as the point says.
    obtain rfl := htick.eq_of_due? hdue
    exact ⟨_, htick.play point⟩
  | playLast hrequest hplaying hdue hpoint hlt => cases hplaying'
  | runOut hrequest hplaying hdue hpoint => cases hplaying'
  | stop now hplaying hnow =>
    rw [playback_rewindUnplayed] at hplaying'
    cases hplaying'
  | toggleMute label hrequest =>
    exact (h hplaying').imp fun _ htick => htick.congr rfl rfl
  | seek hrequest hindex =>
    exact (h hplaying').imp fun _ htick => htick.congr rfl rfl
  | setTimeline timeline hrequest =>
    exact (h hplaying').imp fun _ htick => htick.congr rfl rfl

/-- **Every move keeps to the slots.** -/
theorem Spaced.move {request : Request ℚ} {s s' : Sequencer ℚ} {H K : List (Event ℚ)}
    (h : Spaced s H) (hticking : s.playback = .playing → ∃ time, Ticking time s)
    (hmove : Move request s K s') : Spaced s' (H ++ K) := by
  -- Most moves have no tick, and so end no slot.
  have hrest : ∀ {s' : Sequencer ℚ} {K : List (Event ℚ)}, slotEnd? K = none →
      (∀ p, .played p ∉ K) → (LeavesOpen K → s'.playback = .playing →
        s.playback = .playing ∧ ∀ time, Ticking time s → Ticking time s') → Spaced s' (H ++ K) :=
    fun hnone hK hnext => h.append (fun stop hstop => by rw [hnone] at hstop; cases hstop) hnext
      (spaced_of_forall_ne _ hK)
  cases hmove with
  | prime hidle => exact hrest rfl (by simp) fun _ hplaying => by cases hplaying
  | pend pending hpriming =>
    exact hrest rfl (by simp) fun _ hplaying => absurd (hpriming.symm.trans hplaying) (by decide)
  | level hpriming hpending => exact hrest rfl (by simp) fun _ hplaying => by cases hplaying
  | levelAndStart now hpriming hpending =>
    exact hrest rfl (by simp) fun hopen => by simpa using hopen (.started now) (by simp)
  | start now hready hnow =>
    exact hrest rfl (by simp) fun hopen => by simpa using hopen (.started now) (by simp)
  | @play horizon time point hrequest hplaying hdue hpoint hlt =>
    obtain ⟨time', htick⟩ := hticking hplaying
    obtain rfl := htick.eq_of_due? hdue
    refine h.append (fun stop hstop => ⟨hplaying, ?_⟩) (fun hopen => ?_)
      (spaced_played (by simp) (fun stop hstop => by cases hstop) fun _ _ => htick.play point)
    · obtain rfl := Option.some.inj hstop
      exact fun _ htick' => htick'.eq_of_due? hdue
    · simpa using hopen _ (List.mem_singleton_self _)
  | @playLast horizon time point hrequest hplaying hdue hpoint hlt =>
    refine h.append (fun stop hstop => ⟨hplaying, ?_⟩) (fun hopen => ?_)
      (spaced_played (by simp) (fun stop hstop => ?_) fun _ hplaying' => by cases hplaying')
    · obtain rfl := Option.some.inj hstop
      exact fun _ htick' => htick'.eq_of_due? hdue
    · exact fun hplaying' => by cases hplaying'
    · -- The last point sounds for a sixteenth of its own.
      rw [← Option.some.inj hstop, pulse_seconds]
      rfl
  | runOut hrequest hplaying hdue hpoint =>
    refine h.append (fun stop hstop => ⟨hplaying, ?_⟩) (fun hopen => ?_)
      (spaced_of_forall_ne _ (by simp))
    · obtain rfl := Option.some.inj hstop
      exact fun _ htick' => htick'.eq_of_due? hdue
    · simpa using hopen _ (List.mem_singleton_self _)
  | stop now hplaying hnow =>
    exact hrest rfl (by simp) fun hopen => by simpa using hopen _ (List.mem_singleton_self _)
  | toggleMute label hrequest =>
    exact hrest rfl (by simp) fun _ hplaying => ⟨hplaying, fun _ h' => h'.congr rfl rfl⟩
  | seek hrequest hindex =>
    exact hrest rfl (by simp) fun _ hplaying => ⟨hplaying, fun _ h' => h'.congr rfl rfl⟩
  | setTimeline timeline hrequest =>
    exact hrest rfl (by simp) fun _ hplaying => ⟨hplaying, fun _ h' => h'.congr rfl rfl⟩

/-- **Every run keeps to the slots.** -/
theorem spaced_run (timeline : Timeline ℚ) (registry : Registry) (steps : List (Bool × Request ℚ)) :
    Spaced (run steps (new timeline registry)).1 (history steps (new timeline registry)) := by
  refine (history_induction
    (motive := fun s H => (s.playback = .playing → ∃ time, Ticking time s) ∧ Spaced s H)
    steps (new timeline registry) ⟨?_, ?_⟩ ?_).2
  · exact fun hplaying => by cases hplaying
  · exact spaced_of_forall_ne _ fun _ => List.not_mem_nil
  · exact fun s H q K s' _ h hmove => ⟨ticking_move h.1 hmove, h.2.move h.1 hmove⟩

/-- The tempos of the points that were played, and of the transport before them, are those of the
timelines that the sequencer has had. -/
theorem knownTempo_of_played (timeline : Timeline ℚ) (registry : Registry)
    (steps : List (Bool × Request ℚ)) {p : Played ℚ}
    (hp : .played p ∈ history steps (new timeline registry)) :
    KnownTempo (installed timeline steps) p.tick.tempo ∧
      KnownTempo (installed timeline steps) ((p.point.tempo : Nat) : ℚ) := by
  refine (history_induction
    (motive := fun s H => InTempo (installed timeline steps) s ∧ ∀ p, .played p ∈ H →
      KnownTempo (installed timeline steps) p.tick.tempo ∧
        KnownTempo (installed timeline steps) ((p.point.tempo : Nat) : ℚ))
    steps (new timeline registry)
    ⟨inTempo_of_sent_nil (List.mem_cons_self ..) (.inl rfl) rfl, by simp⟩ ?_).2 p hp
  intro s H q K s' hq h hmove
  refine ⟨h.1.move hmove fun timeline' h' =>
    List.mem_cons_of_mem _ (List.mem_filterMap.2 ⟨q, hq, h'⟩), fun p hmem => ?_⟩
  rcases List.mem_append.1 hmem with hmem | hmem
  · exact h.2 p hmem
  -- A move plays at most one point, at the tempo of the transport that it starts from.
  · cases hmove with
    | play hrequest hplaying hdue hpoint hlt =>
      obtain rfl := Event.played.inj (List.mem_singleton.1 hmem)
      exact ⟨h.1.tempo, h.1.tempo_of_current? hpoint⟩
    | playLast hrequest hplaying hdue hpoint hlt =>
      simp only [List.mem_cons, Event.played.injEq, reduceCtorEq, List.not_mem_nil,
        or_false] at hmem
      subst hmem
      exact ⟨h.1.tempo, h.1.tempo_of_current? hpoint⟩
    | _ => simp at hmem

/-! ### The calls of a point -/

/-- A call at `time` that is on the tick of its point, or in a point whose tempo is less than twice
the one before it. -/
def Played.KeepsSlot (p : Played ℚ) (time : ℚ) : Prop :=
  time = p.tick.time ∨ (p.point.tempo : ℚ) < 2 * p.tick.tempo

/-- **Which calls are made in the slot of their point.** -/
theorem Played.lt_slotEnd_iff {registry : Registry} {p : Played ℚ} (hbefore : 0 < p.tick.tempo)
    (htempo : 0 < (p.point.tempo : ℚ)) {c : VoiceCall ℚ} (hc : c ∈ p.calls registry) {time : ℚ}
    (ht : c.time? = some time) : p.tick.time ≤ time ∧ (time < p.slotEnd ↔ p.KeepsSlot time) := by
  obtain ⟨time', ht', hcase⟩ := Played.time_of_mem_calls hc
  obtain rfl : time = time' := Option.some.inj (ht.symm.trans ht')
  have hpulse : 0 < 15 / (p.point.tempo : ℚ) := by positivity
  have hdelay : 0 < 15 / 2 / p.tick.tempo := by positivity
  -- Half a sixteenth at one tempo against a sixteenth at the other.
  rcases hcase with rfl | ⟨-, rfl⟩
  · exact ⟨le_refl _, iff_of_true (by rw [slotEnd]; linarith) (.inl rfl)⟩
  · refine ⟨by linarith, ?_⟩
    rw [slotEnd, add_lt_add_iff_left, div_lt_div_iff₀ hbefore htempo, KeepsSlot,
      or_iff_right (by linarith)]
    constructor <;> intro h <;> linarith

/-! ### The slots of a run -/

/-- The slot of a point is over when a later point of the same pass comes, and when the pass ends. -/
theorem Spaced.slotEnd_le {s : Sequencer ℚ} {H before F mid later : List (Event ℚ)} {p : Played ℚ}
    {stop : ℚ} (h : Spaced s H) (hH : H = before ++ Event.played p :: (F ++ (mid ++ later)))
    (hF : LeavesOpen F) (hmid : ∀ e ∈ mid, e.cutAt? = none) (hstop : slotEnd? later = some stop) :
    p.slotEnd ≤ stop := by
  -- The points between are passed one by one; `F` is what stands behind the last of them.
  induction mid generalizing before F p with
  | nil =>
    rw [← slotEnd?_append_of_leavesOpen hF] at hstop
    exact (h.closed before p _ stop hH hstop).ge
  | cons e mid ih =>
    have hrest : ∀ e' ∈ mid, e'.cutAt? = none := fun e' he' => hmid e' (List.mem_cons_of_mem e he')
    have hskip : (e = .levelled ∨ e = .forgotten) → p.slotEnd ≤ stop := by
      intro he
      refine ih (F := F ++ [e]) (by simpa using hH) (fun e' he' => ?_) hrest
      rcases List.mem_append.1 he' with he' | he'
      · exact hF e' he'
      · exact List.mem_singleton.1 he' ▸ he
    have hcut := hmid e (List.mem_cons_self ..)
    cases e with
    | levelled => exact hskip (.inl rfl)
    | forgotten => exact hskip (.inr rfl)
    | played q =>
      have hsplit : H =
          (before ++ Event.played p :: F) ++ Event.played q :: ([] ++ (mid ++ later)) := by
        simpa using hH
      have hq : q.slotEnd ≤ stop := ih hsplit (fun e' he' => absurd he' List.not_mem_nil) hrest
      have hnext : q.tick.time = p.slotEnd := by
        refine h.closed before p _ _ hH ?_
        rw [slotEnd?_append_of_leavesOpen hF]
        rfl
      have hpulse : 0 ≤ 15 / (q.point.tempo : ℚ) := by positivity
      rw [Played.slotEnd] at hq
      linarith
    | started now => cases hcut
    | finished time => cases hcut
    | stopped now => cases hcut

/-- **The calls of a point keep to its slot** unless the tempo doubles there.  A piece is laid out
from a score, and so is every one that takes its place.  Then, whatever the sequencer was asked for,
each call of a point is made on its tick, or a thirty-second later if it belongs to an accented
stroke.  A call on the tick, or in a point whose tempo is less than twice the one before it, is made
before the next point comes and before the end of the playback; any other is not made before the
next point comes.  So the calls that keep to their slots are made before all those of later points of
the same pass, and before the cut at its end. -/
theorem calls_in_slots (score : Score) (registry : Registry) (steps : List (Bool × Request ℚ))
    (hscores : ∀ q ∈ steps, ∀ timeline, q.2 = .setTimeline timeline →
      ∃ score, timeline = .ofScore score) :
    let H := history steps (new (.ofScore score) registry)
    calls (run steps (new (.ofScore score) registry)).2 = callsOf registry H ∧
    ∀ before p behind, H = before ++ Event.played p :: behind → ∀ c ∈ p.calls registry,
      ∃ time, c.time? = some time ∧ p.tick.time ≤ time ∧
        (time = p.tick.time ∨
          p.HasLateStroke registry ∧ time = p.tick.time + 15 / 2 / p.tick.tempo) ∧
        (∀ stop, slotEnd? behind = some stop → p.KeepsSlot time → time < stop) ∧
        (∀ between q later, behind = between ++ Event.played q :: later → LeavesOpen between →
          time < q.tick.time → p.KeepsSlot time) ∧
        (p.KeepsSlot time → ∀ mid later, behind = mid ++ later → (∀ e ∈ mid, e.cutAt? = none) →
          (∀ q rest, later = .played q :: rest → ∀ c' ∈ q.calls registry, ∀ time',
            c'.time? = some time' → time < time') ∧
          ∀ stop rest, later = .finished stop :: rest → time < stop) := by
  intro H
  have hspaced := spaced_run (.ofScore score) registry steps
  have hinstalled := exists_score_of_mem_installed score hscores
  -- No tempo that a score can set is zero.
  have htempos : ∀ p, .played p ∈ H → 0 < p.tick.tempo ∧ 0 < (p.point.tempo : ℚ) := by
    intro p hp
    obtain ⟨hbefore, htempo⟩ := knownTempo_of_played (.ofScore score) registry steps hp
    exact ⟨one_pos.trans_le (hbefore.one_le hinstalled), one_pos.trans_le (htempo.one_le hinstalled)⟩
  refine ⟨calls_run steps _, fun before p behind hH c hc => ?_⟩
  have hp : .played p ∈ H := by rw [hH]; simp
  obtain ⟨time, htime, hcase⟩ := Played.time_of_mem_calls hc
  obtain ⟨hle, hslot⟩ := Played.lt_slotEnd_iff (htempos p hp).1 (htempos p hp).2 hc htime
  refine ⟨time, htime, hle, hcase, ?_, ?_, ?_⟩
  · intro stop hstop hkeeps
    rw [hspaced.closed before p behind stop hH hstop]
    exact hslot.2 hkeeps
  · rintro between q later rfl hbetween hlt
    refine hslot.1 ?_
    rwa [← hspaced.closed before p _ q.tick.time hH (slotEnd?_append_of_leavesOpen hbetween _)]
  · rintro hkeeps mid later rfl hmid
    -- Without a cut in between, the slot is over by any later tick, and by the end.
    have hend : ∀ stop, slotEnd? later = some stop → time < stop := fun stop hstop =>
      (hslot.2 hkeeps).trans_le (hspaced.slotEnd_le (F := []) hH
        (fun e he => absurd he List.not_mem_nil) hmid hstop)
    constructor
    · rintro q rest rfl c' hc' time' htime'
      have hq : .played q ∈ H := by rw [hH]; simp
      exact (hend _ rfl).trans_le
        (Played.lt_slotEnd_iff (htempos q hq).1 (htempos q hq).2 hc' htime').1
    · rintro stop rest rfl
      exact hend stop rfl

/-- The short piece: its accented point has a slot of a quarter of a second. -/
theorem calls_in_slots_shortPiece :
    let steps : List (Bool × Request ℚ) := [(true, .play 0), (true, .poll 10)]
    (∀ q ∈ steps, ∀ timeline, q.2 = .setTimeline timeline → ∃ score, timeline = .ofScore score) ∧
      ∃ p behind, history steps duoSequencer = .levelled :: .started 0 :: .played p :: behind ∧
        p.HasLateStroke duo ∧ slotEnd? behind = some (1 / 4) ∧
        ∀ c ∈ p.calls duo, ∃ time, c.time? = some time ∧ p.tick.time ≤ time ∧ time < 1 / 4 := by
  intro steps
  have hscores : ∀ q ∈ steps, ∀ timeline, q.2 = .setTimeline timeline →
      ∃ score, timeline = .ofScore score := by
    intro q hq timeline hrequest
    simp only [steps, List.mem_cons, List.not_mem_nil, or_false] at hq
    rcases hq with rfl | rfl
    · cases hrequest
    · cases hrequest
  let p : Played ℚ := ⟨⟨0, 0, 120⟩, ⟨0, 0, 0, 0, 60, [⟨"rr", 'É'⟩]⟩, []⟩
  have hhistory : history [(true, .play 0), (true, .poll 10)] duoSequencer =
      [.levelled, .started 0, .played p,
        .played ⟨⟨1, 1 / 4, 60⟩, ⟨1, 1, 0, 1, 120, [⟨"r1", 'U'⟩]⟩, []⟩,
        .played ⟨⟨2, 3 / 8, 120⟩, ⟨2, 1, 1, 3 / 2, 120, [⟨"r1", '.'⟩, ⟨"rr", 'E'⟩]⟩, []⟩,
        .finished (1 / 2)] := by cbv
  have hlate : p.HasLateStroke duo := by
    have hresolve : duo.resolve "rr" (baseLetter 'É') = [("r1", 0), ("r2", 0)] := by cbv
    refine ⟨⟨"rr", 'É'⟩, List.mem_singleton_self _, List.not_mem_nil, by cbv, ?_⟩
    rw [hresolve]
    exact List.cons_ne_nil _ _
  refine ⟨hscores, p, _, hhistory, hlate, rfl, fun c hc => ?_⟩
  obtain ⟨time, htime, hle, -, hslot, -⟩ :=
    (calls_in_slots shortPiece duo steps hscores).2 [.levelled, .started 0] p _ hhistory c hc
  exact ⟨time, htime, hle, hslot _ rfl (.inr (by norm_num [p]))⟩

/-- A piece that goes on four times as fast with an accent. -/
def doublingPiece : Sequencer ℚ :=
  new (.ofScore ⟨"", "", [⟨0, "A", 60, [⟨"r1", ['E']⟩]⟩, ⟨1, "B", 240, [⟨"r1", ['É', 'E']⟩]⟩]⟩) duo

/-- **An accented stroke may leave its slot**, where the tempo doubles: it is made after the stroke
of the next point, which was to choke it. -/
theorem accent_outside_slot :
    ∃ before p q later,
      history [(true, .play 0), (true, .poll 10)] doublingPiece =
        before ++ Event.played p :: Event.played q :: later ∧
      .trigger "r1" 0 (3 / 8) ∈ p.calls duo ∧ .trigger "r1" 0 (5 / 16) ∈ q.calls duo ∧
      q.tick.time = 5 / 16 ∧ ¬(3 / 8 < q.tick.time) := by
  have hhistory : history [(true, .play 0), (true, .poll 10)] doublingPiece =
      [.levelled, .started 0, .played ⟨⟨0, 0, 120⟩, ⟨0, 0, 0, 0, 60, [⟨"r1", 'E'⟩]⟩, []⟩,
        .played ⟨⟨1, 1 / 4, 60⟩, ⟨1, 1, 0, 1, 240, [⟨"r1", 'É'⟩]⟩, []⟩,
        .played ⟨⟨2, 5 / 16, 240⟩, ⟨2, 1, 1, 5 / 4, 240, [⟨"r1", 'E'⟩]⟩, []⟩,
        .finished (3 / 8)] := by cbv
  have hp : (⟨⟨1, 1 / 4, 60⟩, ⟨1, 1, 0, 1, 240, [⟨"r1", 'É'⟩]⟩, []⟩ : Played ℚ).calls duo =
      [.release "r1" (3 / 8), .trigger "r1" 0 (3 / 8)] := by cbv
  have hq : (⟨⟨2, 5 / 16, 240⟩, ⟨2, 1, 1, 5 / 4, 240, [⟨"r1", 'E'⟩]⟩, []⟩ : Played ℚ).calls duo =
      [.release "r1" (5 / 16), .trigger "r1" 0 (5 / 16)] := by cbv
  refine ⟨[_, _, _], _, _, _, hhistory, ?_, ?_, rfl, by norm_num⟩
  · rw [hp]
    exact List.mem_cons_of_mem _ (List.mem_cons_self ..)
  · rw [hq]
    exact List.mem_cons_of_mem _ (List.mem_cons_self ..)

end Gamelan.Sequencer

import Gamelan.Proofs.Performance.Pass

namespace Gamelan.Sequencer

/-!
# Interrupted passes

A stop takes back the points whose ticks are still to come.  A pass may be stopped and gone on with
any number of times; this file says what such a history looks like, and what survives of it.

* `surviving` — the points of a history that no stop takes back.
* `exists_cut`, `find?_cut` — where a stop cuts a pass.
* `Interrupted` — the histories of a pass with stops in it.
* `Interrupted.map_content_surviving` — what survives of them is the pass.
* `Interrupted.exists_pass_of_started` — every playback goes on where the ones before were cut.
-/

/-! ### What survives -/

/-- The instant of the stop that ends the playback which some events go on with, if a stop does. -/
def cutOff? : List (Event ℚ) → Option ℚ
  | [] => none
  | .stopped now :: _ => some now
  | .started _ :: _ => none
  | .finished _ :: _ => none
  | _ :: rest => cutOff? rest

/-- The points that survive: no later stop of the same playback is before their ticks. -/
def surviving : List (Event ℚ) → List (Played ℚ)
  | [] => []
  | .played p :: rest =>
    if (cutOff? rest).any (· < p.tick.time) then surviving rest else p :: surviving rest
  | _ :: rest => surviving rest

/-- What a point is played with, but for the time. -/
def Played.content (p : Played ℚ) : Nat × ℚ × Point ℚ × List String :=
  (p.tick.index, p.tick.tempo, p.point, p.muted)

/-- The same point, played later. -/
def Played.later (delay : ℚ) (p : Played ℚ) : Played ℚ :=
  { p with tick := { p.tick with time := p.tick.time + delay } }

@[simp] theorem surviving_nil : surviving [] = [] := rfl

@[simp] theorem surviving_levelled (H : List (Event ℚ)) :
    surviving (.levelled :: H) = surviving H := rfl

@[simp] theorem surviving_started (now : ℚ) (H : List (Event ℚ)) :
    surviving (.started now :: H) = surviving H := rfl

@[simp] theorem surviving_finished (time : ℚ) (H : List (Event ℚ)) :
    surviving (.finished time :: H) = surviving H := rfl

@[simp] theorem surviving_stopped (now : ℚ) (H : List (Event ℚ)) :
    surviving (.stopped now :: H) = surviving H := rfl

/-- Ticks cut nothing off. -/
theorem cutOff?_map_played (ps : List (Played ℚ)) (H : List (Event ℚ)) :
    cutOff? (ps.map .played ++ H) = cutOff? H := by
  induction ps with
  | nil => rfl
  | cons p ps ih => exact ih

/-- Without a stop, all points survive. -/
theorem surviving_of_cutOff?_none (ps : List (Played ℚ)) {H : List (Event ℚ)}
    (h : cutOff? H = none) : surviving (ps.map .played ++ H) = ps ++ surviving H := by
  induction ps with
  | nil => rfl
  | cons p ps ih =>
    rw [List.map_cons, List.cons_append, surviving, cutOff?_map_played, h, ih]
    rfl

/-- A stop after all ticks leaves them as they are. -/
theorem surviving_kept (ps : List (Played ℚ)) {stop : ℚ} {H : List (Event ℚ)}
    (hstop : cutOff? H = some stop) (h : ∀ p ∈ ps, p.tick.time ≤ stop) :
    surviving (ps.map .played ++ H) = ps ++ surviving H := by
  induction ps with
  | nil => rfl
  | cons p ps ih =>
    have hp : ¬stop < p.tick.time := not_lt.2 (h p (List.mem_cons_self ..))
    rw [List.map_cons, List.cons_append, surviving, cutOff?_map_played, hstop,
      ih fun q hq => h q (List.mem_cons_of_mem _ hq)]
    simp [hp]

/-- A stop before all ticks takes them back. -/
theorem surviving_takenBack (ps : List (Played ℚ)) {stop : ℚ} {H : List (Event ℚ)}
    (hstop : cutOff? H = some stop) (h : ∀ p ∈ ps, stop < p.tick.time) :
    surviving (ps.map .played ++ H) = surviving H := by
  induction ps with
  | nil => rfl
  | cons p ps ih =>
    have hp : stop < p.tick.time := h p (List.mem_cons_self ..)
    rw [List.map_cons, List.cons_append, surviving, cutOff?_map_played, hstop,
      ih fun q hq => h q (List.mem_cons_of_mem _ hq)]
    simp [hp]

/-! ### A pass at another time -/

section
variable (muted : List String)

/-- A pass that starts later is the same one, later. -/
theorem pass_later (index : Nat) (time delay tempo : ℚ) (points : List (Point ℚ)) :
    pass muted index (time + delay) tempo points =
      (pass muted index time tempo points).map (Played.later delay) := by
  induction points generalizing index time tempo with
  | nil => rfl
  | cons p rest ih =>
    rw [pass, pass, List.map_cons, ← ih, add_right_comm]
    rfl

/-- What a pass plays does not depend on when it starts. -/
theorem map_content_pass (index : Nat) (time time' tempo : ℚ) (points : List (Point ℚ)) :
    (pass muted index time' tempo points).map Played.content =
      (pass muted index time tempo points).map Played.content := by
  rw [← add_sub_cancel time time', pass_later, List.map_map]
  rfl

/-- The rest of a pass is a pass of its own, from the tempo and the time that are reached. -/
theorem drop_pass (index : Nat) (time tempo : ℚ) (first rest : List (Point ℚ)) :
    (pass muted index time tempo (first ++ rest)).drop first.length =
      pass muted (index + first.length) (passEnd time first) (tempoAfter tempo first) rest := by
  rw [pass_append, List.drop_left' (length_pass muted index time tempo first)]

/-! ### Where a stop cuts -/

/-- A stop cuts a pass in two: the ticks up to it and the ticks after it. -/
theorem exists_cut (index : Nat) (time tempo stop : ℚ) (points : List (Point ℚ)) :
    ∃ kept back, points = kept ++ back ∧
      (∀ p ∈ pass muted index time tempo kept, p.tick.time ≤ stop) ∧
      ∀ p ∈ pass muted (index + kept.length) (passEnd time kept) (tempoAfter tempo kept) back,
        stop < p.tick.time := by
  induction points generalizing index time tempo with
  | nil => exact ⟨[], [], rfl, by simp [pass], by simp [pass]⟩
  | cons q rest ih =>
    -- Ticks only get later, so the first one after the stop is where it cuts.
    by_cases hlt : stop < time
    · refine ⟨[], q :: rest, rfl, by simp [pass], fun p hp => ?_⟩
      exact lt_of_lt_of_le hlt (le_time_of_mem_pass muted hp).1
    · obtain ⟨kept, back, hsplit, hkept, hback⟩ :=
        ih (index + 1) (time + 15 / (q.tempo : ℚ)) (q.tempo : ℚ)
      refine ⟨q :: kept, back, by rw [hsplit, List.cons_append], ?_, ?_⟩
      · intro p hp
        rcases List.mem_cons.1 hp with rfl | hp
        · exact not_lt.1 hlt
        · exact hkept p hp
      · rwa [List.length_cons, Nat.add_comm kept.length 1, ← Nat.add_assoc]

/-- The first tick after the cut is the one that a stop finds. -/
theorem find?_cut {index : Nat} {time tempo stop : ℚ} {kept back : List (Point ℚ)}
    (hkept : ∀ p ∈ pass muted index time tempo kept, p.tick.time ≤ stop)
    (hback : ∀ p ∈ pass muted (index + kept.length) (passEnd time kept) (tempoAfter tempo kept)
      back, stop < p.tick.time) :
    ((pass muted index time tempo (kept ++ back)).map (·.tick)).find? (stop < ·.time) =
      back.head?.map fun _ => ⟨index + kept.length, passEnd time kept, tempoAfter tempo kept⟩ := by
  have hnone : ((pass muted index time tempo kept).map (·.tick)).find? (stop < ·.time) = none := by
    rw [List.find?_eq_none]
    intro tick htick
    obtain ⟨p, hp, rfl⟩ := List.mem_map.1 htick
    simpa using hkept p hp
  rw [pass_append, List.map_append, List.find?_append, hnone, Option.none_or]
  cases back with
  | nil => rfl
  | cons q rest =>
    have hq := hback _ (List.mem_cons_self ..)
    simp only [pass, List.map_cons, List.find?_cons, List.head?_cons, Option.map_some]
    simp only [decide_eq_true hq]

/-- Of a pass that is stopped, the ticks up to the cut survive. -/
theorem surviving_cut {index : Nat} {now tempo stop : ℚ} {kept back : List (Point ℚ)}
    (hkept : ∀ p ∈ pass muted index now tempo kept, p.tick.time ≤ stop)
    (hback : ∀ p ∈ pass muted (index + kept.length) (passEnd now kept) (tempoAfter tempo kept)
      back, stop < p.tick.time) (H : List (Event ℚ)) :
    surviving ((pass muted index now tempo (kept ++ back)).map .played ++ .stopped stop :: H) =
      pass muted index now tempo kept ++ surviving H := by
  have hcut : cutOff? (.stopped stop :: H) = some stop := rfl
  rw [pass_append, List.map_append, List.append_assoc,
    surviving_kept _ (by rw [cutOff?_map_played, hcut]) hkept, surviving_takenBack _ hcut hback,
    surviving_stopped]

theorem index_of_mem_pass {index : Nat} {time tempo : ℚ} {points : List (Point ℚ)} {p : Played ℚ}
    (hp : p ∈ pass muted index time tempo points) :
    index ≤ p.tick.index ∧ p.tick.index < index + points.length := by
  have hmem := List.mem_map_of_mem (f := fun p : Played ℚ => p.tick.index) hp
  rw [map_index_pass] at hmem
  obtain ⟨i, hi, heq⟩ := List.mem_range'.1 hmem
  omega

end

/-! ### Histories with stops in them -/

/-- The histories of a pass that is stopped and played on any number of times.  The first point has
an index and comes at a tempo of the transport; the points are those that survive and those that are
left to play. -/
inductive Interrupted (muted : List String) :
    Nat → ℚ → List (Point ℚ) → List (Point ℚ) → List (Event ℚ) → Prop where
  | rest (index : Nat) (tempo : ℚ) (left : List (Point ℚ)) :
      Interrupted muted index tempo [] left []
  | levelled {index : Nat} {tempo : ℚ} {done left : List (Point ℚ)} {H : List (Event ℚ)}
      (h : Interrupted muted index tempo done left H) :
      Interrupted muted index tempo done left (.levelled :: H)
  /-- The pass goes on. -/
  | underWay (index : Nat) (tempo now : ℚ) (done : List (Point ℚ)) {left : List (Point ℚ)}
      (hleft : left ≠ []) :
      Interrupted muted index tempo done left
        (.started now :: (pass muted index now tempo done).map .played)
  /-- The pass has come to its end. -/
  | completed (index : Nat) (tempo now : ℚ) (points : List (Point ℚ)) :
      Interrupted muted index tempo points []
        (.started now :: ((pass muted index now tempo points).map .played ++
          [.finished (passEnd now points)]))
  /-- The pass is stopped: the points after the cut are taken back, and it goes on from there. -/
  | stopped {index : Nat} {tempo : ℚ} {done left : List (Point ℚ)} {H : List (Event ℚ)}
      (now stop : ℚ) {kept back rest : List (Point ℚ)} (hrest : rest ≠ [])
      (hkept : ∀ p ∈ pass muted index now tempo kept, p.tick.time ≤ stop)
      (hback : ∀ p ∈ pass muted (index + kept.length) (passEnd now kept) (tempoAfter tempo kept)
        back, stop < p.tick.time)
      (hpoints : back ++ rest = done ++ left)
      (h : Interrupted muted (index + kept.length) (tempoAfter tempo kept) done left H) :
      Interrupted muted index tempo (kept ++ done) left
        (.started now :: ((pass muted index now tempo (kept ++ back)).map .played ++
          .stopped stop :: H))

namespace Interrupted

variable {muted : List String} {index : Nat} {tempo : ℚ} {done left : List (Point ℚ)}
  {H : List (Event ℚ)}

/-- **What survives is the pass**, but for the times. -/
theorem map_content_surviving (h : Interrupted muted index tempo done left H) (time : ℚ) :
    (surviving H).map Played.content = (pass muted index time tempo done).map Played.content := by
  induction h generalizing time with
  | rest => rfl
  | levelled _ ih => exact ih time
  | underWay index tempo now done hleft =>
    have hsurviving := surviving_of_cutOff?_none (pass muted index now tempo done) (H := []) rfl
    rw [List.append_nil] at hsurviving
    rw [surviving_started, hsurviving, surviving_nil, List.append_nil]
    exact map_content_pass muted index time now tempo done
  | completed index tempo now points =>
    rw [surviving_started, surviving_of_cutOff?_none _ rfl, surviving_finished, surviving_nil,
      List.append_nil]
    exact map_content_pass muted index time now tempo points
  | @stopped index tempo done left H now stop kept back rest hrest hkept hback hpoints h ih =>
    rw [surviving_started, surviving_cut muted hkept hback, pass_append, List.map_append,
      List.map_append, ih (passEnd time kept), map_content_pass muted index time now tempo kept]

/-- A pass whose last point was played has nothing left. -/
theorem left_eq_nil (h : Interrupted muted index tempo done left H) {p : Played ℚ}
    (hp : .played p ∈ H) (hlast : p.tick.index + 1 = index + (done ++ left).length) :
    left = [] := by
  induction h with
  | rest => simp at hp
  | levelled _ ih => exact ih (by simpa using hp) hlast
  | @underWay index tempo now done left hleft =>
    have hmem : p ∈ pass muted index now tempo done := by simpa using hp
    have hlt := index_of_mem_pass muted hmem
    rw [List.length_append] at hlast
    exact List.length_eq_zero_iff.1 (by omega)
  | completed => rfl
  | @stopped index tempo done left H now stop kept back rest hrest hkept hback hpoints h ih =>
    have hlen := congrArg List.length hpoints
    simp only [List.length_append] at hlen hlast
    have hcases : p ∈ pass muted index now tempo (kept ++ back) ∨ .played p ∈ H := by
      simpa using hp
    rcases hcases with hmem | hmem
    -- A playback that was cut had points left, so it did not get to the last one.
    · have hlt := index_of_mem_pass muted hmem
      have hpos := List.length_pos_iff.2 hrest
      rw [List.length_append] at hlt
      omega
    · refine ih hmem ?_
      rw [List.length_append]
      omega

/-- Points in a row at the head of a history are among those that the history starts with. -/
theorem prefix_of_map_played {seg ps : List (Played ℚ)} {after K : List (Event ℚ)}
    (h : ps.map .played ++ K = seg.map .played ++ after) (hK : ∀ p, .played p ∉ K.head?) :
    seg <+: ps := by
  induction seg generalizing ps with
  | nil => exact List.nil_prefix
  | cons q seg ih =>
    cases ps with
    | nil =>
      rw [List.map_nil, List.nil_append] at h
      rw [h] at hK
      exact absurd rfl (hK q)
    | cons p ps =>
      simp only [List.map_cons, List.cons_append, List.cons.injEq, Event.played.injEq] at h
      obtain ⟨rfl, h⟩ := h
      exact (List.prefix_cons_inj p).2 (ih h)

/-- A start behind points in a row is behind all of them. -/
theorem exists_of_started {ps : List (Played ℚ)} {before after K : List (Event ℚ)} {now : ℚ}
    (h : ps.map .played ++ K = before ++ .started now :: after) :
    ∃ before', before = ps.map .played ++ before' ∧ K = before' ++ .started now :: after := by
  induction ps generalizing before with
  | nil => exact ⟨before, rfl, h⟩
  | cons p ps ih =>
    cases before with
    | nil => simp at h
    | cons e before =>
      simp only [List.map_cons, List.cons_append, List.cons.injEq] at h
      obtain ⟨rfl, h⟩ := h
      obtain ⟨before', rfl, hK⟩ := ih h
      exact ⟨before', rfl, hK⟩

/-- **Every playback goes on where the ones before it were cut.**  Its ticks are those of a pass
from the first point that has not survived yet. -/
theorem exists_pass_of_started (h : Interrupted muted index tempo done left H)
    {before after : List (Event ℚ)} {now : ℚ} {seg : List (Played ℚ)}
    (hH : H = before ++ .started now :: (seg.map .played ++ after)) :
    ∃ first rest, done ++ left = first ++ rest ∧ first.length = (surviving before).length ∧
      seg <+: pass muted (index + first.length) now (tempoAfter tempo first) rest := by
  -- A start is that of the first playback of the run, if nothing is before it, or of a later one.
  induction h generalizing before with
  | rest => simp at hH
  | levelled _ ih =>
    cases before with
    | nil => simp at hH
    | cons e before =>
      simp only [List.cons_append, List.cons.injEq] at hH
      obtain ⟨rfl, hH⟩ := hH
      rw [surviving_levelled]
      exact ih hH
  | @underWay index tempo start done left hleft =>
    cases before with
    | nil =>
      simp only [List.nil_append, List.cons.injEq, Event.started.injEq] at hH
      obtain ⟨rfl, hH⟩ := hH
      rw [← List.append_nil (List.map _ _)] at hH
      exact ⟨[], done ++ left, rfl, rfl, (prefix_of_map_played hH (by simp)).trans
        (pass_prefix_append muted index start tempo done left)⟩
    | cons e before =>
      -- To play points starts no playback.
      have hmem : .started now ∈ (pass muted index start tempo done).map Event.played := by
        rw [(List.cons.inj hH).2]
        simp
      simp at hmem
  | completed index tempo start points =>
    cases before with
    | nil =>
      simp only [List.nil_append, List.cons.injEq, Event.started.injEq] at hH
      obtain ⟨rfl, hH⟩ := hH
      refine ⟨[], points, List.append_nil points, rfl, prefix_of_map_played hH (by simp)⟩
    | cons e before =>
      obtain ⟨before', -, hK⟩ := exists_of_started (List.cons.inj hH).2
      cases before' <;> simp at hK
  | @stopped index tempo done left H start stop kept back rest hrest hkept hback hpoints h ih =>
    have hall : kept ++ done ++ left = kept ++ back ++ rest := by
      rw [List.append_assoc, ← hpoints, List.append_assoc]
    cases before with
    | nil =>
      simp only [List.nil_append, List.cons.injEq, Event.started.injEq] at hH
      obtain ⟨rfl, hH⟩ := hH
      exact ⟨[], kept ++ back ++ rest, hall, rfl, (prefix_of_map_played hH (by simp)).trans
        (pass_prefix_append muted index start tempo (kept ++ back) rest)⟩
    | cons e before =>
      simp only [List.cons_append, List.cons.injEq] at hH
      obtain ⟨rfl, hH⟩ := hH
      -- The start is behind the cut, and what survives of the first playback is what it kept.
      obtain ⟨before', rfl, hK⟩ := exists_of_started hH
      cases before' with
      | nil => simp at hK
      | cons e before' =>
        simp only [List.cons_append, List.cons.injEq] at hK
        obtain ⟨rfl, hK⟩ := hK
        obtain ⟨first, rest', hsplit, hlength, hseg⟩ := ih hK
        refine ⟨kept ++ first, rest', ?_, ?_, ?_⟩
        · rw [List.append_assoc, hsplit, List.append_assoc]
        · rw [surviving_started, surviving_cut muted hkept hback, List.length_append,
            List.length_append, hlength, length_pass]
        · rwa [List.length_append, tempoAfter_append, ← Nat.add_assoc]

end Interrupted

end Gamelan.Sequencer

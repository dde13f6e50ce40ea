import Mathlib
import Gamelan.Proofs.Performance.Pass
import Gamelan.Proofs.Performance.Stages

namespace Gamelan

/-!
# How often a sequencer is polled

A program may poll often or seldom.  Once the voices are there, only how far the polls look counts:
some polls have the effects of the last one alone, if none of them looks further.

* `Transport.due?_of_le` — a tick that is due stays so.
* `Sequencer.runDue_runDue` — two polls are one.
* `Sequencer.run_polls_eq_last` — some polls are one.

Nothing here asks anything of the times but an order, and nothing of the tempos.
-/

/-- A tick that is due at an instant is due at any later one. -/
theorem Transport.due?_of_le {τ : Type} [Preorder τ] [DecidableLE τ] {t : Transport τ}
    {horizon later time : τ} (h : t.due? horizon = some time) (hle : horizon ≤ later) :
    t.due? later = some time := by
  unfold due? at h ⊢
  cases htick : t.tick? with
  | none =>
    rw [htick] at h
    cases h
  | some tick =>
    rw [htick] at h
    obtain ⟨⟨hstarted, hdue⟩, htime⟩ := Option.ite_none_right_eq_some.1 h
    rw [← htime]
    exact if_pos ⟨hstarted, le_trans hdue hle⟩

namespace Sequencer

variable {τ : Type}

/-- Steps can be put together in any order. -/
theorem andThen_assoc (first : Step τ) (second third : Sequencer τ → Step τ) :
    (first.andThen second).andThen third = first.andThen fun s => (second s).andThen third := by
  simp only [Step.andThen, List.append_assoc]

variable [NatCast τ] [Add τ] [Div τ] [BEq τ]

section
variable [LE τ] [DecidableLE τ]

/-- A poll leaves a sequencer that does not wait for its voices so. -/
theorem runDue_ne_priming (horizon : τ) {s : Sequencer τ} (h : s.playback ≠ .priming) :
    (s.runDue horizon).1.playback ≠ .priming := by
  cases hplaying : s.isPlaying with
  | false => rwa [(runDue_of_not_playing horizon hplaying).1]
  | true =>
    have hloaded : s.playback.Loaded := by
      rw [show s.playback = .playing by simpa [isPlaying] using hplaying]
      exact .playing
    exact (Playback.loaded_iff.1 ((leads_runDue horizon s).loaded hloaded)).2

/-- A sequencer that does not wait for its voices does not ask whether they are ready. -/
theorem act_poll_of_ne_priming [LT τ] [DecidableLT τ] {s : Sequencer τ} (ready : Bool) (horizon : τ)
    (h : s.playback ≠ .priming) : s.act ready (.poll horizon) = s.runDue horizon := by
  rw [act, poll, if_neg h]
  rfl

end

variable [Preorder τ] [DecidableLE τ]

/-- **Two polls are one**, if the second looks as far as the first: the ticks due at the first come
first in the second, and it goes on from where they lead. -/
theorem runDue_runDue {horizon later : τ} (hle : horizon ≤ later) (s : Sequencer τ) :
    (s.runDue horizon).andThen (runDue later) = s.runDue later := by
  fun_induction runDue horizon s with
  | case1 s hplaying hdue => rfl
  | case2 s hplaying time hdue ticked rest ih =>
    -- The tick is due at the later instant too, and both polls go on after it.
    calc Step.andThen (rest.1, ticked.2 ++ rest.2) (runDue later)
        = ticked.andThen fun s => (s.runDue horizon).andThen (runDue later) :=
          andThen_assoc ticked (runDue horizon) (runDue later)
      _ = (((ticked.1.runDue horizon).andThen (runDue later)).1,
            ticked.2 ++ ((ticked.1.runDue horizon).andThen (runDue later)).2) := rfl
      _ = s.runDue later := by rw [ih, runDue_of_due hplaying (Transport.due?_of_le hdue hle)]
  | case3 s hplaying => rfl

variable [DecidableLT τ]

/-- **Some polls are one.**  A sequencer that does not wait for its voices is polled some times, and
no poll looks further than the last.  Then it is in the state that the last poll alone would leave,
and all effects are the same, in the same order: what is polled for in between makes no difference,
also if the playback ends there. -/
theorem run_polls_eq_last (polls : List (Bool × τ)) (last : Bool × τ)
    (hle : ∀ q ∈ polls, q.2 ≤ last.2) {s : Sequencer τ} (h : s.playback ≠ .priming) :
    run ((polls ++ [last]).map fun q => (q.1, Request.poll q.2)) s =
      s.act last.1 (.poll last.2) := by
  induction polls generalizing s with
  | nil => simp [run, Step.andThen]
  | cons q rest ih =>
    obtain ⟨hfirst, hrest⟩ := List.forall_mem_cons.1 hle
    have hnext := runDue_ne_priming q.2 h
    calc run (((q :: rest) ++ [last]).map fun q => (q.1, Request.poll q.2)) s
        = (s.act q.1 (.poll q.2)).andThen
            (run ((rest ++ [last]).map fun q => (q.1, Request.poll q.2))) := rfl
      _ = (s.runDue q.2).andThen (runDue last.2) := by
          rw [act_poll_of_ne_priming q.1 q.2 h, Step.andThen, ih hrest hnext,
            act_poll_of_ne_priming last.1 last.2 hnext]
          rfl
      _ = s.act last.1 (.poll last.2) := by
          rw [runDue_runDue hfirst, act_poll_of_ne_priming last.1 last.2 h]

/-- The short piece, polled on its second tick, between ticks and past its end, and polled once. -/
theorem run_polls_eq_last_shortPiece :
    let s := (run [(true, .play 0)] duoSequencer).1
    (∀ q ∈ [(true, (1 / 4 : ℚ)), (false, 1 / 3)], q.2 ≤ (1 : ℚ)) ∧ s.playback ≠ .priming ∧
      run [(true, .poll (1 / 4)), (false, .poll (1 / 3)), (true, .poll 1)] s =
        s.act true (.poll 1) ∧
      (s.act true (.poll 1)).1.playback = .ready := by
  have hle : ∀ q ∈ [(true, (1 / 4 : ℚ)), (false, 1 / 3)], q.2 ≤ (1 : ℚ) := by
    intro q hq
    simp only [List.mem_cons, List.not_mem_nil, or_false] at hq
    rcases hq with rfl | rfl <;> norm_num
  have hplaying : (run [(true, .play 0)] duoSequencer).1.playback = .playing := by cbv
  have hpriming : (run [(true, .play 0)] duoSequencer).1.playback ≠ .priming := by
    rw [hplaying]
    decide
  have hready :
      ((run [(true, .play 0)] duoSequencer).1.act true (.poll 1)).1.playback = .ready := by cbv
  exact ⟨hle, hpriming, run_polls_eq_last _ (true, 1) hle hpriming, hready⟩

end Sequencer

end Gamelan

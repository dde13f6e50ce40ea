import Gamelan.Performance.Player
import Gamelan.Proofs.Performance.Priming
import Gamelan.Sound.Bank

namespace Gamelan

/-!
# What a bank sends

A bank turns a call into one command, or into none if it has no voice or no sound for it, and puts
the command behind those on their way.  The queue may refuse it, and refusals are counted.

* `SampleBank.command?` — the command of a call.
* `SampleBank.queued`, `SampleBank.emptied` — a bank with some more commands on their way, or none.
* `SampleBank.handleAll_eq` — what becomes of some calls if none of their commands is refused.
* `SampleBank.Accepts`, `SampleBank.accepts_handleAll` — what becomes of them if some are.
* `Player.voices_act` — what a request to a player makes of its bank.
-/

namespace SampleBank

variable {τ σ : Type}

/-! ### Sending -/

/-- A bank with some more commands on their way. -/
def queued (b : SampleBank τ σ) (cs : List (Command σ)) : SampleBank τ σ :=
  { b with queue := { b.queue with commands := b.queue.commands ++ cs } }

@[simp] theorem queued_nil (b : SampleBank τ σ) : b.queued [] = b := by
  simp [queued]

/-- Commands can be queued in two goes. -/
@[simp] theorem queued_queued (b : SampleBank τ σ) (cs more : List (Command σ)) :
    (b.queued cs).queued more = b.queued (cs ++ more) := by
  simp [queued]

/-- A bank whose commands have been taken. -/
def emptied (b : SampleBank τ σ) : SampleBank τ σ :=
  { b with queue := b.queue.clear }

/-- Sending touches nothing but the queue and the count of refusals. -/
theorem send_frame (b : SampleBank τ σ) (c : Command σ) :
    ∃ queue dropped, (b.send c).1 = { b with queue := queue, dropped := dropped } := by
  unfold send
  split
  · exact ⟨_, b.dropped, rfl⟩
  · exact ⟨b.queue, _, rfl⟩

/-- Refusals are never taken back. -/
theorem dropped_le_send (b : SampleBank τ σ) (c : Command σ) :
    b.dropped ≤ (b.send c).1.dropped := by
  unfold send
  split
  · exact Nat.le_refl _
  · exact Nat.le_succ _

/-- A queue without a bound refuses nothing. -/
theorem send_of_unbounded {b : SampleBank τ σ} (h : b.queue.capacity = none) (c : Command σ) :
    (b.send c).1 = b.queued [c] := by
  have hpush : b.queue.push? c = some { b.queue with commands := b.queue.commands ++ [c] } := by
    simp [CommandQueue.push?, CommandQueue.isFull, h]
  rw [send, hpush]
  rfl

/-- A command that is not refused is put behind the others. -/
theorem send_eq {b : SampleBank τ σ} {c : Command σ} (h : (b.send c).1.dropped ≤ b.dropped) :
    (b.send c).1 = b.queued [c] := by
  unfold send at h ⊢
  split
  · next queue hpush =>
    unfold CommandQueue.push? at hpush
    split at hpush
    · cases hpush
    · obtain rfl := Option.some.inj hpush
      rfl
  · next hpush =>
    rw [hpush] at h
    exact absurd h (Nat.not_succ_le_self _)

/-! ### Calls -/

variable [Gain σ]

/-- The command of a call.  What is not one of the instruments has no voice. -/
def command? (b : SampleBank τ σ) : VoiceCall τ → Option (Command σ)
  | .trigger instrument slot time =>
    (b.voice? instrument).bind fun voice =>
      (b.buffer? instrument slot).map fun sample => .trigger voice (b.frameOf time) sample
  | .release instrument time =>
    (b.voice? instrument).map fun voice => .release voice (b.frameOf time)
  | .setLevel instrument level =>
    (b.voice? instrument).map fun voice => .setGain voice (Gain.ofDecibels level)
  | .cancel after => some (.cancel (b.frameOf after))

/-- What is on its way or refused has no say in what is sent. -/
theorem command?_frame (b : SampleBank τ σ) (queue : CommandQueue σ) (dropped : Nat) :
    ({ b with queue := queue, dropped := dropped } : SampleBank τ σ).command? = b.command? := by
  funext call
  cases call <;> rfl

/-- What is on its way does not change what calls become. -/
@[simp] theorem command?_queued (b : SampleBank τ σ) (cs : List (Command σ)) :
    (b.queued cs).command? = b.command? :=
  b.command?_frame _ _

/-- Only a call that cancels becomes a command that does. -/
theorem cancel_not_mem_filterMap {b : SampleBank τ σ} {calls : List (VoiceCall τ)}
    (h : ∀ after, .cancel after ∉ calls) (after : Nat) :
    .cancel after ∉ calls.filterMap b.command? := by
  intro hmem
  obtain ⟨call, hcall, hc⟩ := List.mem_filterMap.1 hmem
  cases call with
  | trigger instrument slot time =>
    obtain ⟨voice, -, hc⟩ := Option.bind_eq_some_iff.1 hc
    obtain ⟨sample, -, hc⟩ := Option.map_eq_some_iff.1 hc
    cases hc
  | release instrument time =>
    obtain ⟨voice, -, hc⟩ := Option.map_eq_some_iff.1 hc
    cases hc
  | setLevel instrument level =>
    obtain ⟨voice, -, hc⟩ := Option.map_eq_some_iff.1 hc
    cases hc
  | cancel time => exact h time hcall

/-- A trigger is for one of the voices. -/
theorem lt_of_command?_eq_trigger {b : SampleBank τ σ} {call : VoiceCall τ} {voice frame : Nat}
    {sample : Array σ} (h : b.command? call = some (.trigger voice frame sample)) :
    voice < b.instruments.length := by
  cases call with
  | trigger instrument slot time =>
    obtain ⟨v, hv, hc⟩ := Option.bind_eq_some_iff.1 h
    obtain ⟨s, -, hc⟩ := Option.map_eq_some_iff.1 hc
    cases hc
    exact (List.findIdx?_eq_some_iff_getElem.1 hv).1
  | release instrument time =>
    obtain ⟨v, -, hc⟩ := Option.map_eq_some_iff.1 h
    cases hc
  | setLevel instrument level =>
    obtain ⟨v, -, hc⟩ := Option.map_eq_some_iff.1 h
    cases hc
  | cancel time => cases h

/-- A call is handled by sending its command. -/
theorem handle_fst (b : SampleBank τ σ) (call : VoiceCall τ) :
    (b.handle call).1 = match b.command? call with
      | some c => (b.send c).1
      | none => b := by
  cases call with
  | trigger instrument slot time =>
    cases hvoice : b.voice? instrument with
    | none => simp [handle, command?, hvoice]
    | some voice =>
      cases hbuffer : b.buffer? instrument slot <;> simp [handle, command?, hvoice, hbuffer]
  | release instrument time =>
    cases hvoice : b.voice? instrument <;> simp [handle, command?, hvoice]
  | setLevel instrument level =>
    cases hvoice : b.voice? instrument <;> simp [handle, command?, hvoice]
  | cancel after => rfl

/-- A call changes nothing but the queue and the refusals. -/
theorem handle_frame (b : SampleBank τ σ) (call : VoiceCall τ) :
    ∃ queue dropped, (b.handle call).1 = { b with queue := queue, dropped := dropped } := by
  rw [handle_fst]
  split
  · exact send_frame b _
  · exact ⟨b.queue, b.dropped, rfl⟩

/-- A call takes back no refusal. -/
theorem dropped_le_handle (b : SampleBank τ σ) (call : VoiceCall τ) :
    b.dropped ≤ (b.handle call).1.dropped := by
  rw [handle_fst]
  split
  · exact dropped_le_send b _
  · exact Nat.le_refl _

/-- A call that is not refused is queued. -/
theorem handle_eq {b : SampleBank τ σ} {call : VoiceCall τ}
    (h : (b.handle call).1.dropped ≤ b.dropped) :
    (b.handle call).1 = b.queued (b.command? call).toList := by
  rw [handle_fst] at h ⊢
  split
  · next c hc =>
    rw [hc] at h ⊢
    exact send_eq h
  · next hc =>
    rw [hc]
    exact (queued_nil b).symm

/-- A bank after some calls. -/
def handleAll (b : SampleBank τ σ) (calls : List (VoiceCall τ)) : SampleBank τ σ :=
  calls.foldl (fun b call => (b.handle call).1) b

/-- Calls touch nothing but the queue and the count of refusals. -/
theorem handleAll_frame (b : SampleBank τ σ) (calls : List (VoiceCall τ)) :
    ∃ queue dropped, b.handleAll calls = { b with queue := queue, dropped := dropped } := by
  induction calls generalizing b with
  | nil => exact ⟨b.queue, b.dropped, rfl⟩
  | cons call rest ih =>
    obtain ⟨queue, dropped, hcall⟩ := handle_frame b call
    obtain ⟨queue', dropped', hrest⟩ := ih (b.handle call).1
    exact ⟨queue', dropped', hrest.trans (by rw [hcall])⟩

theorem dropped_le_handleAll (b : SampleBank τ σ) (calls : List (VoiceCall τ)) :
    b.dropped ≤ (b.handleAll calls).dropped := by
  induction calls generalizing b with
  | nil => exact Nat.le_refl _
  | cons call rest ih => exact Nat.le_trans (dropped_le_handle b call) (ih _)

/-- **Calls are handled by sending their commands**, as long as none is refused. -/
theorem handleAll_eq {b : SampleBank τ σ} {calls : List (VoiceCall τ)}
    (h : (b.handleAll calls).dropped ≤ b.dropped) :
    b.handleAll calls = b.queued (calls.filterMap b.command?) := by
  induction calls generalizing b with
  | nil => exact (queued_nil b).symm
  | cons call rest ih =>
    have hrest : (b.handle call).1.dropped ≤ ((b.handle call).1.handleAll rest).dropped :=
      dropped_le_handleAll _ _
    -- Neither this call nor a later one adds to the refusals.
    have hcall := handle_eq (Nat.le_trans hrest h)
    have hih := ih (b := (b.handle call).1) (Nat.le_trans h (dropped_le_handle b call))
    show (b.handle call).1.handleAll rest = _
    rw [hih, hcall, queued_queued, command?_queued]
    cases hc : b.command? call <;> simp [hc]

/-! ### What is accepted -/

/-- A bank that was sent some commands: it has accepted some of them, in order, and refused the
others. -/
structure Accepts (b b' : SampleBank τ σ) (cs accepted : List (Command σ)) : Prop where
  bank_eq : b' = { b.queued accepted with dropped := b'.dropped }
  sublist : accepted.Sublist cs
  length_eq : accepted.length + b'.dropped = cs.length + b.dropped

omit [Gain σ] in
theorem Accepts.refl (b : SampleBank τ σ) : b.Accepts b [] [] where
  bank_eq := by rw [queued_nil]
  sublist := List.Sublist.refl _
  length_eq := rfl

omit [Gain σ] in
/-- What is accepted in two goes adds up. -/
theorem Accepts.trans {b b' b'' : SampleBank τ σ} {cs more accepted accepted' : List (Command σ)}
    (h : b.Accepts b' cs accepted) (h' : b'.Accepts b'' more accepted') :
    b.Accepts b'' (cs ++ more) (accepted ++ accepted') where
  bank_eq := by
    have hbank := h'.bank_eq
    rw [h.bank_eq] at hbank
    rw [hbank, ← queued_queued]
    rfl
  sublist := h.sublist.append h'.sublist
  length_eq := by
    have hfirst := h.length_eq
    have hsecond := h'.length_eq
    rw [List.length_append, List.length_append]
    omega

omit [Gain σ] in
/-- A command is accepted, or counted as refused. -/
theorem accepts_send (b : SampleBank τ σ) (c : Command σ) :
    ∃ accepted, b.Accepts (b.send c).1 [c] accepted := by
  by_cases h : (b.send c).1.dropped ≤ b.dropped
  · refine ⟨[c], ?_⟩
    rw [send_eq h]
    exact ⟨rfl, List.Sublist.refl _, rfl⟩
  · have hsend : (b.send c).1 = { b with dropped := b.dropped + 1 } := by
      unfold send at h ⊢
      split
      · next queue hpush =>
        rw [hpush] at h
        exact absurd (Nat.le_refl _) h
      · rfl
    refine ⟨[], ?_⟩
    rw [hsend]
    exact ⟨by rw [queued_nil], List.nil_sublist _, by simp [Nat.add_comm]⟩

/-- **Calls are handled by sending their commands**, and each of these is accepted or counted as
refused. -/
theorem accepts_handleAll (b : SampleBank τ σ) (calls : List (VoiceCall τ)) :
    ∃ accepted, b.Accepts (b.handleAll calls) (calls.filterMap b.command?) accepted := by
  induction calls generalizing b with
  | nil => exact ⟨[], .refl b⟩
  | cons call rest ih =>
    have hcall : ∃ accepted, b.Accepts (b.handle call).1 (b.command? call).toList accepted := by
      rw [handle_fst]
      cases b.command? call with
      | none => exact ⟨[], .refl b⟩
      | some c => exact accepts_send b c
    obtain ⟨accepted, hcall⟩ := hcall
    obtain ⟨accepted', hrest⟩ := ih (b.handle call).1
    have hcommand : (b.handle call).1.command? = b.command? := by
      obtain ⟨queue, dropped, hhandle⟩ := handle_frame b call
      rw [hhandle, command?_frame]
    rw [hcommand] at hrest
    have hsplit : (call :: rest).filterMap b.command? =
        (b.command? call).toList ++ rest.filterMap b.command? := by
      cases hc : b.command? call <;> simp [hc]
    rw [hsplit]
    exact ⟨accepted ++ accepted', hcall.trans hrest⟩

/-- A queue without a bound refuses no call. -/
theorem handleAll_of_unbounded {b : SampleBank τ σ} (h : b.queue.capacity = none)
    (calls : List (VoiceCall τ)) :
    (b.handleAll calls).queue.capacity = none ∧ (b.handleAll calls).dropped = b.dropped := by
  induction calls generalizing b with
  | nil => exact ⟨h, rfl⟩
  | cons call rest ih =>
    have hcall : ∃ cs, (b.handle call).1 = b.queued cs := by
      rw [handle_fst]
      split
      · exact ⟨_, send_of_unbounded h _⟩
      · exact ⟨[], (queued_nil b).symm⟩
    obtain ⟨cs, hcall⟩ := hcall
    have hrest := ih (b := (b.handle call).1) (by rw [hcall]; exact h)
    rw [show (b.handle call).1.dropped = b.dropped by rw [hcall]; rfl] at hrest
    exact hrest

/-! ### Priming -/

omit [Gain σ] in
/-- Priming a second time does nothing. -/
theorem prime_of_ready {b : SampleBank τ σ} (h : b.ready = true) : b.prime.1 = b := by
  rw [prime, if_pos h]

omit [Gain σ] in
/-- Priming leaves alone what is on its way. -/
theorem prime_frame (b : SampleBank τ σ) (queue : CommandQueue σ) (dropped : Nat) :
    ({ b with queue := queue, dropped := dropped } : SampleBank τ σ).prime.1 =
      { b.prime.1 with queue := queue, dropped := dropped } := by
  unfold prime
  split <;> rfl

omit [Gain σ] in
/-- Priming loads the sounds, and changes nothing else. -/
theorem prime_fst (b : SampleBank τ σ) :
    ∃ loaded, b.prime.1 = { b with loaded := loaded, ready := true } := by
  unfold prime
  split
  · next h => exact ⟨b.loaded, by rw [← h]⟩
  · exact ⟨_, rfl⟩

end SampleBank

/-! ### Requests -/

namespace Player

open Sequencer

variable {τ σ : Type} [Gain σ]

/-- Effects that do not load the voices are their calls. -/
theorem carryOutAll_fst (b : SampleBank τ σ) {effects : List (Effect τ)}
    (h : primings effects = 0) : (carryOutAll b effects).1 = b.handleAll (calls effects) := by
  induction effects generalizing b with
  | nil => rfl
  | cons e rest ih =>
    cases e with
    | prime => simp at h
    | call c => exact ih (b.handle c).1 (by simpa using h)
    | notice n => exact ih b (by simpa using h)

variable [NatCast τ] [Add τ] [Div τ] [BEq τ] [LE τ] [DecidableLE τ] [LT τ] [DecidableLT τ]

/-- **What a request makes of a bank.**  The bank handles the calls, and it is primed before them if
the request finds the sequencer idle and does not leave it so. -/
theorem voices_act (request : Request τ) (p : Player τ (SampleBank τ σ)) :
    (p.act request).1.voices =
      (if p.sequencer.playback = .idle ∧
          (p.sequencer.act p.readyAnswer request).1.playback ≠ .idle
        then p.voices.prime.1 else p.voices).handleAll
        (calls (p.sequencer.act p.readyAnswer request).2) := by
  -- The voices are asked for before the first call, so the bank is primed when it handles them.
  have hprimings := primings_act p.readyAnswer request p.sequencer
  rcases primings_act_cases p.readyAnswer request p.sequencer with hnone | ⟨n, rest, heffects, hrest⟩
  · rw [hnone] at hprimings
    rw [if_neg fun h => absurd hprimings (by simp [h])]
    exact carryOutAll_fst p.voices hnone
  · rw [heffects, primings_notice, primings_prime, hrest] at hprimings
    rw [if_pos (Decidable.byContradiction fun h => absurd hprimings (by simp [h]))]
    show (carryOutAll p.voices (p.sequencer.act p.readyAnswer request).2).1 = _
    rw [heffects]
    exact carryOutAll_fst _ hrest

/-- Whether a bank is primed or not, a request finds its queue and its refusals as they were. -/
theorem voices_act_frame (request : Request τ) (p : Player τ (SampleBank τ σ)) :
    ∃ loaded ready, (p.act request).1.voices =
      ({ p.voices with loaded := loaded, ready := ready } : SampleBank τ σ).handleAll
        (calls (p.sequencer.act p.readyAnswer request).2) := by
  rw [voices_act]
  split
  · obtain ⟨loaded, hprime⟩ := p.voices.prime_fst
    exact ⟨loaded, true, by rw [hprime]⟩
  · exact ⟨p.voices.loaded, p.voices.ready, rfl⟩

/-- Without a refusal, a request to a sequencer that is not idle sends the commands of its calls. -/
theorem voices_act_of_ne_idle (request : Request τ) (p : Player τ (SampleBank τ σ))
    (h : p.sequencer.playback ≠ .idle)
    (hdropped : (p.act request).1.voices.dropped ≤ p.voices.dropped) :
    (p.act request).1.voices = p.voices.queued
      ((calls (p.sequencer.act p.readyAnswer request).2).filterMap p.voices.command?) := by
  have hact := voices_act request p
  rw [if_neg fun hidle => h hidle.1] at hact
  rw [hact] at hdropped ⊢
  exact SampleBank.handleAll_eq hdropped

end Player

end Gamelan

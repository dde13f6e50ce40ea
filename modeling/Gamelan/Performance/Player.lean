import Gamelan.Performance.Sequencer

namespace Gamelan

/-!
# Players

A player is a sequencer with the bank of voices that it drives.  Each effect of the sequencer is
carried out by the bank before the next one.

* `Player` — the pair.
* `Player.act` — a request, with the notices of both in order.
-/

/-- A sequencer and its voices. -/
structure Player (τ β : Type) where
  sequencer : Sequencer τ
  voices : β

/-- A report of the sequencer or of the voices. -/
inductive PlayerNotice (τ ν : Type) where
  | sequencer (n : Notice τ)
  | voices (n : ν)

namespace Player

variable {τ ν β : Type} [VoiceBank τ ν β]

/-- A bank after an effect, and the notices on the way. -/
def carryOut (bank : β) : Effect τ → β × List (PlayerNotice τ ν)
  | .prime =>
    let (bank, notices) := VoiceBank.prime bank
    (bank, notices.map .voices)
  | .call c =>
    let (bank, notices) := VoiceBank.handle bank c
    (bank, notices.map .voices)
  | .notice n => (bank, [.sequencer n])

/-- A bank after some effects, and the notices on the way. -/
def carryOutAll (bank : β) : List (Effect τ) → β × List (PlayerNotice τ ν)
  | [] => (bank, [])
  | effect :: rest =>
    let (bank, notices) := carryOut bank effect
    let (final, more) := carryOutAll bank rest
    (final, notices ++ more)

/-- What the voices answer when a request asks whether they are ready: an idle sequencer primes
them first. -/
def readyAnswer (p : Player τ β) : Bool :=
  if p.sequencer.playback = .idle then VoiceBank.readyOncePrimed p.voices
  else VoiceBank.isReady p.voices

variable [NatCast τ] [Add τ] [Div τ] [BEq τ] [LE τ] [DecidableLE τ] [LT τ] [DecidableLT τ]

/-- A request to a player: the player after it, and the notices on the way. -/
def act (request : Request τ) (p : Player τ β) : Player τ β × List (PlayerNotice τ ν) :=
  let (sequencer, effects) := p.sequencer.act p.readyAnswer request
  let (voices, notices) := carryOutAll p.voices effects
  (⟨sequencer, voices⟩, notices)

end Player

end Gamelan

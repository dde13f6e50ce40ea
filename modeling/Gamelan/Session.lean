import Gamelan.Performance.Player
import Gamelan.Sound.Bank
import Gamelan.Sound.Mixer

namespace Gamelan

/-!
# Sessions

A session is the whole chain: a sequencer drives a sample bank, whose commands a mixer takes from the
queue between them.

* `Session` — the chain.
* `Setup`, `Session.ofSetup` — what it is made of besides the piece, and how it begins.
* `Session.act`, `setVolume`, `render` — what can happen to it.
* `Session.step` — the loop of a program: poll ahead of the clock, then render a block.
-/

/-- A sequencer with its bank, and a mixer. -/
structure Session (τ σ : Type) where
  player : Player τ (SampleBank τ σ)
  mixer : Mixer σ
  rate : Nat

/-- What a session is made of besides the piece. -/
structure Setup (σ : Type) where
  registry : Registry
  rate : Nat
  channels : Nat
  /-- The length of a release, in frames. -/
  fadeFrames : Nat
  /-- The ceiling of the mix. -/
  ceiling : σ
  /-- How many commands can be on their way; `none` is no bound. -/
  capacity : Option Nat
  source : SoundSource (Array σ)

namespace Session

variable {τ σ : Type}

/-- A session before it is asked for anything, with a voice for each atomic instrument. -/
def ofSetup [NatCast τ] [Mul τ] [LT τ] [DecidableLT τ] [FrameRounding τ] [One σ]
    (setup : Setup σ) (timeline : Timeline τ) : Session τ σ where
  player := ⟨.new timeline setup.registry,
    .new setup.registry (frameAt setup.rate) setup.source (.empty setup.capacity)⟩
  mixer := .new setup.registry.atomics.length setup.channels setup.fadeFrames setup.ceiling
  rate := setup.rate

/-- The clock of a session: the start of the next frame. -/
def now [NatCast τ] [Div τ] (s : Session τ σ) : τ :=
  frameTime s.rate s.mixer.frame

/-- Set the volume of the mix. -/
def setVolume (volume : σ) (s : Session τ σ) : Session τ σ × List BankNotice :=
  let (voices, notices) := s.player.voices.setVolume volume
  ({ s with player := { s.player with voices := voices } }, notices)

section
variable [NatCast τ] [Add τ] [Div τ] [BEq τ] [LE τ] [DecidableLE τ] [LT τ] [DecidableLT τ] [Gain σ]

/-- A request to the sequencer. -/
def act (request : Request τ) (s : Session τ σ) :
    Session τ σ × List (PlayerNotice τ BankNotice) :=
  let (player, notices) := s.player.act request
  ({ s with player := player }, notices)

end

section
variable [Zero σ] [One σ] [LT σ] [DecidableLT σ] [Add σ] [Mul σ] [Div σ] [Neg σ] [NatCast σ]

/-- Render a buffer of `length` samples, after the commands on their way. -/
def render (length : Nat) (s : Session τ σ) : List σ × Session τ σ :=
  let voices := s.player.voices
  let (samples, mixer) := s.mixer.process voices.queue.commands length
  (samples,
    { s with
      mixer := mixer
      player := { s.player with voices := { voices with queue := voices.queue.clear } } })

variable [NatCast τ] [Add τ] [Div τ] [BEq τ] [LE τ] [DecidableLE τ] [LT τ] [DecidableLT τ] [Gain σ]

/-- Poll `lookahead` ahead of the clock, then render `block` frames. -/
def step (lookahead : τ) (block : Nat) (s : Session τ σ) :
    List σ × Session τ σ × List (PlayerNotice τ BankNotice) :=
  let (s, notices) := s.act (.poll (s.now + lookahead))
  let (samples, s) := s.render (block * s.mixer.channels)
  (samples, s, notices)

/-- Some steps, with the buffers of each. -/
def steps (lookahead : τ) (block : Nat) (s : Session τ σ) :
    Nat → List (List σ) × Session τ σ × List (PlayerNotice τ BankNotice)
  | 0 => ([], s, [])
  | count + 1 =>
    let (samples, s, notices) := s.step lookahead block
    let (buffers, s, more) := s.steps lookahead block count
    (samples :: buffers, s, notices ++ more)

end

end Session

/-- A session that plays a timeline with `Float` times and short floating-point amplitudes. -/
def Session.new (timeline : Timeline Float) (registry : Registry) (rate channels capacity : Nat)
    (source : SoundSource (Array Float32)) : Session Float Float32 :=
  .ofSetup ⟨registry, rate, channels, Mixer.releaseFrames rate, Limiter.masterCeiling,
    some capacity, source⟩ timeline

end Gamelan

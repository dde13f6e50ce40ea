import Gamelan.Time

namespace Gamelan

/-!
# The transport

A tempo, a switch, and a tick that repeats.  The transport keeps no time itself: it is asked which
tick is due up to some instant, and told when that tick is done.  The next tick follows at the tempo
in effect when the last one was completed.
-/

/-- A repeating tick. -/
structure Tick (τ : Type) where
  /-- How far apart the ticks are. -/
  every : Subdivision
  /-- When the next one is. -/
  next : τ
deriving Repr

/-- A tempo, a switch and possibly a repeating tick. -/
structure Transport (τ : Type) where
  tempo : τ
  started : Bool
  tick? : Option (Tick τ)
deriving Repr

namespace Transport

variable {τ : Type}

/-- A stopped transport without a tick. -/
def ofTempo (tempo : τ) : Transport τ where
  tempo := tempo
  started := false
  tick? := none

def start (t : Transport τ) : Transport τ :=
  { t with started := true }

def stop (t : Transport τ) : Transport τ :=
  { t with started := false }

def setTempo (t : Transport τ) (tempo : τ) : Transport τ :=
  { t with tempo := tempo }

/-- Tick from an instant on, instead of any other tick. -/
def schedule (t : Transport τ) (every : Subdivision) (first : τ) : Transport τ :=
  { t with tick? := some ⟨every, first⟩ }

/-- Tick no more. -/
def cancel (t : Transport τ) : Transport τ :=
  { t with tick? := none }

def isScheduled (t : Transport τ) : Bool :=
  t.tick?.isSome

section
variable [LE τ] [DecidableLE τ]

/-- The time of the next tick if the transport is started and it is due at `until`. -/
def due? (t : Transport τ) (horizon : τ) : Option τ :=
  match t.tick? with
  | some tick => if t.started ∧ tick.next ≤ horizon then some tick.next else none
  | none => none

end

section
variable [NatCast τ] [Add τ] [Div τ]

/-- The tick is done: the next one follows at the present tempo. -/
def completeTick (t : Transport τ) : Transport τ :=
  { t with tick? := t.tick?.map fun tick =>
      { tick with next := tick.next + tick.every.seconds t.tempo } }

/-- The times of the ticks due at an instant, `count` of them at most, and the transport after
them. -/
def drain [LE τ] [DecidableLE τ] (t : Transport τ) (horizon : τ) : Nat → List τ × Transport τ
  | 0 => ([], t)
  | count + 1 =>
    match t.due? horizon with
    | none => ([], t)
    | some time =>
      let (times, final) := t.completeTick.drain horizon count
      (time :: times, final)

end

end Transport

end Gamelan

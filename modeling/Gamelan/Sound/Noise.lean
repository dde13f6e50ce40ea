namespace Gamelan

/-!
# Seeded noise

Noise that is the same for the same seed: the key stream of ChaCha with eight rounds, whose key is
stretched from a seed of 64 bits by a congruential generator with permuted output (PCG).

* `pcgWords` — the words that a seed is stretched to.
* `chachaBlock` — a block of the key stream.
* `noise` — numbers from -1 up to, and without, 1.
-/

namespace Noise

/-! ### The key -/

/-- One step of the generator: its next state. -/
def pcgNext (state : UInt64) : UInt64 :=
  state * 6364136223846793005 + 11634580027462260723

/-- A word turned to the right. -/
def rotateRight (x : UInt32) (n : UInt32) : UInt32 :=
  (x >>> n) ||| (x <<< (32 - n))

/-- The output for a state: the upper bits, mixed and turned by the uppermost. -/
def pcgOutput (state : UInt64) : UInt32 :=
  let mixed := (((state >>> 18) ^^^ state) >>> 27).toUInt32
  let turn := (state >>> 59).toUInt32
  if turn == 0 then mixed else rotateRight mixed turn

/-- Some words stretched from a state. -/
def pcgWords (state : UInt64) : Nat → List UInt32
  | 0 => []
  | count + 1 => pcgOutput (pcgNext state) :: pcgWords (pcgNext state) count

/-! ### The key stream -/

/-- A word turned to the left. -/
def rotateLeft (x : UInt32) (n : UInt32) : UInt32 :=
  (x <<< n) ||| (x >>> (32 - n))

/-- A quarter round on four words of a state. -/
def quarterRound (s : Array UInt32) (a b c d : Nat) : Array UInt32 :=
  let word (i : Nat) := s.getD i 0
  let a₁ := word a + word b
  let d₁ := rotateLeft (word d ^^^ a₁) 16
  let c₁ := word c + d₁
  let b₁ := rotateLeft (word b ^^^ c₁) 12
  let a₂ := a₁ + b₁
  let d₂ := rotateLeft (d₁ ^^^ a₂) 8
  let c₂ := c₁ + d₂
  let b₂ := rotateLeft (b₁ ^^^ c₂) 7
  (((s.setIfInBounds a a₂).setIfInBounds b b₂).setIfInBounds c c₂).setIfInBounds d d₂

/-- A round on the columns and a round on the diagonals. -/
def doubleRound (s : Array UInt32) : Array UInt32 :=
  let s := quarterRound s 0 4 8 12
  let s := quarterRound s 1 5 9 13
  let s := quarterRound s 2 6 10 14
  let s := quarterRound s 3 7 11 15
  let s := quarterRound s 0 5 10 15
  let s := quarterRound s 1 6 11 12
  let s := quarterRound s 2 7 8 13
  quarterRound s 3 4 9 14

/-- The state before the rounds: the constants, the key, the number of the block and no nonce. -/
def chachaState (key : List UInt32) (block : Nat) : Array UInt32 :=
  ([0x61707865, 0x3320646E, 0x79622D32, 0x6B206574] ++ key ++
    [UInt32.ofNat block, UInt32.ofNat (block / Nat.pow 2 32), 0, 0]).toArray

/-- A block of the key stream: sixteen words. -/
def chachaBlock (key : List UInt32) (block : Nat) : List UInt32 :=
  let s := chachaState key block
  let mixed := doubleRound (doubleRound (doubleRound (doubleRound s)))
  List.zipWith (· + ·) mixed.toList s.toList

/-! ### Numbers -/

/-- A number from -1 up to 1: the upper 52 bits of two words, the first of them the lower one. -/
def uniform (low high : UInt32) : Float :=
  let bits := (high.toUInt64 <<< 32) ||| low.toUInt64
  let fraction := Float.ofBits ((bits >>> 12) ||| 0x3FF0000000000000) - 1.0
  fraction * 2.0 + -1.0

/-- Numbers from the words of a key stream, two words each. -/
def uniforms : List UInt32 → List Float
  | low :: high :: rest => uniform low high :: uniforms rest
  | _ => []

end Noise

/-- The first `count` numbers of the noise of a seed. -/
def noise (seed : UInt64) (count : Nat) : List Float :=
  let key := Noise.pcgWords seed 8
  let words := (List.range ((count + 7) / 8)).flatMap (Noise.chachaBlock key)
  (Noise.uniforms words).take count

end Gamelan

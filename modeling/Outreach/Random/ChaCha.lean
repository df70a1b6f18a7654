/-!
# A stream of random words

The words come from the ChaCha block function with twelve rounds. A key of eight words fixes the
stream. Block `n` holds its sixteen words in order, and the block number is counted in 64 bits. A
key is spread out from a 64-bit seed by a linear generator whose outputs are permuted.
-/

namespace Outreach.Random

abbrev Block := Vector UInt32 16

namespace Block

def rotateLeft (x : UInt32) (n : UInt32) : UInt32 :=
  (x <<< n) ||| (x >>> (32 - n))

/-- One addition, exclusive or and rotation: `a` takes up `b`, and `d` is stirred by `a`. -/
def stir (s : Block) (a b d : Fin 16) (n : UInt32) : Block :=
  let s := s.set a (s[a] + s[b])
  s.set d (rotateLeft (s[d] ^^^ s[a]) n)

def quarterRound (s : Block) (a b c d : Fin 16) : Block :=
  let s := s.stir a b d 16
  let s := s.stir c d b 12
  let s := s.stir a b d 8
  s.stir c d b 7

/-- A round on the columns and a round on the diagonals. -/
def doubleRound (s : Block) : Block :=
  let s := s.quarterRound 0 4 8 12
  let s := s.quarterRound 1 5 9 13
  let s := s.quarterRound 2 6 10 14
  let s := s.quarterRound 3 7 11 15
  let s := s.quarterRound 0 5 10 15
  let s := s.quarterRound 1 6 11 12
  let s := s.quarterRound 2 7 8 13
  s.quarterRound 3 4 9 14

def rounds : Nat → Block → Block
  | 0, s => s
  | n + 1, s => rounds n s.doubleRound

end Block

structure Key where
  words : Vector UInt32 8

namespace Key

/-- The input of block `n`: constants, key and block number. -/
def input (k : Key) (n : Nat) : Block :=
  #v[0x61707865, 0x3320646e, 0x79622d32, 0x6b206574,
    k.words[0], k.words[1], k.words[2], k.words[3],
    k.words[4], k.words[5], k.words[6], k.words[7],
    UInt32.ofNat n, UInt32.ofNat (n / Nat.pow 2 32), 0, 0]

def block (k : Key) (n : Nat) : Block :=
  let s := k.input n
  (Block.rounds 6 s).zipWith (· + ·) s

/-- Word `i` of the stream. -/
def word (k : Key) (i : Nat) : UInt32 :=
  (k.block (i / 16))[(⟨i % 16, Nat.mod_lt i (by decide)⟩ : Fin 16)]

end Key

namespace Seed

def step (state : UInt64) : UInt64 :=
  state * 6364136223846793005 + 11634580027462260723

/-- The word that a state gives out. -/
def output (state : UInt64) : UInt32 :=
  let x := (((state >>> 18) ^^^ state) >>> 27).toUInt32
  let r := (state >>> 59).toUInt32
  (x >>> r) ||| (x <<< ((32 - r) % 32))

def outputs : Nat → UInt64 → List UInt32
  | 0, _ => []
  | n + 1, state =>
    let state := step state
    output state :: outputs n state

/-- The key of a seed. -/
def key (seed : UInt64) : Key :=
  let ws := outputs 8 seed
  ⟨Vector.ofFn fun i => ws.getD i 0⟩

end Seed

end Outreach.Random

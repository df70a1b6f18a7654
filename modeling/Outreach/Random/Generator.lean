import Outreach.Decimal.Binary64
import Outreach.Random.ChaCha

/-!
# Draws from a stream of random words

A generator is a place in an infinite stream of words, and each draw moves it on by the words it
uses. A chance compares a drawn number with the probability scaled to 64 bits. A whole number in a
range is drawn by widening multiplication, and a draw is repeated when its low half lies outside the
zone in which all numbers of the range are equally likely.
-/

namespace Outreach

structure Generator where
  stream : Nat → UInt32
  position : Nat

namespace Generator

def seeded (seed : UInt64) : Generator :=
  ⟨(Random.Seed.key seed).word, 0⟩

def word (g : Generator) : UInt32 × Generator :=
  (g.stream g.position, { g with position := g.position + 1 })

/-- A number below `2 ^ 64`, its low half drawn first. -/
def long (g : Generator) : Nat × Generator :=
  ((g.stream g.position).toNat + Nat.pow 2 32 * (g.stream (g.position + 1)).toNat,
    { g with position := g.position + 2 })

/-- How many of the `2 ^ 64` equally likely draws count as a hit. -/
def hits (p : Float) : Nat :=
  match Decimal.dyadic? p with
  | some d => if d.negative then 0 else Decimal.Dyadic.wholePart { d with exponent := d.exponent + 64 }
  | none => 0

/-- True with the given probability. Probabilities from one on need no draw, and what is not a
number never comes true and needs none either. -/
def chance (p : Float) (g : Generator) : Bool × Generator :=
  match Decimal.compare? p 1.0 with
  | none => (false, g)
  | some .lt =>
    let (v, g) := g.long
    (decide (v < hits p), g)
  | some _ => (true, g)

/-- A number below `2 ^ bits` for a width of 32 or 64. -/
def draw (bits : Nat) (g : Generator) : Nat × Generator :=
  if bits ≤ 32 then
    let (w, g) := g.word
    (w.toNat, g)
  else g.long

/-- The largest low half that is accepted for a range. -/
def zone (bits range : Nat) : Nat :=
  range * Nat.pow 2 (bits - 1 - range.log2) - 1

/-- How often a draw from a range is repeated before its lowest number is taken. -/
def maxDraws : Nat := 256

def below (bits range : Nat) : Nat → Generator → Nat × Generator
  | 0, g => (0, g)
  | fuel + 1, g =>
    let (v, g) := g.draw bits
    let m := v * range
    if m % Nat.pow 2 bits ≤ zone bits range then (m / Nat.pow 2 bits, g) else below bits range fuel g

/-- A whole number from `low` on and below `high`. -/
def uniform (bits low high : Nat) (g : Generator) : Nat × Generator :=
  let (n, g) := below bits (high - low) maxDraws g
  (low + n, g)

/-- A float from zero on and below one, in steps of `2 ^ -52`. -/
def unit (g : Generator) : Float × Generator :=
  let (v, g) := g.long
  (Float.ofBits (UInt64.ofNat (1023 * Nat.pow 2 52 + v / Nat.pow 2 12)) - 1.0, g)

def floatBelowFrom (high : Float) : Nat → Generator → Float × Generator
  | 0, g => (0.0, g)
  | fuel + 1, g =>
    let (x, g) := g.unit
    let y := x * high + 0.0
    if Decimal.compare? y high = some .lt then (y, g) else floatBelowFrom high fuel g

/-- A float from zero on and below a bound. -/
def floatBelow (high : Float) (g : Generator) : Float × Generator :=
  floatBelowFrom high maxDraws g

/-- An element of a list. Nothing is drawn from an empty one. -/
def element? {α : Type} (choices : List α) (g : Generator) : Option α × Generator :=
  if choices.isEmpty then (none, g)
  else
    let (i, g) := g.uniform 32 0 choices.length
    (choices[i]?, g)

end Generator

end Outreach

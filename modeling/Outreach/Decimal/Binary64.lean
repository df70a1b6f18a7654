/-!
# The numbers that floats stand for

A finite float is a signed whole number times a power of two. This module reads that number off
the bits, orders floats by it, and goes back from whole numbers to the nearest float. All of it is
arithmetic on natural numbers, so that comparisons and conversions can be reasoned about without
the machine's own operations.
-/

namespace Outreach.Decimal

/-- The magnitude `mantissa · 2 ^ exponent` with a sign. Zero keeps its sign. -/
structure Dyadic where
  negative : Bool
  mantissa : Nat
  exponent : Int
  deriving DecidableEq, Repr

/-- The bits without the sign. Among finite floats it grows with the magnitude. -/
def magnitudeBits (x : Float) : Nat :=
  x.toBits.toNat % Nat.pow 2 63

def signBit (x : Float) : Bool :=
  decide (Nat.pow 2 63 ≤ x.toBits.toNat)

/-- Bits of the first magnitude that is not finite. -/
def infinityBits : Nat :=
  2047 * Nat.pow 2 52

/-- The number a finite float stands for. -/
def dyadic? (x : Float) : Option Dyadic :=
  let m := magnitudeBits x
  if infinityBits ≤ m then none
  else if m < Nat.pow 2 52 then some ⟨signBit x, m, -1074⟩
  else some ⟨signBit x, m % Nat.pow 2 52 + Nat.pow 2 52, ((m / Nat.pow 2 52 : Nat) : Int) - 1075⟩

def isFinite (x : Float) : Bool :=
  decide (magnitudeBits x < infinityBits)

/-- Position of a float in the order of all floats. The two zeros share a position, the infinities
stand at the ends, and what is not a number has none. -/
def rank? (x : Float) : Option Int :=
  let m := magnitudeBits x
  if infinityBits < m then none
  else some (if signBit x then -(m : Int) else m)

/-- How two floats compare, unless one of them is not a number. -/
def compare? (a b : Float) : Option Ordering :=
  match rank? a, rank? b with
  | some i, some j => some (compare i j)
  | _, _ => none

namespace Dyadic

/-- The whole part of the magnitude. -/
def wholePart (d : Dyadic) : Nat :=
  match d.exponent with
  | .ofNat e => d.mantissa * Nat.pow 2 e
  | .negSucc e => d.mantissa / Nat.pow 2 (e + 1)

/-- The magnitude rounded to a whole number, a half going up. -/
def roundedHalfUp (d : Dyadic) : Nat :=
  wholePart ⟨d.negative, 2 * d.mantissa + Nat.pow 2 (1 - d.exponent).toNat / 2, d.exponent - 1⟩

def signed (d : Dyadic) (magnitude : Nat) : Int :=
  if d.negative then -(magnitude : Int) else magnitude

end Dyadic

/-- The whole number next to a finite float on the side of zero. -/
def truncate? (x : Float) : Option Int :=
  (dyadic? x).map fun d => d.signed d.wholePart

/-- The nearest whole number, a half going away from zero. -/
def rounded? (x : Float) : Option Int :=
  (dyadic? x).map fun d => d.signed d.roundedHalfUp

/-- A quotient of naturals rounded to the nearest whole number, a half going to the even one. -/
def divideToEven (n d : Nat) : Nat :=
  let q := n / d
  let r := 2 * (n % d)
  if r < d then q
  else if d < r then q + 1
  else if q % 2 = 0 then q else q + 1

/-- Bits of the float nearest to a natural number below `2 ^ 1023`. -/
def bitsOfNat (n : Nat) : Nat :=
  if n = 0 then 0
  else
    let e := n.log2
    (e + 1022) * Nat.pow 2 52 + divideToEven (n * Nat.pow 2 52) (Nat.pow 2 e)

/-- The float nearest to an integer, a tie going to the even mantissa. -/
def ofInt (z : Int) : Float :=
  Float.ofBits (UInt64.ofNat ((if z < 0 then Nat.pow 2 63 else 0) + bitsOfNat z.natAbs))

end Outreach.Decimal

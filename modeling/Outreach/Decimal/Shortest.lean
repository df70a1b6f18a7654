import Outreach.Decimal.Binary64

/-!
# Shortest decimal of a float

Of the decimals that read back as a given float, the shortest are those with the fewest digits,
and of these the nearest to the float is chosen. The search tries one, two, up to seventeen
digits. A grid with a given number of digits holds a decimal that reads back exactly if one of the
two grid points beside the float does, so only those are tested.
-/

namespace Outreach.Decimal

/-- The number `digits · 10 ^ exponent`. -/
structure Scientific where
  digits : Nat
  exponent : Int
  deriving DecidableEq, Repr

/-- Which of two equally near decimals is taken. -/
inductive Tie
  | up
  | even
  deriving DecidableEq, Repr

/-- A positive float as seen from the decimal grid: the float is `4 · mantissa` units, and what
reads back as it lies between `low` and `high` units, the ends included when `closed` holds. The
unit is `2 ^ scale`. -/
structure Interval where
  value : Nat
  low : Nat
  high : Nat
  closed : Bool
  scale : Int

/-- The interval of reals whose nearest float is the given one. The gap below a power of two is
half the gap above it, save at the smallest one. -/
def Dyadic.interval (d : Dyadic) : Interval where
  value := 4 * d.mantissa
  low :=
    if d.mantissa = Nat.pow 2 52 ∧ d.exponent ≠ -1074 then 4 * d.mantissa - 1
    else 4 * d.mantissa - 2
  high := 4 * d.mantissa + 2
  closed := d.mantissa % 2 == 0
  scale := d.exponent - 2

namespace Interval

/-- Factors that bring `c · 10 ^ p` and `u` units to a common measure. -/
def factors (i : Interval) (p : Int) : Nat × Nat :=
  (Nat.pow 10 p.toNat * Nat.pow 2 (-i.scale).toNat, Nat.pow 10 (-p).toNat * Nat.pow 2 i.scale.toNat)

/-- The decimal `c · 10 ^ p` reads back as the float. -/
def admits (i : Interval) (p : Int) (c : Nat) : Bool :=
  let (a, b) := i.factors p
  if i.closed then decide (i.low * b ≤ c * a) && decide (c * a ≤ i.high * b)
  else decide (i.low * b < c * a) && decide (c * a < i.high * b)

/-- The point of the grid `10 ^ p` that reads back as the float and is nearest to it. -/
def nearest? (i : Interval) (tie : Tie) (p : Int) : Option Scientific :=
  let (a, b) := i.factors p
  let c := i.value * b / a
  match i.admits p c && decide (0 < c), i.admits p (c + 1) with
  | true, true =>
    let below := i.value * b - c * a
    let above := (c + 1) * a - i.value * b
    let takeUpper :=
      if below = above then tie == .up || c % 2 == 1 else decide (above < below)
    some ⟨if takeUpper then c + 1 else c, p⟩
  | true, false => some ⟨c, p⟩
  | false, true => some ⟨c + 1, p⟩
  | false, false => none

/-- The largest `p` in a range with `10 ^ p` not above the float, counting down from `top`. -/
def leadingPlace (i : Interval) (top : Int) : Nat → Int
  | 0 => top
  | fuel + 1 =>
    let (a, b) := i.factors top
    if a ≤ i.value * b then top else leadingPlace i (top - 1) fuel

/-- The first grid, from `p` downwards, with a decimal that reads back. -/
def search (i : Interval) (tie : Tie) (p : Int) : Nat → Option Scientific
  | 0 => none
  | fuel + 1 =>
    match i.nearest? tie p with
    | some s => some s
    | none => search i tie (p - 1) fuel

end Interval

/-- Trailing zeros move from the digits into the exponent. The second argument bounds how many. -/
def Scientific.trimmed (s : Scientific) : Nat → Scientific
  | 0 => s
  | fuel + 1 =>
    if s.digits ≠ 0 ∧ s.digits % 10 = 0 then trimmed ⟨s.digits / 10, s.exponent + 1⟩ fuel else s

/-- A place at or above the leading decimal digit of the magnitude. -/
def Dyadic.placeBound (d : Dyadic) : Int :=
  ((d.mantissa.log2 : Int) + 1 + d.exponent) * 30103 / 100000 + 1

/-- The shortest decimal that reads back as a positive magnitude. -/
def Dyadic.shortest (d : Dyadic) (tie : Tie) : Scientific :=
  let i := d.interval
  let place := i.leadingPlace d.placeBound 3
  ((i.search tie place 18).getD ⟨0, 0⟩).trimmed 20

end Outreach.Decimal

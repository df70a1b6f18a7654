import Outreach.Decimal.Shortest

/-!
# Written form of a float

A layout says how the shortest decimal of a float is set out: which exponents are written in
place, what marks a whole number, and how an exponent is introduced. Two layouts are used. Data
texts write very large and very small numbers with an exponent and mark whole numbers as floats.
Messages write every number in place and add nothing to whole ones.
-/

namespace Outreach.Decimal

structure Layout where
  /-- Exponents of the leading digit from `lowest` on and below `beyond` are written in place. -/
  lowest : Int
  beyond : Int
  /-- Everything is written in place, whatever the exponent. -/
  alwaysPlain : Bool
  wholeMark : String
  positiveExponent : String
  tie : Tie

/-- Floats inside data texts: `0.00001`, `1.5`, `2.0`, `1e+16`, `1e-6`. -/
def Layout.data : Layout := ⟨-5, 16, false, ".0", "e+", .even⟩

/-- Floats inside messages: `0.0000001`, `1.5`, `2`, `10000000000000000`. -/
def Layout.message : Layout := ⟨0, 0, true, "", "e", .up⟩

namespace Layout

def digitsOf (n : Nat) : List Char :=
  (Nat.toDigits 10 n)

def zeros (n : Nat) : List Char :=
  List.replicate n '0'

/-- A number without exponent: the point stands after `place + 1` digits. -/
def plain (l : Layout) (digits : List Char) (place : Int) : List Char :=
  if place < 0 then '0' :: '.' :: zeros (-place - 1).toNat ++ digits
  else
    let whole := place.toNat + 1
    if digits.length ≤ whole then
      digits ++ zeros (whole - digits.length) ++ l.wholeMark.toList
    else digits.take whole ++ '.' :: digits.drop whole

/-- A number with one digit before the point and an exponent behind. -/
def withExponent (l : Layout) (digits : List Char) (place : Int) : List Char :=
  let head :=
    match digits with
    | [] => []
    | [d] => [d]
    | d :: rest => d :: '.' :: rest
  let mark := if place < 0 then "e-" else l.positiveExponent
  head ++ mark.toList ++ digitsOf place.natAbs

/-- The decimal of a magnitude, set out. -/
def magnitude (l : Layout) (s : Scientific) : List Char :=
  let digits := digitsOf s.digits
  let place := s.exponent + (digits.length : Int) - 1
  if s.digits = 0 then l.plain ['0'] 0
  else if l.alwaysPlain || (decide (l.lowest ≤ place) && decide (place < l.beyond)) then
    l.plain digits place
  else l.withExponent digits place

/-- The written form of any float. -/
def write (l : Layout) (x : Float) : String :=
  match dyadic? x with
  | some d =>
    let sign := if d.negative then ['-'] else []
    let s := if d.mantissa = 0 then ⟨0, 0⟩ else d.shortest l.tie
    String.ofList (sign ++ l.magnitude s)
  | none =>
    match rank? x with
    | none => "NaN"
    | some r => if r < 0 then "-inf" else "inf"

end Layout

end Outreach.Decimal

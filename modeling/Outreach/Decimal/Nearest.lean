import Outreach.Decimal.Binary64

/-!
# Floats from decimal texts

A decimal text stands for the float nearest to it, and of two equally near ones for the one with the
even mantissa. A text that lies halfway beyond the largest float, or farther, stands for infinity.
The digits may be split by a point, and an exponent may follow them. The names of infinity and of
what is not a number are read in either case.
-/

namespace Outreach.Decimal

/-- The exponent of two at which a positive fraction has a mantissa of 53 bits, but not below that
of the smallest float. -/
def mantissaExponent (n d : Nat) : Int :=
  let e : Int := (n.log2 : Int) - d.log2
  let below :=
    if e < 0 then decide (n * Nat.pow 2 (-e).toNat < d) else decide (n < d * Nat.pow 2 e.toNat)
  max (-1074) ((if below then e - 1 else e) - 52)

/-- Bits of the float nearest to a fraction. -/
def bitsOfFraction (n d : Nat) : Nat :=
  if n = 0 then 0
  else
    let e := mantissaExponent n d
    let q :=
      if e < 0 then divideToEven (n * Nat.pow 2 (-e).toNat) d
      else divideToEven n (d * Nat.pow 2 e.toNat)
    min infinityBits ((e + 1074).toNat * Nat.pow 2 52 + q)

def withSign (negative : Bool) (bits : Nat) : Float :=
  Float.ofBits (UInt64.ofNat ((if negative then Nat.pow 2 63 else 0) + bits))

/-- Digits at most so many that a float of fitting exponent stays within its range. -/
def digitCount (n : Nat) : Nat :=
  (Nat.toDigits 10 n).length

/-- Bits of the float nearest to `mantissa · 10 ^ exponent`. -/
def bitsOfScaled (mantissa : Nat) (exponent : Int) : Nat :=
  let place := (digitCount mantissa : Int) + exponent
  if mantissa = 0 ∨ place < -400 then 0
  else if 400 < place then infinityBits
  else if exponent < 0 then bitsOfFraction mantissa (Nat.pow 10 (-exponent).toNat)
  else bitsOfFraction (mantissa * Nat.pow 10 exponent.toNat) 1

/-- The sign in front of a number, and the rest of its text. -/
def takeSign : List Char → Bool × List Char
  | '-' :: rest => (true, rest)
  | '+' :: rest => (false, rest)
  | cs => (false, cs)

/-- The number that a text of digits denotes. -/
def nat? (cs : List Char) : Option Nat :=
  if cs.isEmpty || !cs.all Char.isDigit then none
  else some (cs.foldl (fun n c => 10 * n + (c.toNat - '0'.toNat)) 0)

/-- The number that digits with an optional sign denote. -/
def int? (cs : List Char) : Option Int :=
  let (negative, digits) := takeSign cs
  (nat? digits).map fun n => if negative then -(n : Int) else n

/-- The exponent behind a mark. No text at all is the exponent zero. -/
def exponent? : List Char → Option Int
  | [] => some 0
  | 'e' :: cs => int? cs
  | 'E' :: cs => int? cs
  | _ => none

/-- Bits of an unsigned decimal, which has a digit before or after its point. -/
def decimalBits? (cs : List Char) : Option Nat :=
  let whole := cs.takeWhile Char.isDigit
  let rest := cs.dropWhile Char.isDigit
  let (fraction, tail) :=
    match rest with
    | '.' :: after => (after.takeWhile Char.isDigit, after.dropWhile Char.isDigit)
    | _ => ([], rest)
  match nat? (whole ++ fraction), exponent? tail with
  | some mantissa, some exponent =>
    some (bitsOfScaled mantissa (exponent - fraction.length))
  | _, _ => none

def lowerAscii (cs : List Char) : String :=
  String.ofList (cs.map Char.toLower)

/-- The float that a text denotes. -/
def read? (s : String) : Option Float :=
  let (negative, cs) := takeSign s.toList
  match lowerAscii cs with
  | "inf" | "infinity" => some (withSign negative infinityBits)
  | "nan" => some (withSign negative (infinityBits + Nat.pow 2 51))
  | _ => (decimalBits? cs).map (withSign negative)

end Outreach.Decimal
